import StarStats.Server.OwnEvents

/-! # Three cursors

A client reads the events of its user page by page: backwards from the newest with `before_seq`, forwards
from the oldest with `after_seq`, or forwards with the older `after`. The first two give every event once
(`followBack_eq`, `followNext_afterSeq`). The older cursor is no cursor where it is 0, so its first page is
that of the newest events, and there is nothing behind the largest number on it: it is right only where
there is at most one event (`visitsOnce_iff`). -/

namespace StarStats.Server.Queries

open StarStats.Lib.Json StarStats.Lib.Tables StarStats.Lib.Pages
open StarStats.Server.Auth StarStats.Server.Repo StarStats.Server.OwnEvents

/-! ### Statement -/

/-- The rows that a request is about, the oldest first. -/
def matchingAsc (rows : List EventRow) (user : AuthenticatedUser) (p : ListParams) : List EventRow :=
  sortBy (·.seq) (rows.filter (p.filters.keeps user.preferredUsername))

/-- The pages that a client gets that follows `next_after`, until one is empty. -/
def followNext (rows : List EventRow) (user : AuthenticatedUser) (ask : ℤ → ListParams) :
    ℕ → ℤ → List EventDto
  | 0, _ => []
  | fuel + 1, after =>
    match listEvents rows user (ask after) with
    | .error _ => []
    | .ok body =>
      match body.nextAfter with
      | none => []
      | some n => body.events ++ followNext rows user ask fuel n

/-- The request for the page behind an event. -/
def askAfterSeq (p : ListParams) (after : ℤ) : ListParams := { p with afterSeq := some after }

/-- The same with the older name of the field. -/
def askAfter (p : ListParams) (after : ℤ) : ListParams := { p with after := some after }

/-- **Every cursor visits every event once**, backwards or forwards. -/
structure VisitsOnce (rows : List EventRow) (user : AuthenticatedUser) (p : ListParams) (fuel : ℕ) :
    Prop where
  beforeSeq : followBack rows user p fuel none = (matching rows user p).map EventRow.dto
  afterSeq : followNext rows user (askAfterSeq p) fuel 0 = (matchingAsc rows user p).map EventRow.dto
  after : followNext rows user (askAfter p) fuel 0 = (matchingAsc rows user p).map EventRow.dto

/-! ### Forwards -/

/-- The numbers of the rows. -/
def forth (r : EventRow) : ℤ := (r.seq : ℤ)

section Forth
variable {rows : List EventRow} {user : AuthenticatedUser} {p : ListParams}

theorem limit_pos (p : ListParams) : 0 < p.filters.limit := by
  show 0 < max 1 (min p.limit 500)
  omega

theorem pairwise_matchingAsc (h : rows.Pairwise fun a b => a.seq < b.seq) :
    (matchingAsc rows user p).Pairwise fun a b => forth a < forth b := by
  have hsorted : (rows.filter (p.filters.keeps user.preferredUsername)).Pairwise fun a b =>
      a.seq ≤ b.seq := (h.filter _).imp fun hlt => le_of_lt hlt
  unfold matchingAsc
  rw [sortBy_eq_self hsorted]
  refine (h.filter _).imp fun {a b} hlt => ?_
  show (a.seq : ℤ) < b.seq
  exact_mod_cast hlt

theorem perm_matchingAsc : (matchingAsc rows user p).Perm (matching rows user p) :=
  (perm_sortBy _ _).trans (perm_sortBy _ _).symm

theorem length_matchingAsc : (matchingAsc rows user p).length = (matching rows user p).length :=
  perm_matchingAsc.length_eq

theorem length_matching_le : (matching rows user p).length ≤ rows.length := by
  have hperm := (perm_sortBy newest (rows.filter (p.filters.keeps user.preferredUsername))).length_eq
  have hle := List.length_filter_le (p.filters.keeps user.preferredUsername) rows
  unfold matching
  omega

/-- What is asked for behind a number, whichever field it stands in. -/
structure AsksAfter (p q : ListParams) (n : ℤ) : Prop where
  eventType : q.eventType = p.eventType
  single : (q.beforeSeq.isSome && q.afterSeq.isSome) = false
  cursor : q.filters.cursor = some (.after n)
  keeps : q.filters.keeps = p.filters.keeps
  limit : q.filters.limit = p.filters.limit

theorem asksAfterSeq (hp : p.Uncursored) (n : ℤ) : AsksAfter p (askAfterSeq p n) n := by
  refine ⟨rfl, ?_, ?_, rfl, rfl⟩
  · simp [askAfterSeq, hp.beforeSeq]
  · simp [askAfterSeq, ListParams.filters, ListParams.cursor, hp.beforeSeq]

theorem asksAfter (hp : p.Uncursored) {n : ℤ} (hn : 0 < n) : AsksAfter p (askAfter p n) n := by
  refine ⟨rfl, ?_, ?_, rfl, rfl⟩
  · simp [askAfter, hp.beforeSeq]
  · simp [askAfter, ListParams.filters, ListParams.cursor, hp.beforeSeq, hp.afterSeq, hn]

theorem listEvents_after (hp : p.Uncursored) {q : ListParams} {n : ℤ} (hq : AsksAfter p q n) :
    listEvents rows user q =
      .ok ⟨(page forth p.filters.limit (matchingAsc rows user p) (some n)).map EventRow.dto,
        ((page forth p.filters.limit (matchingAsc rows user p) (some n)).map (·.seq)).max?⟩ := by
  have htype : ¬ q.eventType.any (fun t => !isValidEventType t) = true := by
    rw [hq.eventType]
    exact hp.not_any
  have hpage : listFiltered rows user.preferredUsername q.filters =
      page forth p.filters.limit (matchingAsc rows user p) (some n) := by
    unfold listFiltered page matchingAsc
    rw [hq.cursor, hq.keeps, hq.limit]
    simp only
    rw [← filter_sortBy]
    congr 2
  unfold listEvents
  rw [if_neg htype, if_neg (by simp [hq.single]), hpage]

theorem max?_seq {l : List EventRow} (h : l.Pairwise fun a b => forth a < forth b) :
    (l.map (·.seq)).max? = l.getLast?.map (·.seq) := by
  cases hlast : l.getLast? with
  | none =>
    rw [List.getLast?_eq_none_iff.mp hlast]
    rfl
  | some a =>
    obtain ⟨before, rfl⟩ := List.getLast?_eq_some_iff.mp hlast
    refine List.max?_eq_some_iff.mpr ⟨List.mem_map_of_mem (by simp), fun n hn => ?_⟩
    obtain ⟨b, hb, rfl⟩ := List.mem_map.mp hn
    rcases List.mem_append.mp hb with hb | hb
    · have hlt := (List.pairwise_append.mp h).2.2 b hb a (List.mem_singleton_self a)
      change (b.seq : ℤ) < a.seq at hlt
      show b.seq ≤ a.seq
      omega
    · rw [List.mem_singleton.mp hb]

/-- From a cursor on, the pages are those of the rows behind it. -/
theorem followNext_eq_walk (h : rows.Pairwise fun a b => a.seq < b.seq) (hp : p.Uncursored)
    {ask : ℤ → ListParams} (fuel : ℕ) (n : ℤ) (hn : AsksAfter p (ask n) n)
    (hask : ∀ r ∈ rows, AsksAfter p (ask r.seq) r.seq) :
    followNext rows user ask fuel n =
      (walk forth p.filters.limit (matchingAsc rows user p) fuel (some n)).map EventRow.dto := by
  induction fuel generalizing n with
  | zero => rfl
  | succ fuel ih =>
    have hpair : (page forth p.filters.limit (matchingAsc rows user p) (some n)).Pairwise fun a b =>
        forth a < forth b :=
      (pairwise_matchingAsc h).sublist ((List.take_sublist _ _).trans List.filter_sublist)
    unfold followNext walk
    rw [listEvents_after hp hn]
    simp only
    rw [max?_seq hpair]
    cases hlast : (page forth p.filters.limit (matchingAsc rows user p) (some n)).getLast? with
    | none => rfl
    | some a =>
      have hpaged := List.mem_of_mem_take (List.mem_of_getLast? hlast)
      have hsorted := (List.mem_filter.mp hpaged).1
      have hmem : a ∈ rows := (List.mem_filter.mp (mem_sortBy.mp hsorted)).1
      simp only [Option.map_some, List.map_append]
      rw [ih a.seq (hask a hmem)]
      rfl

/-- **The pages forwards are the rows of the request, the oldest first.** -/
theorem followNext_afterSeq (h : rows.Pairwise fun a b => a.seq < b.seq)
    (hpos : ∀ r ∈ rows, 0 < r.seq) (hp : p.Uncursored) {fuel : ℕ} (hfuel : rows.length < fuel) :
    followNext rows user (askAfterSeq p) fuel 0 = (matchingAsc rows user p).map EventRow.dto := by
  have hall : (matchingAsc rows user p).filter (behind forth (some 0)) = matchingAsc rows user p := by
    refine List.filter_eq_self.mpr fun r hr => ?_
    have hmem := hpos r (List.mem_filter.mp (mem_sortBy.mp hr)).1
    simpa [behind, forth] using hmem
  have hlen : ((matchingAsc rows user p).filter (behind forth (some 0))).length < fuel := by
    have hle := @length_matching_le rows user p
    rw [hall, length_matchingAsc]
    omega
  rw [followNext_eq_walk h hp fuel 0 (asksAfterSeq hp 0) fun r _ => asksAfterSeq hp r.seq,
    walk_eq (pairwise_matchingAsc h) (limit_pos p) hlen, hall]

/-! ### The older cursor -/

/-- With `after` 0 the newest events are listed. -/
theorem listEvents_askAfter_zero (hp : p.Uncursored) : listEvents rows user (askAfter p 0) =
    .ok ⟨((matching rows user p).take p.filters.limit).map EventRow.dto,
      (((matching rows user p).take p.filters.limit).map (·.seq)).max?⟩ := by
  have hpage : listFiltered rows user.preferredUsername (askAfter p 0).filters =
      (matching rows user p).take p.filters.limit := by
    have hcursor : (askAfter p 0).filters.cursor = none := by
      simp [askAfter, ListParams.filters, ListParams.cursor, hp.beforeSeq, hp.afterSeq]
    unfold listFiltered
    rw [hcursor]
    rfl
  have htype : ¬ (askAfter p 0).eventType.any (fun t => !isValidEventType t) = true := hp.not_any
  have hsingle : ¬ ((askAfter p 0).beforeSeq.isSome && (askAfter p 0).afterSeq.isSome) = true := by
    simp [askAfter, hp.beforeSeq]
  unfold listEvents
  rw [if_neg htype, if_neg hsingle, hpage]

theorem max?_seq_back {a : EventRow} {l : List EventRow}
    (h : (a :: l).Pairwise fun a b => back a < back b) : ((a :: l).map (·.seq)).max? = some a.seq := by
  refine List.max?_eq_some_iff.mpr ⟨by simp, fun n hn => ?_⟩
  obtain ⟨b, hb, rfl⟩ := List.mem_map.mp hn
  rcases List.mem_cons.mp hb with rfl | hb
  · exact le_refl _
  · have hlt := (List.pairwise_cons.mp h).1 b hb
    change (b.seq : ℤ) < a.seq at hlt
    omega

/-- **The older cursor gives the first page of the newest events, and no more.** -/
theorem followNext_after (h : rows.Pairwise fun a b => a.seq < b.seq) (hpos : ∀ r ∈ rows, 0 < r.seq)
    (hp : p.Uncursored) (fuel : ℕ) : followNext rows user (askAfter p) (fuel + 1) 0 =
      ((matching rows user p).take p.filters.limit).map EventRow.dto := by
  have hpair := @pairwise_matching rows user p h
  unfold followNext
  rw [listEvents_askAfter_zero hp]
  simp only
  cases hfirst : (matching rows user p).take p.filters.limit with
  | nil => rfl
  | cons a l =>
    have hsub : (a :: l).Pairwise fun a b => back a < back b := by
      rw [← hfirst]
      exact hpair.sublist (List.take_sublist _ _)
    obtain ⟨rest, hmatching⟩ : ∃ rest, matching rows user p = a :: rest := by
      cases hrows : matching rows user p with
      | nil => simp [hrows] at hfirst
      | cons b rest =>
        rw [hrows, List.take_cons (limit_pos p)] at hfirst
        exact ⟨rest, by rw [(List.cons.inj hfirst).1]⟩
    have hmem : a ∈ rows := by
      have hsorted : a ∈ matching rows user p := by simp [hmatching]
      exact (List.mem_filter.mp (mem_sortBy.mp hsorted)).1
    -- Behind the newest event is none.
    have hnone : (matchingAsc rows user p).filter (behind forth (some (a.seq : ℤ))) = [] := by
      refine List.filter_eq_nil_iff.mpr fun b hb => ?_
      have hback := perm_matchingAsc.mem_iff.mp hb
      rw [hmatching] at hback hpair
      rcases List.mem_cons.mp hback with rfl | hb
      · simp [behind, forth]
      · have hlt := (List.pairwise_cons.mp hpair).1 b hb
        change (b.seq : ℤ) < a.seq at hlt
        simpa [behind, forth] using by omega
    rw [max?_seq_back hsub]
    simp only
    have hseq : (0 : ℤ) < a.seq := by exact_mod_cast hpos a hmem
    rw [followNext_eq_walk h hp fuel a.seq (asksAfter hp hseq) fun r hr =>
      asksAfter hp (by exact_mod_cast hpos r hr)]
    have hwalk : walk forth p.filters.limit (matchingAsc rows user p) fuel (some (a.seq : ℤ)) = [] := by
      cases fuel with
      | zero => rfl
      | succ fuel =>
        unfold walk page
        rw [hnone]
        simp
    rw [hwalk]
    simp

theorem length_le_one_of_both {l l' : List EventRow} (h : l.Pairwise fun a b => back a < back b)
    (h' : l'.Pairwise fun a b => forth a < forth b)
    (hsame : l.map EventRow.dto = l'.map EventRow.dto) : l.length ≤ 1 := by
  have hseq : l.map (·.seq) = l'.map (·.seq) := by
    have hmap := congrArg (List.map EventDto.seq) hsame
    rwa [List.map_map, List.map_map] at hmap
  have hdown : (l.map (·.seq)).Pairwise fun m n => n < m := by
    refine List.pairwise_map.mpr (h.imp fun {a b} hlt => ?_)
    change (b.seq : ℤ) < a.seq at hlt
    omega
  have hup : (l.map (·.seq)).Pairwise fun m n => m < n := by
    rw [hseq]
    refine List.pairwise_map.mpr (h'.imp fun {a b} hlt => ?_)
    change (a.seq : ℤ) < b.seq at hlt
    omega
  rcases l with _ | ⟨a, _ | ⟨b, rest⟩⟩
  · simp
  · simp
  · have hlt := (List.pairwise_cons.mp hdown).1 b.seq (by simp)
    have hlt' := (List.pairwise_cons.mp hup).1 b.seq (by simp)
    omega

end Forth

section Stores
variable {hiddenAt : ℕ → Option ℤ} {events : Events} {user : AuthenticatedUser} {p : ListParams}
  {fuel : ℕ}

theorem seq_pos_eventRows : ∀ r ∈ eventRows hiddenAt events, 0 < r.seq := by
  intro r hr
  obtain ⟨row, hrow, rfl⟩ := List.mem_map.mp hr
  exact (events.bounded row hrow).1

theorem visitsOnce_iff (hp : p.Uncursored) (hfuel : events.rows.length < fuel) :
    VisitsOnce (eventRows hiddenAt events) user p fuel ↔
      (matching (eventRows hiddenAt events) user p).length ≤ 1 := by
  have hasc := @ascending_eventRows hiddenAt events
  have hpos := @seq_pos_eventRows hiddenAt events
  have hlen : (eventRows hiddenAt events).length < fuel := by
    unfold eventRows
    rwa [List.length_map]
  obtain ⟨k, rfl⟩ : ∃ k, fuel = k + 1 := ⟨fuel - 1, by omega⟩
  have hold := @followNext_after (eventRows hiddenAt events) user p hasc hpos hp k
  have hasc' := @pairwise_matchingAsc (eventRows hiddenAt events) user p hasc
  have hdesc := @pairwise_matching (eventRows hiddenAt events) user p hasc
  constructor
  · intro h
    have hsame := hold.symm.trans h.after
    -- A page as long as all rows together is all of them.
    have hfull : (matching (eventRows hiddenAt events) user p).take p.filters.limit =
        matching (eventRows hiddenAt events) user p := by
      have hlength := congrArg List.length hsame
      rw [List.length_map, List.length_map, length_matchingAsc, List.length_take] at hlength
      exact List.take_of_length_le (by omega)
    rw [hfull] at hsame
    exact length_le_one_of_both hdesc hasc' hsame
  · intro hone
    refine ⟨followBack_eq hasc hp hlen, followNext_afterSeq hasc hpos hp hlen, ?_⟩
    have hlimit := limit_pos p
    rw [hold, List.take_of_length_le (by omega)]
    have hperm := @perm_matchingAsc (eventRows hiddenAt events) user p
    rcases hrows : matching (eventRows hiddenAt events) user p with _ | ⟨a, _ | ⟨b, rest⟩⟩
    · rw [hrows] at hperm
      rw [List.perm_nil.mp hperm]
    · rw [hrows] at hperm
      rw [List.perm_singleton.mp hperm]
    · rw [hrows] at hone
      simp at hone

end Stores

/-! ### Three events of Jim -/

def jimsEvent (key : String) : StoredEvent :=
  ⟨key, "Jim", "login", none, .live, 0, "", .null, none⟩

def jimUser : AuthenticatedUser := ⟨"1", "Jim", .user, none⟩

def twoAPage : ListParams := ⟨none, none, none, none, none, none, 2⟩

/-- A login of Jim's, a death of his, and a login of Kim's. -/
def oneLogin : Events :=
  Table.empty.insertAll [{ jimsEvent "a" with eventType := "actor_death" }, jimsEvent "b",
    { jimsEvent "c" with claimedHandle := "Kim" }]

theorem visitsOnce_oneEvent :
    VisitsOnce (eventRows (fun _ => none) oneLogin) jimUser { twoAPage with eventType := some "login" } 4 :=
  (visitsOnce_iff ⟨rfl, rfl, rfl, by decide +kernel⟩ (by decide +kernel)).mpr (by decide +kernel)

/-- The older cursor does not come to the first event. -/
theorem not_visitsOnce_threeEvents :
    ¬ VisitsOnce (eventRows (fun _ => none)
      (Table.empty.insertAll [jimsEvent "a", jimsEvent "b", jimsEvent "c"])) jimUser twoAPage 4 := by
  intro h
  have hseqs := congrArg (List.map EventDto.seq) h.after
  exact absurd hseqs (by decide +kernel)

end StarStats.Server.Queries
