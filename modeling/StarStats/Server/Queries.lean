import StarStats.Lib.Pages
import StarStats.Server.Auth
import StarStats.Server.Repo

/-! # Reads of the events table

The owner of a handle reads all events stored under it; what others get to see leaves out the rows
that the owner has hidden. A timeline counts the events of a trailing window day by day, and is filled
up with empty days. Instants are counted in microseconds, and a day is written as its number. -/

namespace StarStats.Server.Queries

open StarStats.Lib.Json StarStats.Lib.Tables StarStats.Lib.Pages StarStats.Core.Wire
open StarStats.Server.Auth StarStats.Server.Repo

/-- A row of the events table. -/
structure EventRow where
  seq : ℕ
  event : StoredEvent
  hiddenAt : Option ℤ

/-- The microseconds of a day. -/
def usPerDay : ℤ := 86400000000

/-- The day of an instant. -/
def dayOf (ts : ℤ) : ℤ := ts / usPerDay

/-! ### Pages -/

/-- Where a page starts: backwards from a number, or forwards. -/
inductive SeqCursor where
  | before (n : ℤ)
  | after (n : ℤ)
  deriving DecidableEq

/-- The conditions of the query over events. -/
structure EventFilters where
  cursor : Option SeqCursor
  eventType : Option String
  since : Option ℤ
  until_ : Option ℤ
  limit : ℕ

/-- The condition of a page, but for its cursor. -/
def EventFilters.keeps (f : EventFilters) (handle : String) (r : EventRow) : Bool :=
  r.event.claimedHandle = handle &&
    f.eventType.all (· = r.event.eventType) &&
    f.since.all (fun s => r.event.eventTimestamp.any (s ≤ ·)) &&
    f.until_.all (fun u => r.event.eventTimestamp.any (· ≤ u))

/-- `ORDER BY seq DESC`. -/
def newest (r : EventRow) : ℕᵒᵈ := OrderDual.toDual r.seq

/-- A page of the events stored under a handle. -/
def listFiltered (rows : List EventRow) (handle : String) (f : EventFilters) : List EventRow :=
  let rows := rows.filter (f.keeps handle)
  match f.cursor with
  | some (.before n) => (sortBy newest (rows.filter fun r => r.seq < n)).take f.limit
  | some (.after n) => (sortBy (·.seq) (rows.filter fun r => n < r.seq)).take f.limit
  | none => (sortBy newest rows).take f.limit

/-! ### Counts -/

/-- `GROUP BY event_type ORDER BY COUNT(*) DESC`. -/
def countByType (rows : List EventRow) : List (String × ℕ) :=
  sortBy (fun g => OrderDual.toDual g.2) (groupCount (rows.map (·.event.eventType)))

theorem filter_countByType (p : String → Bool) (rows : List EventRow) :
    ((countByType rows).filter fun g => p g.1) =
      countByType (rows.filter fun r => p r.event.eventType) := by
  unfold countByType
  rw [filter_sortBy, filter_groupCount, List.filter_map]
  rfl

theorem sum_countByType (rows : List EventRow) : ((countByType rows).map (·.2)).sum = rows.length := by
  unfold countByType
  rw [((perm_sortBy _ _).map _).sum_eq, sum_groupCount, List.length_map]

/-- `GROUP BY day ORDER BY day ASC`. -/
def countByDay (rows : List EventRow) : List (ℤ × ℕ) :=
  sortBy (·.1) (groupCount (rows.filterMap fun r => r.event.eventTimestamp.map dayOf))

/-- The events of a handle: how many, and how many of each type. -/
def summaryForHandle (rows : List EventRow) (handle : String) : ℕ × List (String × ℕ) :=
  let rows := rows.filter fun r => r.event.claimedHandle = handle
  (rows.length, countByType rows)

/-- The rows of a handle that others may see. -/
def shared (handle : String) (r : EventRow) : Bool :=
  r.event.claimedHandle = handle && r.hiddenAt.isNone

/-- The same over the rows that others may see. -/
def summaryForHandleShared (rows : List EventRow) (handle : String) : ℕ × List (String × ℕ) :=
  let rows := rows.filter (shared handle)
  (rows.length, countByType rows)

/-- The events of the last days. -/
def within (now : ℤ) (days : ℕ) (r : EventRow) : Bool :=
  r.event.eventTimestamp.any fun ts => now - days * usPerDay ≤ ts

/-- The days of the rows that others may see. -/
def timelineShared (rows : List EventRow) (handle : String) (now : ℤ) (days : ℕ) : List (ℤ × ℕ) :=
  countByDay (rows.filter fun r => shared handle r && within now days r)

/-- The timeline of some event types only. -/
def timelineSharedFiltered (rows : List EventRow) (handle : String) (now : ℤ) (days : ℕ)
    (allow deny : Option (List String)) : List (ℤ × ℕ) :=
  match allow, deny with
  | none, none => timelineShared rows handle now days
  | _, _ =>
    countByDay (rows.filter fun r => shared handle r && within now days r &&
      allow.all (fun types => r.event.eventType ∈ types) &&
      deny.all (fun types => r.event.eventType ∉ types))

/-! ### The events of the caller -/

/-- The longest page. -/
def listLimitMax : ℕ := 500

/-- The shortest one. -/
def listLimitMin : ℕ := 1

/-- The longest event type that a filter may have. -/
def eventTypeMaxLen : ℕ := 64

/-- Lower case, digits and underscores. -/
def isValidEventType (s : String) : Bool :=
  s ≠ "" && s.utf8ByteSize ≤ eventTypeMaxLen &&
    s.toList.all fun c => c.isLower || c.isDigit || c = '_'

/-- The query string of the list. -/
structure ListParams where
  after : Option ℤ
  beforeSeq : Option ℤ
  afterSeq : Option ℤ
  eventType : Option String
  since : Option ℤ
  until_ : Option ℤ
  limit : ℕ

/-- An event as the list shows it. -/
structure EventDto where
  seq : ℕ
  eventType : String
  eventTimestamp : Option ℤ
  logSource : LogSource
  sourceOffset : ℤ
  payload : Value
  hiddenAt : Option ℤ

/-- The columns that the list shows. -/
def EventRow.dto (r : EventRow) : EventDto where
  seq := r.seq
  eventType := r.event.eventType
  eventTimestamp := r.event.eventTimestamp
  logSource := r.event.logSource
  sourceOffset := r.event.sourceOffset
  payload := r.event.payload
  hiddenAt := r.hiddenAt

/-- A page, with the number to go on from. -/
structure EventsListResponse where
  events : List EventDto
  nextAfter : Option ℕ

/-- At most one cursor counts; the old `after` only where it is positive. -/
def ListParams.cursor (p : ListParams) : Option SeqCursor :=
  match p.beforeSeq, p.afterSeq, p.after with
  | some b, _, _ => some (.before b)
  | none, some a, _ => some (.after a)
  | none, none, some a => if 0 < a then some (.after a) else none
  | none, none, none => none

/-- The conditions that a request asks for. -/
def ListParams.filters (p : ListParams) : EventFilters where
  cursor := p.cursor
  eventType := p.eventType
  since := p.since
  until_ := p.until_
  limit := max listLimitMin (min p.limit listLimitMax)

/-- The page of a request, or the code of its refusal. -/
def listEvents (rows : List EventRow) (user : AuthenticatedUser) (p : ListParams) :
    Except String EventsListResponse :=
  if p.eventType.any fun t => !isValidEventType t then .error "invalid_event_type"
  else if p.beforeSeq.isSome && p.afterSeq.isSome then .error "conflicting_cursors"
  else
    let events := listFiltered rows user.preferredUsername p.filters
    .ok ⟨events.map EventRow.dto, (events.map (·.seq)).max?⟩

/-- What the summary answers. -/
structure SummaryResponse where
  claimedHandle : String
  total : ℕ
  byType : List (String × ℕ)

/-- The summary of one's own events. -/
def summary (rows : List EventRow) (user : AuthenticatedUser) : SummaryResponse :=
  let (total, byType) := summaryForHandle rows user.preferredUsername
  ⟨user.preferredUsername, total, byType⟩

/-- The pages that a client gets that follows `before_seq`, the smallest number of each page, until one
is empty. -/
def followBack (rows : List EventRow) (user : AuthenticatedUser) (p : ListParams) :
    ℕ → Option ℤ → List EventDto
  | 0, _ => []
  | fuel + 1, before =>
    match listEvents rows user { p with beforeSeq := before } with
    | .error _ => []
    | .ok body =>
      match (body.events.map (·.seq)).min? with
      | none => []
      | some n => body.events ++ followBack rows user p fuel (some n)

section Back
variable {rows : List EventRow} {user : AuthenticatedUser} {p : ListParams}

/-- Nothing but a limit is asked for. -/
structure ListParams.Unfiltered (p : ListParams) : Prop where
  after : p.after = none
  beforeSeq : p.beforeSeq = none
  afterSeq : p.afterSeq = none
  eventType : p.eventType = none
  since : p.since = none
  until_ : p.until_ = none

/-- A request that is not refused, and has no cursor yet. -/
structure ListParams.Uncursored (p : ListParams) : Prop where
  after : p.after = none
  beforeSeq : p.beforeSeq = none
  afterSeq : p.afterSeq = none
  valid : ∀ t ∈ p.eventType, isValidEventType t = true

theorem ListParams.Unfiltered.uncursored (h : p.Unfiltered) : p.Uncursored :=
  ⟨h.after, h.beforeSeq, h.afterSeq, fun t ht => by rw [h.eventType] at ht; cases ht⟩

theorem ListParams.Uncursored.not_any (h : p.Uncursored) :
    ¬ p.eventType.any (fun t => !isValidEventType t) = true := by
  cases htype : p.eventType with
  | none => simp
  | some t => simp [h.valid t htype]

/-- The numbers of the rows, the largest first. -/
def back (r : EventRow) : ℤᵒᵈ := OrderDual.toDual (r.seq : ℤ)

/-- The rows that a request is about, the newest first. -/
def matching (rows : List EventRow) (user : AuthenticatedUser) (p : ListParams) : List EventRow :=
  sortBy newest (rows.filter (p.filters.keeps user.preferredUsername))

theorem pairwise_matching (h : rows.Pairwise fun a b => a.seq < b.seq) :
    (matching rows user p).Pairwise fun a b => back a < back b := by
  have hnodup : (rows.filter (p.filters.keeps user.preferredUsername)).Pairwise fun a b =>
      a.seq ≠ b.seq := (h.filter _).imp fun hlt => Nat.ne_of_lt hlt
  have hne := ((perm_sortBy newest _).pairwise_iff (R := fun a b : EventRow => a.seq ≠ b.seq)
    fun hab => Ne.symm hab).mpr hnodup
  refine ((pairwise_sortBy newest _).and hne).imp fun {a b} hab => ?_
  have hle : b.seq ≤ a.seq := hab.1
  have hlt : b.seq < a.seq := Nat.lt_of_le_of_ne hle (Ne.symm hab.2)
  change (b.seq : ℤ) < a.seq
  exact_mod_cast hlt

/-- A page is one of the rows behind its cursor. -/
theorem listFiltered_before (hafter : p.afterSeq = none ∧ p.after = none) (before : Option ℤ) :
    listFiltered rows user.preferredUsername { p with beforeSeq := before }.filters =
      page back p.filters.limit (matching rows user p) (before.map OrderDual.toDual) := by
  obtain ⟨hseq, hold⟩ := hafter
  unfold listFiltered page matching
  cases before with
  | none =>
    have hcursor : ({ p with beforeSeq := none } : ListParams).filters.cursor = none := by
      simp [ListParams.filters, ListParams.cursor, hseq, hold]
    have hall : (sortBy newest (rows.filter (p.filters.keeps user.preferredUsername))).filter
        (behind back none) = sortBy newest (rows.filter (p.filters.keeps user.preferredUsername)) :=
      List.filter_eq_self.mpr fun _ _ => rfl
    rw [hcursor, Option.map_none, hall]
    rfl
  | some n =>
    change (sortBy newest ((rows.filter (p.filters.keeps user.preferredUsername)).filter
      fun r => r.seq < n)).take p.filters.limit = _
    rw [← filter_sortBy]
    congr 2

theorem listEvents_before (hp : p.Uncursored) (before : Option ℤ) :
    ∃ next, listEvents rows user { p with beforeSeq := before } =
      .ok ⟨(page back p.filters.limit (matching rows user p)
        (before.map OrderDual.toDual)).map EventRow.dto, next⟩ := by
  have htype : ¬ ({ p with beforeSeq := before } : ListParams).eventType.any
      (fun t => !isValidEventType t) = true := hp.not_any
  have hcursors : ¬ (({ p with beforeSeq := before } : ListParams).beforeSeq.isSome &&
      ({ p with beforeSeq := before } : ListParams).afterSeq.isSome) = true := by simp [hp.afterSeq]
  unfold listEvents
  rw [if_neg htype, if_neg hcursors, listFiltered_before ⟨hp.afterSeq, hp.after⟩]
  exact ⟨_, rfl⟩

theorem min?_seq {l : List EventRow} (h : l.Pairwise fun a b => back a < back b) :
    (l.map fun r => (r.seq : ℤ)).min? = l.getLast?.map fun r => (r.seq : ℤ) := by
  cases hlast : l.getLast? with
  | none =>
    rw [List.getLast?_eq_none_iff.mp hlast]
    rfl
  | some a =>
    obtain ⟨before, rfl⟩ := List.getLast?_eq_some_iff.mp hlast
    refine List.min?_eq_some_iff.mpr ⟨List.mem_map_of_mem (by simp), fun n hn => ?_⟩
    obtain ⟨b, hb, rfl⟩ := List.mem_map.mp hn
    rcases List.mem_append.mp hb with hb | hb
    · have hlt := (List.pairwise_append.mp h).2.2 b hb a (List.mem_singleton_self a)
      change (a.seq : ℤ) < b.seq at hlt
      show (a.seq : ℤ) ≤ b.seq
      omega
    · rw [List.mem_singleton.mp hb]

/-- **The pages backwards are the rows of the request, the newest first.** -/
theorem followBack_eq (h : rows.Pairwise fun a b => a.seq < b.seq) (hp : p.Uncursored) {fuel : ℕ}
    (hfuel : rows.length < fuel) :
    followBack rows user p fuel none = (matching rows user p).map EventRow.dto := by
  have hpair := @pairwise_matching rows user p h
  have hlimit : 0 < p.filters.limit := by
    show 0 < max 1 (min p.limit 500)
    omega
  have hwalk : ∀ fuel before, followBack rows user p fuel before =
      (walk back p.filters.limit (matching rows user p) fuel
        (before.map OrderDual.toDual)).map EventRow.dto := by
    intro fuel
    induction fuel with
    | zero => exact fun _ => rfl
    | succ fuel ih =>
      intro before
      obtain ⟨next, hlist⟩ := @listEvents_before rows user p hp before
      have hsub : (page back p.filters.limit (matching rows user p)
          (before.map OrderDual.toDual)).Pairwise fun a b => back a < back b :=
        hpair.sublist ((List.take_sublist _ _).trans List.filter_sublist)
      unfold followBack walk
      rw [hlist]
      simp only [List.map_map]
      rw [show ((fun d : EventDto => (d.seq : ℤ)) ∘ EventRow.dto) = fun r => (r.seq : ℤ) from rfl,
        min?_seq hsub]
      cases (page back p.filters.limit (matching rows user p)
          (before.map OrderDual.toDual)).getLast? with
      | none => rfl
      | some a =>
        simp only [Option.map_some, List.map_append]
        rw [ih]
        rfl
  have hnone : (matching rows user p).filter (behind back none) = matching rows user p :=
    List.filter_eq_self.mpr fun _ _ => rfl
  have hlen : ((matching rows user p).filter (behind back none)).length < fuel := by
    rw [hnone]
    have hperm := (perm_sortBy newest (rows.filter (p.filters.keeps user.preferredUsername))).length_eq
    have hle := List.length_filter_le (p.filters.keeps user.preferredUsername) rows
    unfold matching
    omega
  rw [hwalk, Option.map_none, walk_eq hpair hlimit hlen, hnone]

end Back

/-! ### Windows -/

/-- The longest timeline. -/
def timelineDaysMax : ℕ := 366

/-- The timeline of a request that names no days. -/
def timelineDaysDefault : ℕ := 30

/-- The window of a request; `none` is a refusal. -/
def resolveTimelineDays (days : Option ℕ) : Option ℕ :=
  let d := days.getD timelineDaysDefault
  if d = 0 ∨ timelineDaysMax < d then none else some d

/-- One bucket for each of the last days, today included. -/
def buildTimelineBuckets (rows : List (ℤ × ℕ)) (now : ℤ) (days : ℕ) : List (ℤ × ℕ) :=
  let start := dayOf now - (days - 1)
  (List.range days).map fun (i : ℕ) => (start + i, (rows.lookup (start + i)).getD 0)

end StarStats.Server.Queries
