import Mathlib.Algebra.BigOperators.Group.List.Basic
import Mathlib.Algebra.GroupWithZero.Nat
import Mathlib.Data.List.Dedup
import Mathlib.Data.List.SplitBy
import Mathlib.Order.Lattice

/-! # Islands

A list in order falls into islands, the longest pieces in which each element is near to the one before.
A walk that keeps a summary of the last island finds them (`walk_eq`); and so does a query that marks the
elements with a gap before them, sums the marks of all elements up to each, and groups by that sum
(`groupBy_label`). The sum goes over the elements equal to its own as well, on either side of it. -/

namespace StarStats.Lib.Islands

variable {α β κ : Type} {near : α → α → Bool}

/-! ### One more element -/

theorem splitBy_concat_of_near {l : List α} {before : List (List α)} {b : List α} {a : α}
    (h : l.splitBy near = before ++ [b]) (hnear : ∀ p ∈ b.getLast?, near p a = true) :
    (l ++ [a]).splitBy near = before ++ [b ++ [a]] := by
  obtain ⟨hl, hnil, hchain, hapart⟩ := List.splitBy_eq_iff.mp h
  have hb : b ≠ [] := fun hb => hnil (by simp [hb])
  refine List.splitBy_eq_iff.mpr ⟨?_, ?_, ?_, ?_⟩
  · rw [hl]
    simp
  · simp only [List.mem_append, List.mem_singleton, not_or] at hnil ⊢
    exact ⟨hnil.1, by simp⟩
  · intro c hc
    rcases List.mem_append.mp hc with hc | hc
    · exact hchain c (List.mem_append_left _ hc)
    · rw [List.mem_singleton.mp hc]
      refine List.isChain_append.mpr ⟨hchain b (by simp), List.isChain_singleton _, ?_⟩
      intro p hp q hq
      obtain rfl : a = q := by simpa using hq
      exact hnear p hp
  · obtain ⟨hbefore, -, hlast⟩ := List.isChain_append.mp hapart
    refine List.isChain_append.mpr ⟨hbefore, List.isChain_singleton _, ?_⟩
    intro c hc d hd
    obtain rfl : b ++ [a] = d := by simpa using hd
    obtain ⟨hc', hb', hfar⟩ := hlast c hc b (by simp)
    exact ⟨hc', by simp, by rw [List.head_append_of_ne_nil hb]; exact hfar⟩

theorem splitBy_concat_of_far {l : List α} {a : α} (hfar : ∀ p ∈ l.getLast?, near p a = false) :
    (l ++ [a]).splitBy near = l.splitBy near ++ [[a]] := List.splitBy_append_cons [] hfar

theorem getLast?_of_splitBy {l : List α} {before : List (List α)} {b : List α}
    (h : l.splitBy near = before ++ [b]) : l.getLast? = b.getLast? := by
  obtain ⟨hl, hnil, -, -⟩ := List.splitBy_eq_iff.mp h
  have hb : b ≠ [] := fun hb => hnil (by simp [hb])
  rw [hl, List.flatten_append, List.flatten_singleton, List.getLast?_append_of_ne_nil _ hb]

/-- An element joins the last island, or begins one. -/
theorem splitBy_concat (l : List α) (a : α) :
    (∃ before b p, l.splitBy near = before ++ [b] ∧ b.getLast? = some p ∧ l.getLast? = some p ∧
        near p a = true ∧ (l ++ [a]).splitBy near = before ++ [b ++ [a]]) ∨
      ((∀ p ∈ l.getLast?, near p a = false) ∧ (l ++ [a]).splitBy near = l.splitBy near ++ [[a]]) := by
  rcases List.eq_nil_or_concat' (l.splitBy near) with hempty | ⟨before, b, hsplit⟩
  · rw [List.splitBy_eq_nil] at hempty
    subst hempty
    exact Or.inr ⟨by simp, rfl⟩
  · have hlast := getLast?_of_splitBy hsplit
    obtain ⟨-, hnil, -, -⟩ := List.splitBy_eq_iff.mp hsplit
    cases hp : b.getLast? with
    | none =>
      rw [List.getLast?_eq_none_iff] at hp
      exact absurd (by simp [hp]) hnil
    | some p =>
      rw [hp] at hlast
      by_cases hnear : near p a = true
      · refine Or.inl ⟨before, b, p, hsplit, hp, hlast, hnear, splitBy_concat_of_near hsplit ?_⟩
        rw [hp]
        simpa using hnear
      · have hfar : ∀ q ∈ l.getLast?, near q a = false := by
          rw [hlast]
          simpa using hnear
        exact Or.inr ⟨hfar, splitBy_concat_of_far hfar⟩

/-! ### The walk -/

section Walk
variable (joins : β → α → Bool) (extend : β → α → β) (start : α → β)

/-- The last summary is extended, or a new one begins. -/
def push (summaries : List β) (a : α) : List β :=
  match summaries.getLast? with
  | none => [start a]
  | some b => if joins b a then summaries.dropLast ++ [extend b a] else summaries ++ [start a]

/-- The islands of a list, each as its summary. -/
def walk (l : List α) : List β := l.foldl (push joins extend start) []

variable {joins extend start} {summary : List α → β}

/-- **The walk summarises the islands**, where a summary tells what is near to its last element. -/
theorem walk_eq (hstart : ∀ a, start a = summary [a]) (hextend : ∀ b a, b ≠ [] →
      extend (summary b) a = summary (b ++ [a]))
    (hjoins : ∀ b p a, b.getLast? = some p → joins (summary b) a = near p a) (l : List α) :
    walk joins extend start l = (l.splitBy near).map summary := by
  induction l using List.reverseRecOn with
  | nil => rfl
  | append_singleton l a ih =>
    unfold walk at ih ⊢
    rw [List.foldl_append, ih, List.foldl_cons, List.foldl_nil]
    unfold push
    rcases splitBy_concat l a with ⟨before, b, p, hsplit, hp, -, hnear, hafter⟩ | ⟨hfar, hafter⟩
    · have hb : b ≠ [] := by
        rintro rfl
        cases hp
      rw [hafter, hsplit, List.map_append, List.map_singleton, List.getLast?_concat]
      simp only
      rw [hjoins b p a hp, if_pos hnear, List.dropLast_concat, hextend b a hb, List.map_append,
        List.map_singleton]
    · rw [hafter, List.map_append, List.map_singleton, ← hstart]
      rcases List.eq_nil_or_concat' (l.splitBy near) with hempty | ⟨before, b, hsplit⟩
      · rw [hempty]
        rfl
      · have hlast := getLast?_of_splitBy hsplit
        rw [hsplit, List.map_append, List.map_singleton, List.getLast?_concat]
        simp only
        obtain ⟨-, hnil, -, -⟩ := List.splitBy_eq_iff.mp hsplit
        cases hp : b.getLast? with
        | none =>
          rw [List.getLast?_eq_none_iff] at hp
          exact absurd (by simp [hp]) hnil
        | some p =>
          rw [hjoins b p a hp, hfar p (by rw [hlast, hp]; rfl)]
          simp

end Walk

/-! ### Stays -/

section Stays
variable [DecidableEq α] {l : List α} {a : α}

/-- The values one after the other, without the repetitions of each. -/
def stays (l : List α) : List α := walk (fun b a => decide (b = a)) (fun b _ => b) id l

theorem stays_concat (l : List α) (a : α) : stays (l ++ [a]) =
    if (stays l).getLast? = some a then stays l else stays l ++ [a] := by
  unfold stays walk
  rw [List.foldl_append, List.foldl_cons, List.foldl_nil]
  generalize l.foldl (push (fun b a => decide (b = a)) (fun b _ => b) id) [] = s
  unfold push
  rcases List.eq_nil_or_concat' s with rfl | ⟨before, b, rfl⟩
  · rfl
  · rw [List.getLast?_concat]
    by_cases h : b = a
    · simp [h]
    · simp [h]

theorem getLast?_stays (l : List α) : (stays l).getLast? = l.getLast? := by
  induction l using List.reverseRecOn with
  | nil => rfl
  | append_singleton l a _ =>
    rw [stays_concat, List.getLast?_concat]
    split_ifs with h
    · exact h
    · exact List.getLast?_concat ..

theorem mem_stays : a ∈ stays l ↔ a ∈ l := by
  induction l using List.reverseRecOn with
  | nil => exact Iff.rfl
  | append_singleton l b ih =>
    rw [stays_concat, List.mem_append, List.mem_singleton]
    split_ifs with h
    · refine ⟨fun ha => Or.inl (ih.mp ha), fun ha => ?_⟩
      rcases ha with ha | rfl
      · exact ih.mpr ha
      · exact List.mem_of_getLast? h
    · rw [List.mem_append, List.mem_singleton, ih]

/-- A walk that goes by a value of its elements makes one summary a stay. -/
theorem map_walk {γ : Type} {joins : β → γ → Bool} {extend : β → γ → β} {start : γ → β} {f : γ → α}
    {g : β → α} (hjoins : ∀ b c, joins b c = decide (g b = f c)) (hextend : ∀ b c, g (extend b c) = g b)
    (hstart : ∀ c, g (start c) = f c) (l : List γ) :
    (walk joins extend start l).map g = stays (l.map f) := by
  induction l using List.reverseRecOn with
  | nil => rfl
  | append_singleton l c ih =>
    rw [List.map_append, List.map_singleton, stays_concat, ← ih]
    unfold walk
    rw [List.foldl_append, List.foldl_cons, List.foldl_nil]
    generalize l.foldl (push joins extend start) [] = s
    unfold push
    rcases List.eq_nil_or_concat' s with rfl | ⟨before, b, rfl⟩
    · simp [hstart]
    · rw [List.getLast?_concat, List.map_append, List.map_singleton, List.getLast?_concat]
      simp only [hjoins, decide_eq_true_eq, Option.some.injEq, List.dropLast_concat]
      split_ifs
      · rw [List.map_append, List.map_singleton, hextend]
      · rw [List.map_append, List.map_append, List.map_singleton, List.map_singleton, hstart]

end Stays

/-! ### The query -/

/-- `LAG(a) OVER (ORDER BY a)`: each element with the one before it. -/
def lag (l : List α) : List (α × Option α) := l.zip (none :: l.map some)

/-- There is a gap before the element. -/
def boundary (near : α → α → Bool) (r : α × Option α) : Bool := r.2.all fun p => !near p r.1

theorem zip_concat (l : List α) (a : α) (prev : Option α) :
    (l ++ [a]).zip (prev :: (l ++ [a]).map some) =
      l.zip (prev :: l.map some) ++ [(a, l.getLast?.or prev)] := by
  induction l generalizing prev with
  | nil => rfl
  | cons b l ih =>
    have hlast : (b :: l).getLast?.or prev = l.getLast?.or (some b) := by
      rw [List.getLast?_cons]
      cases l.getLast? <;> rfl
    rw [List.cons_append, List.map_cons, List.zip_cons_cons, ih, List.map_cons, List.zip_cons_cons,
      List.cons_append, hlast]

theorem lag_concat (l : List α) (a : α) : lag (l ++ [a]) = lag l ++ [(a, l.getLast?)] := by
  unfold lag
  rw [zip_concat, Option.or_none]

theorem filterMap_lag (l : List α) : (lag l).filterMap (·.2) ++ l.getLast?.toList = l := by
  induction l using List.reverseRecOn with
  | nil => rfl
  | append_singleton l a ih =>
    have hprev : [(a, l.getLast?)].filterMap (·.2) = l.getLast?.toList := by
      cases l.getLast? <;> rfl
    rw [lag_concat, List.filterMap_append, hprev, ih, List.getLast?_concat]
    rfl

/-- A value occurs once in each of its stays, and then as often as it is repeated. -/
theorem countP_eq_stays_add [DecidableEq α] (l : List α) (a : α) : l.countP (· = a) =
    (stays l).countP (· = a) + (lag l).countP (fun r => r.1 = a ∧ r.2 = some a) := by
  induction l using List.reverseRecOn with
  | nil => rfl
  | append_singleton l b ih =>
    rw [List.countP_append, ih, stays_concat, getLast?_stays, lag_concat, List.countP_append]
    by_cases hb : b = a
    case neg => split_ifs <;> simp [hb]
    subst hb
    split_ifs with h
    · simp [h]
      omega
    · simp [h]
      omega

/-- The elements with a gap before them are the first of the islands. -/
theorem firsts_eq (l : List α) : ((lag l).filter (boundary near)).map (·.1) =
    (l.splitBy near).filterMap List.head? := by
  induction l using List.reverseRecOn with
  | nil => rfl
  | append_singleton l a ih =>
    rw [lag_concat, List.filter_append, List.map_append, ih]
    rcases @splitBy_concat _ near l a with ⟨before, b, p, hsplit, hp, hlast, hnear, hafter⟩ | ⟨hfar, hafter⟩
    · have hno : boundary near (a, l.getLast?) = false := by
        rw [hlast]
        simp [boundary, hnear]
      have hb : b ≠ [] := by
        rintro rfl
        cases hp
      have hhead : (b ++ [a]).head? = b.head? := List.head?_append_of_ne_nil _ hb
      rw [hafter, hsplit, List.filter_cons_of_neg (by simp [hno]), List.filter_nil, List.map_nil,
        List.append_nil, List.filterMap_append, List.filterMap_append]
      simp only [List.filterMap_cons, List.filterMap_nil, hhead]
    · have hyes : boundary near (a, l.getLast?) = true := by
        unfold boundary
        cases hlast : l.getLast? with
        | none => rfl
        | some p => simp [hfar p hlast]
      rw [hafter, List.filter_cons_of_pos hyes, List.filterMap_append]
      rfl

/-- Islands that are before one another are not near, where nearness is inherited by what is between. -/
theorem pairwise_apart [LinearOrder α]
    (hnear : ∀ {s s' t' t : α}, s ≤ s' → s' ≤ t' → t' ≤ t → near s t = true → near s' t' = true) :
    ∀ {m : List (List α)}, m.flatten.Pairwise (· ≤ ·) → [] ∉ m →
      m.IsChain (fun b c => ∃ hb hc, near (b.getLast hb) (c.head hc) = false) →
      m.Pairwise fun b c => ∀ s ∈ b, ∀ t ∈ c, near s t = false
  | [], _, _, _ => List.Pairwise.nil
  | b :: m, hsorted, hnil, hchain => by
    rw [List.flatten_cons] at hsorted
    obtain ⟨hb, hm, hbm⟩ := List.pairwise_append.mp hsorted
    have ih := pairwise_apart hnear hm (fun hmem => hnil (List.mem_cons_of_mem _ hmem)) hchain.tail
    refine List.pairwise_cons.mpr ⟨fun c hc s hs t ht => ?_, ih⟩
    obtain ⟨d, m', rfl⟩ := List.exists_cons_of_ne_nil (List.ne_nil_of_mem hc)
    obtain ⟨hb', hd', hfar⟩ := (List.isChain_cons_cons.mp hchain).1
    -- The gap between the two islands is between the elements too.
    have hs : s ≤ b.getLast hb' := by
      rw [← List.dropLast_append_getLast hb'] at hs hb
      rcases List.mem_append.mp hs with hs | hs
      · exact (List.pairwise_append.mp hb).2.2 s hs _ (by simp)
      · rw [List.mem_singleton.mp hs]
    have hmiddle : b.getLast hb' ≤ d.head hd' :=
      hbm _ (List.getLast_mem hb') _ (by simp)
    have ht : d.head hd' ≤ t := by
      rcases List.mem_cons.mp hc with rfl | hc
      · obtain ⟨a, c', rfl⟩ := List.exists_cons_of_ne_nil hd'
        rcases List.mem_cons.mp ht with rfl | ht
        · exact le_rfl
        · rw [List.flatten_cons, List.cons_append] at hm
          exact (List.pairwise_cons.mp hm).1 t (List.mem_append_left _ ht)
      · rw [List.flatten_cons] at hm
        exact (List.pairwise_append.mp hm).2.2 _ (List.head_mem hd') t (List.mem_flatten.mpr ⟨c, hc, ht⟩)
    by_contra hst
    rw [hnear hs hmiddle ht (Bool.of_not_eq_false hst)] at hfar
    cases hfar

/-- The islands of a list in order are apart from one another. -/
theorem pairwise_splitBy [LinearOrder α]
    (hnear : ∀ {s s' t' t : α}, s ≤ s' → s' ≤ t' → t' ≤ t → near s t = true → near s' t' = true)
    {l : List α} (hl : l.Pairwise (· ≤ ·)) :
    (l.splitBy near).Pairwise fun b c => ∀ s ∈ b, ∀ t ∈ c, near s t = false :=
  pairwise_apart hnear (by rwa [List.flatten_splitBy]) (List.nil_notMem_splitBy near l)
    (List.isChain_getLast_head_splitBy near l)

/-- The sum of the marks of all elements up to this one and equal to it. -/
def label [LE α] [DecidableLE α] (near : α → α → Bool) (l : List α) (a : α) : ℕ :=
  (((lag l).filter (·.1 ≤ a)).map fun r => if boundary near r then 1 else 0).sum

theorem label_eq_countP [LinearOrder α] (l : List α) (a : α) :
    label near l a = ((l.splitBy near).filterMap List.head?).countP (· ≤ a) := by
  have hsum : ∀ rows : List (α × Option α),
      ((rows.filter (·.1 ≤ a)).map fun r => if boundary near r then 1 else 0).sum =
        ((rows.filter (boundary near)).map (·.1)).countP (· ≤ a) := by
    intro rows
    induction rows with
    | nil => rfl
    | cons r rows ih =>
      by_cases hle : r.1 ≤ a <;> cases hr : boundary near r <;>
        simp [hle, hr, ih, Nat.add_comm]
  unfold label
  rw [hsum, firsts_eq]

section Labels
variable [LinearOrder α]
  (hnear : ∀ {s s' t' t : α}, s ≤ s' → s' ≤ t' → t' ≤ t → near s t = true → near s' t' = true)
  (hself : ∀ a, near a a = true) {l : List α} (hl : l.Pairwise (· ≤ ·))

include hnear hself hl

theorem label_of_split {before after : List (List α)} {b : List α}
    (h : l.splitBy near = before ++ b :: after) {a : α} (ha : a ∈ b) :
    label near l a = before.length + 1 := by
  have hapart := pairwise_splitBy hnear hl
  have hsorted : (l.splitBy near).flatten.Pairwise (· ≤ ·) := by rwa [List.flatten_splitBy]
  have hnil := List.nil_notMem_splitBy near l
  rw [label_eq_countP]
  rw [h] at hapart hsorted hnil ⊢
  rw [List.flatten_append, List.flatten_cons] at hsorted
  obtain ⟨-, htail, hbefore⟩ := List.pairwise_append.mp hsorted
  obtain ⟨hb, -, hafter⟩ := List.pairwise_append.mp htail
  have hall : ∀ {m : List (List α)}, [] ∉ m → (∀ c ∈ m, ∀ s ∈ c, s ≤ a) →
      (m.filterMap List.head?).countP (· ≤ a) = m.length := by
    intro m hm hle
    induction m with
    | nil => rfl
    | cons c m ih =>
      obtain ⟨s, c', rfl⟩ := List.exists_cons_of_ne_nil fun hc => hm (hc ▸ List.mem_cons_self ..)
      rw [List.filterMap_cons, List.head?_cons]
      simp only
      rw [List.countP_cons_of_pos (by simpa using hle _ (List.mem_cons_self ..) s (by simp)),
        ih (fun hmem => hm (List.mem_cons_of_mem _ hmem)) fun c hc => hle c (List.mem_cons_of_mem _ hc),
        List.length_cons]
  have hfirsts : (before.filterMap List.head?).countP (· ≤ a) = before.length := by
    refine hall (fun hmem => hnil (List.mem_append_left _ hmem)) fun c hc s hs => ?_
    exact hbefore s (List.mem_flatten.mpr ⟨c, hc, hs⟩) a (List.mem_append_left _ ha)
  have hlater : (after.filterMap List.head?).countP (· ≤ a) = 0 := by
    refine List.countP_eq_zero.mpr fun t ht hle => ?_
    obtain ⟨c, hc, hhead⟩ := List.mem_filterMap.mp ht
    have ht : t ∈ c := List.mem_of_mem_head? hhead
    have hge : a ≤ t := hafter a ha t (List.mem_flatten.mpr ⟨c, hc, ht⟩)
    obtain rfl : a = t := le_antisymm hge (by simpa using hle)
    have hfar := (List.pairwise_cons.mp (List.pairwise_append.mp hapart).2.1).1 c hc a ha a ht
    rw [hself a] at hfar
    cases hfar
  obtain ⟨s, b', rfl⟩ := List.exists_cons_of_ne_nil (List.ne_nil_of_mem ha)
  have hfirst : s ≤ a := by
    rcases List.mem_cons.mp ha with rfl | ha
    · exact le_rfl
    · exact (List.pairwise_cons.mp hb).1 a ha
  rw [List.filterMap_append, List.countP_append, hfirsts, List.filterMap_cons, List.head?_cons]
  simp only
  rw [List.countP_cons_of_pos (by simpa using hfirst), hlater]

end Labels

/-! ### Groups -/

/-- The groups of elements with one value. -/
def groupBy [DecidableEq κ] (f : α → κ) (l : List α) : List (List α) :=
  (l.map f).dedup.map fun k => l.filter fun a => f a = k

/-- Where the pieces have distinct values, and each but one, they are the groups. -/
theorem groupBy_flatten [DecidableEq κ] {f : α → κ} : ∀ {m : List (List α)}, [] ∉ m →
    (∀ b ∈ m, ∀ s ∈ b, ∀ t ∈ b, f s = f t) → m.Pairwise (fun b c => ∀ s ∈ b, ∀ t ∈ c, f s ≠ f t) →
    groupBy f m.flatten = m
  | [], _, _, _ => rfl
  | b :: m, hnil, hsame, hapart => by
    obtain ⟨hb, hm⟩ := List.pairwise_cons.mp hapart
    have ih := groupBy_flatten (fun hmem => hnil (List.mem_cons_of_mem _ hmem))
      (fun c hc => hsame c (List.mem_cons_of_mem _ hc)) hm
    obtain ⟨s, b', rfl⟩ := List.exists_cons_of_ne_nil fun hb => hnil (hb ▸ List.mem_cons_self ..)
    have hkey : ∀ t ∈ s :: b', f t = f s := fun t ht =>
      hsame _ (List.mem_cons_self ..) t ht s (List.mem_cons_self ..)
    have hother : ∀ t ∈ m.flatten, f t ≠ f s := by
      intro t ht
      obtain ⟨c, hc, ht⟩ := List.mem_flatten.mp ht
      exact (hb c hc s (List.mem_cons_self ..) t ht).symm
    have hblock : ((s :: b').map f).dedup = [f s] := by
      rw [List.map_congr_left hkey, List.map_const', List.replicate_dedup (by simp)]
    have hdisjoint : List.Disjoint ((s :: b').map f) (m.flatten.map f) := by
      intro k hk hk'
      obtain ⟨t, ht, rfl⟩ := List.mem_map.mp hk
      obtain ⟨t', ht', heq⟩ := List.mem_map.mp hk'
      exact hother t' ht' (heq.trans (hkey t ht))
    have hown : ((s :: b') ++ m.flatten).filter (fun a => f a = f s) = s :: b' := by
      rw [List.filter_append, List.filter_eq_self.mpr fun t ht => by simpa using hkey t ht,
        List.filter_eq_nil_iff.mpr fun t ht => by simpa using hother t ht, List.append_nil]
    have hrest : ∀ k ∈ (m.flatten.map f).dedup, ((s :: b') ++ m.flatten).filter (fun a => f a = k) =
        m.flatten.filter fun a => f a = k := by
      intro k hk
      obtain ⟨t, ht, rfl⟩ := List.mem_map.mp (List.mem_dedup.mp hk)
      have hnone : (s :: b').filter (fun a => f a = f t) = [] := by
        refine List.filter_eq_nil_iff.mpr fun u hu heq => ?_
        exact hother t ht ((of_decide_eq_true heq).symm.trans (hkey u hu))
      rw [List.filter_append, hnone, List.nil_append]
    unfold groupBy at ih ⊢
    rw [List.flatten_cons, List.map_append, hdisjoint.dedup_append, hblock, List.singleton_append,
      List.map_cons, hown, List.map_congr_left hrest, ih]

/-- **The query finds the islands** of a list in order, where each element is near to itself, and nearness
is inherited by what is between. -/
theorem groupBy_label [LinearOrder α]
    (hnear : ∀ {s s' t' t : α}, s ≤ s' → s' ≤ t' → t' ≤ t → near s t = true → near s' t' = true)
    (hself : ∀ a, near a a = true) {l : List α} (hl : l.Pairwise (· ≤ ·)) :
    groupBy (label near l) l = l.splitBy near := by
  have hlabel : ∀ {i : ℕ} (hi : i < (l.splitBy near).length), ∀ a ∈ (l.splitBy near)[i],
      label near l a = i + 1 := by
    intro i hi a ha
    have hcut : l.splitBy near = (l.splitBy near).take i ++
        (l.splitBy near)[i] :: (l.splitBy near).drop (i + 1) := by
      rw [← List.drop_eq_getElem_cons hi, List.take_append_drop]
    rw [label_of_split hnear hself hl hcut ha, List.length_take, Nat.min_eq_left hi.le]
  have hgroups := @groupBy_flatten α ℕ _ (label near l) (l.splitBy near)
    (List.nil_notMem_splitBy near l) ?_ ?_
  · rwa [List.flatten_splitBy] at hgroups
  · intro b hb s hs t ht
    obtain ⟨i, hi, rfl⟩ := List.getElem_of_mem hb
    rw [hlabel hi s hs, hlabel hi t ht]
  · refine List.pairwise_iff_getElem.mpr fun i j hi hj hij s hs t ht => ?_
    rw [hlabel hi s hs, hlabel hj t ht]
    omega

end StarStats.Lib.Islands
