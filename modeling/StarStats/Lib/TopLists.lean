import Mathlib.Algebra.BigOperators.Group.List.Basic
import Mathlib.Algebra.GroupWithZero.Nat
import Mathlib.Data.Prod.Lex
import StarStats.Lib.Tables
import StarStats.Lib.Tallies

/-! # Top lists

The values that occur most often, each with its count: the more frequent come first, and equal counts stand
in the order of their values. A list of other counts that are no larger has the same top exactly if it
counts the top values right (`top_eq_iff`). So what is cut from the sources of a sum does no harm as long as
it leaves the top values alone. -/

namespace StarStats.Lib.TopLists

open StarStats.Lib.Tables StarStats.Lib.Tallies

variable {α κ : Type}

/-- By descending count, and then by value. -/
def rank (ord : α → κ) (e : α × ℕ) : ℕᵒᵈ ×ₗ κ := toLex (OrderDual.toDual e.2, ord e.1)

/-- The list tells every value that occurs once, with its count. -/
structure Counts (t : α → ℕ) (l : List (α × ℕ)) : Prop where
  nodup : l.Nodup
  mem : ∀ e, e ∈ l ↔ e.2 = t e.1 ∧ 0 < e.2

theorem Counts.perm {t : α → ℕ} {l l' : List (α × ℕ)} (hl : Counts t l) (h : l'.Perm l) : Counts t l' :=
  ⟨h.nodup_iff.mpr hl.nodup, fun e => h.mem_iff.trans (hl.mem e)⟩

theorem rank_injective {ord : α → κ} (hord : Function.Injective ord) :
    Function.Injective (rank ord) := by
  intro e f h
  obtain ⟨hcount, hvalue⟩ := Prod.mk.inj (toLex.injective h)
  exact Prod.ext (hord hvalue) (OrderDual.toDual.injective hcount)

/-! ### The first of a sorted list -/

section Sorted
variable [LinearOrder κ] {p : α → κ} {l l' : List α} {a : α} {n : ℕ}

/-- An element is among the first `n` exactly if fewer are ahead of it. -/
theorem mem_take_sortBy (hp : Function.Injective p) (hl : l.Nodup) (ha : a ∈ l) :
    a ∈ (sortBy p l).take n ↔ l.countP (fun b => p b < p a) < n := by
  have hmem : a ∈ sortBy p l := mem_sortBy.mpr ha
  have hnodup : (sortBy p l).Nodup := (perm_sortBy p l).nodup_iff.mpr hl
  have hcount : l.countP (fun b => p b < p a) = (sortBy p l).countP fun b => p b < p a :=
    ((perm_sortBy p l).countP_eq _).symm
  have hsorted := pairwise_sortBy p l
  rw [hcount]
  generalize sortBy p l = s at hmem hnodup hsorted
  obtain ⟨before, after, rfl⟩ := List.append_of_mem hmem
  obtain ⟨-, hafter, hbefore⟩ := List.pairwise_append.mp hsorted
  have hnot : a ∉ before := fun hin =>
    (List.nodup_append.mp hnodup).2.2 a hin a (List.mem_cons_self ..) rfl
  have hahead : before.countP (fun b => p b < p a) = before.length := by
    refine List.countP_eq_length.mpr fun b hb => decide_eq_true ?_
    refine lt_of_le_of_ne (hbefore b hb a (List.mem_cons_self ..)) fun heq => ?_
    exact hnot (hp heq ▸ hb)
  have hbehind : (a :: after).countP (fun b => p b < p a) = 0 := by
    refine List.countP_eq_zero.mpr fun b hb hlt => ?_
    have hlt := of_decide_eq_true hlt
    rcases List.mem_cons.mp hb with rfl | hb
    · exact lt_irrefl _ hlt
    · exact absurd hlt ((List.pairwise_cons.mp hafter).1 b hb).not_gt
  rw [List.countP_append, hahead, hbehind, Nat.add_zero]
  constructor
  · intro hin
    by_contra hlong
    rw [List.take_append_of_le_length (Nat.not_lt.mp hlong)] at hin
    exact hnot (List.mem_of_mem_take hin)
  · intro hlt
    obtain ⟨k, hk⟩ := Nat.exists_eq_add_of_lt hlt
    rw [hk, Nat.add_assoc, List.take_length_add_append, List.take_succ_cons]
    exact List.mem_append_right _ (List.mem_cons_self ..)

end Sorted

/-! ### The top -/

section Top
variable [LinearOrder κ] {ord : α → κ} {t m : α → ℕ} {l l' : List (α × ℕ)} {e : α × ℕ} {n : ℕ}

/-- The first `n` in the order of their ranks. -/
def top (ord : α → κ) (n : ℕ) (l : List (α × ℕ)) : List (α × ℕ) := (sortBy (rank ord) l).take n

theorem mem_of_mem_top (h : e ∈ top ord n l) : e ∈ l := mem_sortBy.mp (List.mem_of_mem_take h)

theorem rank_le {f : α × ℕ} (hvalue : e.1 = f.1) (hcount : f.2 ≤ e.2) : rank ord e ≤ rank ord f := by
  unfold rank
  rw [Prod.Lex.toLex_le_toLex, hvalue]
  rcases hcount.lt_or_eq with hlt | heq
  · exact Or.inl (OrderDual.toDual_lt_toDual.mpr hlt)
  · exact Or.inr ⟨by rw [heq], le_rfl⟩

section Right
variable (hord : Function.Injective ord) (hl : Counts t l) (hl' : Counts m l') (hle : ∀ a, m a ≤ t a)
  (hright : ∀ e ∈ top ord n l, m e.1 = e.2)

include hl hl' hle hright in
theorem mem_drop_of_not_mem_top (he : e ∈ l') (hnot : e ∉ top ord n l) :
    (e.1, t e.1) ∈ (sortBy (rank ord) l).drop n := by
  obtain ⟨hcount, hpos⟩ := (hl'.mem e).mp he
  have hin : (e.1, t e.1) ∈ sortBy (rank ord) l :=
    mem_sortBy.mpr ((hl.mem _).mpr ⟨rfl, lt_of_lt_of_le (hcount ▸ hpos) (hle e.1)⟩)
  rw [← List.take_append_drop n (sortBy (rank ord) l)] at hin
  refine (List.mem_append.mp hin).resolve_left fun hmem => hnot ?_
  have hsame : e = (e.1, t e.1) := Prod.ext rfl (hcount.trans (hright _ hmem))
  rwa [hsame]

variable [DecidableEq α]

include hl hl' hright in
theorem perm_top_append : l'.Perm (top ord n l ++ l'.filter (· ∉ top ord n l)) := by
  have htop : (top ord n l).Nodup :=
    ((perm_sortBy (rank ord) l).nodup_iff.mpr hl.nodup).sublist (List.take_sublist ..)
  refine (List.perm_ext_iff_of_nodup hl'.nodup ?_).mpr fun f => ?_
  · refine List.nodup_append.mpr ⟨htop, hl'.nodup.filter _, fun e he f hf heq => ?_⟩
    have hnot := of_decide_eq_true (List.mem_filter.mp hf).2
    exact hnot (heq ▸ he)
  · rw [List.mem_append, List.mem_filter]
    by_cases hf : f ∈ top ord n l
    · refine iff_of_true ((hl'.mem f).mpr ⟨(hright f hf).symm, ?_⟩) (Or.inl hf)
      exact ((hl.mem f).mp (mem_of_mem_top hf)).2
    · simp [hf]

include hord hl hl' hle hright in
/-- The smaller counts in order are the top, and then the rest. -/
theorem sortBy_eq_top_append : sortBy (rank ord) l' =
    top ord n l ++ sortBy (rank ord) (l'.filter (· ∉ top ord n l)) := by
  have hsorted := pairwise_sortBy (rank ord) l
  rw [← List.take_append_drop n (sortBy (rank ord) l)] at hsorted
  obtain ⟨htop, -, hbehind⟩ := List.pairwise_append.mp hsorted
  have hperm := (perm_top_append hl hl' hright).trans
    ((perm_sortBy (rank ord) (l'.filter (· ∉ top ord n l))).symm.append_left _)
  have hrank : ∀ a ∈ l', ∀ b ∈ l', rank ord a = rank ord b → a = b :=
    fun a _ b _ h => rank_injective hord h
  refine (sortBy_eq_of_perm hrank hperm).trans (sortBy_eq_self ?_)
  refine List.pairwise_append.mpr ⟨htop, pairwise_sortBy _ _, fun e he f hf => ?_⟩
  obtain ⟨hf, hnot⟩ := List.mem_filter.mp (mem_sortBy.mp hf)
  have hfirst := hbehind e he _ (mem_drop_of_not_mem_top hl hl' hle hright hf (of_decide_eq_true hnot))
  refine hfirst.trans (rank_le rfl ?_)
  rw [((hl'.mem f).mp hf).1]
  exact hle f.1

end Right

theorem le_of_rank_lt {f : α × ℕ} (h : rank ord e < rank ord f) : f.2 ≤ e.2 := by
  unfold rank at h
  rw [Prod.Lex.toLex_lt_toLex] at h
  rcases h with hlt | ⟨heq, -⟩
  · exact (OrderDual.toDual_lt_toDual.mp hlt).le
  · exact (OrderDual.toDual.injective heq).ge

/-- **Smaller counts have the same top exactly if they are right for the top values.** -/
theorem top_eq_iff [DecidableEq α] (hord : Function.Injective ord) (hl : Counts t l) (hl' : Counts m l')
    (hle : ∀ a, m a ≤ t a) : top ord n l' = top ord n l ↔ ∀ e ∈ top ord n l, m e.1 = e.2 := by
  constructor
  · intro heq e he
    rw [← heq] at he
    exact ((hl'.mem e).mp (mem_of_mem_top he)).1.symm
  · intro hright
    have hsort := sortBy_eq_top_append hord hl hl' hle hright
    have htop : top ord n l' = (top ord n l ++
        sortBy (rank ord) (l'.filter (· ∉ top ord n l))).take n := congrArg (List.take n) hsort
    rw [htop]
    by_cases hlong : n ≤ (sortBy (rank ord) l).length
    · exact List.take_left' (List.length_take_of_le hlong)
    · -- The top is all there is.
      have hnone : l'.filter (· ∉ top ord n l) = [] := by
        refine List.filter_eq_nil_iff.mpr fun f hf hnot => ?_
        have hmem := mem_drop_of_not_mem_top hl hl' hle hright hf (of_decide_eq_true hnot)
        rw [List.drop_eq_nil_of_le (by omega)] at hmem
        cases hmem
      rw [hnone]
      show (top ord n l ++ []).take n = _
      rw [List.append_nil]
      exact List.take_of_length_le (List.length_take_le ..)

end Top

/-! ### Counts -/

section Counts
variable [DecidableEq α] {l : List (α × ℕ)} {a : α}

theorem counts_of_nodup (hkeys : (l.map Prod.fst).Nodup) (hpos : ∀ e ∈ l, 0 < e.2) :
    Counts (amountOf l) l := by
  refine ⟨List.Nodup.of_map _ hkeys,
    fun e => ⟨fun he => ⟨(amountOf_of_mem hkeys he).symm, hpos e he⟩, ?_⟩⟩
  rintro ⟨hcount, he⟩
  rw [hcount] at he
  have hsome : l.filter (·.1 = e.1) ≠ [] := by
    intro hnone
    unfold amountOf at he
    rw [hnone] at he
    exact Nat.lt_irrefl 0 he
  obtain ⟨f, hf⟩ := List.exists_mem_of_ne_nil _ hsome
  obtain ⟨hf, heq⟩ := List.mem_filter.mp hf
  have heq := of_decide_eq_true heq
  have hsame : e = f := Prod.ext heq.symm (by rw [hcount, ← heq, amountOf_of_mem hkeys hf])
  rwa [hsame]

theorem counts_merge (hpos : ∀ e ∈ l, 0 < e.2) : Counts (amountOf l) (merge l) := by
  rw [← funext (amountOf_merge l)]
  refine counts_of_nodup (nodup_keys_merge l) fun e he => ?_
  obtain ⟨f, hf, hkey⟩ := List.mem_map.mp (mem_keys_merge.mp (List.mem_map_of_mem he))
  obtain ⟨before, after, rfl⟩ := List.append_of_mem hf
  have hfpos := hpos f hf
  rw [← amountOf_merge_of_mem he, ← hkey, amountOf_append, amountOf_cons, if_pos rfl]
  omega

/-- How often a value occurs. -/
def occurs (l : List α) (a : α) : ℕ := l.count a

theorem occurs_pos_iff {l : List α} : 0 < occurs l a ↔ a ∈ l := List.count_pos_iff

theorem occurs_eq_zero {l : List α} (h : a ∉ l) : occurs l a = 0 :=
  Nat.eq_zero_of_not_pos fun hpos => h (occurs_pos_iff.mp hpos)

theorem occurs_eq_countP (l : List α) (a : α) : occurs l a = l.countP (· = a) := by
  unfold occurs
  rw [List.count_eq_countP]
  exact List.countP_congr fun b _ => by simp

theorem occurs_filterMap {β : Type} (f : β → Option α) (l : List β) (a : α) :
    occurs (l.filterMap f) a = l.countP fun b => f b = some a := by
  rw [occurs_eq_countP]
  induction l with
  | nil => rfl
  | cons b l ih =>
    rw [List.filterMap_cons, List.countP_cons, ← ih]
    cases hf : f b with
    | none => simp
    | some c => simp [List.countP_cons]

theorem getD_lookup {t : α → ℕ} (hl : Counts t l) (a : α) : (l.lookup a).getD 0 = t a := by
  cases hlookup : l.lookup a with
  | some n =>
    obtain ⟨before, after, rfl, -⟩ := List.lookup_eq_some_iff.mp hlookup
    exact ((hl.mem (a, n)).mp (by simp)).1
  | none =>
    by_contra hne
    have hmem := (hl.mem (a, t a)).mpr ⟨rfl, Nat.pos_of_ne_zero (Ne.symm hne)⟩
    have hnot := List.lookup_eq_none_iff.mp hlookup _ hmem
    simp at hnot

theorem groupCount_of_nodup {l : List α} (hl : l.Nodup) : groupCount l = l.map (·, 1) := by
  unfold groupCount
  rw [hl.dedup]
  refine List.map_congr_left fun a ha => ?_
  rw [List.count_eq_one_of_mem hl ha]

theorem nodup_keys_groupCount (l : List α) : ((groupCount l).map Prod.fst).Nodup := by
  unfold groupCount
  rw [List.map_map, show (Prod.fst ∘ fun a => (a, l.count a)) = id from rfl, List.map_id]
  exact l.nodup_dedup

theorem counts_groupCount (l : List α) : Counts (occurs l) (groupCount l) := by
  refine ⟨List.Nodup.of_map Prod.fst (nodup_keys_groupCount l), fun e => ?_⟩
  unfold groupCount
  rw [List.mem_map]
  constructor
  · rintro ⟨a, ha, rfl⟩
    exact ⟨rfl, occurs_pos_iff.mpr (List.mem_dedup.mp ha)⟩
  · rintro ⟨hcount, hpos⟩
    rw [hcount] at hpos
    exact ⟨e.1, List.mem_dedup.mpr (occurs_pos_iff.mp hpos), Prod.ext rfl hcount.symm⟩

end Counts

end StarStats.Lib.TopLists
