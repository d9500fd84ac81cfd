import Mathlib.Algebra.BigOperators.Group.List.Basic
import Mathlib.Data.List.Induction
import Mathlib.Data.List.Nodup

/-! # Tallies

Amounts are added up by their keys: an amount is added to that of its key, or begins one. Each key then
stands once in the list, with the sum of its amounts. -/

namespace StarStats.Lib.Tallies

variable {α ν : Type} [DecidableEq α]

/-- Add to the amount of a key. -/
def addTo [Add ν] : List (α × ν) → α × ν → List (α × ν)
  | [], e => [e]
  | f :: l, e => if f.1 = e.1 then (f.1, f.2 + e.2) :: l else f :: addTo l e

/-- The amounts of each key are added up. -/
def merge [Add ν] (l : List (α × ν)) : List (α × ν) := l.foldl addTo []

/-- The sum of the amounts of a key. -/
def amountOf [AddMonoid ν] (l : List (α × ν)) (a : α) : ν := ((l.filter (·.1 = a)).map (·.2)).sum

theorem merge_concat [Add ν] (l : List (α × ν)) (e : α × ν) : merge (l ++ [e]) = addTo (merge l) e := by
  unfold merge
  rw [List.foldl_append]
  rfl

/-! ### Keys -/

section Keys
variable [Add ν] {l : List (α × ν)} {e : α × ν} {a : α}

theorem mem_keys_addTo : a ∈ (addTo l e).map Prod.fst ↔ a ∈ l.map Prod.fst ∨ a = e.1 := by
  induction l with
  | nil => simp [addTo]
  | cons f l ih =>
    unfold addTo
    by_cases h : f.1 = e.1
    · rw [if_pos h, List.map_cons, List.map_cons, List.mem_cons, h]
      tauto
    · rw [if_neg h, List.map_cons, List.map_cons, List.mem_cons, List.mem_cons, ih, or_assoc]

theorem nodup_keys_addTo (hl : (l.map Prod.fst).Nodup) (e : α × ν) :
    ((addTo l e).map Prod.fst).Nodup := by
  induction l with
  | nil => simp [addTo]
  | cons f l ih =>
    obtain ⟨hf, hl⟩ := List.nodup_cons.mp hl
    unfold addTo
    by_cases h : f.1 = e.1
    · rw [if_pos h]
      exact List.nodup_cons.mpr ⟨hf, hl⟩
    · rw [if_neg h]
      refine List.nodup_cons.mpr ⟨fun hmem => ?_, ih hl⟩
      rcases mem_keys_addTo.mp hmem with hmem | heq
      · exact hf hmem
      · exact h heq

theorem mem_keys_merge : a ∈ (merge l).map Prod.fst ↔ a ∈ l.map Prod.fst := by
  induction l using List.reverseRecOn with
  | nil => exact Iff.rfl
  | append_singleton l e ih =>
    rw [merge_concat, mem_keys_addTo, ih, List.map_append, List.mem_append, List.map_singleton,
      List.mem_singleton]

theorem nodup_keys_merge (l : List (α × ν)) : ((merge l).map Prod.fst).Nodup := by
  induction l using List.reverseRecOn with
  | nil => exact List.nodup_nil
  | append_singleton l e ih =>
    rw [merge_concat]
    exact nodup_keys_addTo ih e

end Keys

/-! ### Amounts -/

section Amounts
variable [AddCommMonoid ν] {l : List (α × ν)} {e : α × ν} {a : α}

theorem amountOf_cons (e : α × ν) (l : List (α × ν)) (a : α) :
    amountOf (e :: l) a = (if e.1 = a then e.2 else 0) + amountOf l a := by
  unfold amountOf
  by_cases h : e.1 = a <;> simp [h]

theorem amountOf_append (l l' : List (α × ν)) (a : α) :
    amountOf (l ++ l') a = amountOf l a + amountOf l' a := by
  unfold amountOf
  rw [List.filter_append, List.map_append, List.sum_append]

theorem amountOf_addTo (l : List (α × ν)) (e : α × ν) (a : α) :
    amountOf (addTo l e) a = amountOf l a + if e.1 = a then e.2 else 0 := by
  induction l with
  | nil =>
    show amountOf [e] a = amountOf [] a + _
    rw [amountOf_cons, add_comm]
  | cons f l ih =>
    unfold addTo
    by_cases h : f.1 = e.1
    · rw [if_pos h, amountOf_cons, amountOf_cons, h]
      by_cases ha : e.1 = a
      · simp only [ha, if_true]
        rw [add_right_comm]
      · simp only [ha, if_false, add_zero]
    · rw [if_neg h, amountOf_cons, amountOf_cons, ih, add_assoc]

theorem amountOf_merge (l : List (α × ν)) (a : α) : amountOf (merge l) a = amountOf l a := by
  induction l using List.reverseRecOn with
  | nil => rfl
  | append_singleton l e ih =>
    rw [merge_concat, amountOf_addTo, ih, amountOf_append, amountOf_cons]
    unfold amountOf
    simp

theorem sum_addTo (l : List (α × ν)) (e : α × ν) :
    ((addTo l e).map Prod.snd).sum = (l.map Prod.snd).sum + e.2 := by
  induction l with
  | nil =>
    show e.2 + 0 = 0 + e.2
    rw [add_comm]
  | cons f l ih =>
    unfold addTo
    by_cases h : f.1 = e.1
    · rw [if_pos h]
      exact add_right_comm ..
    · rw [if_neg h, List.map_cons, List.sum_cons, ih, List.map_cons, List.sum_cons, add_assoc]

theorem sum_merge (l : List (α × ν)) : ((merge l).map Prod.snd).sum = (l.map Prod.snd).sum := by
  induction l using List.reverseRecOn with
  | nil => rfl
  | append_singleton l e ih =>
    rw [merge_concat, sum_addTo, ih, List.map_append, List.sum_append]
    simp

theorem amountOf_of_mem (hkeys : (l.map Prod.fst).Nodup) (he : e ∈ l) : amountOf l e.1 = e.2 := by
  obtain ⟨before, after, rfl⟩ := List.append_of_mem he
  rw [List.map_append, List.map_cons] at hkeys
  obtain ⟨-, hafter, hbefore⟩ := List.nodup_append.mp hkeys
  have hnone : ∀ l' : List (α × ν), e.1 ∉ l'.map Prod.fst → amountOf l' e.1 = 0 := by
    intro l' hnot
    unfold amountOf
    rw [List.filter_eq_nil_iff.mpr fun f hf heq => hnot ?_]
    · rfl
    · exact List.mem_map.mpr ⟨f, hf, of_decide_eq_true heq⟩
  rw [amountOf_append, amountOf_cons, if_pos rfl, hnone after (List.nodup_cons.mp hafter).1,
    hnone before fun hmem => hbefore _ hmem _ (List.mem_cons_self ..) rfl, add_zero, zero_add]

theorem amountOf_merge_of_mem (he : e ∈ merge l) : amountOf l e.1 = e.2 := by
  rw [← amountOf_merge]
  exact amountOf_of_mem (nodup_keys_merge l) he

end Amounts

end StarStats.Lib.Tallies
