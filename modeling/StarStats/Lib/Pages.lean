import Mathlib.Data.List.Sort
import Mathlib.Order.Basic

/-! # Pages behind a cursor

A list that ascends in a key is read page by page: each page has the first elements whose keys are
above the cursor, and the key of its last element is the cursor of the next. Followed until a page is
empty, the pages are the list, each element once (`walk_eq`). For a list that descends the order of
the keys is the dual one. What is counted on the first page alone is what stands among the first
(`lt_countP_take_iff`). -/

namespace StarStats.Lib.Pages

variable {α κ : Type} [LinearOrder κ]

/-- The elements behind a cursor. -/
def behind (key : α → κ) (cursor : Option κ) (a : α) : Bool := cursor.all (· < key a)

/-- The rows behind the cursor, up to the limit. -/
def page (key : α → κ) (limit : ℕ) (l : List α) (cursor : Option κ) : List α :=
  (l.filter (behind key cursor)).take limit

/-- The pages from a cursor on, until one is empty. -/
def walk (key : α → κ) (limit : ℕ) (l : List α) : ℕ → Option κ → List α
  | 0, _ => []
  | fuel + 1, cursor =>
    match (page key limit l cursor).getLast? with
    | none => []
    | some a => page key limit l cursor ++ walk key limit l fuel (some (key a))

variable {key : α → κ} {limit fuel : ℕ} {l : List α} {cursor : Option κ} {a : α}

/-- A cursor that is taken from an element behind another leaves out all that the other did. -/
theorem filter_behind (ha : behind key cursor a = true) :
    (l.filter (behind key cursor)).filter (behind key (some (key a))) =
      l.filter (behind key (some (key a))) := by
  rw [List.filter_filter]
  refine List.filter_congr fun b _ => ?_
  cases cursor with
  | none => simp [behind]
  | some c =>
    simp only [behind, Option.all_some, decide_eq_true_eq] at ha ⊢
    by_cases hab : key a < key b
    · simp [hab, lt_trans ha hab]
    · simp [hab]

theorem filter_behind_last (h : l.Pairwise fun a b => key a < key b) {n : ℕ}
    (ha : (l.take n).getLast? = some a) : l.filter (behind key (some (key a))) = l.drop n := by
  obtain ⟨before, hbefore⟩ := List.getLast?_eq_some_iff.mp ha
  have hsplit : l = before ++ [a] ++ l.drop n := by rw [← hbefore, List.take_append_drop]
  have hpair := h
  rw [hsplit] at hpair
  obtain ⟨hfront, -, hrest⟩ := List.pairwise_append.mp hpair
  obtain ⟨-, -, hlast⟩ := List.pairwise_append.mp hfront
  have hout : (before ++ [a]).filter (behind key (some (key a))) = [] := by
    refine List.filter_eq_nil_iff.mpr fun b hb => ?_
    rcases List.mem_append.mp hb with hb | hb
    · have hlt := hlast b hb a (List.mem_singleton_self a)
      simpa [behind] using le_of_lt hlt
    · rw [List.mem_singleton.mp hb]
      simp [behind]
  have hin : (l.drop n).filter (behind key (some (key a))) = l.drop n := by
    refine List.filter_eq_self.mpr fun b hb => ?_
    have hlt := hrest a (List.mem_append_right _ (List.mem_singleton_self a)) b hb
    simpa [behind] using hlt
  conv_lhs => rw [hsplit]
  rw [List.filter_append, hout, hin, List.nil_append]

/-- **The pages of a list are the list.** -/
theorem walk_eq (h : l.Pairwise fun a b => key a < key b) (hlimit : 0 < limit)
    (hfuel : (l.filter (behind key cursor)).length < fuel) :
    walk key limit l fuel cursor = l.filter (behind key cursor) := by
  induction fuel generalizing cursor with
  | zero => omega
  | succ fuel ih =>
    unfold walk
    cases hlast : (page key limit l cursor).getLast? with
    | none =>
      have hempty := List.getLast?_eq_none_iff.mp hlast
      unfold page at hempty
      rcases List.take_eq_nil_iff.mp hempty with hzero | hnil
      · omega
      · rw [hnil]
    | some a =>
      have hmem := List.mem_of_mem_take (List.mem_of_getLast? hlast)
      have hbehind : behind key cursor a = true := (List.mem_filter.mp hmem).2
      have hrest : l.filter (behind key (some (key a))) =
          (l.filter (behind key cursor)).drop limit := by
        rw [← filter_behind hbehind]
        exact filter_behind_last (h.filter _) hlast
      have hpos : 0 < (l.filter (behind key cursor)).length :=
        List.length_pos_of_mem (List.mem_of_mem_take (List.mem_of_getLast? hlast))
      have hlen : (l.filter (behind key (some (key a)))).length < fuel := by
        rw [hrest, List.length_drop]
        omega
      change page key limit l cursor ++ walk key limit l fuel (some (key a)) = _
      rw [ih hlen, hrest]
      exact List.take_append_drop limit _

/-! ### The first page -/

section First
variable {p : α → Bool} {k n : ℕ}

/-- **The first elements hold more than so many exactly if the next one stands among them.** -/
theorem lt_countP_take_iff : k < (l.take n).countP p ↔
    ∃ before a after, l = before ++ a :: after ∧ p a = true ∧ before.countP p = k ∧ before.length < n := by
  induction l generalizing k n with
  | nil =>
    rw [List.take_nil, List.countP_nil]
    refine iff_of_false (Nat.not_lt_zero k) ?_
    rintro ⟨before, a, after, hsplit, -⟩
    exact absurd hsplit.symm (List.append_ne_nil_of_right_ne_nil _ (List.cons_ne_nil a after))
  | cons b l ih =>
    cases n with
    | zero => simp
    | succ n =>
      rw [List.take_succ_cons, List.countP_cons]
      constructor
      · intro h
        by_cases hk : p b = true ∧ k = 0
        · exact ⟨[], b, l, rfl, hk.1, hk.2.symm, Nat.succ_pos n⟩
        · have hrest : k - (if p b = true then 1 else 0) < (l.take n).countP p := by
            split_ifs at h ⊢ with hb
            · have hpos : k ≠ 0 := fun hzero => hk ⟨hb, hzero⟩
              omega
            · exact h
          obtain ⟨before, a, after, rfl, ha, hcount, hlen⟩ := ih.mp hrest
          refine ⟨b :: before, a, after, rfl, ha, ?_, Nat.succ_lt_succ hlen⟩
          rw [List.countP_cons, hcount]
          split_ifs with hb
          · have hpos : k ≠ 0 := fun hzero => hk ⟨hb, hzero⟩
            omega
          · rfl
      · rintro ⟨before, a, after, hsplit, ha, rfl, hlen⟩
        cases before with
        | nil =>
          obtain ⟨rfl, rfl⟩ := List.cons.inj hsplit
          simp [ha]
        | cons c before =>
          obtain ⟨rfl, rfl⟩ := List.cons.inj hsplit
          have hrest : before.countP p < ((before ++ a :: after).take n).countP p :=
            ih.mpr ⟨before, a, after, rfl, ha, rfl, Nat.lt_of_succ_lt_succ hlen⟩
          rw [List.countP_cons]
          exact Nat.add_lt_add_right hrest _

theorem lt_countP_iff : k < l.countP p ↔
    ∃ before a after, l = before ++ a :: after ∧ p a = true ∧ before.countP p = k := by
  have hfirst := @lt_countP_take_iff α l p k l.length
  rw [List.take_length] at hfirst
  rw [hfirst]
  constructor
  · rintro ⟨before, a, after, hsplit, ha, hcount, -⟩
    exact ⟨before, a, after, hsplit, ha, hcount⟩
  · rintro ⟨before, a, after, rfl, ha, hcount⟩
    exact ⟨before, a, after, rfl, ha, hcount, by simp⟩

end First

end StarStats.Lib.Pages
