import Mathlib.Data.List.Induction
import Mathlib.Data.List.Nodup
import Mathlib.Data.List.Perm.Basic

/-! # Groups in the order of their keys

A map that lists its keys in the order in which they were first set. A loop that looks up the value of
an element's key, sets an empty one where there is none, and adds the element to it, ends with what the
same loop makes of each group of elements with one key (`gather_eq`); where the values are maps
themselves, the groups are grouped in turn. The groups share out the elements (`perm_group`), and each
has those of its key (`eq_filter_of_mem_group`). -/

namespace StarStats.Lib.Groups

variable {κ α β : Type} [DecidableEq κ]

/-- Change the value of a key in its place; where there is none, it is `b₀` and stands behind all
others. -/
def alter (k : κ) (b₀ : β) (f : β → β) : List (κ × β) → List (κ × β)
  | [] => [(k, f b₀)]
  | e :: m => if e.1 = k then (k, f e.2) :: m else e :: alter k b₀ f m

/-- Add the elements one after the other to the values of their keys. -/
def gather (key : α → κ) (b₀ : β) (add : β → α → β) (l : List α) : List (κ × β) :=
  l.foldl (fun m a => alter (key a) b₀ (fun b => add b a) m) []

/-- The elements of each key, in their order. -/
def group (key : α → κ) (l : List α) : List (κ × List α) := gather key [] (fun g a => g ++ [a]) l

variable {key : α → κ} {add : β → α → β} {l : List α} {m : List (κ × β)} {k : κ} {b₀ : β} {f : β → β}

theorem alter_of_eq {e : κ × β} (h : e.1 = k) : alter k b₀ f (e :: m) = (k, f e.2) :: m := if_pos h

theorem alter_of_ne {e : κ × β} (h : e.1 ≠ k) : alter k b₀ f (e :: m) = e :: alter k b₀ f m := if_neg h

theorem gather_concat (l : List α) (a : α) :
    gather key b₀ add (l ++ [a]) = alter (key a) b₀ (fun b => add b a) (gather key b₀ add l) := by
  unfold gather
  rw [List.foldl_append]
  rfl

theorem group_concat (l : List α) (a : α) :
    group key (l ++ [a]) = alter (key a) [] (fun g => g ++ [a]) (group key l) :=
  gather_concat l a

/-! ### What a loop makes of the groups -/

theorem map_alter {γ : Type} {g : β → γ} (f' : γ → γ) (h : ∀ b, g (f b) = f' (g b)) :
    (alter k b₀ f m).map (fun e => (e.1, g e.2)) = alter k (g b₀) f' (m.map fun e => (e.1, g e.2)) := by
  induction m with
  | nil =>
    rw [alter, List.map_singleton, h b₀]
    rfl
  | cons e m ih =>
    by_cases hk : e.1 = k
    · rw [alter_of_eq hk, List.map_cons, List.map_cons, alter_of_eq (e := (e.1, g e.2)) hk, h e.2]
    · rw [alter_of_ne hk, List.map_cons, List.map_cons, alter_of_ne (e := (e.1, g e.2)) hk, ih]

/-- **The loop over all elements is the loop over each group.** -/
theorem gather_eq (key : α → κ) (b₀ : β) (add : β → α → β) (l : List α) :
    gather key b₀ add l = (group key l).map fun e => (e.1, e.2.foldl add b₀) := by
  induction l using List.reverseRecOn with
  | nil => rfl
  | append_singleton l a ih =>
    have hstep : ∀ g : List α, (g ++ [a]).foldl add b₀ = add (g.foldl add b₀) a := fun g => by
      rw [List.foldl_append]
      rfl
    rw [gather_concat, group_concat, map_alter (fun b => add b a) hstep, ih]
    rfl

/-! ### The groups -/

theorem mem_keys_alter {k' : κ} :
    k' ∈ (alter k b₀ f m).map Prod.fst ↔ k' ∈ m.map Prod.fst ∨ k' = k := by
  induction m with
  | nil => simp [alter]
  | cons e m ih =>
    by_cases hk : e.1 = k
    · rw [alter_of_eq hk, List.map_cons, List.map_cons, List.mem_cons, List.mem_cons, hk]
      tauto
    · rw [alter_of_ne hk, List.map_cons, List.map_cons, List.mem_cons, List.mem_cons, ih, or_assoc]

theorem nodup_keys_alter (hm : (m.map Prod.fst).Nodup) : ((alter k b₀ f m).map Prod.fst).Nodup := by
  induction m with
  | nil => simp [alter]
  | cons e m ih =>
    obtain ⟨he, hm⟩ := List.nodup_cons.mp hm
    by_cases hk : e.1 = k
    · rw [alter_of_eq hk, List.map_cons, ← hk]
      exact List.nodup_cons.mpr ⟨he, hm⟩
    · rw [alter_of_ne hk, List.map_cons]
      refine List.nodup_cons.mpr ⟨fun hmem => ?_, ih hm⟩
      rcases mem_keys_alter.mp hmem with hmem | heq
      · exact he hmem
      · exact hk heq

/-- An entry is of another key, as it was, or the one that was changed or set. -/
theorem mem_alter (hm : (m.map Prod.fst).Nodup) {e : κ × β} (he : e ∈ alter k b₀ f m) :
    (e ∈ m ∧ e.1 ≠ k) ∨ (∃ b, (k, b) ∈ m ∧ e = (k, f b)) ∨ (k ∉ m.map Prod.fst ∧ e = (k, f b₀)) := by
  induction m with
  | nil =>
    rw [alter, List.mem_singleton] at he
    exact Or.inr (Or.inr ⟨List.not_mem_nil, he⟩)
  | cons x m ih =>
    obtain ⟨hx, hm⟩ := List.nodup_cons.mp hm
    by_cases hk : x.1 = k
    · rw [alter_of_eq hk] at he
      rcases List.mem_cons.mp he with rfl | he
      · exact Or.inr (Or.inl ⟨x.2, by rw [← hk]; exact List.mem_cons_self, rfl⟩)
      · refine Or.inl ⟨List.mem_cons_of_mem _ he, fun heq => hx ?_⟩
        rw [hk, ← heq]
        exact List.mem_map_of_mem he
    · rw [alter_of_ne hk] at he
      rcases List.mem_cons.mp he with rfl | he
      · exact Or.inl ⟨List.mem_cons_self, hk⟩
      · rcases ih hm he with ⟨he, hne⟩ | ⟨b, hb, rfl⟩ | ⟨hnew, rfl⟩
        · exact Or.inl ⟨List.mem_cons_of_mem _ he, hne⟩
        · exact Or.inr (Or.inl ⟨b, List.mem_cons_of_mem _ hb, rfl⟩)
        · refine Or.inr (Or.inr ⟨?_, rfl⟩)
          rw [List.map_cons, List.mem_cons, not_or]
          exact ⟨fun h => hk h.symm, hnew⟩

theorem nodup_keys_group (key : α → κ) (l : List α) : ((group key l).map Prod.fst).Nodup := by
  induction l using List.reverseRecOn with
  | nil => exact List.nodup_nil
  | append_singleton l a ih =>
    rw [group_concat]
    exact nodup_keys_alter ih

theorem mem_keys_group : k ∈ (group key l).map Prod.fst ↔ ∃ a ∈ l, key a = k := by
  induction l using List.reverseRecOn with
  | nil => simp [group, gather]
  | append_singleton l a ih =>
    rw [group_concat, mem_keys_alter, ih]
    simp [or_and_right, exists_or, eq_comm]

theorem eq_filter_of_mem_group {e : κ × List α} (he : e ∈ group key l) :
    e.2 = l.filter fun a => key a = e.1 := by
  induction l using List.reverseRecOn generalizing e with
  | nil => exact absurd he List.not_mem_nil
  | append_singleton l a ih =>
    rw [group_concat] at he
    rw [List.filter_append]
    rcases mem_alter (nodup_keys_group key l) he with ⟨he, hne⟩ | ⟨g, hg, rfl⟩ | ⟨hnew, rfl⟩
    · rw [← ih he, List.filter_cons_of_neg (by simpa using Ne.symm hne), List.filter_nil,
        List.append_nil]
    · rw [← ih hg, List.filter_cons_of_pos (by simp)]
      rfl
    · have hnone : (l.filter fun b => decide (key b = key a)) = [] := by
        rw [List.filter_eq_nil_iff]
        intro b hb heq
        exact hnew (mem_keys_group.mpr ⟨b, hb, of_decide_eq_true heq⟩)
      rw [hnone, List.filter_cons_of_pos (by simp)]
      rfl

theorem ne_nil_of_mem_group {e : κ × List α} (he : e ∈ group key l) : e.2 ≠ [] := by
  obtain ⟨a, ha, hkey⟩ := mem_keys_group.mp (List.mem_map_of_mem he)
  rw [eq_filter_of_mem_group he]
  exact List.ne_nil_of_mem (List.mem_filter.mpr ⟨ha, decide_eq_true hkey⟩)

theorem perm_flatMap_alter (a : α) (m : List (κ × List α)) :
    ((alter k [] (fun g => g ++ [a]) m).flatMap (·.2)).Perm (m.flatMap (·.2) ++ [a]) := by
  induction m with
  | nil =>
    rw [alter, List.flatMap_cons]
    exact List.Perm.refl _
  | cons e m ih =>
    by_cases hk : e.1 = k
    · rw [alter_of_eq hk, List.flatMap_cons, List.flatMap_cons, List.append_assoc, List.append_assoc]
      exact List.Perm.append_left _ List.perm_append_comm
    · rw [alter_of_ne hk, List.flatMap_cons, List.flatMap_cons, List.append_assoc]
      exact List.Perm.append_left _ ih

/-- **Each element is in one group, as often as it is there.** -/
theorem perm_group (key : α → κ) (l : List α) : ((group key l).flatMap (·.2)).Perm l := by
  induction l using List.reverseRecOn with
  | nil => exact List.Perm.refl _
  | append_singleton l a ih =>
    rw [group_concat]
    exact (perm_flatMap_alter a _).trans (ih.append_right [a])

end StarStats.Lib.Groups
