import Mathlib.Data.List.Nodup
import Mathlib.Data.List.Induction

/-! # Hash chains

Each row keeps the hash of the row before it, and the first one a seed. When no two rows have the same
hash, the links alone tell the order of the rows (`eq_of_perm`). -/

namespace StarStats.Lib.Chain

variable {ρ η : Type} {prev hash : ρ → η} {z : η}

/-- Each row follows the one before it, and the first one the seed. -/
def Linked (prev hash : ρ → η) : η → List ρ → Prop
  | _, [] => True
  | z, r :: rs => prev r = z ∧ Linked prev hash (hash r) rs

instance [DecidableEq η] : ∀ (z : η) (l : List ρ), Decidable (Linked prev hash z l)
  | _, [] => inferInstanceAs (Decidable True)
  | z, r :: rs =>
    have := instDecidableLinkedOfDecidableEq (hash r) rs
    inferInstanceAs (Decidable (prev r = z ∧ Linked prev hash (hash r) rs))

/-- What the next row is to follow. -/
def tip (hash : ρ → η) (z : η) (l : List ρ) : η := (l.getLast?.map hash).getD z

@[simp] theorem tip_nil : tip hash z [] = z := rfl

@[simp] theorem tip_concat (l : List ρ) (r : ρ) : tip hash z (l ++ [r]) = hash r := by
  simp [tip]

theorem tip_cons (r : ρ) (l : List ρ) : tip hash z (r :: l) = tip hash (hash r) l := by
  unfold tip
  rw [List.getLast?_cons]
  cases l.getLast? <;> rfl

theorem linked_concat {l : List ρ} {r : ρ} :
    Linked prev hash z (l ++ [r]) ↔ Linked prev hash z l ∧ prev r = tip hash z l := by
  induction l generalizing z with
  | nil => simp [Linked]
  | cons a l ih =>
    rw [List.cons_append, tip_cons]
    simp only [Linked, ih, and_assoc]

theorem linked_congr {l l' : List ρ}
    (h : (l.map fun r => (prev r, hash r)) = l'.map fun r => (prev r, hash r)) :
    Linked prev hash z l ↔ Linked prev hash z l' := by
  induction l generalizing z l' with
  | nil =>
    obtain rfl := List.map_eq_nil_iff.mp h.symm
    rfl
  | cons a l ih =>
    cases l' with
    | nil => cases h
    | cons a' l' =>
      obtain ⟨hhead, htail⟩ := List.cons.inj h
      obtain ⟨hprev, hhash⟩ := Prod.mk.inj hhead
      simp only [Linked, hprev, hhash, ih htail]

theorem prev_eq_or {l : List ρ} {a c : ρ} (h : Linked prev hash z (l ++ [a])) (hc : c ∈ l ++ [a]) :
    prev c = z ∨ ∃ d ∈ l, prev c = hash d := by
  induction l generalizing z with
  | nil =>
    obtain rfl := List.mem_singleton.mp hc
    exact Or.inl h.1
  | cons b l ih =>
    rcases List.mem_cons.mp hc with rfl | hc
    · exact Or.inl h.1
    · rcases ih h.2 hc with hprev | ⟨d, hd, hprev⟩
      · exact Or.inr ⟨b, List.mem_cons_self, hprev⟩
      · exact Or.inr ⟨d, List.mem_cons_of_mem _ hd, hprev⟩

theorem exists_next {l : List ρ} {a d : ρ} (h : Linked prev hash z (l ++ [a])) (hd : d ∈ l) :
    ∃ c ∈ l ++ [a], prev c = hash d := by
  induction l generalizing z with
  | nil => cases hd
  | cons b l ih =>
    rcases List.mem_cons.mp hd with rfl | hd
    · cases l with
      | nil => exact ⟨a, List.mem_cons_of_mem _ (List.mem_singleton_self a), h.2.1⟩
      | cons c l => exact ⟨c, List.mem_cons_of_mem _ List.mem_cons_self, h.2.1⟩
    · obtain ⟨c, hc, hprev⟩ := ih h.2 hd
      exact ⟨c, List.mem_cons_of_mem _ hc, hprev⟩

theorem eq_of_hash_eq {l : List ρ} (hnodup : (l.map hash).Nodup) {a b : ρ} (ha : a ∈ l) (hb : b ∈ l)
    (h : hash a = hash b) : a = b :=
  List.inj_on_of_nodup_map hnodup ha hb h

theorem hash_ne_of_concat {l : List ρ} {a d : ρ} (hnodup : ((l ++ [a]).map hash).Nodup) (hd : d ∈ l) :
    hash d ≠ hash a := by
  rw [List.map_append] at hnodup
  intro h
  exact List.disjoint_of_nodup_append hnodup (List.mem_map_of_mem hd) (by simp [h])

/-- When the last row of a chain is not the last of another chain of the same rows, its hash is the
seed. -/
theorem hash_eq_seed {l l' : List ρ} {a b : ρ} (h : Linked prev hash z (l ++ [a]))
    (h' : Linked prev hash z (l' ++ [b])) (hperm : (l ++ [a]).Perm (l' ++ [b]))
    (hnodup : ((l ++ [a]).map hash).Nodup) (hne : a ≠ b) : hash a = z := by
  have ha : a ∈ l' := by
    have hmem := hperm.mem_iff.mp (List.mem_append_right l (List.mem_singleton_self a))
    rcases List.mem_append.mp hmem with hmem | hmem
    · exact hmem
    · exact absurd (List.mem_singleton.mp hmem) hne
  obtain ⟨c, hc, hprev⟩ := exists_next h' ha
  rcases prev_eq_or h (hperm.mem_iff.mpr hc) with hseed | ⟨d, hd, hd'⟩
  · exact hprev.symm.trans hseed
  · exact absurd (hd'.symm.trans hprev) (hash_ne_of_concat hnodup hd)

/-- **The links tell the order.** -/
theorem eq_of_perm {l l' : List ρ} (h : Linked prev hash z l) (h' : Linked prev hash z l')
    (hperm : l.Perm l') (hnodup : (l.map hash).Nodup) : l = l' := by
  induction l using List.reverseRecOn generalizing l' with
  | nil => exact (List.nil_perm.mp hperm).symm
  | append_singleton l a ih =>
    cases l' using List.reverseRecOn with
    | nil => exact absurd hperm.length_eq (by simp)
    | append_singleton l' b =>
      have hab : a = b := by
        by_contra hne
        have hnodup' := (hperm.map hash).nodup_iff.mp hnodup
        have ha := hash_eq_seed h h' hperm hnodup hne
        have hb := hash_eq_seed h' h hperm.symm hnodup' (Ne.symm hne)
        have hmem := List.mem_append_right l (List.mem_singleton_self a)
        have hmem' := hperm.mem_iff.mpr (List.mem_append_right l' (List.mem_singleton_self b))
        exact hne (eq_of_hash_eq hnodup hmem hmem' (ha.trans hb.symm))
      subst hab
      rw [ih (linked_concat.mp h).1 (linked_concat.mp h').1 ((List.perm_append_right_iff _).mp hperm)]
      rw [List.map_append] at hnodup
      exact hnodup.of_append_left

/-- **Two rows of a chain do not follow the same**, if no hash is the seed. -/
theorem eq_of_prev_eq {l : List ρ} (h : Linked prev hash z l) (hnodup : (l.map hash).Nodup)
    (hseed : ∀ r ∈ l, hash r ≠ z) {a b : ρ} (ha : a ∈ l) (hb : b ∈ l) (hab : prev a = prev b) :
    a = b := by
  induction l using List.reverseRecOn generalizing a b with
  | nil => cases ha
  | append_singleton l x ih =>
    have hl := linked_concat.mp h
    have hnodup' : (l.map hash).Nodup := by
      rw [List.map_append] at hnodup
      exact hnodup.of_append_left
    -- The last row follows the row before it, and none of the others does.
    have hlast : ∀ c ∈ l, prev c ≠ prev x := by
      intro c hc heq
      cases l using List.reverseRecOn with
      | nil => cases hc
      | append_singleton l y =>
        rw [hl.2, tip_concat] at heq
        rcases prev_eq_or hl.1 hc with hz | ⟨d, hd, hd'⟩
        · exact hseed y (by simp) (heq.symm.trans hz)
        · exact hash_ne_of_concat hnodup' hd (hd'.symm.trans heq)
    rcases List.mem_append.mp ha with ha' | ha' <;> rcases List.mem_append.mp hb with hb' | hb'
    · exact ih hl.1 hnodup' (fun r hr => hseed r (List.mem_append_left _ hr)) ha' hb' hab
    · obtain rfl := List.mem_singleton.mp hb'
      exact absurd hab (hlast a ha')
    · obtain rfl := List.mem_singleton.mp ha'
      exact absurd hab.symm (hlast b hb')
    · exact (List.mem_singleton.mp ha').trans (List.mem_singleton.mp hb').symm

end StarStats.Lib.Chain
