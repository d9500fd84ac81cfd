import Mathlib.Data.List.Induction
import Mathlib.Data.List.Nodup
import Mathlib.Data.List.Pairwise
import Mathlib.Data.List.Perm.Subperm
import Mathlib.Order.Lattice

/-! # Greedy matching

Some entries wait in a list, and others come one after the other; each takes, of the waiting entries
that fit it and that nobody has taken, the one with the greatest key. `serve_cases` says all that one
turn does: nothing, where no free entry fits, or it takes the best one. What holds of a whole run is
derived from it.

Who takes what depends on the order in which they come, in general. Where no two have the same first
choice, each gets its own (`serveAll_eq_map`). -/

namespace StarStats.Lib.Matching

open List

variable {α β κ : Type} [LinearOrder κ]

/-- The entry with the greatest key; of several, the last one. -/
def maxBy (key : α → κ) : List α → Option α
  | [] => none
  | a :: as =>
    match maxBy key as with
    | none => some a
    | some b => if key a ≤ key b then some b else some a

theorem maxBy_eq_none {key : α → κ} : ∀ {as : List α}, maxBy key as = none → as = []
  | [], _ => rfl
  | a :: as, h => by
    unfold maxBy at h
    split at h
    · cases h
    · split_ifs at h

/-- **The entry with the greatest key is one of the list, and no key is greater.** -/
theorem maxBy_eq_some {key : α → κ} : ∀ {as : List α} {a : α}, maxBy key as = some a →
    a ∈ as ∧ ∀ b ∈ as, key b ≤ key a
  | [], _, h => by simp [maxBy] at h
  | c :: as, a, h => by
    unfold maxBy at h
    split at h
    · next hnone =>
      obtain rfl := Option.some.inj h
      rw [maxBy_eq_none hnone]
      simp
    · next b hb =>
      obtain ⟨hmem, hmax⟩ := maxBy_eq_some hb
      split_ifs at h with hle
      · obtain rfl := Option.some.inj h
        refine ⟨mem_cons_of_mem _ hmem, fun d hd => ?_⟩
        rcases mem_cons.mp hd with rfl | hd
        · exact hle
        · exact hmax d hd
      · obtain rfl := Option.some.inj h
        refine ⟨mem_cons_self, fun d hd => ?_⟩
        rcases mem_cons.mp hd with rfl | hd
        · exact le_rfl
        · exact le_trans (hmax d hd) (le_of_not_ge hle)

/-- An entry that waits, and who has taken it. -/
abbrev Slot (α β : Type) := α × Option β

section Serve
variable (key : α → κ) (fits : β → α → Bool)

/-- The place of the best free entry that fits. -/
def pick (b : β) (slots : List (Slot α β)) : Option ℕ :=
  (maxBy (fun s : Slot α β × ℕ => key s.1.1)
    (slots.zipIdx.filter fun s => s.1.2.isNone && fits b s.1.1)).map (·.2)

/-- One turn: the best free entry that fits is taken. -/
def serve (slots : List (Slot α β)) (b : β) : List (Slot α β) :=
  match pick key fits b slots with
  | some i => slots.modify i fun s => (s.1, some b)
  | none => slots

/-- All turns, in order. -/
def serveAll (slots : List (Slot α β)) (bs : List β) : List (Slot α β) :=
  bs.foldl (serve key fits) slots

/-- Nobody has taken anything yet. -/
def waiting (as : List α) : List (Slot α β) := as.map fun a => (a, none)

/-- Those who have taken an entry. -/
def served (slots : List (Slot α β)) : List β := slots.filterMap (·.2)

/-- The best of the entries for `b`, if all were free. -/
def firstChoice (as : List α) (b : β) : Option α := maxBy key (as.filter (fits b))

end Serve

section Turns
variable {key : α → κ} {fits : β → α → Bool}

/-! ### One turn -/

/-- No free entry fits. -/
def NoneFits (fits : β → α → Bool) (slots : List (Slot α β)) (b : β) : Prop :=
  ∀ a, (a, none) ∈ slots → ¬ fits b a

/-- **What a turn does: nothing, where no free entry fits, or it takes the best one that does.** -/
theorem serve_cases (key : α → κ) (fits : β → α → Bool) (slots : List (Slot α β)) (b : β) :
    (serve key fits slots b = slots ∧ NoneFits fits slots b) ∨
      ∃ l a r, slots = l ++ (a, none) :: r ∧ serve key fits slots b = l ++ (a, some b) :: r ∧
        fits b a ∧ ∀ a', (a', none) ∈ slots → fits b a' → key a' ≤ key a := by
  unfold serve pick
  cases hm : maxBy (fun s : Slot α β × ℕ => key s.1.1)
      (slots.zipIdx.filter fun s => s.1.2.isNone && fits b s.1.1) with
  | none =>
    refine Or.inl ⟨rfl, fun a ha hfit => ?_⟩
    have hempty := maxBy_eq_none hm
    obtain ⟨i, hi⟩ := getElem?_of_mem ha
    have hmem : ((a, none), i) ∈ slots.zipIdx.filter fun s => s.1.2.isNone && fits b s.1.1 :=
      mem_filter.mpr ⟨mem_zipIdx_iff_getElem?.mpr hi, by simpa using hfit⟩
    rw [hempty] at hmem
    cases hmem
  | some s =>
    obtain ⟨⟨a, o⟩, i⟩ := s
    obtain ⟨hmem, hmax⟩ := maxBy_eq_some hm
    obtain ⟨hzip, hok⟩ := mem_filter.mp hmem
    simp only [Bool.and_eq_true, Option.isNone_iff_eq_none] at hok
    obtain ⟨rfl, hfit⟩ := hok
    have hi : slots[i]? = some (a, none) := mem_zipIdx_iff_getElem?.mp hzip
    obtain ⟨hlt, hget⟩ := List.getElem?_eq_some_iff.mp hi
    obtain ⟨l, s, r, hslots, hlen, hmod⟩ :=
      exists_of_modify (fun s : Slot α β => (s.1, some b)) hlt
    obtain rfl : s = (a, none) := by
      subst hslots
      simpa [← hlen] using hget
    refine Or.inr ⟨l, a, r, hslots, hmod, hfit, fun a' ha' hfit' => ?_⟩
    obtain ⟨j, hj⟩ := getElem?_of_mem ha'
    exact hmax ((a', none), j) (mem_filter.mpr ⟨mem_zipIdx_iff_getElem?.mpr hj, by simpa using hfit'⟩)

theorem map_fst_serve (slots : List (Slot α β)) (b : β) :
    (serve key fits slots b).map (·.1) = slots.map (·.1) := by
  obtain ⟨heq, -⟩ | ⟨l, a, r, rfl, heq, -⟩ := serve_cases key fits slots b
  · rw [heq]
  · simp [heq]

theorem mem_serve_of_mem {slots : List (Slot α β)} {a : α} {b b' : β} (h : (a, some b) ∈ slots) :
    (a, some b) ∈ serve key fits slots b' := by
  obtain ⟨heq, -⟩ | ⟨l, a', r, rfl, heq, -⟩ := serve_cases key fits slots b'
  · rwa [heq]
  · rw [heq]
    simp only [mem_append, mem_cons, Prod.mk.injEq, reduceCtorEq, and_false, false_or] at h ⊢
    rcases h with h | h
    · exact Or.inl h
    · exact Or.inr (Or.inr h)

theorem served_serve (key : α → κ) (fits : β → α → Bool) (slots : List (Slot α β)) (b : β) :
    served (serve key fits slots b) = served slots ∨
      served (serve key fits slots b) ~ b :: served slots := by
  obtain ⟨heq, -⟩ | ⟨l, a, r, rfl, heq, -⟩ := serve_cases key fits slots b
  · exact Or.inl (by rw [heq])
  · right
    simp only [heq, served, filterMap_append, filterMap_cons]
    exact perm_middle

/-- Whoever is not served at its turn found no free entry that fits. -/
theorem noneFits_of_not_mem_served {slots : List (Slot α β)} {b : β}
    (h : b ∉ served (serve key fits slots b)) : NoneFits fits slots b := by
  obtain ⟨-, hnone⟩ | ⟨l, a, r, rfl, heq, -⟩ := serve_cases key fits slots b
  · exact hnone
  · exact absurd (by simp [heq, served]) h

/-- Each entry that is taken fits the one that has taken it. -/
def AllFit (fits : β → α → Bool) (slots : List (Slot α β)) : Prop :=
  ∀ a b, (a, some b) ∈ slots → fits b a

theorem AllFit.serve {slots : List (Slot α β)} (h : AllFit fits slots) (b : β) :
    AllFit fits (Matching.serve key fits slots b) := by
  obtain ⟨heq, -⟩ | ⟨l, a, r, rfl, heq, hfit, -⟩ := serve_cases key fits slots b
  · rwa [heq]
  · intro a' b' hmem
    rw [heq] at hmem
    rcases mem_append.mp hmem with hl | hr
    · exact h a' b' (mem_append_left _ hl)
    · rcases mem_cons.mp hr with heq | hr
      · cases heq
        exact hfit
      · exact h a' b' (mem_append_right _ (mem_cons_of_mem _ hr))

/-! ### All turns -/

@[simp] theorem serveAll_nil (slots : List (Slot α β)) : serveAll key fits slots [] = slots := rfl

@[simp] theorem serveAll_cons (slots : List (Slot α β)) (b : β) (bs : List β) :
    serveAll key fits slots (b :: bs) = serveAll key fits (serve key fits slots b) bs := rfl

theorem serveAll_append (slots : List (Slot α β)) (bs cs : List β) :
    serveAll key fits slots (bs ++ cs) = serveAll key fits (serveAll key fits slots bs) cs :=
  foldl_append

theorem map_fst_serveAll : ∀ (slots : List (Slot α β)) (bs : List β),
    (serveAll key fits slots bs).map (·.1) = slots.map (·.1)
  | _, [] => rfl
  | slots, b :: bs => by rw [serveAll_cons, map_fst_serveAll, map_fst_serve]

theorem mem_serveAll_of_mem {a : α} {b : β} : ∀ {slots : List (Slot α β)} {bs : List β},
    (a, some b) ∈ slots → (a, some b) ∈ serveAll key fits slots bs
  | _, [], h => h
  | _, _ :: _, h => by
    rw [serveAll_cons]
    exact mem_serveAll_of_mem (mem_serve_of_mem h)

theorem mem_served {slots : List (Slot α β)} {b : β} :
    b ∈ served slots ↔ ∃ a, (a, some b) ∈ slots := by
  simp [served]

/-- **Nobody is served twice.** -/
theorem served_serveAll_subperm (key : α → κ) (fits : β → α → Bool) :
    ∀ (slots : List (Slot α β)) (bs : List β),
    served (serveAll key fits slots bs) <+~ served slots ++ bs
  | slots, [] => by
    rw [append_nil]
    exact Subperm.refl _
  | slots, b :: bs => by
    rw [serveAll_cons]
    refine (served_serveAll_subperm key fits (serve key fits slots b) bs).trans ?_
    rcases served_serve key fits slots b with heq | hperm
    · rw [heq]
      exact ((sublist_cons_self b bs).append_left _).subperm
    · exact ((hperm.append_right bs).trans perm_middle.symm).subperm

theorem AllFit.serveAll {slots : List (Slot α β)} (h : AllFit fits slots) :
    ∀ bs, AllFit fits (Matching.serveAll key fits slots bs)
  | [] => h
  | b :: bs => (h.serve b).serveAll bs

/-- **Whoever is left unserved found no free entry that fits at its turn.** -/
theorem noneFits_of_unserved {slots : List (Slot α β)} {before later : List β} {b : β}
    (h : b ∉ served (serveAll key fits slots (before ++ b :: later))) :
    NoneFits fits (serveAll key fits slots before) b := by
  refine @noneFits_of_not_mem_served _ _ _ _ key fits _ _ fun hmem => h ?_
  obtain ⟨a, ha⟩ := mem_served.mp hmem
  rw [serveAll_append, serveAll_cons]
  exact mem_served.mpr ⟨a, mem_serveAll_of_mem ha⟩

theorem allFit_waiting (as : List α) : AllFit fits (waiting as) := by
  intro a b h
  simp [waiting] at h

@[simp] theorem map_fst_waiting (as : List α) : (waiting as : List (Slot α β)).map (·.1) = as := by
  simp [waiting, Function.comp_def]

@[simp] theorem served_waiting (as : List α) : served (waiting as : List (Slot α β)) = [] := by
  simp [served, waiting]

end Turns

/-! ### First choices -/

section FirstChoice
variable {key : α → κ} {fits : β → α → Bool}

theorem maxBy_eq_of_max {as : List α} (h : (as.map key).Nodup) {a : α} (ha : a ∈ as)
    (hmax : ∀ b ∈ as, key b ≤ key a) : maxBy key as = some a := by
  cases hm : maxBy key as with
  | none =>
    rw [maxBy_eq_none hm] at ha
    cases ha
  | some b =>
    obtain ⟨hb, hbmax⟩ := maxBy_eq_some hm
    exact congrArg some (inj_on_of_nodup_map h hb ha (le_antisymm (hmax b hb) (hbmax a ha)))

theorem firstChoice_eq_some {as : List α} {a : α} {b : β} (h : firstChoice key fits as b = some a) :
    a ∈ as ∧ fits b a ∧ ∀ a' ∈ as, fits b a' → key a' ≤ key a := by
  obtain ⟨hmem, hmax⟩ := maxBy_eq_some h
  obtain ⟨ha, hfit⟩ := mem_filter.mp hmem
  exact ⟨ha, hfit, fun a' ha' hfit' => hmax a' (mem_filter.mpr ⟨ha', hfit'⟩)⟩

theorem firstChoice_eq_none {as : List α} {b : β} (h : firstChoice key fits as b = none) :
    ∀ a ∈ as, ¬ fits b a := by
  have hempty := maxBy_eq_none h
  exact filter_eq_nil_iff.mp hempty

theorem firstChoice_perm {as as' : List α} (hperm : as ~ as') (h : (as.map key).Nodup) (b : β) :
    firstChoice key fits as' b = firstChoice key fits as b := by
  have hfilter := hperm.filter (fits b)
  have hnd' : ((as'.filter (fits b)).map key).Nodup :=
    ((hperm.map key).nodup_iff.mp h).sublist (filter_sublist.map _)
  unfold firstChoice
  cases hm : maxBy key (as.filter (fits b)) with
  | none =>
    rw [maxBy_eq_none hm] at hfilter
    rw [hfilter.nil_eq.symm]
    rfl
  | some a =>
    obtain ⟨ha, hmax⟩ := maxBy_eq_some hm
    exact maxBy_eq_of_max hnd' (hfilter.subset ha) fun c hc => hmax c (hfilter.symm.subset hc)

/-- Whoever comes first gets its first choice, and keeps it. -/
theorem mem_serveAll_first {as : List α} (h : (as.map key).Nodup) {a : α} {b : β}
    (hb : firstChoice key fits as b = some a) (bs : List β) :
    (a, some b) ∈ serveAll key fits (waiting as) (b :: bs) := by
  obtain ⟨ha, hfit, hmax⟩ := firstChoice_eq_some hb
  have hfree : (a, none) ∈ (waiting as : List (Slot α β)) := mem_map_of_mem ha
  rw [serveAll_cons]
  refine mem_serveAll_of_mem ?_
  rcases serve_cases key fits (waiting as) b with
    ⟨-, hnone⟩ | ⟨l, a', r, hslots, heq, hfit', hmax'⟩
  · exact absurd hfit (hnone a hfree)
  · have ha' : a' ∈ as := by
      have hmem : (a', none) ∈ (waiting as : List (Slot α β)) := by
        rw [hslots]
        simp
      simpa [waiting] using hmem
    have hkey := le_antisymm (hmax' a hfree hfit) (hmax a' ha' hfit')
    obtain rfl := inj_on_of_nodup_map h ha ha' hkey
    rw [heq]
    simp

variable [DecidableEq α]

/-- Each entry, with the one of `bs` whose first choice it is. -/
def byFirstChoice (key : α → κ) (fits : β → α → Bool) (as : List α) (bs : List β) :
    List (Slot α β) :=
  as.map fun a => (a, bs.find? fun b => firstChoice key fits as b = some a)

theorem find?_first_eq_none {as : List α} {bs cs : List β} {a : α} {b : β}
    (hnd : (bs.filterMap (firstChoice key fits as) ++
      (b :: cs).filterMap (firstChoice key fits as)).Nodup)
    (hb : firstChoice key fits as b = some a) :
    (bs.find? fun b => firstChoice key fits as b = some a) = none := by
  rw [find?_eq_none]
  intro b' hb' heq
  have hleft : a ∈ bs.filterMap (firstChoice key fits as) :=
    mem_filterMap.mpr ⟨b', hb', of_decide_eq_true heq⟩
  have hright : a ∈ (b :: cs).filterMap (firstChoice key fits as) :=
    mem_filterMap.mpr ⟨b, mem_cons_self, hb⟩
  exact (nodup_append.mp hnd).2.2 a hleft a hright rfl

/-- One more turn gives one more first choice. -/
theorem serve_byFirstChoice {as : List α} (hkey : (as.map key).Nodup) {bs : List β} {b : β}
    (hnd : (bs.filterMap (firstChoice key fits as) ++
      [b].filterMap (firstChoice key fits as)).Nodup) :
    serve key fits (byFirstChoice key fits as bs) b = byFirstChoice key fits as (bs ++ [b]) := by
  have hfind : ∀ a, (bs ++ [b]).find? (fun b => firstChoice key fits as b = some a) =
      (bs.find? fun b => firstChoice key fits as b = some a).or
        (if firstChoice key fits as b = some a then some b else none) := by
    intro a
    rw [find?_append]
    by_cases h : firstChoice key fits as b = some a <;> simp [h]
  rcases serve_cases key fits (byFirstChoice key fits as bs) b with
    ⟨heq, hnone⟩ | ⟨l, a, r, hslots, heq, hfit, hmax⟩
  · -- no free entry fits, so there is no first choice: it would be free
    have hchoice : firstChoice key fits as b = none := by
      by_contra hne
      obtain ⟨a, ha⟩ := Option.ne_none_iff_exists'.mp hne
      obtain ⟨hmem, hfit, -⟩ := firstChoice_eq_some ha
      refine hnone a (mem_map.mpr ⟨a, hmem, ?_⟩) hfit
      rw [find?_first_eq_none hnd ha]
    rw [heq, byFirstChoice, byFirstChoice]
    refine map_congr_left fun a _ => ?_
    rw [hfind, hchoice, if_neg (by simp), Option.or_none]
  · -- the free entry that is taken is the first choice
    have hmem : (a, none) ∈ byFirstChoice key fits as bs := by
      rw [hslots]
      simp
    have ha : a ∈ as := by
      obtain ⟨a', ha', heq'⟩ := mem_map.mp hmem
      rwa [← (Prod.mk.inj heq').1]
    have hchoice : firstChoice key fits as b = some a := by
      cases hc : firstChoice key fits as b with
      | none => exact absurd hfit (firstChoice_eq_none hc a ha)
      | some c =>
        obtain ⟨hcmem, hcfit, hcmax⟩ := firstChoice_eq_some hc
        have hcfree : (c, none) ∈ byFirstChoice key fits as bs :=
          mem_map.mpr ⟨c, hcmem, by rw [find?_first_eq_none hnd hc]⟩
        have hkeys := le_antisymm (hmax c hcfree hcfit) (hcmax a ha hfit)
        rw [inj_on_of_nodup_map hkey hcmem ha hkeys]
    obtain ⟨l', rest, rfl, rfl, hrest⟩ := map_eq_append_iff.mp hslots
    obtain ⟨a', r', rfl, ha', rfl⟩ := map_eq_cons_iff.mp hrest
    obtain rfl : a' = a := (Prod.mk.inj ha').1
    have hother : ∀ c, c ≠ a' → (bs ++ [b]).find? (fun b => firstChoice key fits
        (l' ++ a' :: r') b = some c) =
        bs.find? fun b => firstChoice key fits (l' ++ a' :: r') b = some c := by
      intro c hc
      rw [hfind, hchoice, if_neg (by simpa using Ne.symm hc), Option.or_none]
    have hhere : (bs ++ [b]).find? (fun b => firstChoice key fits
        (l' ++ a' :: r') b = some a') = some b := by
      rw [hfind, find?_first_eq_none hnd hchoice, hchoice, if_pos rfl, Option.none_or]
    have has := hkey.of_map
    have hl : ∀ c ∈ l', c ≠ a' := fun c hc =>
      (nodup_append.mp has).2.2 c hc a' mem_cons_self
    have hr : ∀ c ∈ r', c ≠ a' := fun c hc heq =>
      (nodup_cons.mp (nodup_append.mp has).2.1).1 (heq ▸ hc)
    rw [heq, byFirstChoice, map_append, map_cons, hhere]
    congr 1
    · exact map_congr_left fun c hc => by rw [hother c (hl c hc)]
    · congr 1
      exact map_congr_left fun c hc => by rw [hother c (hr c hc)]

/-- **Where no two have the same first choice, each gets its own.** -/
theorem serveAll_eq_byFirstChoice {as : List α} (hkey : (as.map key).Nodup) {bs : List β}
    (hnd : (bs.filterMap (firstChoice key fits as)).Nodup) :
    serveAll key fits (waiting as) bs = byFirstChoice key fits as bs := by
  induction bs using reverseRecOn with
  | nil => rfl
  | append_singleton bs b ih =>
    rw [filterMap_append] at hnd
    rw [serveAll_append, serveAll_cons, serveAll_nil, ih (nodup_append.mp hnd).1]
    exact serve_byFirstChoice hkey hnd

end FirstChoice

end StarStats.Lib.Matching
