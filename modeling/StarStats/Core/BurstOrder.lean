import StarStats.Core.Bursts

/-! # The bursts of one rule lie one after the other

A scan never goes back, so of two bursts of one rule all of one lies before all of the other
(`burstsOf_apart`), and the members of each stand in the order of the items (`members_sublist`). Two
lists of items with the same lines have the same bursts (`burstsOf_map`). -/

namespace StarStats.Core.BurstOrder

open List
open StarStats.Core.Parser StarStats.Core.Templates StarStats.Core.Bursts

variable {α β : Type}

/-- Two lists lie one after the other in a third. -/
def Apart (l is js : List α) : Prop := is ++ js <+ l ∨ js ++ is <+ l

theorem Apart.symm {l is js : List α} (h : Apart l is js) : Apart l js is := Or.symm h

theorem pairwise_of_flatMap_sublist {f : β → List α} {u : List α} : ∀ {l : List β},
    l.flatMap f <+ u → l.Pairwise fun a b => f a ++ f b <+ u
  | [], _ => Pairwise.nil
  | a :: l, h => by
    rw [flatMap_cons] at h
    refine Pairwise.cons (fun b hb => ?_)
      (pairwise_of_flatMap_sublist ((sublist_append_right (f a) _).trans h))
    have hfb : f b <+ l.flatMap f := by
      rw [flatMap_def]
      exact sublist_flatten_of_mem (mem_map_of_mem hb)
    exact (hfb.append_left (f a)).trans h

theorem eq_or_apart_of_mem {f : β → List α} {u : List α} {l : List β} (h : l.flatMap f <+ u) {a b : β}
    (ha : a ∈ l) (hb : b ∈ l) : a = b ∨ Apart u (f a) (f b) := by
  have : Std.Symm fun a b => Apart u (f a) (f b) := ⟨fun _ _ h => h.symm⟩
  have hpw : l.Pairwise fun a b => Apart u (f a) (f b) :=
    (pairwise_of_flatMap_sublist h).imp Or.inl
  by_cases hab : a = b
  · exact Or.inl hab
  · exact Or.inr (hpw.forall ha hb hab)

/-! ### Hits -/

theorem freeIndices_sublist {window : List LogLine} {cells : List Cell}
    (hc : cellsFrom window cells) : freeIndices cells <+ range window.length := by
  rw [← hc.1]
  exact filter_sublist.map _

theorem ruleId_of_mem_sweep {window : List LogLine} {rules : List BurstRule} {cells : List Cell}
    (hc : cellsFrom window cells) {h : BurstHit} (hh : h ∈ sweep rules cells) :
    h.ruleId ∈ rules.map (·.id) := by
  obtain ⟨rule, hrule, i, ms, rfl, -⟩ := mem_sweep hc hh
  exact mem_map_of_mem hrule

/-- **Two hits of one rule lie one after the other.** -/
theorem sweep_apart {window : List LogLine} : ∀ {rules : List BurstRule} {cells : List Cell},
    cellsFrom window cells → (rules.map (·.id)).Nodup → ∀ {h h' : BurstHit},
    h ∈ sweep rules cells → h' ∈ sweep rules cells → h.ruleId = h'.ruleId →
    h = h' ∨ Apart (range window.length) h.memberIndices h'.memberIndices
  | [], _, _, _, _, _, hh, _, _ => by simp [sweep] at hh
  | rule :: rules, cells, hc, hnd, h, h', hh, hh', hid => by
    obtain ⟨hnot, hnd⟩ := nodup_cons.mp hnd
    have hscan := (@scanRule_sublist rule 0 cells).trans (freeIndices_sublist hc)
    have hc' := cellsFrom_markConsumed ((scanRule rule 0 cells).flatMap (·.memberIndices)) hc
    have hfirst : ∀ {g : BurstHit}, g ∈ scanRule rule 0 cells → g.ruleId = rule.id := by
      intro g hg
      obtain ⟨i, ms, rfl, -⟩ := mem_scanRule hg
      rfl
    rcases mem_append.mp hh with hh | hh <;> rcases mem_append.mp hh' with hh' | hh'
    · exact eq_or_apart_of_mem hscan hh hh'
    · exact absurd (ruleId_of_mem_sweep hc' hh') (by rwa [← hid, hfirst hh])
    · exact absurd (ruleId_of_mem_sweep hc' hh) (by rwa [hid, hfirst hh'])
    · exact sweep_apart hc' hnd hh hh' hid

theorem memberIndices_sublist {window : List LogLine} : ∀ {rules : List BurstRule}
    {cells : List Cell}, cellsFrom window cells → ∀ {h : BurstHit}, h ∈ sweep rules cells →
    h.memberIndices <+ range window.length
  | [], _, _, _, hh => by simp [sweep] at hh
  | rule :: rules, cells, hc, h, hh => by
    rcases mem_append.mp hh with hh | hh
    · refine Sublist.trans ?_ ((@scanRule_sublist rule 0 cells).trans
        (freeIndices_sublist hc))
      rw [flatMap_def]
      exact sublist_flatten_of_mem (mem_map_of_mem hh)
    · exact memberIndices_sublist (cellsFrom_markConsumed _ hc) hh

/-! ### Bursts -/

section Bursts
variable {log : α → LogLine} {items : List α} {rules : List BurstRule}

theorem filterMap_sublist_of_sublist_range {is : List ℕ} (h : is <+ range items.length) :
    is.filterMap (items[·]?) <+ items := by
  have := h.filterMap (items[·]?)
  rwa [filterMap_getElem?_range] at this

theorem exists_hit {b : Burst α} (hb : b ∈ burstsOf log items rules) :
    ∃ h ∈ sweep rules (cellsOf (items.map log)), resolve items h = some b ∧
      b.ruleId = h.ruleId ∧ b.members = h.memberIndices.filterMap (items[·]?) := by
  obtain ⟨h, hh, hres⟩ := mem_filterMap.mp hb
  obtain ⟨b', hb', hm⟩ := resolve_of_mem hh
  obtain rfl : b' = b := Option.some.inj (hb'.symm.trans hres)
  refine ⟨h, (perm_detectBursts _ _).subset hh, hres, ?_, hm⟩
  simp only [resolve, Option.bind_eq_bind, Option.bind_eq_some_iff, Option.some.injEq] at hres
  obtain ⟨_, -, _, -, rfl⟩ := hres
  rfl

/-- **The members of a burst stand in the order of the items.** -/
theorem members_sublist {b : Burst α} (hb : b ∈ burstsOf log items rules) : b.members <+ items := by
  obtain ⟨h, hh, -, -, hm⟩ := exists_hit hb
  have := memberIndices_sublist (cellsFrom_cellsOf _) hh
  rw [length_map] at this
  exact hm ▸ filterMap_sublist_of_sublist_range this

/-- **Two bursts of one rule lie one after the other.** -/
theorem burstsOf_apart (hids : (rules.map (·.id)).Nodup) {b b' : Burst α}
    (hb : b ∈ burstsOf log items rules) (hb' : b' ∈ burstsOf log items rules)
    (hid : b.ruleId = b'.ruleId) : b = b' ∨ Apart items b.members b'.members := by
  obtain ⟨h, hh, hres, hr, hm⟩ := exists_hit hb
  obtain ⟨h', hh', hres', hr', hm'⟩ := exists_hit hb'
  rcases sweep_apart (cellsFrom_cellsOf _) hids hh hh' (by rw [← hr, hid, hr']) with rfl | hap
  · exact Or.inl (Option.some.inj (hres.symm.trans hres'))
  · rw [length_map] at hap
    refine Or.inr ?_
    rw [hm, hm', Apart, ← filterMap_append, ← filterMap_append]
    exact hap.imp filterMap_sublist_of_sublist_range filterMap_sublist_of_sublist_range

/-- A burst, with something made of each item. -/
def mapItems (f : α → β) (b : Burst α) : Burst β :=
  ⟨b.ruleId, f b.anchor, f b.last, b.size, b.members.map f⟩

/-- **The bursts depend on the lines alone.** -/
theorem burstsOf_map {log : β → LogLine} (f : α → β) (items : List α) (rules : List BurstRule) :
    burstsOf log (items.map f) rules = (burstsOf (fun a => log (f a)) items rules).map (mapItems f) := by
  have hres : ∀ h, resolve (items.map f) h = (resolve items h).map (mapItems f) := by
    intro h
    simp only [resolve, getElem?_map, Option.bind_eq_bind]
    cases items[h.startIndex]? with
    | none => rfl
    | some a =>
      cases items[h.endIndex]? with
      | none => rfl
      | some z =>
        simp only [Option.map_some, Option.bind_some, mapItems, map_filterMap]
  rw [burstsOf, burstsOf, map_map, map_filterMap]
  simp only [hres]
  rfl

end Bursts

end StarStats.Core.BurstOrder
