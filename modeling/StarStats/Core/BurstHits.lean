import StarStats.Core.BurstRuns

/-! # What a hit says

Every hit of `detectBursts` is `Sound` for one of the rules: it begins with a line of the anchor, goes
on with lines of the member, and no more than the tolerated lines stand between two of them. No line
is in two hits, and the hits are in the order of the window (`detectBursts_sound`). -/

namespace StarStats.Core.BurstHits

open List
open StarStats.Core.Parser StarStats.Core.Templates StarStats.Core.Bursts StarStats.Core.BurstOrder
open StarStats.Core.BurstRuns

/-- What a hit of a rule says of the window. -/
structure Sound (rule : BurstRule) (window : List LogLine) (h : BurstHit) : Prop where
  ruleId_eq : h.ruleId = rule.id
  increasing : h.memberIndices.Pairwise (· < ·)
  inside : ∀ i ∈ h.memberIndices, i < window.length
  first : h.memberIndices.head? = some h.startIndex
  last : h.memberIndices.getLast? = some h.endIndex
  anchor : ∃ l, window[h.startIndex]? = some l ∧ lineMatches l rule.anchor rule.tags
  later : ∀ i ∈ h.memberIndices.tail, ∃ l, window[i]? = some l ∧
    lineMatches l rule.member rule.tags
  size_eq : h.size = h.memberIndices.length
  long : rule.minBurstSize ≤ h.size
  near : h.memberIndices.IsChain fun i j => j - i - 1 ≤ rule.maxMemberGap

/-- A hit of the sweep is a hit of one scan, of lines that the scans before have left. -/
theorem exists_scan {window : List LogLine} : ∀ {rules : List BurstRule} {cells : List Cell}
    {h : BurstHit}, cellsFrom window cells → h ∈ sweep rules cells →
    ∃ rule ∈ rules, ∃ cells', cellsFrom window cells' ∧ h ∈ scanRule rule 0 cells'
  | [], _, _, _, hh => by simp [sweep] at hh
  | rule :: rules, cells, h, hc, hh => by
    rcases mem_append.mp hh with hh | hh
    · exact ⟨rule, mem_cons_self, cells, hc, hh⟩
    · obtain ⟨r, hr, cells', hc', hscan⟩ := exists_scan (cellsFrom_markConsumed _ hc) hh
      exact ⟨r, mem_cons_of_mem _ hr, cells', hc', hscan⟩

/-- **A hit of one scan is sound.** -/
theorem sound_of_mem_scanRule {window : List LogLine} {rule : BurstRule} {cells : List Cell}
    (hc : cellsFrom window cells) {h : BurstHit} (hh : h ∈ scanRule rule 0 cells) :
    Sound rule window h := by
  have hchain := isChain_of_mem_scanRule (from_of_cellsFrom hc) hh
  have hsweep : h ∈ sweep [rule] cells := mem_append_left _ hh
  have hsub := memberIndices_sublist hc hsweep
  obtain ⟨i, ms, rfl, hsize, ⟨a, ha, rfl, hanchor⟩, hms⟩ := mem_scanRule hh
  simp only [Cell.isAnchor, Bool.and_eq_true] at hanchor
  refine ⟨rfl, pairwise_lt_range.sublist hsub, fun i hi => mem_range.mp (hsub.subset hi), rfl, ?_,
    ⟨a.line, hc.2 a ha, hanchor.2⟩, fun j hj => ?_, rfl, hsize, ?_⟩
  · exact getLast?_eq_some_getLast _
  · obtain ⟨d, hd, rfl, hm⟩ := hms j hj
    simp only [Cell.isMember, Bool.and_eq_true] at hm
    exact ⟨d.line, hc.2 d hd, hm.2⟩
  · refine hchain.imp fun i j hij => ?_
    have := hij.2
    omega

theorem sound_of_mem_detectBursts {window : List LogLine} {rules : List BurstRule} {h : BurstHit}
    (hh : h ∈ detectBursts window rules) : ∃ rule ∈ rules, Sound rule window h := by
  obtain ⟨rule, hrule, cells, hc, hscan⟩ :=
    exists_scan (cellsFrom_cellsOf window) ((perm_detectBursts window rules).subset hh)
  exact ⟨rule, hrule, sound_of_mem_scanRule hc hscan⟩

theorem pairwise_disjoint_detectBursts (window : List LogLine) (rules : List BurstRule) :
    (detectBursts window rules).Pairwise fun g h => g.memberIndices.Disjoint h.memberIndices := by
  obtain ⟨l, hperm, hsub⟩ := detectBursts_subperm window rules
  have hnd : ((detectBursts window rules).flatMap (·.memberIndices)).Nodup :=
    hperm.nodup (nodup_range.sublist hsub)
  exact (nodup_flatMap.mp hnd).2

/-- **The hits are sound, disjoint, and in the order of the window.** -/
theorem detectBursts_sound (window : List LogLine) (rules : List BurstRule) :
    (∀ h ∈ detectBursts window rules, ∃ rule ∈ rules, Sound rule window h) ∧
      ((detectBursts window rules).Pairwise fun g h => g.memberIndices.Disjoint h.memberIndices) ∧
      (detectBursts window rules).Pairwise fun g h => g.startIndex ≤ h.startIndex :=
  ⟨fun _ hh => sound_of_mem_detectBursts hh, pairwise_disjoint_detectBursts window rules,
    pairwise_insertionSort _ _⟩

end StarStats.Core.BurstHits
