import StarStats.Core.BurstOrder

/-! # Which lines are in a burst

Where the anchor of a rule is a line like its members, and no line is one for two rules, a line of a
window is a member of a burst exactly if it stands in a run: among enough lines of its rule, each with
few enough others before it (`mem_detectBursts_iff`). The scan is greedy, and never ends inside of a
run. -/

namespace StarStats.Core.BurstRuns

open List
open StarStats.Core.Parser StarStats.Core.Templates StarStats.Core.Bursts StarStats.Core.BurstOrder

/-- One index follows another, with at most `gap` in between. -/
def Follows (gap a b : ℕ) : Prop := a < b ∧ b ≤ a + gap + 1

/-- The line at `i` is one of at least `minBurstSize` lines of the rule, of which each follows the one
before with at most `maxMemberGap` in between. -/
def InRun (rule : BurstRule) (window : List LogLine) (i : ℕ) : Prop :=
  ∃ is : List ℕ, i ∈ is ∧ rule.minBurstSize ≤ is.length ∧
    is.IsChain (Follows rule.maxMemberGap) ∧
    ∀ j ∈ is, ∃ l, window[j]? = some l ∧ lineMatches l rule.member rule.tags

/-- The indices of the cells are those from `s` on. -/
def From (s : ℕ) (cs : List Cell) : Prop := cs.map (·.idx) = range' s cs.length

theorem From.head {s : ℕ} {c : Cell} {cs : List Cell} (h : From s (c :: cs)) :
    c.idx = s ∧ From (s + 1) cs := by
  rw [From, map_cons, length_cons, range'_succ] at h
  exact List.cons.inj h

theorem From.le {s : ℕ} {cs : List Cell} (h : From s cs) {c : Cell} (hc : c ∈ cs) : s ≤ c.idx := by
  have hmem : c.idx ∈ range' s cs.length := h ▸ mem_map_of_mem hc
  exact (mem_range'_1.mp hmem).1

/-- The cells at these indices are members. -/
def Free (rule : BurstRule) (cs : List Cell) (is : List ℕ) : Prop :=
  ∀ j ∈ is, ∃ c ∈ cs, c.idx = j ∧ c.isMember rule

theorem Free.tail {rule : BurstRule} {cs : List Cell} {j : ℕ} {is : List ℕ}
    (h : Free rule cs (j :: is)) : Free rule cs is := fun k hk => h k (mem_cons_of_mem _ hk)

theorem Free.of_lt {rule : BurstRule} {s : ℕ} {c : Cell} {cs : List Cell} {is : List ℕ}
    (h : Free rule (c :: cs) is) (hc : c.idx = s) (hlt : ∀ j ∈ is, s < j) : Free rule cs is := by
  intro j hj
  obtain ⟨d, hd, hdj, hm⟩ := h j hj
  rcases mem_cons.mp hd with rfl | hd
  · have := hlt j hj
    omega
  · exact ⟨d, hd, hdj, hm⟩

theorem lt_of_isChain {gap j : ℕ} {is : List ℕ} (h : (j :: is).IsChain (Follows gap)) :
    ∀ k ∈ is, j < k := by
  have hlt : (j :: is).IsChain (· < ·) := h.imp fun _ _ hab => hab.1
  exact (pairwise_cons.mp hlt.pairwise).1

section Scan
variable {rule : BurstRule}

/-! ### One walk -/

/-- The members of a walk follow each other, `p` being the last one before it. -/
theorem isChain_collect : ∀ {gap p : ℕ} {cs : List Cell}, From (p + gap + 1) cs →
    gap ≤ rule.maxMemberGap →
    (p :: (collect rule gap cs).1).IsChain (Follows rule.maxMemberGap)
  | _, p, [], _, _ => by simp [collect]
  | gap, p, c :: cs, hfrom, hgap => by
    obtain ⟨hc, hcs⟩ := hfrom.head
    unfold collect
    by_cases hm : c.isMember rule
    · rw [if_pos hm]
      refine isChain_cons_cons.mpr ⟨⟨by omega, by omega⟩, ?_⟩
      rw [hc]
      exact isChain_collect hcs (Nat.zero_le _)
    · rw [if_neg hm]
      by_cases hg : rule.maxMemberGap < gap + 1
      · rw [if_pos hg]
        exact List.IsChain.singleton p
      · rw [if_neg hg]
        exact @isChain_collect (gap + 1) p cs (by rwa [← Nat.add_assoc p gap 1]) (by omega)

/-- A walk that comes to one line of a run takes the rest of it. -/
theorem collect_takes : ∀ {gap s j : ℕ} {cs : List Cell} {is : List ℕ}, From s cs → s ≤ j →
    (j :: is).IsChain (Follows rule.maxMemberGap) → Free rule cs (j :: is) →
    (j + gap ≤ s + rule.maxMemberGap → j :: is ⊆ (collect rule gap cs).1) ∧
      (j :: is ⊆ (collect rule gap cs).1 ∨ s + (collect rule gap cs).2 ≤ j)
  | _, _, j, [], is, _, _, _, hfree => by
    obtain ⟨c, hc, -⟩ := hfree j mem_cons_self
    exact absurd hc not_mem_nil
  | gap, s, j, c :: cs, is, hfrom, hsj, hchain, hfree => by
    obtain ⟨hc, hcs⟩ := hfrom.head
    have hlt := lt_of_isChain hchain
    unfold collect
    by_cases hm : c.isMember rule
    · simp only [if_pos hm]
      rcases Nat.eq_or_lt_of_le hsj with rfl | hsj
      · -- the walk is at the run: what follows is within the gap
        suffices h : is ⊆ (collect rule 0 cs).1 by
          have hall : s :: is ⊆ c.idx :: (collect rule 0 cs).1 := by
            rw [hc]
            exact cons_subset_cons s h
          exact ⟨fun _ => hall, Or.inl hall⟩
        cases is with
        | nil => exact nil_subset _
        | cons k is =>
          obtain ⟨hsk, hrest⟩ := isChain_cons_cons.mp hchain
          have hfree' := hfree.tail.of_lt hc hlt
          exact (collect_takes hcs hsk.1 hrest hfree').1 (by have := hsk.2; omega)
      · have hfree' : Free rule cs (j :: is) := hfree.of_lt hc fun k hk => by
          rcases mem_cons.mp hk with rfl | hk
          · exact hsj
          · exact hsj.trans (hlt k hk)
        obtain ⟨hnear, hor⟩ := @collect_takes 0 (s + 1) j cs is hcs hsj hchain hfree'
        refine ⟨fun _ => ?_, ?_⟩
        · refine subset_cons_of_subset _ (hnear ?_)
          omega
        · rcases hor with h | h
          · exact Or.inl (subset_cons_of_subset _ h)
          · exact Or.inr (by omega)
    · rw [if_neg hm]
      have hne : j ≠ s := by
        rintro rfl
        obtain ⟨d, hd, hdj, hdm⟩ := hfree j mem_cons_self
        rcases mem_cons.mp hd with rfl | hd
        · exact hm hdm
        · have := hcs.le hd
          omega
      have hsj : s < j := by omega
      have hfree' : Free rule cs (j :: is) := hfree.of_lt hc fun k hk => by
        rcases mem_cons.mp hk with rfl | hk
        · exact hsj
        · exact hsj.trans (hlt k hk)
      by_cases hg : rule.maxMemberGap < gap + 1
      · rw [if_pos hg]
        exact ⟨fun h => by omega, Or.inr hsj.le⟩
      · simp only [if_neg hg]
        obtain ⟨hnear, hor⟩ := @collect_takes (gap + 1) (s + 1) j cs is hcs hsj hchain hfree'
        refine ⟨fun h => hnear (by omega), ?_⟩
        rcases hor with h | h
        · exact Or.inl h
        · exact Or.inr (by omega)

/-! ### One scan -/

theorem length_le_of_isChain {gap : ℕ} {is ms : List ℕ} (h : is.IsChain (Follows gap))
    (hsub : is ⊆ ms) : is.length ≤ ms.length := by
  have hlt : is.IsChain (· < ·) := h.imp fun _ _ hab => hab.1
  have hnd : is.Nodup := hlt.pairwise.imp fun hab => hab.ne
  exact (subperm_of_subset hnd hsub).length_le

theorem isAnchor_eq_isMember (huni : rule.anchor = rule.member) (c : Cell) :
    c.isAnchor rule = c.isMember rule := by
  rw [Cell.isAnchor, Cell.isMember, huni]

/-- **A scan takes every run that is long enough.** -/
theorem scanRule_takes (huni : rule.anchor = rule.member) : ∀ {skip s : ℕ} {cs : List Cell}
    {is : List ℕ}, From s cs → (∀ j ∈ is, s + skip ≤ j) →
    is.IsChain (Follows rule.maxMemberGap) → rule.minBurstSize ≤ is.length → Free rule cs is →
    is ⊆ (scanRule rule skip cs).flatMap (·.memberIndices)
  | _, _, _, [], _, _, _, _, _ => nil_subset _
  | _, _, [], j :: is, _, _, _, _, hfree => by
    obtain ⟨c, hc, -⟩ := hfree j mem_cons_self
    exact absurd hc not_mem_nil
  | skip + 1, s, c :: cs, j :: is, hfrom, hskip, hchain, hmin, hfree => by
    obtain ⟨hc, hcs⟩ := hfrom.head
    have hfree' := hfree.of_lt hc fun k hk => by
      have := hskip k hk
      omega
    exact @scanRule_takes huni skip (s + 1) cs _ hcs
      (fun k hk => by have := hskip k hk; omega) hchain hmin hfree'
  | 0, s, c :: cs, j :: is, hfrom, hskip, hchain, hmin, hfree => by
    obtain ⟨hc, hcs⟩ := hfrom.head
    have hlt := lt_of_isChain hchain
    have hsj : s ≤ j := hskip j mem_cons_self
    have hmem := isAnchor_eq_isMember huni c
    unfold scanRule
    by_cases hj : j = s
    · subst hj
      have hm : c.isMember rule := by
        obtain ⟨d, hd, hdj, hdm⟩ := hfree j mem_cons_self
        rcases mem_cons.mp hd with rfl | hd
        · exact hdm
        · have := hcs.le hd
          omega
      have hsub : is ⊆ (collect rule 0 cs).1 := by
        cases is with
        | nil => exact nil_subset _
        | cons k is =>
          obtain ⟨hjk, hrest⟩ := isChain_cons_cons.mp hchain
          exact (collect_takes hcs hjk.1 hrest (hfree.tail.of_lt hc hlt)).1
            (by have := hjk.2; omega)
      have hall : j :: is ⊆ j :: (collect rule 0 cs).1 := cons_subset_cons j hsub
      have hlen := length_le_of_isChain hchain hall
      rw [length_cons] at hlen hmin
      rw [length_cons] at hlen
      simp only [hmem, if_pos hm, hc]
      rw [if_pos (by omega), flatMap_cons, memberIndices_hit]
      exact subset_append_of_subset_left _ hall
    · have hsj' : s < j := by omega
      have hbehind : ∀ k ∈ j :: is, s < k := fun k hk => by
        rcases mem_cons.mp hk with rfl | hk
        · exact hsj'
        · exact hsj'.trans (hlt k hk)
      have hfree' := hfree.of_lt hc hbehind
      have hnext := @scanRule_takes huni 0 (s + 1) cs _ hcs hbehind hchain hmin hfree'
      by_cases hm : c.isMember rule
      · simp only [hmem, if_pos hm]
        by_cases hs : rule.minBurstSize ≤ (collect rule 0 cs).1.length + 1
        · rw [if_pos hs, flatMap_cons, memberIndices_hit]
          rcases (@collect_takes rule 0 (s + 1) j cs is hcs hsj' hchain hfree').2 with h | h
          · exact subset_append_of_subset_left _ (subset_cons_of_subset _ h)
          · refine subset_append_of_subset_right _ (scanRule_takes huni hcs ?_ hchain hmin hfree')
            intro k hk
            rcases mem_cons.mp hk with rfl | hk
            · exact h
            · exact h.trans (hlt k hk).le
        · rw [if_neg hs]
          exact hnext
      · simp only [hmem, if_neg hm]
        exact hnext

theorem isChain_of_mem_scanRule : ∀ {skip s : ℕ} {cs : List Cell} {h : BurstHit}, From s cs →
    h ∈ scanRule rule skip cs → h.memberIndices.IsChain (Follows rule.maxMemberGap)
  | _, _, [], h, _, hh => by simp [scanRule] at hh
  | skip + 1, s, c :: cs, h, hfrom, hh => isChain_of_mem_scanRule hfrom.head.2 hh
  | 0, s, c :: cs, h, hfrom, hh => by
    obtain ⟨hc, hcs⟩ := hfrom.head
    unfold scanRule at hh
    split_ifs at hh with ha
    · simp only at hh
      split_ifs at hh with hs
      · rcases mem_cons.mp hh with rfl | hh
        · rw [memberIndices_hit, hc]
          exact isChain_collect hcs (Nat.zero_le _)
        · exact isChain_of_mem_scanRule hcs hh
      · exact isChain_of_mem_scanRule hcs hh
    · exact isChain_of_mem_scanRule hcs hh

/-! ### Hits are maximal -/

theorem lt_of_mem_collect {s : ℕ} {cs : List Cell} (hfrom : From s cs) {j : ℕ}
    (hj : j ∈ (collect rule 0 cs).1) : j < s + (collect rule 0 cs).2 := by
  obtain ⟨c, hc, rfl⟩ := mem_map.mp ((collect_sublist 0 cs).subset hj)
  have htake : c.idx ∈ (cs.take (collect rule 0 cs).2).map (·.idx) :=
    mem_map_of_mem (mem_of_mem_filter hc)
  rw [map_take, hfrom] at htake
  by_cases hle : (collect rule 0 cs).2 ≤ cs.length
  · rw [take_range'_of_length_ge hle] at htake
    exact (mem_range'_1.mp htake).2
  · rw [take_range'_of_length_le (by omega)] at htake
    have := (mem_range'_1.mp htake).2
    omega

/-- A walk goes on from a member to the next line of the rule that is near enough. -/
theorem collect_forward : ∀ {gap p : ℕ} {cs : List Cell} {j k : ℕ}, From (p + gap + 1) cs →
    gap ≤ rule.maxMemberGap → Free rule cs [k] →
    (k ≤ p + rule.maxMemberGap + 1 → k ∈ (collect rule gap cs).1) ∧
      (j ∈ (collect rule gap cs).1 → Follows rule.maxMemberGap j k → k ∈ (collect rule gap cs).1)
  | gap, p, [], _, k, _, _, hfree => by
    obtain ⟨c, hc, -⟩ := hfree k mem_cons_self
    exact absurd hc not_mem_nil
  | gap, p, c :: cs, j, k, hfrom, hgap, hfree => by
    obtain ⟨hc, hcs⟩ := hfrom.head
    have hk : p + gap + 1 ≤ k := by
      obtain ⟨d, hd, hdk, -⟩ := hfree k mem_cons_self
      exact hdk ▸ hfrom.le hd
    have htakes := (@collect_takes rule gap _ k (c :: cs) [] hfrom hk (List.IsChain.singleton k) hfree).1
    refine ⟨fun hle => htakes (by omega) mem_cons_self, ?_⟩
    unfold collect
    by_cases hm : c.isMember rule
    · simp only [if_pos hm]
      intro hj hjk
      rcases Nat.eq_or_lt_of_le hk with rfl | hk
      · rw [hc]
        exact mem_cons_self
      · have hfree' : Free rule cs [k] := hfree.of_lt hc fun i hi => by
          rw [mem_singleton.mp hi]
          exact hk
        rw [← hc] at hcs
        obtain ⟨hnear, hnext⟩ := @collect_forward 0 c.idx cs j k hcs (Nat.zero_le _) hfree'
        rcases mem_cons.mp hj with rfl | hj
        · exact mem_cons_of_mem _ (hnear hjk.2)
        · exact mem_cons_of_mem _ (hnext hj hjk)
    · rw [if_neg hm]
      by_cases hg : rule.maxMemberGap < gap + 1
      · simp [hg]
      · simp only [if_neg hg]
        have hne : k ≠ p + gap + 1 := by
          rintro rfl
          obtain ⟨d, hd, hdk, hdm⟩ := hfree _ mem_cons_self
          rcases mem_cons.mp hd with rfl | hd
          · exact hm hdm
          · have := hcs.le hd
            omega
        have hfree' : Free rule cs [k] := hfree.of_lt hc fun i hi => by
          rw [mem_singleton.mp hi]
          omega
        exact (@collect_forward (gap + 1) p cs j k (by rwa [← Nat.add_assoc p gap 1]) (by omega)
          hfree').2

theorem lt_of_mem_scanRule {skip s : ℕ} {cs : List Cell} (hfrom : From s cs) {h : BurstHit}
    (hh : h ∈ scanRule rule skip cs) {j : ℕ} (hj : j ∈ h.memberIndices) : s + skip ≤ j := by
  have hmem := (scanRule_sublist skip cs).subset (mem_flatMap.mpr ⟨h, hh, hj⟩)
  obtain ⟨c, hc, rfl⟩ := mem_map.mp hmem
  have hdrop : c.idx ∈ (cs.drop skip).map (·.idx) := mem_map_of_mem (mem_of_mem_filter hc)
  rw [map_drop, hfrom, drop_range', mem_range'_1] at hdrop
  omega

/-- **A hit of a scan takes every line of the rule that is near enough to one of its members.** -/
theorem scanRule_closed (huni : rule.anchor = rule.member) : ∀ {skip s : ℕ} {cs : List Cell}
    {h : BurstHit}, From s cs → h ∈ scanRule rule skip cs → ∀ j k : ℕ, j ∈ h.memberIndices →
    Free rule cs [k] → s + skip ≤ k →
    Follows rule.maxMemberGap j k ∨ Follows rule.maxMemberGap k j → k ∈ h.memberIndices
  | _, _, [], h, _, hh => by simp [scanRule] at hh
  | skip + 1, s, c :: cs, h, hfrom, hh => by
    intro j k hj hfree hk hjk
    obtain ⟨hc, hcs⟩ := hfrom.head
    have hfree' : Free rule cs [k] := hfree.of_lt hc fun i hi => by
      rw [mem_singleton.mp hi]
      omega
    exact scanRule_closed huni hcs hh j k hj hfree' (by omega) hjk
  | 0, s, c :: cs, h, hfrom, hh => by
    intro j k hj hfree hk hjk
    obtain ⟨hc, hcs⟩ := hfrom.head
    have hmem := isAnchor_eq_isMember huni c
    have hbehind : s < k → Free rule cs [k] := fun hsk => hfree.of_lt hc fun i hi => by
      rw [mem_singleton.mp hi]
      exact hsk
    have hsize := isChain_of_mem_scanRule hfrom hh
    unfold scanRule at hh
    by_cases hm : c.isMember rule
    · simp only [hmem, if_pos hm] at hh
      split_ifs at hh with hmin
      · rcases mem_cons.mp hh with rfl | hh
        · rw [memberIndices_hit, hc] at hj ⊢
          rcases Nat.eq_or_lt_of_le hk with rfl | hsk
          · exact mem_cons_self
          have hfree' := hbehind hsk
          have hforward := @collect_forward rule 0 s cs j k hcs (Nat.zero_le _) hfree'
          rcases hjk with hjk | hkj
          · rcases mem_cons.mp hj with rfl | hj
            · exact mem_cons_of_mem _ (hforward.1 hjk.2)
            · exact mem_cons_of_mem _ (hforward.2 hj hjk)
          · rcases mem_cons.mp hj with rfl | hj
            · have := hkj.1
              omega
            · have hlt := lt_of_mem_collect hcs hj
              rcases (@collect_takes rule 0 (s + 1) k cs [] hcs hsk (List.IsChain.singleton k)
                hfree').2 with hin | hout
              · exact mem_cons_of_mem _ (hin mem_cons_self)
              · have := hkj.1
                omega
        · have hjs := lt_of_mem_scanRule hcs hh hj
          by_cases hkw : s + 1 + (collect rule 0 cs).2 ≤ k
          · exact scanRule_closed huni hcs hh j k hj (hbehind (by omega)) hkw hjk
          · -- the line is in the burst before, which would go on
            exfalso
            have hkj : Follows rule.maxMemberGap k j :=
              hjk.resolve_left fun h => absurd h.1 (by omega)
            obtain ⟨d, hd, hdj, hdm⟩ : ∃ d ∈ cs, d.idx = j ∧ d.isMember rule := by
              obtain ⟨i, ms, rfl, -, ⟨a, ha, rfl, hanchor⟩, hms⟩ := mem_scanRule hh
              rcases mem_cons.mp hj with rfl | hj
              · exact ⟨a, ha, rfl, by rwa [← isAnchor_eq_isMember huni]⟩
              · exact hms j hj
            have hfreej : Free rule cs [j] := fun i hi => by
              rw [mem_singleton.mp hi]
              exact ⟨d, hd, hdj, hdm⟩
            have hforward := @collect_forward rule 0 s cs k j hcs (Nat.zero_le _) hfreej
            have hin : j ∈ (collect rule 0 cs).1 := by
              rcases Nat.eq_or_lt_of_le hk with rfl | hsk
              · exact hforward.1 hkj.2
              · rcases (@collect_takes rule 0 (s + 1) k cs [] hcs hsk (List.IsChain.singleton k)
                  (hbehind hsk)).2 with hin | hout
                · exact hforward.2 (hin mem_cons_self) hkj
                · omega
            have := lt_of_mem_collect hcs hin
            omega
      · rcases Nat.eq_or_lt_of_le hk with rfl | hsk
        · -- the anchor stands before the burst, and the burst is long enough for both
          exfalso
          have hjs := lt_of_mem_scanRule hcs hh hj
          have hkj : Follows rule.maxMemberGap s j :=
            hjk.resolve_left fun h => absurd h.1 (by omega)
          obtain ⟨i, ms, rfl, hlen, ⟨a, ha, rfl, hanchor⟩, hms⟩ := mem_scanRule hh
          rw [memberIndices_hit] at hj hsize
          have his := lt_of_mem_scanRule hcs hh (j := a.idx) mem_cons_self
          have hij : a.idx ≤ j := by
            rcases mem_cons.mp hj with rfl | hj
            · exact le_rfl
            · exact (lt_of_isChain hsize j hj).le
          have hfree' : Free rule cs (a.idx :: ms) := fun i hi => by
            rcases mem_cons.mp hi with rfl | hi
            · exact ⟨a, ha, rfl, by rwa [← isAnchor_eq_isMember huni]⟩
            · exact hms i hi
          have hsub := (@collect_takes rule 0 (s + 1) a.idx cs ms hcs his hsize hfree').1
            (by have := hkj.2; omega)
          have hle := length_le_of_isChain hsize hsub
          rw [length_cons] at hle
          omega
        · exact scanRule_closed huni hcs hh j k hj (hbehind hsk) hsk hjk
    · simp only [hmem, if_neg hm] at hh
      have hsk : s < k := by
        refine lt_of_le_of_ne hk ?_
        rintro rfl
        obtain ⟨d, hd, hdk, hdm⟩ := hfree _ mem_cons_self
        rcases mem_cons.mp hd with rfl | hd
        · exact hm hdm
        · have := hcs.le hd
          omega
      exact scanRule_closed huni hcs hh j k hj (hbehind hsk) hsk hjk

end Scan

/-! ### All scans -/

/-- The rules take their anchors like their members, and no line is one for two of them. -/
structure Separate (rules : List BurstRule) : Prop where
  nodup : rules.Nodup
  uniform : ∀ rule ∈ rules, rule.anchor = rule.member
  exclusive : ∀ rule ∈ rules, ∀ rule' ∈ rules, ∀ l, lineMatches l rule.member rule.tags →
    lineMatches l rule'.member rule'.tags → rule = rule'

theorem Separate.tail {rule : BurstRule} {rules : List BurstRule} (h : Separate (rule :: rules)) :
    Separate rules where
  nodup := h.nodup.of_cons
  uniform r hr := h.uniform r (mem_cons_of_mem _ hr)
  exclusive r hr r' hr' := h.exclusive r (mem_cons_of_mem _ hr) r' (mem_cons_of_mem _ hr')

theorem from_of_cellsFrom {window : List LogLine} {cells : List Cell} (h : cellsFrom window cells) :
    From 0 cells := by
  have hlen : cells.length = window.length := by
    have := congrArg length h.1
    rwa [length_map, length_range] at this
  rw [From, h.1, hlen, range_eq_range']

/-- What one rule has taken is no line of another. -/
theorem Free.markConsumed {window : List LogLine} {rule rule' : BurstRule} {rules : List BurstRule}
    (hsep : Separate (rule :: rules)) (hrule' : rule' ∈ rules) (hne : rule' ≠ rule)
    {cells : List Cell} (hc : cellsFrom window cells) {is : List ℕ} (hfree : Free rule' cells is) :
    Free rule' (markConsumed ((scanRule rule 0 cells).flatMap (·.memberIndices)) cells) is := by
  intro j hj
  obtain ⟨c, hcm, rfl, hm⟩ := hfree j hj
  have hm' := hm
  simp only [Cell.isMember, Bool.and_eq_true] at hm'
  have hnot : c.idx ∉ (scanRule rule 0 cells).flatMap (·.memberIndices) := by
    intro hmem
    obtain ⟨h, hh, hidx⟩ := mem_flatMap.mp hmem
    obtain ⟨i, ms, rfl, -, ⟨a, ha, hai, hanchor⟩, hms⟩ := mem_scanRule hh
    obtain ⟨d, hd, hdidx, hdm⟩ : ∃ d ∈ cells, d.idx = c.idx ∧ d.isMember rule := by
      rcases mem_cons.mp hidx with heq | hidx
      · refine ⟨a, ha, hai.trans heq.symm, ?_⟩
        rwa [← isAnchor_eq_isMember (hsep.uniform rule mem_cons_self)]
      · exact hms c.idx hidx
    have hline : d.line = c.line := by
      have h₁ := hc.2 d hd
      rw [hdidx, hc.2 c hcm] at h₁
      exact (Option.some.inj h₁).symm
    simp only [Cell.isMember, Bool.and_eq_true, hline] at hdm
    exact hne (hsep.exclusive rule' (mem_cons_of_mem _ hrule') rule mem_cons_self c.line hm'.2 hdm.2)
  refine ⟨{ c with consumed := c.consumed || decide (c.idx ∈ _) }, mem_map_of_mem hcm, rfl, ?_⟩
  simp only [Cell.isMember, Bool.and_eq_true]
  refine ⟨?_, hm'.2⟩
  simpa [hnot] using hm'.1

/-- **All scans together take every run.** -/
theorem sweep_takes {window : List LogLine} : ∀ {rules : List BurstRule} {cells : List Cell},
    Separate rules → cellsFrom window cells → ∀ {rule : BurstRule}, rule ∈ rules →
    ∀ {is : List ℕ}, is.IsChain (Follows rule.maxMemberGap) → rule.minBurstSize ≤ is.length →
    Free rule cells is → is ⊆ (sweep rules cells).flatMap (·.memberIndices)
  | [], _, _, _, _, hrule, _, _, _, _ => absurd hrule not_mem_nil
  | r :: rules, cells, hsep, hc, rule, hrule, is, hchain, hmin, hfree => by
    rw [sweep, flatMap_append]
    by_cases heq : rule = r
    · subst heq
      exact subset_append_of_subset_left _ (scanRule_takes (hsep.uniform rule mem_cons_self)
        (from_of_cellsFrom hc) (fun _ _ => Nat.zero_le _) hchain hmin hfree)
    · have hmem := (mem_cons.mp hrule).resolve_left heq
      exact subset_append_of_subset_right _ (sweep_takes hsep.tail (cellsFrom_markConsumed _ hc)
        hmem hchain hmin (hfree.markConsumed hsep hmem heq hc))

/-- The lines of a rule at these indices of a window are a run of the rule, as long as it goes. -/
structure RunOf (rule : BurstRule) (window : List LogLine) (is : List ℕ) : Prop where
  long : rule.minBurstSize ≤ is.length
  chain : is.IsChain (Follows rule.maxMemberGap)
  line : ∀ j ∈ is, ∃ l, window[j]? = some l ∧ lineMatches l rule.member rule.tags
  closed : ∀ j ∈ is, ∀ k, (∃ l, window[k]? = some l ∧ lineMatches l rule.member rule.tags) →
    Follows rule.maxMemberGap j k ∨ Follows rule.maxMemberGap k j → k ∈ is

/-- A hit of the sweep is a run of one of the rules, of which it takes all free lines. -/
theorem sweep_run {window : List LogLine} : ∀ {rules : List BurstRule} {cells : List Cell}
    {h : BurstHit}, Separate rules → cellsFrom window cells → h ∈ sweep rules cells →
    ∃ rule ∈ rules, rule.minBurstSize ≤ h.memberIndices.length ∧
      h.memberIndices.IsChain (Follows rule.maxMemberGap) ∧
      (∀ j ∈ h.memberIndices, ∃ l, window[j]? = some l ∧ lineMatches l rule.member rule.tags) ∧
      ∀ j ∈ h.memberIndices, ∀ k, Free rule cells [k] →
        Follows rule.maxMemberGap j k ∨ Follows rule.maxMemberGap k j → k ∈ h.memberIndices
  | [], _, _, _, _, hh => by simp [sweep] at hh
  | rule :: rules, cells, h, hsep, hc, hh => by
    have huni := hsep.uniform rule mem_cons_self
    rcases mem_append.mp hh with hh | hh
    · have hfrom := from_of_cellsFrom hc
      have hclosed := @scanRule_closed rule huni 0 0 cells h hfrom hh
      have hchain := isChain_of_mem_scanRule hfrom hh
      obtain ⟨i, ms, rfl, hmin, ⟨a, ha, rfl, hanchor⟩, hms⟩ := mem_scanRule hh
      refine ⟨rule, mem_cons_self, hmin, hchain, fun j hj => ?_, fun j hj k hfree hjk =>
        hclosed j k hj hfree (Nat.zero_le _) hjk⟩
      rcases mem_cons.mp hj with rfl | hj
      · rw [isAnchor_eq_isMember huni, Cell.isMember, Bool.and_eq_true] at hanchor
        exact ⟨a.line, hc.2 a ha, hanchor.2⟩
      · obtain ⟨d, hd, rfl, hdm⟩ := hms j hj
        rw [Cell.isMember, Bool.and_eq_true] at hdm
        exact ⟨d.line, hc.2 d hd, hdm.2⟩
    · obtain ⟨r, hr, hmin, hchain, hline, hclosed⟩ :=
        sweep_run hsep.tail (cellsFrom_markConsumed _ hc) hh
      have hne : r ≠ rule := by
        rintro rfl
        exact (nodup_cons.mp hsep.nodup).1 hr
      refine ⟨r, mem_cons_of_mem _ hr, hmin, hchain, hline, fun j hj k hfree hjk => ?_⟩
      exact hclosed j hj k (hfree.markConsumed hsep hr hne hc) hjk

theorem free_cellsOf {rule : BurstRule} {window : List LogLine} {is : List ℕ}
    (h : ∀ j ∈ is, ∃ l, window[j]? = some l ∧ lineMatches l rule.member rule.tags) :
    Free rule (cellsOf window) is := by
  intro j hj
  obtain ⟨l, hl, hm⟩ := h j hj
  refine ⟨⟨j, l, false⟩, ?_, rfl, by simpa [Cell.isMember] using hm⟩
  exact mem_map.mpr ⟨(l, j), mem_zipIdx_iff_getElem?.mpr hl, rfl⟩

/-- **A burst is a run of a rule, as long as it goes.** -/
theorem runOf_of_mem_detectBursts {rules : List BurstRule} (hsep : Separate rules)
    {window : List LogLine} {h : BurstHit} (hh : h ∈ detectBursts window rules) :
    ∃ rule ∈ rules, RunOf rule window h.memberIndices := by
  have hmem := (perm_detectBursts window rules).subset hh
  obtain ⟨rule, hrule, hmin, hchain, hline, hclosed⟩ :=
    sweep_run hsep (cellsFrom_cellsOf window) hmem
  refine ⟨rule, hrule, hmin, hchain, hline, fun j hj k hk hjk => hclosed j hj k ?_ hjk⟩
  refine free_cellsOf fun i hi => ?_
  rw [mem_singleton.mp hi]
  exact hk

/-- **A line of a window is a member of a burst exactly if it stands in a run of a rule.** -/
theorem mem_detectBursts_iff {rules : List BurstRule} (hsep : Separate rules)
    (window : List LogLine) (i : ℕ) :
    i ∈ (detectBursts window rules).flatMap (·.memberIndices) ↔
      ∃ rule ∈ rules, InRun rule window i := by
  constructor
  · intro hi
    obtain ⟨h, hh, hi⟩ := mem_flatMap.mp hi
    obtain ⟨rule, hrule, hrun⟩ := runOf_of_mem_detectBursts hsep hh
    exact ⟨rule, hrule, h.memberIndices, hi, hrun.long, hrun.chain, hrun.line⟩
  · rintro ⟨rule, hrule, is, hi, hmin, hchain, hmatch⟩
    rw [((perm_detectBursts window rules).flatMap_right _).mem_iff]
    exact sweep_takes hsep (cellsFrom_cellsOf window) hrule hchain hmin (free_cellsOf hmatch) hi

/-- The members of bursts among items are those whose lines stand in a run. -/
theorem mem_members_iff {α : Type} {rules : List BurstRule} (hsep : Separate rules)
    (log : α → LogLine) (items : List α) (m : α) :
    (∃ b ∈ burstsOf log items rules, m ∈ b.members) ↔
      ∃ i, items[i]? = some m ∧ ∃ rule ∈ rules, InRun rule (items.map log) i := by
  have hflat : m ∈ (burstsOf log items rules).flatMap (·.members) ↔
      ∃ b ∈ burstsOf log items rules, m ∈ b.members := mem_flatMap
  rw [← hflat, flatMap_members_burstsOf, mem_filterMap]
  constructor
  · rintro ⟨i, hi, hm⟩
    exact ⟨i, hm, (mem_detectBursts_iff hsep _ i).mp hi⟩
  · rintro ⟨i, hm, hrun⟩
    exact ⟨i, (mem_detectBursts_iff hsep _ i).mpr hrun, hm⟩

end StarStats.Core.BurstRuns
