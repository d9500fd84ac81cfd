import StarStats.Core.BurstHits

/-! # Bursts that are left

A burst is missed if a line that no hit has taken would still grow into one, over the lines that no
hit has taken. A scan tries every free line as an anchor but those it walks over on the way to a hit:
behind the last member it resumes only where the gap was exceeded. What a scan overlooks so is said of
the lines that are free before it (`overlooks_iff`), and is missed in the end unless the scan of a later
rule takes a line that it needs (`missesNone_iff`). There is none where a line that is an anchor and
no member never stands close behind another line of its rule. -/

namespace StarStats.Core.BurstsLeft

open List
open StarStats.Core.Parser StarStats.Core.Templates StarStats.Core.Bursts StarStats.Core.BurstOrder
open StarStats.Core.BurstRuns StarStats.Core.BurstHits

/-- The first of the cells is an anchor that grows into a burst. -/
def Grows (rule : BurstRule) : List Cell → Prop
  | [] => False
  | c :: cs => c.isAnchor rule ∧ rule.minBurstSize ≤ (collect rule 0 cs).1.length + 1

instance (rule : BurstRule) : ∀ cells, Decidable (Grows rule cells)
  | [] => inferInstanceAs (Decidable False)
  | _ :: _ => inferInstanceAs (Decidable (_ ∧ _))

/-- The window after the call: the members of all hits are taken. -/
def leftOver (window : List LogLine) (rules : List BurstRule) : List Cell :=
  markConsumed ((detectBursts window rules).flatMap (·.memberIndices)) (cellsOf window)

/-- From no line that is left would a burst grow over the lines that are left. -/
def MissesNone (window : List LogLine) (rules : List BurstRule) : Prop :=
  ∀ rule ∈ rules, ∀ k, ¬ Grows rule ((leftOver window rules).drop k)

/-- The lines that a scan of the rule takes. -/
def claimed (rule : BurstRule) (cells : List Cell) : List ℕ :=
  (scanRule rule 0 cells).flatMap (·.memberIndices)

/-- The lines after one scan of the rule. -/
def freeBehind (rule : BurstRule) (cells : List Cell) : List Cell :=
  markConsumed (claimed rule cells) cells

/-- The lines after the scans of these rules. -/
def freeAfter (rules : List BurstRule) (cells : List Cell) : List Cell :=
  rules.foldl (fun cells rule => freeBehind rule cells) cells

/-- A scan over these free lines overlooks the burst at `k`. -/
inductive Overlooks (rule : BurstRule) : List Cell → ℕ → Prop
  /-- The first line grows into a burst, and one that is walked over for it would grow too, over the
  lines which that burst leaves and before the line `b` where the next one begins. -/
  | behind {c : Cell} {cs : List Cell} {k b : ℕ} (hgrow : Grows rule (c :: cs))
      (hk : k < (collect rule 0 cs).2) (hb : (collect rule 0 cs).2 ≤ b)
      (hnone : ∀ a, (collect rule 0 cs).2 ≤ a → a < b → ¬ Grows rule (cs.drop a))
      (hover : Grows rule ((markConsumed (c.idx :: (collect rule 0 cs).1) (cs.take b)).drop k)) :
      Overlooks rule (c :: cs) (k + 1)
  /-- The first line grows into a burst, and the scan resumes behind what it walked over. -/
  | resumed {c : Cell} {cs : List Cell} {k : ℕ} (hgrow : Grows rule (c :: cs))
      (h : Overlooks rule (cs.drop (collect rule 0 cs).2) k) :
      Overlooks rule (c :: cs) ((collect rule 0 cs).2 + k + 1)
  /-- The first line grows into no burst. -/
  | next {c : Cell} {cs : List Cell} {k : ℕ} (hnot : ¬ Grows rule (c :: cs))
      (h : Overlooks rule cs k) : Overlooks rule (c :: cs) (k + 1)

/-- A scan of the other rule over these free lines takes some that the burst at `k` needs. -/
def Spoils (other rule : BurstRule) (cells : List Cell) (k : ℕ) : Prop :=
  Grows rule (cells.drop k) ∧ ¬ Grows rule ((freeBehind other cells).drop k)

/-- The line at `k` is an anchor and no member of the rule. -/
def AnchorOnly (window : List LogLine) (rule : BurstRule) (k : ℕ) : Prop :=
  ∃ l, window[k]? = some l ∧ lineMatches l rule.anchor rule.tags ∧
    ¬ lineMatches l rule.member rule.tags

/-- A line of the rule stands before the one at `k`, with a gap in between that the rule tolerates. -/
def CloseBehind (window : List LogLine) (rule : BurstRule) (k : ℕ) : Prop :=
  ∃ p l, p < k ∧ k ≤ p + rule.maxMemberGap ∧ window[p]? = some l ∧
    (lineMatches l rule.anchor rule.tags ∨ lineMatches l rule.member rule.tags)

section Walk
variable {rule : BurstRule}

/-! ### Fewer free lines -/

theorem isMember_of_markConsumed {taken : List ℕ} {c : Cell}
    (h : Cell.isMember rule { c with consumed := c.consumed || decide (c.idx ∈ taken) }) :
    c.isMember rule := by
  simp only [Cell.isMember, Bool.and_eq_true, Bool.not_eq_true', Bool.or_eq_false_iff] at h ⊢
  exact ⟨h.1.1, h.2⟩

theorem isAnchor_of_markConsumed {taken : List ℕ} {c : Cell}
    (h : Cell.isAnchor rule { c with consumed := c.consumed || decide (c.idx ∈ taken) }) :
    c.isAnchor rule := by
  simp only [Cell.isAnchor, Bool.and_eq_true, Bool.not_eq_true', Bool.or_eq_false_iff] at h ⊢
  exact ⟨h.1.1, h.2⟩

/-- **A walk over fewer free lines, with less of the gap left, finds fewer members.** -/
theorem collect_markConsumed (taken : List ℕ) : ∀ {gap gap' : ℕ}, gap' ≤ gap → ∀ cs : List Cell,
    (collect rule gap (markConsumed taken cs)).1 <+ (collect rule gap' cs).1
  | _, _, _, [] => by simp [markConsumed, collect]
  | gap, gap', hgap, c :: cs => by
    have ih := fun {g g'} (h : g' ≤ g) => @collect_markConsumed taken g g' h cs
    rw [markConsumed, map_cons, ← markConsumed]
    unfold collect
    by_cases hm : Cell.isMember rule { c with consumed := c.consumed || decide (c.idx ∈ taken) }
    · simp only [if_pos hm, if_pos (isMember_of_markConsumed hm)]
      exact (ih le_rfl).cons_cons c.idx
    · rw [if_neg hm]
      by_cases hg : rule.maxMemberGap < gap + 1
      · rw [if_pos hg]
        exact nil_sublist _
      · simp only [if_neg hg]
        by_cases hm' : c.isMember rule
        · simp only [if_pos hm']
          exact (ih (Nat.zero_le _)).cons c.idx
        · simp only [if_neg hm']
          rw [if_neg (by omega)]
          exact ih (by omega)

theorem Grows.of_markConsumed {taken : List ℕ} : ∀ {cs : List Cell},
    Grows rule (markConsumed taken cs) → Grows rule cs
  | [], h => h
  | c :: cs, ⟨ha, hsize⟩ => by
    have hlen := (@collect_markConsumed rule taken 0 0 le_rfl cs).length_le
    have hsize : rule.minBurstSize ≤ (collect rule 0 (markConsumed taken cs)).1.length + 1 := hsize
    exact ⟨isAnchor_of_markConsumed ha, by omega⟩

/-! ### More and fewer lines -/

theorem markConsumed_congr {taken taken' : List ℕ} {cells : List Cell}
    (h : ∀ c ∈ cells, c.idx ∈ taken ↔ c.idx ∈ taken') :
    markConsumed taken cells = markConsumed taken' cells := by
  unfold markConsumed
  refine map_congr_left fun c hc => ?_
  simp only [h c hc]

theorem markConsumed_append (first second : List ℕ) (cells : List Cell) :
    markConsumed second (markConsumed first cells) = markConsumed (first ++ second) cells := by
  unfold markConsumed
  rw [map_map]
  refine map_congr_left fun c _ => ?_
  simp [mem_append, Bool.or_assoc]

theorem markConsumed_of_subset {taken before : List ℕ} (h : before ⊆ taken) (cells : List Cell) :
    markConsumed taken (markConsumed before cells) = markConsumed taken cells := by
  rw [markConsumed_append]
  refine markConsumed_congr fun c _ => ⟨fun hc => ?_, mem_append_right _⟩
  exact (mem_append.mp hc).elim (fun hb => h hb) id

theorem drop_markConsumed (taken : List ℕ) (k : ℕ) (cells : List Cell) :
    (markConsumed taken cells).drop k = markConsumed taken (cells.drop k) := by
  rw [markConsumed, markConsumed, map_drop]

theorem Grows.of_subset {taken before : List ℕ} (h : before ⊆ taken) {cells : List Cell}
    (hgrow : Grows rule (markConsumed taken cells)) : Grows rule (markConsumed before cells) := by
  rw [← markConsumed_of_subset h] at hgrow
  exact hgrow.of_markConsumed

theorem collect_append : ∀ (gap : ℕ) (cs ds : List Cell),
    (collect rule gap cs).1 <+: (collect rule gap (cs ++ ds)).1
  | _, [], ds => nil_prefix
  | gap, c :: cs, ds => by
    rw [cons_append]
    unfold collect
    by_cases hm : c.isMember rule
    · simp only [if_pos hm]
      exact (prefix_cons_inj c.idx).mpr (collect_append 0 cs ds)
    · rw [if_neg hm, if_neg hm]
      by_cases hg : rule.maxMemberGap < gap + 1
      · rw [if_pos hg, if_pos hg]
      · simp only [if_neg hg]
        exact collect_append (gap + 1) cs ds

theorem Grows.append {cs : List Cell} (h : Grows rule cs) (ds : List Cell) :
    Grows rule (cs ++ ds) := by
  cases cs with
  | nil => exact h.elim
  | cons c cs =>
    have hlen := (@collect_append rule 0 cs ds).length_le
    have hsize : rule.minBurstSize ≤ (collect rule 0 cs).1.length + 1 := h.2
    refine ⟨h.1, ?_⟩
    show rule.minBurstSize ≤ (collect rule 0 (cs ++ ds)).1.length + 1
    omega

theorem collect_append_of_nil {ds : List Cell} (hds : ∀ gap, (collect rule gap ds).1 = []) :
    ∀ (gap : ℕ) (cs : List Cell), (collect rule gap (cs ++ ds)).1 = (collect rule gap cs).1
  | gap, [] => hds gap
  | gap, c :: cs => by
    rw [cons_append]
    unfold collect
    by_cases hm : c.isMember rule
    · simp only [if_pos hm, collect_append_of_nil hds 0 cs]
    · rw [if_neg hm, if_neg hm]
      by_cases hg : rule.maxMemberGap < gap + 1
      · rw [if_pos hg, if_pos hg]
      · simp only [if_neg hg]
        exact collect_append_of_nil hds (gap + 1) cs

/-- Where the members of a walk are taken, a walk with less of the gap left finds none. -/
theorem collect_eq_nil {taken : List ℕ} : ∀ {gap gap' : ℕ} {cs : List Cell}, gap ≤ gap' →
    (collect rule gap cs).1 ⊆ taken → (collect rule gap' (markConsumed taken cs)).1 = []
  | _, _, [], _, _ => rfl
  | gap, gap', c :: cs, hgap, hsub => by
    rw [markConsumed, map_cons, ← markConsumed]
    unfold collect at hsub ⊢
    by_cases hm : c.isMember rule
    · -- the line is a member, and is taken
      simp only [if_pos hm, cons_subset] at hsub
      have htaken : ¬ Cell.isMember rule { c with consumed := c.consumed || decide (c.idx ∈ taken) } := by
        simp [Cell.isMember, hsub.1]
      rw [if_neg htaken]
      by_cases hg : rule.maxMemberGap < gap' + 1
      · rw [if_pos hg]
      · simp only [if_neg hg]
        exact collect_eq_nil (Nat.zero_le _) hsub.2
    · rw [if_neg fun h => hm (isMember_of_markConsumed h)]
      rw [if_neg hm] at hsub
      by_cases hg : rule.maxMemberGap < gap' + 1
      · rw [if_pos hg]
      · simp only [if_neg hg]
        simp only [if_neg (show ¬ rule.maxMemberGap < gap + 1 by omega)] at hsub
        exact collect_eq_nil (Nat.succ_le_succ hgap) hsub

/-- Behind a line that is taken, with the members of its walk, no walk finds a member. -/
theorem collect_eq_nil_of_taken {taken : List ℕ} {d : Cell} {ds : List Cell}
    (h : d.idx :: (collect rule 0 ds).1 ⊆ taken) (gap : ℕ) :
    (collect rule gap (markConsumed taken (d :: ds))).1 = [] := by
  have hd : ¬ Cell.isMember rule { d with consumed := d.consumed || decide (d.idx ∈ taken) } := by
    simp [Cell.isMember, h mem_cons_self]
  rw [markConsumed, map_cons, ← markConsumed, collect, if_neg hd]
  by_cases hg : rule.maxMemberGap < gap + 1
  · rw [if_pos hg]
  · simp only [if_neg hg]
    exact collect_eq_nil (Nat.zero_le _) fun j hj => h (mem_cons_of_mem _ hj)

/-- A burst does not need lines in which no walk finds a member. -/
theorem Grows.of_append {ds : List Cell} (hds : ∀ gap, (collect rule gap ds).1 = []) {cs : List Cell}
    (hne : cs ≠ []) (h : Grows rule (cs ++ ds)) : Grows rule cs := by
  cases cs with
  | nil => exact absurd rfl hne
  | cons c cs =>
    have hsize : rule.minBurstSize ≤ (collect rule 0 (cs ++ ds)).1.length + 1 := h.2
    rw [collect_append_of_nil hds] at hsize
    exact ⟨h.1, hsize⟩

/-- The lines from `k` on, up to `b` and from there. -/
theorem drop_markConsumed_split (taken : List ℕ) {cs : List Cell} {k b : ℕ}
    (hk : k ≤ (cs.take b).length) : (markConsumed taken cs).drop k =
      markConsumed taken ((cs.take b).drop k) ++ markConsumed taken (cs.drop b) := by
  rw [drop_markConsumed, markConsumed, markConsumed, markConsumed, ← map_append,
    ← drop_append_of_le_length hk, take_append_drop]

/-! ### What a scan overlooks -/

theorem scanRule_drop : ∀ (skip : ℕ) (cs : List Cell),
    scanRule rule skip cs = scanRule rule 0 (cs.drop skip)
  | 0, _ => rfl
  | _ + 1, [] => rfl
  | skip + 1, _ :: cs => scanRule_drop skip cs

theorem claimed_of_grows {c : Cell} {cs : List Cell} (h : Grows rule (c :: cs)) :
    claimed rule (c :: cs) =
      (c.idx :: (collect rule 0 cs).1) ++ claimed rule (cs.drop (collect rule 0 cs).2) := by
  have hsize : rule.minBurstSize ≤ (collect rule 0 cs).1.length + 1 := h.2
  unfold claimed
  rw [scanRule]
  simp only [if_pos h.1]
  rw [if_pos hsize, flatMap_cons, memberIndices_hit, scanRule_drop]

theorem claimed_of_not_grows {c : Cell} {cs : List Cell} (h : ¬ Grows rule (c :: cs)) :
    claimed rule (c :: cs) = claimed rule cs := by
  unfold claimed
  rw [scanRule]
  by_cases ha : c.isAnchor rule
  · have hsize : ¬ rule.minBurstSize ≤ (collect rule 0 cs).1.length + 1 := fun hsize => h ⟨ha, hsize⟩
    simp only [if_pos ha]
    rw [if_neg hsize]
  · rw [if_neg ha]

theorem claimed_drop : ∀ {b : ℕ} {cs : List Cell}, (∀ a < b, ¬ Grows rule (cs.drop a)) →
    claimed rule cs = claimed rule (cs.drop b)
  | 0, _, _ => rfl
  | _ + 1, [], _ => rfl
  | b + 1, c :: cs, h => by
    rw [claimed_of_not_grows (h 0 (Nat.succ_pos b)), drop_succ_cons]
    exact claimed_drop fun a ha => h (a + 1) (Nat.succ_lt_succ ha)

theorem le_of_mem_claimed {s : ℕ} {cs : List Cell} (hfrom : From s cs) {j : ℕ}
    (hj : j ∈ claimed rule cs) : s ≤ j := by
  obtain ⟨h, hh, hmem⟩ := mem_flatMap.mp hj
  exact lt_of_mem_scanRule hfrom hh hmem

theorem from_drop : ∀ {s : ℕ} {cs : List Cell}, From s cs → ∀ b, From (s + b) (cs.drop b)
  | _, _, h, 0 => h
  | s, [], _, b + 1 => by simp [From]
  | s, _ :: cs, h, b + 1 => by
    have hdrop := from_drop h.head.2 b
    rwa [Nat.add_assoc, Nat.add_comm 1 b] at hdrop

theorem idx_lt_of_mem_take {s : ℕ} {cs : List Cell} (h : From s cs) {b : ℕ} {c : Cell}
    (hc : c ∈ cs.take b) : c.idx < s + b := by
  have htake : c.idx ∈ (cs.take b).map (·.idx) := mem_map_of_mem hc
  rw [map_take, h] at htake
  obtain ⟨i, hi, hci⟩ := mem_take_iff_getElem.mp htake
  rw [getElem_range'] at hci
  omega

/-- What a burst takes stands before the lines at which the scan resumes. -/
theorem markConsumed_resumed {s : ℕ} {c : Cell} {cs : List Cell} (hfrom : From s (c :: cs))
    (others : List ℕ) :
    markConsumed ((c.idx :: (collect rule 0 cs).1) ++ others) (cs.drop (collect rule 0 cs).2) =
      markConsumed others (cs.drop (collect rule 0 cs).2) := by
  obtain ⟨hc, hcs⟩ := hfrom.head
  refine markConsumed_congr fun d hd => ⟨fun h => ?_, mem_append_right _⟩
  have hle := (from_drop hcs _).le hd
  rcases mem_append.mp h with h | h
  · rcases mem_cons.mp h with heq | h
    · omega
    · have := lt_of_mem_collect hcs h
      omega
  · exact h

/-- Where a burst takes what it walks over, a line before it needs only those up to it. -/
theorem grows_before {burst : List ℕ} {cs ds : List Cell} {d : Cell} {k b : ℕ} (hk : k < b)
    (hd : cs.drop b = d :: ds) (hfirst : Grows rule (d :: ds))
    (h : Grows rule ((markConsumed (burst ++ claimed rule (d :: ds)) cs).drop k)) :
    Grows rule ((markConsumed burst (cs.take b)).drop k) := by
  have hlen : k < (cs.take b).length := by
    have := congrArg length hd
    rw [length_drop, length_cons] at this
    rw [length_take]
    omega
  have hsub : d.idx :: (collect rule 0 ds).1 ⊆ burst ++ claimed rule (d :: ds) := by
    rw [claimed_of_grows hfirst]
    exact fun j hj => mem_append_right _ (mem_append_left _ hj)
  rw [drop_markConsumed_split _ hlen.le, hd] at h
  have hne : markConsumed (burst ++ claimed rule (d :: ds)) ((cs.take b).drop k) ≠ [] := by
    rw [markConsumed, ne_eq, map_eq_nil_iff, drop_eq_nil_iff]
    omega
  rw [drop_markConsumed]
  exact (h.of_append (collect_eq_nil_of_taken hsub) hne).of_subset (subset_append_left _ _)

/-- The lines up to the next burst are taken by none of the later ones. -/
theorem markConsumed_before {s w b : ℕ} {cs : List Cell} (hcs : From s cs) (hwb : w ≤ b)
    (hnone : ∀ a, w ≤ a → a < b → ¬ Grows rule (cs.drop a)) (burst : List ℕ) :
    markConsumed burst (cs.take b) =
      markConsumed (burst ++ claimed rule (cs.drop w)) (cs.take b) := by
  have hbefore : ∀ a < b - w, ¬ Grows rule ((cs.drop w).drop a) := fun a ha => by
    rw [drop_drop]
    exact hnone (w + a) (by omega) (by omega)
  refine markConsumed_congr fun d hd => ⟨mem_append_left _, fun h => ?_⟩
  rcases mem_append.mp h with h | h
  · exact h
  · rw [claimed_drop hbefore, drop_drop, Nat.add_sub_cancel' hwb] at h
    have hle := le_of_mem_claimed (from_drop hcs b) h
    have hlt := idx_lt_of_mem_take hcs hd
    omega

/-- **A line that a burst walks over still grows exactly if it does before the next burst.** -/
theorem grows_behind_iff {s k w : ℕ} {cs : List Cell} (hcs : From s cs) (hk : k < w)
    (burst : List ℕ) :
    Grows rule ((markConsumed (burst ++ claimed rule (cs.drop w)) cs).drop k) ↔
      ∃ b, w ≤ b ∧ (∀ a, w ≤ a → a < b → ¬ Grows rule (cs.drop a)) ∧
        Grows rule ((markConsumed burst (cs.take b)).drop k) := by
  constructor
  · intro hgrow
    by_cases hany : ∃ a, Grows rule ((cs.drop w).drop a)
    · -- the next burst begins at `w + b`
      classical
      have hfirst := Nat.find_spec hany
      have hbefore : ∀ a < Nat.find hany, ¬ Grows rule ((cs.drop w).drop a) :=
        fun a ha => Nat.find_min hany ha
      generalize Nat.find hany = b at hfirst hbefore
      refine ⟨w + b, Nat.le_add_right w b, fun a hwa hab h => ?_, ?_⟩
      · refine hbefore (a - w) (by omega) ?_
        rwa [drop_drop, Nat.add_sub_cancel' hwa]
      · rw [claimed_drop hbefore, drop_drop] at hgrow
        rw [drop_drop] at hfirst
        cases hd : cs.drop (w + b) with
        | nil => simp [hd, Grows] at hfirst
        | cons d ds =>
          rw [hd] at hfirst hgrow
          exact grows_before (by omega) hd hfirst hgrow
    · refine ⟨w + cs.length, Nat.le_add_right _ _, fun a hwa _ h => hany ⟨a - w, ?_⟩, ?_⟩
      · rwa [drop_drop, Nat.add_sub_cancel' hwa]
      · rw [take_of_length_le (Nat.le_add_left _ _)]
        rw [drop_markConsumed] at hgrow ⊢
        exact hgrow.of_subset (subset_append_left _ _)
  · rintro ⟨b, hwb, hnone, hgrow⟩
    rw [markConsumed_before hcs hwb hnone, drop_markConsumed] at hgrow
    have hlen : k ≤ (cs.take b).length := by
      by_contra hlt
      rw [drop_eq_nil_of_le (show (cs.take b).length ≤ k by omega)] at hgrow
      exact hgrow
    rw [drop_markConsumed_split _ hlen]
    exact hgrow.append _

/-- **What a scan overlooks are the bursts that would still grow after it.** -/
theorem overlooks_iff : ∀ {s : ℕ} {cs : List Cell}, From s cs → ∀ {k : ℕ},
    Grows rule ((freeBehind rule cs).drop k) ↔ Overlooks rule cs k
  | _, [], _, k => by
    refine ⟨fun h => ?_, fun h => by cases h⟩
    simp [freeBehind, markConsumed, Grows] at h
  | s, c :: cs, hfrom, 0 => by
    refine ⟨fun h => ?_, fun h => by cases h⟩
    rw [freeBehind, drop_zero] at h
    have hgrow := h.of_markConsumed
    rw [claimed_of_grows hgrow] at h
    have ha : Cell.isAnchor rule _ := h.1
    simp [Cell.isAnchor] at ha
  | s, c :: cs, hfrom, k + 1 => by
    obtain ⟨hc, hcs⟩ := hfrom.head
    have hdrop : ∀ taken, (markConsumed taken (c :: cs)).drop (k + 1) = (markConsumed taken cs).drop k :=
      fun _ => rfl
    rw [freeBehind, hdrop]
    by_cases hgrow : Grows rule (c :: cs)
    · rw [claimed_of_grows hgrow]
      by_cases hk : k < (collect rule 0 cs).2
      · rw [grows_behind_iff hcs hk]
        constructor
        · rintro ⟨b, hb, hnone, hover⟩
          exact .behind hgrow hk hb hnone hover
        · intro h
          generalize hj : k + 1 = j at h
          cases h with
          | behind _ _ hb hnone hover =>
            obtain rfl := Nat.succ.inj hj
            exact ⟨_, hb, hnone, hover⟩
          | resumed _ _ => omega
          | next hnot _ => exact absurd hgrow hnot
      · obtain ⟨j, rfl⟩ : ∃ j, k = (collect rule 0 cs).2 + j := ⟨k - (collect rule 0 cs).2, by omega⟩
        have ih := @overlooks_iff _ (cs.drop (collect rule 0 cs).2) (from_drop hcs _) j
        rw [← drop_drop, drop_markConsumed, markConsumed_resumed hfrom]
        rw [freeBehind] at ih
        rw [ih]
        refine ⟨.resumed hgrow, fun h => ?_⟩
        generalize hi : (collect rule 0 cs).2 + j + 1 = i at h
        cases h with
        | behind _ hk _ _ _ => omega
        | @resumed _ _ j' _ h =>
          obtain rfl : j = j' := by omega
          exact h
        | next hnot _ => exact absurd hgrow hnot
    · rw [claimed_of_not_grows hgrow]
      have ih := @overlooks_iff _ cs hcs k
      rw [freeBehind] at ih
      rw [ih]
      refine ⟨.next hgrow, fun h => ?_⟩
      cases h with
      | behind h => exact absurd h hgrow
      | resumed h => exact absurd h hgrow
      | next _ h => exact h
termination_by _ cs => cs.length
decreasing_by all_goals simp only [length_cons, length_drop]; omega

/-! ### What a scan jumps over -/

/-- A walk ends at most `maxMemberGap` lines behind its last member, `p` being the one before it. -/
theorem walked_le : ∀ {gap p : ℕ} {cs : List Cell}, From (p + gap + 1) cs → gap ≤ rule.maxMemberGap →
    p + gap + (collect rule gap cs).2 ≤
      (p :: (collect rule gap cs).1).getLast (by simp) + rule.maxMemberGap
  | gap, p, [], _, hgap => by
    simp only [collect, getLast_singleton]
    omega
  | gap, p, c :: cs, hfrom, hgap => by
    obtain ⟨hc, hcs⟩ := hfrom.head
    unfold collect
    by_cases hm : c.isMember rule
    · have ih := @walked_le 0 c.idx cs (by rwa [Nat.add_zero, hc]) (Nat.zero_le _)
      simp only [if_pos hm, getLast_cons_cons]
      omega
    · simp only [if_neg hm]
      by_cases hg : rule.maxMemberGap < gap + 1
      · simp only [if_pos hg, getLast_singleton]
        omega
      · have ih := @walked_le (gap + 1) p cs (by rwa [← Nat.add_assoc p gap 1]) (by omega)
        simp only [if_neg hg]
        omega

theorem getElem_idx {s : ℕ} {cs : List Cell} (h : From s cs) {k : ℕ} (hk : k < cs.length) :
    cs[k].idx = s + k := by
  have hmap : (cs.map (·.idx))[k]? = some cs[k].idx := by
    rw [getElem?_map, getElem?_eq_getElem hk, Option.map_some]
  rw [h, getElem?_range' hk] at hmap
  simpa using (Option.some.inj hmap).symm

/-- The rule has jumped over the line at `k`, which is none of its members. -/
def Jumped (rule : BurstRule) (hits : List BurstHit) (cs : List Cell) (s k : ℕ) : Prop :=
  (∃ h ∈ hits, h.startIndex < s + k ∧ s + k ≤ h.endIndex + rule.maxMemberGap) ∧
    ∀ c, cs[k]? = some c → ¬ c.isMember rule

/-- **A scan takes a line that grows into a burst, or jumps over it.** -/
theorem scanRule_tries : ∀ {skip s : ℕ} {cs : List Cell} {k : ℕ}, From s cs → skip ≤ k →
    Grows rule (cs.drop k) →
    s + k ∈ (scanRule rule skip cs).flatMap (·.memberIndices) ∨
      Jumped rule (scanRule rule skip cs) cs s k
  | _, _, [], _, _, _, hgrow => by simp [Grows] at hgrow
  | skip + 1, s, c :: cs, k, hfrom, hk, hgrow => by
    obtain ⟨k, rfl⟩ : ∃ j, k = j + 1 := ⟨k - 1, by omega⟩
    have ih := @scanRule_tries skip (s + 1) cs k hfrom.head.2 (by omega) hgrow
    have hidx : s + (k + 1) = s + 1 + k := by omega
    rw [scanRule, Jumped, hidx, getElem?_cons_succ]
    exact ih
  | 0, s, c :: cs, 0, hfrom, _, hgrow => by
    obtain ⟨hc, -⟩ := hfrom.head
    obtain ⟨ha, hsize⟩ := hgrow
    left
    unfold scanRule
    simp only [if_pos ha]
    rw [if_pos hsize, flatMap_cons, memberIndices_hit, hc, Nat.add_zero]
    exact mem_append_left _ mem_cons_self
  | 0, s, c :: cs, k + 1, hfrom, _, hgrow => by
    obtain ⟨hc, hcs⟩ := hfrom.head
    have hidx : s + (k + 1) = s + 1 + k := by omega
    have hnext := @scanRule_tries 0 (s + 1) cs k hcs (Nat.zero_le _) hgrow
    rw [Jumped, hidx, getElem?_cons_succ]
    unfold scanRule
    by_cases ha : c.isAnchor rule
    · simp only [if_pos ha]
      by_cases hsize : rule.minBurstSize ≤ (collect rule 0 cs).1.length + 1
      · rw [if_pos hsize, flatMap_cons, memberIndices_hit]
        by_cases hk : (collect rule 0 cs).2 ≤ k
        · rcases @scanRule_tries _ (s + 1) cs k hcs hk hgrow with hin | ⟨⟨h, hh, hjump⟩, hm⟩
          · exact Or.inl (mem_append_right _ hin)
          · exact Or.inr ⟨⟨h, mem_cons_of_mem _ hh, hjump⟩, hm⟩
        · -- the line is among those walked over
          by_cases hm : ∃ d, cs[k]? = some d ∧ d.isMember rule
          · left
            obtain ⟨d, hd, hdm⟩ := hm
            obtain ⟨hlt, rfl⟩ := List.getElem?_eq_some_iff.mp hd
            have hidxk := getElem_idx hcs hlt
            have hfree : Free rule cs [s + 1 + k] := fun i hi =>
              ⟨cs[k], getElem_mem hlt, hidxk.trans (mem_singleton.mp hi).symm, hdm⟩
            have htakes := @collect_takes rule 0 (s + 1) (s + 1 + k) cs [] hcs (by omega)
              (List.IsChain.singleton _) hfree
            rcases htakes.2 with hin | hout
            · exact mem_append_left _ (mem_cons_of_mem _ (hin mem_cons_self))
            · omega
          · have hwalk := @walked_le rule 0 c.idx cs (by rwa [Nat.add_zero, hc]) (Nat.zero_le _)
            refine Or.inr ⟨⟨_, mem_cons_self, ?_, ?_⟩, fun d hd hdm => hm ⟨d, hd, hdm⟩⟩
            · show c.idx < s + 1 + k
              omega
            · show s + 1 + k ≤ (c.idx :: (collect rule 0 cs).1).getLast _ + rule.maxMemberGap
              omega
      · rw [if_neg hsize]
        exact hnext
    · rw [if_neg ha]
      exact hnext

end Walk

/-! ### All scans -/

section Sweep
variable {window : List LogLine} {rule : BurstRule}

theorem exists_of_grows {cells : List Cell} {k : ℕ} (h : Grows rule (cells.drop k)) :
    ∃ c, cells[k]? = some c ∧ c.isAnchor rule := by
  cases hd : cells.drop k with
  | nil => simp [hd, Grows] at h
  | cons c cs =>
    rw [hd] at h
    refine ⟨c, ?_, h.1⟩
    rw [← List.head?_drop, hd, head?_cons]

/-- What of a line that is left holds of it in any state of the window before. -/
theorem exists_of_grows_markConsumed {taken : List ℕ} {cells : List Cell}
    (hc : cellsFrom window cells) {k : ℕ} (h : Grows rule ((markConsumed taken cells).drop k)) :
    k ∉ taken ∧ ∃ c, cells[k]? = some c ∧ c.consumed = false ∧ window[k]? = some c.line ∧
      lineMatches c.line rule.anchor rule.tags := by
  obtain ⟨c', hc', ha⟩ := exists_of_grows h
  rw [markConsumed, getElem?_map] at hc'
  obtain ⟨c, hck, rfl⟩ := Option.map_eq_some_iff.mp hc'
  obtain ⟨hlt, rfl⟩ := List.getElem?_eq_some_iff.mp hck
  have hidx : cells[k].idx = k := by
    rw [getElem_idx (from_of_cellsFrom hc) hlt, Nat.zero_add]
  have hline := hc.2 cells[k] (getElem_mem hlt)
  simp only [Cell.isAnchor, hidx, Bool.and_eq_true, Bool.not_eq_true', Bool.or_eq_false_iff,
    decide_eq_false_iff_not] at ha
  rw [hidx] at hline
  exact ⟨ha.1.2, cells[k], hck, ha.1.1, hline, ha.2⟩

/-- **The sweep takes a line that still grows at its end, or its rule has jumped over it.** -/
theorem sweep_tries {k : ℕ} {taken : List ℕ} : ∀ {rules : List BurstRule} {cells : List Cell},
    cellsFrom window cells → rule ∈ rules →
    (sweep rules cells).flatMap (·.memberIndices) ⊆ taken →
    Grows rule ((markConsumed taken cells).drop k) →
    AnchorOnly window rule k ∧ ∃ h ∈ sweep rules cells, Sound rule window h ∧
      h.startIndex < k ∧ k ≤ h.endIndex + rule.maxMemberGap
  | [], _, _, hrule, _, _ => absurd hrule not_mem_nil
  | r :: rules, cells, hc, hrule, htaken, hgrow => by
    rw [sweep, flatMap_append, append_subset] at htaken
    obtain ⟨hfirst, hrest⟩ := htaken
    by_cases heq : rule = r
    · subst heq
      obtain ⟨hnot, c, hck, hfree, hline, hanchor⟩ := exists_of_grows_markConsumed hc hgrow
      have hgrow' : Grows rule (cells.drop k) := by
        rw [drop_markConsumed] at hgrow
        exact hgrow.of_markConsumed
      have htries := scanRule_tries (from_of_cellsFrom hc) (Nat.zero_le k) hgrow'
      rw [Nat.zero_add] at htries
      rcases htries with hin | ⟨⟨h, hh, hjump⟩, hm⟩
      · exact absurd (hfirst hin) hnot
      · rw [Nat.zero_add] at hjump
        refine ⟨⟨c.line, hline, hanchor, fun hmember => hm c hck ?_⟩, h, mem_append_left _ hh,
          sound_of_mem_scanRule hc hh, hjump⟩
        simp [Cell.isMember, hfree, hmember]
    · rw [← markConsumed_of_subset hfirst] at hgrow
      obtain ⟨honly, h, hh, hjump⟩ := sweep_tries (cellsFrom_markConsumed _ hc)
        ((mem_cons.mp hrule).resolve_left heq) hrest hgrow
      exact ⟨honly, h, mem_append_right _ hh, hjump⟩

theorem flatMap_sweep_subset (window : List LogLine) (rules : List BurstRule) :
    (sweep rules (cellsOf window)).flatMap (·.memberIndices) ⊆
      (detectBursts window rules).flatMap (·.memberIndices) :=
  ((perm_detectBursts window rules).flatMap_right _).symm.subset

/-- **A missed burst begins with a line that a scan of its rule has jumped over.** -/
theorem jumpedOver_of_grows {rules : List BurstRule} (hrule : rule ∈ rules) {k : ℕ}
    (h : Grows rule ((leftOver window rules).drop k)) :
    AnchorOnly window rule k ∧ ∃ g ∈ detectBursts window rules, Sound rule window g ∧
      g.startIndex < k ∧ k ≤ g.endIndex + rule.maxMemberGap := by
  obtain ⟨honly, g, hg, hjump⟩ :=
    sweep_tries (cellsFrom_cellsOf window) hrule (flatMap_sweep_subset window rules) h
  exact ⟨honly, g, (perm_detectBursts window rules).symm.subset hg, hjump⟩

/-! ### Lines close behind a member -/

/-- Behind the first of a chain, and no further behind the last than the gap, a line stands close
behind one of the chain. -/
theorem exists_close {gap k : ℕ} : ∀ {i : ℕ} {is : List ℕ},
    (i :: is).IsChain (fun i j => j - i - 1 ≤ gap) → k ∉ i :: is → i < k →
    k ≤ (i :: is).getLast (by simp) + gap → ∃ p ∈ i :: is, p < k ∧ k ≤ p + gap
  | i, [], _, _, hlt, hle => ⟨i, mem_cons_self, hlt, hle⟩
  | i, j :: is, hchain, hk, hlt, hle => by
    obtain ⟨hij, hrest⟩ := isChain_cons_cons.mp hchain
    have hne : k ≠ j := fun h => hk (h ▸ mem_cons_of_mem _ mem_cons_self)
    by_cases hjk : j < k
    · rw [getLast_cons_cons] at hle
      obtain ⟨p, hp, hpk⟩ := exists_close hrest (fun h => hk (mem_cons_of_mem _ h)) hjk hle
      exact ⟨p, mem_cons_of_mem _ hp, hpk⟩
    · exact ⟨i, mem_cons_self, hlt, by omega⟩

/-- A line that a hit jumps over, and does not take, stands close behind a line of the rule. -/
theorem closeBehind_of_jump {h : BurstHit} (hs : Sound rule window h) {k : ℕ}
    (hk : k ∉ h.memberIndices) (hlt : h.startIndex < k) (hle : k ≤ h.endIndex + rule.maxMemberGap) :
    CloseBehind window rule k := by
  cases hi : h.memberIndices with
  | nil =>
    have := hs.first
    simp [hi] at this
  | cons i is =>
    have hfirst := hs.first
    have hlast := hs.last
    have hnear := hs.near
    have hlater := hs.later
    rw [hi] at hk hfirst hlast hnear hlater
    rw [head?_cons, Option.some.injEq] at hfirst
    rw [getLast?_eq_some_getLast (cons_ne_nil i is), Option.some.injEq] at hlast
    obtain ⟨p, hp, hpk, hpgap⟩ := exists_close hnear hk (hfirst ▸ hlt) (hlast ▸ hle)
    rcases mem_cons.mp hp with rfl | hp
    · obtain ⟨l, hl, hm⟩ := hs.anchor
      exact ⟨p, l, hpk, hpgap, hfirst ▸ hl, Or.inl hm⟩
    · obtain ⟨l, hl, hm⟩ := hlater p hp
      exact ⟨p, l, hpk, hpgap, hl, Or.inr hm⟩

end Sweep

/-! ### What is left over -/

section Left
variable {window : List LogLine} {rule : BurstRule}

/-- All scans leave what they leave one after the other. -/
theorem markConsumed_sweep : ∀ (rules : List BurstRule) (cells : List Cell),
    markConsumed ((sweep rules cells).flatMap (·.memberIndices)) cells = freeAfter rules cells
  | [], cells => by simp [sweep, freeAfter, markConsumed]
  | rule :: rules, cells => by
    have ih := markConsumed_sweep rules (freeBehind rule cells)
    rw [sweep, flatMap_append, ← markConsumed_append]
    exact ih

theorem leftOver_eq (window : List LogLine) (rules : List BurstRule) :
    leftOver window rules = freeAfter rules (cellsOf window) := by
  rw [← markConsumed_sweep]
  exact markConsumed_congr fun _ _ =>
    ((perm_detectBursts window rules).flatMap_right _).mem_iff

theorem freeAfter_append (first second : List BurstRule) (cells : List Cell) :
    freeAfter (first ++ second) cells = freeAfter second (freeAfter first cells) :=
  foldl_append

theorem cellsFrom_freeAfter {cells : List Cell} (h : cellsFrom window cells) :
    ∀ rules : List BurstRule, cellsFrom window (freeAfter rules cells) := by
  intro rules
  rw [← markConsumed_sweep]
  exact cellsFrom_markConsumed _ h

theorem Grows.of_freeAfter {rules : List BurstRule} {cells : List Cell} {k : ℕ}
    (h : Grows rule ((freeAfter rules cells).drop k)) : Grows rule (cells.drop k) := by
  rw [← markConsumed_sweep, drop_markConsumed] at h
  exact h.of_markConsumed

/-- A burst that no longer grows after some scans is spoilt by one of them. -/
theorem exists_spoils {k : ℕ} : ∀ {rules : List BurstRule} {cells : List Cell},
    Grows rule (cells.drop k) → ¬ Grows rule ((freeAfter rules cells).drop k) →
    ∃ before other after, rules = before ++ other :: after ∧
      Spoils other rule (freeAfter before cells) k
  | [], _, hgrow, hnot => absurd hgrow hnot
  | other :: rules, cells, hgrow, hnot => by
    by_cases hnext : Grows rule ((freeBehind other cells).drop k)
    · obtain ⟨before, r, after, rfl, hspoils⟩ := exists_spoils hnext hnot
      exact ⟨other :: before, r, after, rfl, hspoils⟩
    · exact ⟨[], other, rules, rfl, hgrow, hnext⟩

/-- A scan overlooks a burst exactly if it still grows after it. -/
theorem overlooks_freeAfter_iff (before : List BurstRule) {k : ℕ} :
    Overlooks rule (freeAfter before (cellsOf window)) k ↔
      Grows rule ((freeAfter (before ++ [rule]) (cellsOf window)).drop k) := by
  rw [freeAfter_append]
  exact (overlooks_iff
    (from_of_cellsFrom (cellsFrom_freeAfter (cellsFrom_cellsOf window) before))).symm

end Left

/-- **No burst is missed exactly if the scan of a later rule spoils every burst that the scan of a
rule overlooks**, both being said of the lines that are free before that scan. So none is missed where
no line that is an anchor and no member of a rule stands close behind another line of the rule. -/
theorem missesNone_iff (window : List LogLine) (rules : List BurstRule) :
    (MissesNone window rules ↔ ∀ before rule after, rules = before ++ rule :: after → ∀ k,
      Overlooks rule (freeAfter before (cellsOf window)) k →
        ∃ between other rest, after = between ++ other :: rest ∧
          Spoils other rule (freeAfter (before ++ rule :: between) (cellsOf window)) k) ∧
    ((∀ rule ∈ rules, ∀ k, AnchorOnly window rule k → ¬ CloseBehind window rule k) →
      MissesNone window rules) := by
  refine ⟨⟨?_, fun h rule hrule k hgrow => ?_⟩, fun h rule hrule k hgrow => ?_⟩
  · rintro h before rule after rfl k hover
    have hnot := h rule (mem_append_right _ mem_cons_self) k
    rw [leftOver_eq, append_cons, freeAfter_append] at hnot
    obtain ⟨between, other, rest, rfl, hspoils⟩ :=
      exists_spoils ((overlooks_freeAfter_iff before).mp hover) hnot
    rw [← freeAfter_append, append_assoc, singleton_append] at hspoils
    exact ⟨between, other, rest, rfl, hspoils⟩
  · obtain ⟨before, after, rfl⟩ := append_of_mem hrule
    rw [leftOver_eq] at hgrow
    have hover : Overlooks rule (freeAfter before (cellsOf window)) k := by
      rw [overlooks_freeAfter_iff]
      rw [append_cons, freeAfter_append] at hgrow
      exact hgrow.of_freeAfter
    obtain ⟨between, other, rest, rfl, -, hspoilt⟩ := h before rule after rfl k hover
    rw [← cons_append, ← append_assoc, append_cons, freeAfter_append, freeAfter_append] at hgrow
    exact hspoilt hgrow.of_freeAfter
  · obtain ⟨honly, g, hg, hs, hlt, hle⟩ := jumpedOver_of_grows hrule hgrow
    have hnot := (exists_of_grows_markConsumed (cellsFrom_cellsOf window) hgrow).1
    have hk : k ∉ g.memberIndices := fun hk => hnot (mem_flatMap.mpr ⟨g, hg, hk⟩)
    exact h rule hrule k honly (closeBehind_of_jump hs hk hlt hle)

/-- A line of the log with this event name. -/
def named (name : String) : LogLine := ⟨"t", none, some name, "", []⟩

/-- An anchor stands in the gap behind a burst, and two members follow the gap. -/
theorem not_missesNone : ¬ MissesNone
    [named "A", named "m", named "m", named "A", named "x", named "m", named "m"]
    [⟨"r", .eventName "A", .eventName "m", [], 3, 1⟩] := by
  intro h
  refine h _ mem_cons_self 3 ?_
  decide +kernel

end StarStats.Core.BurstsLeft
