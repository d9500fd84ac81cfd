import Mathlib.Data.List.Pairwise
import StarStats.Core.Templates

/-! # What a burst is made of

The callers of `detectBursts` keep the parsed lines next to what they came from, and read the indices
of a hit back into that list. `burstsOf` does both. A burst so resolved is a nonempty run of the items
(`BurstIn`): it begins with its anchor and ends with its last member, its size is the number of its
members, and each of them matches the rule. No item is a member twice, within one burst or in two. -/

namespace StarStats.Core.Bursts

open List
open StarStats.Core.Parser StarStats.Core.Templates

/-! ### One scan -/

section Scan
variable {rule : BurstRule}

theorem collect_sublist : ∀ (gap : ℕ) (cs : List Cell), (collect rule gap cs).1 <+
    ((cs.take (collect rule gap cs).2).filter (·.isMember rule)).map (·.idx)
  | _, [] => by simp [collect]
  | gap, c :: cs => by
    unfold collect
    by_cases hm : c.isMember rule
    · simp only [if_pos hm, take_succ_cons, filter_cons_of_pos hm, map_cons]
      exact (collect_sublist 0 cs).cons_cons c.idx
    · rw [if_neg hm]
      by_cases hg : rule.maxMemberGap < gap + 1
      · simp [hg]
      · simp only [if_neg hg, take_succ_cons, filter_cons_of_neg hm]
        exact collect_sublist (gap + 1) cs

theorem mem_collect {gap : ℕ} {cs : List Cell} {i : ℕ} (h : i ∈ (collect rule gap cs).1) :
    ∃ c ∈ cs, c.idx = i ∧ c.isMember rule := by
  obtain ⟨c, hc, rfl⟩ := mem_map.mp ((collect_sublist gap cs).subset h)
  obtain ⟨hc, hm⟩ := mem_filter.mp hc
  exact ⟨c, mem_of_mem_take hc, rfl, hm⟩

theorem filter_isMember_sublist (cs : List Cell) :
    cs.filter (·.isMember rule) <+ cs.filter (!·.consumed) :=
  monotone_filter_right cs fun c hc => by
    simp only [Cell.isMember, Bool.and_eq_true] at hc; exact hc.1

theorem memberIndices_hit (i : ℕ) (ms : List ℕ) : (rule.hit i ms).memberIndices = i :: ms := rfl

/-- **The bursts of one scan take free lines, each at most once and in order.** -/
theorem scanRule_sublist : ∀ (skip : ℕ) (cs : List Cell),
    (scanRule rule skip cs).flatMap (·.memberIndices) <+
      ((cs.drop skip).filter (!·.consumed)).map (·.idx)
  | _, [] => by simp [scanRule]
  | skip + 1, c :: cs => by
    rw [scanRule, drop_succ_cons]
    exact scanRule_sublist skip cs
  | 0, c :: cs => by
    have hskip : (scanRule rule 0 cs).flatMap (·.memberIndices) <+
        ((c :: cs).filter (!·.consumed)).map (·.idx) :=
      (scanRule_sublist 0 cs).trans (((sublist_cons_self c cs).filter _).map _)
    unfold scanRule
    rw [drop_zero]
    by_cases ha : c.isAnchor rule
    · have hfree : (!c.consumed) = true := by
        simp only [Cell.isAnchor, Bool.and_eq_true] at ha; exact ha.1
      simp only [if_pos ha]
      split_ifs with hs
      · rw [flatMap_cons, memberIndices_hit, cons_append,
          filter_cons_of_pos (p := fun c : Cell => !c.consumed) hfree, map_cons]
        refine Sublist.cons_cons _ ?_
        have hwalk := (@collect_sublist rule 0 cs).trans
          ((filter_isMember_sublist _).map (·.idx))
        have hrest := scanRule_sublist (collect rule 0 cs).2 cs
        have happ := hwalk.append hrest
        rwa [← map_append, ← filter_append, take_append_drop] at happ
      · exact hskip
    · rw [if_neg ha]
      exact hskip

/-- A hit of a scan: its anchor and its members are cells that match. -/
theorem mem_scanRule : ∀ {skip : ℕ} {cs : List Cell} {h : BurstHit}, h ∈ scanRule rule skip cs →
    ∃ i ms, h = rule.hit i ms ∧ rule.minBurstSize ≤ ms.length + 1 ∧
      (∃ c ∈ cs, c.idx = i ∧ c.isAnchor rule) ∧ ∀ j ∈ ms, ∃ c ∈ cs, c.idx = j ∧ c.isMember rule
  | _, [], h, hh => by simp [scanRule] at hh
  | skip + 1, c :: cs, h, hh => by
    obtain ⟨i, ms, rfl, hs, ⟨a, ha, hi⟩, hms⟩ := @mem_scanRule skip _ _ hh
    refine ⟨i, ms, rfl, hs, ⟨a, mem_cons_of_mem _ ha, hi⟩, fun j hj => ?_⟩
    obtain ⟨b, hb, hbj⟩ := hms j hj
    exact ⟨b, mem_cons_of_mem _ hb, hbj⟩
  | 0, c :: cs, h, hh => by
    have later : ∀ {skip}, h ∈ scanRule rule skip cs → ∃ i ms, h = rule.hit i ms ∧
        rule.minBurstSize ≤ ms.length + 1 ∧ (∃ d ∈ c :: cs, d.idx = i ∧ d.isAnchor rule) ∧
        ∀ j ∈ ms, ∃ d ∈ c :: cs, d.idx = j ∧ d.isMember rule := by
      intro skip hmem
      obtain ⟨i, ms, rfl, hs, ⟨a, ha, hi⟩, hms⟩ := mem_scanRule hmem
      refine ⟨i, ms, rfl, hs, ⟨a, mem_cons_of_mem _ ha, hi⟩, fun j hj => ?_⟩
      obtain ⟨b, hb, hbj⟩ := hms j hj
      exact ⟨b, mem_cons_of_mem _ hb, hbj⟩
    unfold scanRule at hh
    by_cases ha : c.isAnchor rule
    · simp only [if_pos ha] at hh
      split_ifs at hh with hs
      · rcases mem_cons.mp hh with rfl | hh
        · refine ⟨c.idx, _, rfl, hs, ⟨c, mem_cons_self, rfl, ha⟩, fun j hj => ?_⟩
          obtain ⟨b, hb, hbj⟩ := mem_collect hj
          exact ⟨b, mem_cons_of_mem _ hb, hbj⟩
        · exact later hh
      · exact later hh
    · rw [if_neg ha] at hh
      exact later hh

end Scan

/-! ### All scans -/

/-- What a cell says of the line at its index. -/
def cellsFrom (window : List LogLine) (cells : List Cell) : Prop :=
  cells.map (·.idx) = range window.length ∧ ∀ c ∈ cells, window[c.idx]? = some c.line

theorem cellsFrom_cellsOf (window : List LogLine) : cellsFrom window (cellsOf window) := by
  refine ⟨?_, fun c hc => ?_⟩
  · rw [cellsOf, map_map]
    exact (zipIdx_map_snd 0 window).trans range_eq_range'.symm
  · obtain ⟨⟨l, i⟩, hli, rfl⟩ := mem_map.mp hc
    exact mem_zipIdx_iff_getElem?.mp hli

theorem map_idx_markConsumed (taken : List ℕ) (cells : List Cell) :
    (markConsumed taken cells).map (·.idx) = cells.map (·.idx) := by
  simp [markConsumed, Function.comp_def]

theorem cellsFrom_markConsumed {window : List LogLine} {cells : List Cell} (taken : List ℕ)
    (h : cellsFrom window cells) : cellsFrom window (markConsumed taken cells) := by
  refine ⟨(map_idx_markConsumed taken cells).trans h.1, fun c hc => ?_⟩
  obtain ⟨d, hd, rfl⟩ := mem_map.mp hc
  exact h.2 d hd

/-- The indices of the lines that no burst has taken. -/
def freeIndices (cells : List Cell) : List ℕ := (cells.filter (!·.consumed)).map (·.idx)

theorem freeIndices_markConsumed (taken : List ℕ) (cells : List Cell) :
    freeIndices (markConsumed taken cells) = (freeIndices cells).filter (· ∉ taken) := by
  unfold freeIndices markConsumed
  rw [filter_map, map_map, filter_map, filter_filter]
  congr 1
  refine filter_congr fun c _ => ?_
  simp [Bool.and_comm]

/-- **All scans together take free lines, each at most once.** -/
theorem sweep_subperm {window : List LogLine} : ∀ (rules : List BurstRule) {cells : List Cell},
    cellsFrom window cells → (sweep rules cells).flatMap (·.memberIndices) <+~ freeIndices cells
  | [], cells, _ => by simp [sweep]
  | rule :: rules, cells, hc => by
    have hnd : (freeIndices cells).Nodup :=
      (hc.1 ▸ nodup_range : (cells.map (·.idx)).Nodup).sublist (filter_sublist.map _)
    have hscan : (scanRule rule 0 cells).flatMap (·.memberIndices) <+ freeIndices cells :=
      scanRule_sublist 0 cells
    have hrest := sweep_subperm rules (cellsFrom_markConsumed
      ((scanRule rule 0 cells).flatMap (·.memberIndices)) hc)
    rw [freeIndices_markConsumed] at hrest
    simp only [sweep, flatMap_append]
    refine subperm_of_subset (nodup_append.mpr ⟨hnd.sublist hscan, ?_, ?_⟩) ?_
    · obtain ⟨l, hperm, hsub⟩ := hrest
      exact hperm.nodup ((hnd.filter _).sublist hsub)
    · rintro i hi j hj rfl
      exact absurd hi (by simpa using (mem_filter.mp (hrest.subset hj)).2)
    · intro i hi
      rcases mem_append.mp hi with hi | hi
      · exact hscan.subset hi
      · exact (mem_filter.mp (hrest.subset hi)).1

/-- A hit of the sweep comes from one of the rules, on lines of the window that match it. -/
theorem mem_sweep {window : List LogLine} : ∀ {rules : List BurstRule} {cells : List Cell}
    {h : BurstHit}, cellsFrom window cells → h ∈ sweep rules cells →
    ∃ rule ∈ rules, ∃ i ms, h = rule.hit i ms ∧ rule.minBurstSize ≤ ms.length + 1 ∧
      (∃ l, window[i]? = some l ∧ lineMatches l rule.anchor rule.tags) ∧
      ∀ j ∈ ms, ∃ l, window[j]? = some l ∧ lineMatches l rule.member rule.tags
  | [], _, _, _, hh => by simp [sweep] at hh
  | rule :: rules, cells, h, hc, hh => by
    rcases mem_append.mp hh with hh | hh
    · obtain ⟨i, ms, rfl, hs, ⟨c, hcm, rfl, ha⟩, hms⟩ := mem_scanRule hh
      simp only [Cell.isAnchor, Bool.and_eq_true] at ha
      refine ⟨rule, mem_cons_self, c.idx, ms, rfl, hs, ⟨c.line, hc.2 c hcm, ha.2⟩, fun j hj => ?_⟩
      obtain ⟨d, hdm, rfl, hd⟩ := hms j hj
      simp only [Cell.isMember, Bool.and_eq_true] at hd
      exact ⟨d.line, hc.2 d hdm, hd.2⟩
    · obtain ⟨r, hr, hrest⟩ := mem_sweep (cellsFrom_markConsumed _ hc) hh
      exact ⟨r, mem_cons_of_mem _ hr, hrest⟩

theorem perm_detectBursts (window : List LogLine) (rules : List BurstRule) :
    detectBursts window rules ~ sweep rules (cellsOf window) := perm_insertionSort _ _

/-- **Bursts do not overlap**: the indices of all members are distinct indices of the window. -/
theorem detectBursts_subperm (window : List LogLine) (rules : List BurstRule) :
    (detectBursts window rules).flatMap (·.memberIndices) <+~ range window.length := by
  have hc := cellsFrom_cellsOf window
  refine ((perm_detectBursts window rules).flatMap_right _).subperm.trans
    ((sweep_subperm rules hc).trans ?_)
  rw [← hc.1]
  exact (filter_sublist.map _).subperm

/-! ### Bursts of the items behind the lines -/

/-- A hit read back into the items the window was made from. -/
structure Burst (α : Type) where
  ruleId : String
  anchor : α
  last : α
  size : ℕ
  members : List α

variable {α : Type} {log : α → LogLine} {items : List α} {rules : List BurstRule}

/-- The items at the indices of a hit. -/
def resolve (items : List α) (h : BurstHit) : Option (Burst α) := do
  let anchor ← items[h.startIndex]?
  let last ← items[h.endIndex]?
  some ⟨h.ruleId, anchor, last, h.size, h.memberIndices.filterMap (items[·]?)⟩

/-- The bursts among items that each carry a parsed line. -/
def burstsOf (log : α → LogLine) (items : List α) (rules : List BurstRule) : List (Burst α) :=
  (detectBursts (items.map log) rules).filterMap (resolve items)

/-- A burst of the items, found by one of the rules. -/
structure BurstIn (log : α → LogLine) (items : List α) (rules : List BurstRule) (b : Burst α) :
    Prop where
  size_eq : b.size = b.members.length
  head_eq : b.members.head? = some b.anchor
  last_eq : b.members.getLast? = some b.last
  matches_rule : ∃ rule ∈ rules, rule.id = b.ruleId ∧ rule.minBurstSize ≤ b.size ∧
    lineMatches (log b.anchor) rule.anchor rule.tags ∧
    ∀ m ∈ b.members, m ≠ b.anchor → lineMatches (log m) rule.member rule.tags

theorem filterMap_getElem?_range (l : List α) : (range l.length).filterMap (l[·]?) = l := by
  induction l with
  | nil => rfl
  | cons a l ih =>
    rw [length_cons, range_succ_eq_map, filterMap_cons, filterMap_map]
    simpa [Function.comp_def] using ih

theorem length_filterMap_getElem? {l : List α} : ∀ {is : List ℕ}, (∀ i ∈ is, i < l.length) →
    (is.filterMap (l[·]?)).length = is.length
  | [], _ => rfl
  | i :: is, h => by
    have hi := h i mem_cons_self
    rw [filterMap_cons, getElem?_eq_getElem hi]
    simp [length_filterMap_getElem? fun j hj => h j (mem_cons_of_mem _ hj)]

theorem getLast?_filterMap_getElem? {l : List α} : ∀ {is : List ℕ} (hne : is ≠ []),
    (∀ i ∈ is, i < l.length) → (is.filterMap (l[·]?)).getLast? = l[is.getLast hne]?
  | [i], _, h => by
    have hi := h i mem_cons_self
    simp [hi]
  | i :: j :: is, _, h => by
    have hi := h i mem_cons_self
    have ih := getLast?_filterMap_getElem? (l := l) (cons_ne_nil _ _)
      fun k hk => h k (mem_cons_of_mem _ hk)
    have hj := h j (by simp)
    rw [filterMap_cons, getElem?_eq_getElem hi]
    rw [getLast_cons (cons_ne_nil j is), ← ih, filterMap_cons, getElem?_eq_getElem hj]
    simp

theorem lt_of_mem_detectBursts {window : List LogLine} {h : BurstHit}
    (hh : h ∈ detectBursts window rules) {i : ℕ} (hi : i ∈ h.memberIndices) : i < window.length :=
  mem_range.mp ((detectBursts_subperm window rules).subset (mem_flatMap.mpr ⟨h, hh, hi⟩))

/-- **A burst of the items is what it should be.** -/
theorem burstIn_of_mem {b : Burst α} (hb : b ∈ burstsOf log items rules) :
    BurstIn log items rules b := by
  obtain ⟨h, hh, hres⟩ := mem_filterMap.mp hb
  have hlt : ∀ i ∈ h.memberIndices, i < items.length := fun i hi => by
    have := lt_of_mem_detectBursts hh hi
    rwa [length_map] at this
  obtain ⟨rule, hrule, i, ms, rfl, hs, ⟨l, hl, hla⟩, hms⟩ :=
    mem_sweep (cellsFrom_cellsOf _) ((perm_detectBursts _ _).subset hh)
  obtain ⟨a, ha, z, hz, rfl⟩ : ∃ a, items[(rule.hit i ms).startIndex]? = some a ∧
      ∃ z, items[(rule.hit i ms).endIndex]? = some z ∧
      Burst.mk rule.id a z (ms.length + 1) ((i :: ms).filterMap (items[·]?)) = b := by
    simpa [resolve, Option.bind_eq_some_iff, BurstRule.hit] using hres
  have hanchor : items[i]? = some a := ha
  refine ⟨(length_filterMap_getElem? hlt).symm, ?_, ?_, rule, hrule, rfl, hs, ?_, ?_⟩
  · simp [hanchor]
  · exact (getLast?_filterMap_getElem? (cons_ne_nil i ms) hlt).trans hz
  · rw [getElem?_map, hanchor] at hl
    cases hl; exact hla
  · intro m hm hne
    obtain ⟨j, hj, hjm⟩ := mem_filterMap.mp hm
    rcases mem_cons.mp hj with rfl | hj
    · exact absurd (Option.some.inj (hjm.symm.trans hanchor)) hne
    · obtain ⟨l', hl', hm'⟩ := hms j hj
      rw [getElem?_map, hjm] at hl'
      cases hl'; exact hm'

theorem resolve_of_mem {h : BurstHit} (hh : h ∈ detectBursts (items.map log) rules) :
    ∃ b, resolve items h = some b ∧ b.members = h.memberIndices.filterMap (items[·]?) := by
  have hlt : ∀ i ∈ h.memberIndices, i < items.length := fun i hi => by
    have := lt_of_mem_detectBursts hh hi
    rwa [length_map] at this
  obtain ⟨rule, -, i, ms, rfl, -⟩ :=
    mem_sweep (cellsFrom_cellsOf _) ((perm_detectBursts _ _).subset hh)
  have hs : i < items.length := hlt i mem_cons_self
  have he : (i :: ms).getLast (by simp) < items.length := hlt _ (getLast_mem _)
  simp only [resolve, BurstRule.hit, getElem?_eq_getElem hs, getElem?_eq_getElem he]
  exact ⟨_, rfl, rfl⟩

theorem flatMap_members_burstsOf : (burstsOf log items rules).flatMap (·.members) =
    ((detectBursts (items.map log) rules).flatMap (·.memberIndices)).filterMap (items[·]?) := by
  have key : ∀ hs : List BurstHit, (∀ h ∈ hs, h ∈ detectBursts (items.map log) rules) →
      (hs.filterMap (resolve items)).flatMap (·.members) =
        (hs.flatMap (·.memberIndices)).filterMap (items[·]?) := by
    intro hs
    induction hs with
    | nil => intro; rfl
    | cons h hs ih =>
      intro hmem
      obtain ⟨b, hb, hbm⟩ := resolve_of_mem (hmem h mem_cons_self)
      rw [filterMap_cons, hb, flatMap_cons, flatMap_cons, filterMap_append, hbm,
        ih fun h' hh' => hmem h' (mem_cons_of_mem _ hh')]
  exact key _ fun _ hh => hh

/-- **The members of all bursts are distinct positions among the items.** -/
theorem burstsOf_subperm (log : α → LogLine) (items : List α) (rules : List BurstRule) :
    (burstsOf log items rules).flatMap (·.members) <+~ items := by
  rw [flatMap_members_burstsOf]
  obtain ⟨l, hperm, hsub⟩ := detectBursts_subperm (items.map log) rules
  rw [length_map] at hsub
  refine ⟨l.filterMap (items[·]?), hperm.filterMap _, ?_⟩
  have := hsub.filterMap (items[·]?)
  rwa [filterMap_getElem?_range] at this

theorem mem_of_mem_members {b : Burst α} (hb : b ∈ burstsOf log items rules) {m : α}
    (hm : m ∈ b.members) : m ∈ items :=
  (burstsOf_subperm log items rules).subset (mem_flatMap.mpr ⟨b, hb, hm⟩)

theorem eq_of_mem_members (hitems : items.Nodup) {b b' : Burst α}
    (hb : b ∈ burstsOf log items rules) (hb' : b' ∈ burstsOf log items rules) {m : α}
    (hm : m ∈ b.members) (hm' : m ∈ b'.members) : b = b' := by
  obtain ⟨l, hperm, hsub⟩ := burstsOf_subperm log items rules
  have hnd := hperm.nodup_iff.mp (hitems.sublist hsub)
  by_contra hne
  have : Std.Symm (Function.onFun List.Disjoint fun b : Burst α => b.members) :=
    ⟨fun _ _ h _ ha hb => h hb ha⟩
  exact (nodup_flatMap.mp hnd).2.forall hb hb' hne hm hm'

theorem nodup_burstsOf (hitems : items.Nodup) : (burstsOf log items rules).Nodup := by
  obtain ⟨l, hperm, hsub⟩ := burstsOf_subperm log items rules
  have hnd := hperm.nodup_iff.mp (hitems.sublist hsub)
  refine (nodup_flatMap.mp hnd).2.imp_of_mem fun {b b'} hb _ hdis heq => ?_
  have hanchor := mem_of_mem_head? (burstIn_of_mem hb).head_eq
  exact hdis hanchor (heq ▸ hanchor)

theorem size_le_length {b : Burst α} (hb : b ∈ burstsOf log items rules) : b.size ≤ items.length := by
  rw [(burstIn_of_mem hb).size_eq]
  refine Nat.le_trans ?_ (burstsOf_subperm log items rules).length_le
  rw [flatMap_def]
  exact (sublist_flatten_of_mem (mem_map_of_mem hb)).length_le

theorem BurstIn.anchor_mem {b : Burst α} (h : BurstIn log items rules b) : b.anchor ∈ b.members :=
  mem_of_mem_head? h.head_eq

end StarStats.Core.Bursts
