import Mathlib.Algebra.GroupWithZero.Nat
import Mathlib.Data.List.Range
import Mathlib.Data.List.Infix
import Mathlib.Data.List.Nodup
import Mathlib.Data.List.Flatten
import Mathlib.Data.List.Chain

/-! # Cutting spans out of a text

Spans of a text are replaced one after the other, from right to left. They are given in one measure and
cut in another, in which a character is no longer: bytes and UTF-16 units, say. `Piece` says where each
unit of the result comes from, so it tells apart units that look the same.

Every span is replaced, and nothing else (`replaced`), exactly if no two spans overlap and the two
measures agree where they have to (`foldr_cut_eq_replaced_iff`): wherever text that stays stands right
before or behind a span; and no span may start, in the one measure, behind the end of the text in the
other. -/

namespace StarStats.Lib.Spans

open List

/-- Characters `α` with their sizes in two measures, and spans `τ` given in the first of them, with the
size of what is put in their place. -/
structure Layout (α τ : Type) where
  wide : α → ℕ
  narrow : α → ℕ
  narrow_pos : ∀ a, 0 < narrow a
  narrow_le : ∀ a, narrow a ≤ wide a
  start : τ → ℕ
  stop : τ → ℕ
  size : τ → ℕ

/-- A unit of the result: one of the text, or one of what is put in. -/
inductive Piece (τ : Type) where
  | kept (i : ℕ)
  | inserted (t : τ) (j : ℕ)
  deriving DecidableEq

variable {α τ : Type}

/-- The units of the text from the `o`-th on. -/
def keptFrom (o n : ℕ) : List (Piece τ) := (range' o n).map .kept

namespace Layout
variable (L : Layout α τ)

/-- The length in the wide units. -/
def wideOf (cs : List α) : ℕ := (cs.map L.wide).sum

/-- The length in the narrow units. -/
def narrowOf (cs : List α) : ℕ := (cs.map L.narrow).sum

/-- What stands for a marked text. -/
def placeholder (t : τ) : List (Piece τ) := (range (L.size t)).map (.inserted t)

/-- Cut one span out of what the text is from the `o`-th unit on. -/
def cut (o : ℕ) (t : τ) (xs : List (Piece τ)) : List (Piece τ) :=
  xs.take (L.start t - o) ++ L.placeholder t ++ xs.drop (L.stop t - o)

/-- **The text with exactly the spans replaced**: what no span covers is there, and so is what is put in,
where its span starts. The text starts at `p` in the one measure and at `o` in the other. -/
def replaced (ts : List τ) : ℕ → ℕ → List α → List (Piece τ)
  | _, _, [] => []
  | p, o, c :: cs =>
    (ts.filter fun t => L.start t = p).flatMap L.placeholder ++
      (if ∃ t ∈ ts, L.start t ≤ p ∧ p < L.stop t then [] else keptFrom o (L.narrow c)) ++
      replaced ts (p + L.wide c) (o + L.narrow c) cs

/-- The span is one of some characters of the text. -/
def InText (p : ℕ) (cs : List α) (t : τ) : Prop :=
  ∃ pre mid post, cs = pre ++ mid ++ post ∧ L.start t = p + L.wideOf pre ∧
    L.stop t = L.start t + L.wideOf mid ∧ mid ≠ []

end Layout

/-- A part of a marked text: a character that stays, or a span. -/
inductive Item (α τ : Type) where
  | free (c : α)
  | mark (t : τ) (cs : List α)

/-- The text of an item. -/
def Item.chars : Item α τ → List α
  | .free c => [c]
  | .mark _ cs => cs

/-- The mark of an item, if it has one. -/
def Item.span : Item α τ → Option τ
  | .free _ => none
  | .mark t _ => some t

/-- The text of all items. -/
def chars (items : List (Item α τ)) : List α := items.flatMap Item.chars

/-- The marks of all items. -/
def spans (items : List (Item α τ)) : List τ := items.filterMap Item.span

namespace Layout
variable (L : Layout α τ)

/-- The spans stand where they say, in a text that starts at `p`. -/
def Fits : ℕ → List (Item α τ) → Prop
  | _, [] => True
  | p, .free c :: items => Fits (p + L.wide c) items
  | p, .mark t cs :: items => L.start t = p ∧ L.stop t = p + L.wideOf cs ∧ cs ≠ [] ∧
      Fits (p + L.wideOf cs) items

/-- The measures agree where the next part begins, if text that stays meets a span there. -/
def Joint (n : ℕ) (pre : List (Item α τ)) : Item α τ → Prop
  | .free _ => ∀ t cs, pre.getLast? = some (.mark t cs) → L.stop t = L.narrowOf (chars pre)
  | .mark t _ => L.start t ≤ n ∧
      ∀ c, pre.getLast? = some (.free c) → L.start t = L.narrowOf (chars pre)

/-- **The measures agree where they have to.** -/
def Aligned (items : List (Item α τ)) : Prop :=
  ∀ pre i post, items = pre ++ i :: post → L.Joint (L.narrowOf (chars items)) pre i

variable {L}

/-! ### Sizes -/

@[simp] theorem wideOf_nil : L.wideOf [] = 0 := rfl

@[simp] theorem wideOf_cons (c : α) (cs : List α) : L.wideOf (c :: cs) = L.wide c + L.wideOf cs := by
  simp [wideOf]

@[simp] theorem wideOf_append (cs ds : List α) : L.wideOf (cs ++ ds) = L.wideOf cs + L.wideOf ds := by
  simp [wideOf]

@[simp] theorem narrowOf_nil : L.narrowOf [] = 0 := rfl

@[simp] theorem narrowOf_cons (c : α) (cs : List α) :
    L.narrowOf (c :: cs) = L.narrow c + L.narrowOf cs := by
  simp [narrowOf]

@[simp] theorem narrowOf_append (cs ds : List α) :
    L.narrowOf (cs ++ ds) = L.narrowOf cs + L.narrowOf ds := by
  simp [narrowOf]

theorem narrowOf_le (cs : List α) : L.narrowOf cs ≤ L.wideOf cs := by
  induction cs with
  | nil => exact le_rfl
  | cons c cs ih =>
    have := L.narrow_le c
    rw [narrowOf_cons, wideOf_cons]
    omega

theorem narrowOf_pos {cs : List α} (h : cs ≠ []) : 0 < L.narrowOf cs := by
  cases cs with
  | nil => exact absurd rfl h
  | cons c cs =>
    have := L.narrow_pos c
    rw [narrowOf_cons]
    omega

theorem wideOf_pos {cs : List α} (h : cs ≠ []) : 0 < L.wideOf cs :=
  (narrowOf_pos h).trans_le (narrowOf_le cs)

@[simp] theorem length_placeholder (t : τ) : (L.placeholder t).length = L.size t := by
  simp [placeholder]

theorem mem_placeholder {t : τ} {q : Piece τ} :
    q ∈ L.placeholder t ↔ ∃ j < L.size t, Piece.inserted t j = q := by
  simp [placeholder]

end Layout

@[simp] theorem length_keptFrom (o n : ℕ) : (keptFrom o n : List (Piece τ)).length = n := by
  simp [keptFrom]

theorem keptFrom_append (o m n : ℕ) :
    (keptFrom o (m + n) : List (Piece τ)) = keptFrom o m ++ keptFrom (o + m) n := by
  rw [keptFrom, keptFrom, keptFrom, ← map_append, range'_append_1]

theorem mem_keptFrom {o n : ℕ} {q : Piece τ} : q ∈ keptFrom o n ↔ ∃ i, o ≤ i ∧ i < o + n ∧ .kept i = q := by
  simp [keptFrom, mem_range'_1, and_assoc]

@[simp] theorem chars_cons (i : Item α τ) (items : List (Item α τ)) :
    chars (i :: items) = i.chars ++ chars items := rfl

@[simp] theorem spans_free (c : α) (items : List (Item α τ)) :
    spans (.free c :: items) = spans items := rfl

@[simp] theorem spans_mark (t : τ) (cs : List α) (items : List (Item α τ)) :
    spans (.mark t cs :: items) = t :: spans items := rfl

namespace Layout
variable {L : Layout α τ}

/-! ### Cuts -/

/-- What is before all cuts stays. -/
theorem foldr_cut_append {o n : ℕ} {X : List (Piece τ)} : ∀ {ts : List τ},
    (∀ t ∈ ts, o + n ≤ L.start t ∧ L.start t ≤ L.stop t) →
    ts.foldr (L.cut o) (keptFrom o n ++ X) = keptFrom o n ++ ts.foldr (L.cut (o + n)) X
  | [], _ => rfl
  | t :: ts, h => by
    obtain ⟨⟨hle, hss⟩, h⟩ := forall_mem_cons.mp h
    have hstart : L.start t - o = n + (L.start t - (o + n)) := by omega
    have hstop : L.stop t - o = n + (L.stop t - (o + n)) := by omega
    rw [foldr_cons, foldr_cut_append h, foldr_cons, cut, cut, hstart, hstop]
    rw [take_append, drop_append, length_keptFrom, take_of_length_le (by simp),
      drop_eq_nil_of_le (by simp)]
    simp [append_assoc]

theorem take_foldr_cut {o m : ℕ} {Z : List (Piece τ)} (hm : m ≤ Z.length) : ∀ {ts : List τ},
    (∀ t ∈ ts, o + m ≤ L.start t) →
    m ≤ (ts.foldr (L.cut o) Z).length ∧ (ts.foldr (L.cut o) Z).take m = Z.take m
  | [], _ => ⟨hm, rfl⟩
  | t :: ts, h => by
    obtain ⟨hle, h⟩ := forall_mem_cons.mp h
    obtain ⟨hlen, htake⟩ := take_foldr_cut hm h
    have hmin : m ≤ L.start t - o := by omega
    rw [foldr_cons, cut, append_assoc]
    constructor
    · rw [length_append, length_take]
      omega
    · rw [take_append_of_le_length (by rw [length_take]; omega), take_take, min_eq_left hmin, htake]

theorem mem_foldr_cut {o : ℕ} {Z : List (Piece τ)} {q : Piece τ} : ∀ {ts : List τ},
    q ∈ ts.foldr (L.cut o) Z → q ∈ Z ∨ ∃ t ∈ ts, q ∈ L.placeholder t
  | [], h => Or.inl h
  | t :: ts, h => by
    rw [foldr_cons, cut, mem_append, mem_append] at h
    rcases h with (h | h) | h
    · exact (mem_foldr_cut (mem_of_mem_take h)).imp_right fun ⟨t', ht', hq⟩ =>
        ⟨t', mem_cons_of_mem _ ht', hq⟩
    · exact Or.inr ⟨t, mem_cons_self, h⟩
    · exact (mem_foldr_cut (mem_of_mem_drop h)).imp_right fun ⟨t', ht', hq⟩ =>
        ⟨t', mem_cons_of_mem _ ht', hq⟩

/-! ### Marked texts -/

theorem Fits.bounds : ∀ {p : ℕ} {items : List (Item α τ)}, L.Fits p items → ∀ t ∈ spans items,
    p ≤ L.start t ∧ L.start t < L.stop t
  | _, [], _, _, ht => absurd ht not_mem_nil
  | p, .free c :: items, h, t, ht => by
    have hb := @Fits.bounds (p + L.wide c) items h t ht
    omega
  | p, .mark t' cs :: items, ⟨hstart, hstop, hne, h⟩, t, ht => by
    have hpos := wideOf_pos (L := L) hne
    rcases mem_cons.mp ht with rfl | ht
    · omega
    · have hb := @Fits.bounds (p + L.wideOf cs) items h t ht
      omega

/-- The result, part by part. -/
def replacedItems (L : Layout α τ) : ℕ → List (Item α τ) → List (Piece τ)
  | _, [] => []
  | o, .free c :: items => keptFrom o (L.narrow c) ++ replacedItems L (o + L.narrow c) items
  | o, .mark t cs :: items => L.placeholder t ++ replacedItems L (o + L.narrowOf cs) items

/-- Characters that a span covers are not there. -/
theorem replaced_covered {ts : List τ} {t : τ} (ht : t ∈ ts) {ds : List α} : ∀ {cs : List α} {p o : ℕ},
    L.start t ≤ p → p + L.wideOf cs ≤ L.stop t →
    (∀ t' ∈ ts, L.start t' < p ∨ p + L.wideOf cs ≤ L.start t') →
    L.replaced ts p o (cs ++ ds) = L.replaced ts (p + L.wideOf cs) (o + L.narrowOf cs) ds
  | [], _, _, _, _, _ => rfl
  | c :: cs, p, o, hstart, hstop, hnone => by
    have hpos := (L.narrow_pos c).trans_le (L.narrow_le c)
    rw [wideOf_cons] at hstop hnone
    have hfilter : (ts.filter fun t' => L.start t' = p) = [] :=
      filter_eq_nil_iff.mpr fun t' ht' heq => by
        have := hnone t' ht'
        have := of_decide_eq_true heq
        omega
    have hcov : ∃ t' ∈ ts, L.start t' ≤ p ∧ p < L.stop t' := ⟨t, ht, hstart, by omega⟩
    have ih := @replaced_covered ts t ht ds cs (p + L.wide c) (o + L.narrow c) (by omega) (by omega)
      fun t' ht' => (hnone t' ht').imp (fun h => by omega) fun h => by omega
    rw [cons_append, replaced, hfilter, if_pos hcov, ih, wideOf_cons, narrowOf_cons, Nat.add_assoc,
      Nat.add_assoc]
    rfl

theorem replaced_of_fits : ∀ {items : List (Item α τ)} {p o : ℕ} {earlier : List τ},
    L.Fits p items → (∀ t ∈ earlier, L.start t < p ∧ L.stop t ≤ p) →
    L.replaced (earlier ++ spans items) p o (chars items) = L.replacedItems o items
  | [], _, _, _, _, _ => rfl
  | .free c :: items, p, o, earlier, h, he => by
    have hpos := (L.narrow_pos c).trans_le (L.narrow_le c)
    have hb := @Fits.bounds α τ L (p + L.wide c) items h
    have hfilter : ((earlier ++ spans items).filter fun t => L.start t = p) = [] :=
      filter_eq_nil_iff.mpr fun t ht heq => by
        have := of_decide_eq_true heq
        rcases mem_append.mp ht with ht | ht
        · have := he t ht
          omega
        · have := (hb t ht).1
          omega
    have hcov : ¬ ∃ t ∈ earlier ++ spans items, L.start t ≤ p ∧ p < L.stop t := by
      rintro ⟨t, ht, hle, hlt⟩
      rcases mem_append.mp ht with ht | ht
      · have := he t ht
        omega
      · have := (hb t ht).1
        omega
    have ih := @replaced_of_fits items (p + L.wide c) (o + L.narrow c) earlier h fun t ht => by
      have := he t ht
      omega
    rw [spans_free, chars_cons, Item.chars, singleton_append, replaced, hfilter, if_neg hcov, ih]
    rfl
  | .mark t cs :: items, p, o, earlier, ⟨hstart, hstop, hne, h⟩, he => by
    obtain ⟨c, cs', rfl⟩ := exists_cons_of_ne_nil hne
    have hpos := (L.narrow_pos c).trans_le (L.narrow_le c)
    have hb := @Fits.bounds α τ L _ items h
    rw [wideOf_cons] at hb hstop
    have hfilter : ((earlier ++ t :: spans items).filter fun t' => L.start t' = p) = [t] := by
      have h₁ : (earlier.filter fun t' => decide (L.start t' = p)) = [] :=
        filter_eq_nil_iff.mpr fun t' ht' heq => by
          have := of_decide_eq_true heq
          have := he t' ht'
          omega
      have h₂ : ((spans items).filter fun t' => decide (L.start t' = p)) = [] :=
        filter_eq_nil_iff.mpr fun t' ht' heq => by
          have := of_decide_eq_true heq
          have := (hb t' ht').1
          omega
      rw [filter_append, filter_cons_of_pos (by simpa using hstart), h₁, h₂]
      rfl
    have hcov : ∃ t' ∈ earlier ++ t :: spans items, L.start t' ≤ p ∧ p < L.stop t' :=
      ⟨t, by simp, hstart.le, by omega⟩
    have hrest := @replaced_covered α τ L (earlier ++ t :: spans items) t (by simp) (chars items) cs'
      (p + L.wide c) (o + L.narrow c) (by omega) (by omega) fun t' ht' => by
        rcases mem_append.mp ht' with ht' | ht'
        · have := he t' ht'
          omega
        · rcases mem_cons.mp ht' with rfl | ht'
          · omega
          · have := (hb t' ht').1
            omega
    have ih := @replaced_of_fits items (p + L.wideOf (c :: cs')) (o + L.narrowOf (c :: cs'))
      (earlier ++ [t]) h fun t' ht' => by
        rw [wideOf_cons]
        rcases mem_append.mp ht' with ht' | ht'
        · have := he t' ht'
          omega
        · rw [mem_singleton.mp ht']
          omega
    rw [append_assoc, singleton_append, wideOf_cons, narrowOf_cons, ← Nat.add_assoc,
      ← Nat.add_assoc] at ih
    rw [spans_mark, chars_cons, Item.chars, cons_append, replaced, hfilter, if_pos hcov, hrest, ih,
      replacedItems, narrowOf_cons, ← Nat.add_assoc]
    simp

/-! ### Cutting a marked text -/

/-- The cuts come out right, when the text is of `n` units and `d` of them are still to be dropped. -/
def Good (L : Layout α τ) (n : ℕ) : ℕ → ℕ → ℕ → List (Item α τ) → Prop
  | _, _, _, [] => True
  | p, o, d, .free c :: items => d = 0 ∧ Good L n (p + L.wide c) (o + L.narrow c) 0 items
  | p, o, d, .mark _ cs :: items => d = p - o ∧ p ≤ n ∧
      Good L n (p + L.wideOf cs) (o + L.narrowOf cs) (p + L.wideOf cs - (o + L.narrowOf cs)) items

theorem Good.start_le {n : ℕ} : ∀ {p o d : ℕ} {items : List (Item α τ)}, L.Fits p items →
    Good L n p o d items → ∀ t ∈ spans items, L.start t ≤ n
  | _, _, _, [], _, _, _, ht => absurd ht not_mem_nil
  | p, o, d, .free c :: items, hfits, h, t, ht =>
    @Good.start_le n (p + L.wide c) (o + L.narrow c) 0 items hfits h.2 t ht
  | p, o, d, .mark t' cs :: items, ⟨hstart, _, _, hfits⟩, ⟨_, hroom, h⟩, t, ht => by
    rcases mem_cons.mp ht with rfl | ht
    · exact hstart.trans_le hroom
    · exact @Good.start_le n _ _ _ items hfits h t ht

theorem take_keptFrom_ne {o n q : ℕ} (hn : 0 < n) (hq : 0 < q) {t : τ} (ht : 0 < L.size t)
    {Y xs ys : List (Piece τ)} : (keptFrom o n ++ Y).take q ++ xs ≠ L.placeholder t ++ ys := by
  obtain ⟨m, rfl⟩ : ∃ m, n = m + 1 := ⟨n - 1, by omega⟩
  obtain ⟨e, rfl⟩ : ∃ e, q = e + 1 := ⟨q - 1, by omega⟩
  obtain ⟨k, hk⟩ : ∃ k, L.size t = k + 1 := ⟨L.size t - 1, by omega⟩
  rw [keptFrom, range'_succ, placeholder, hk, range_succ_eq_map]
  simp

theorem drop_keptFrom_ne {o n d : ℕ} (hn : 0 < n) (hd : 0 < d) {X ys : List (Piece τ)}
    (hX : ∀ i, .kept i ∈ X → o + n ≤ i) : (keptFrom o n ++ X).drop d ≠ keptFrom o n ++ ys := by
  obtain ⟨m, rfl⟩ : ∃ m, n = m + 1 := ⟨n - 1, by omega⟩
  obtain ⟨e, rfl⟩ : ∃ e, d = e + 1 := ⟨d - 1, by omega⟩
  intro heq
  have hmem : (.kept o : Piece τ) ∈ (keptFrom o (m + 1) ++ X).drop (e + 1) := by
    rw [heq]
    exact mem_append_left _ (mem_keptFrom.mpr ⟨o, le_rfl, by omega, rfl⟩)
  rw [keptFrom, range'_succ, map_cons, cons_append, drop_succ_cons] at hmem
  rcases mem_append.mp (mem_of_mem_drop hmem) with hmem | hmem
  · obtain ⟨i, hi, heq⟩ := mem_map.mp hmem
    cases heq
    have := (mem_range'_1.mp hi).1
    omega
  · have := hX o hmem
    omega

/-- What is put in starts with its first unit, and that is nowhere else. -/
theorem drop_placeholder_ne {t : τ} (ht : 0 < L.size t) {d : ℕ} (hd : 0 < d) {X ys : List (Piece τ)}
    (hX : .inserted t 0 ∉ X) : (L.placeholder t ++ X).drop d ≠ L.placeholder t ++ ys := by
  obtain ⟨k, hk⟩ : ∃ k, L.size t = k + 1 := ⟨L.size t - 1, by omega⟩
  obtain ⟨e, rfl⟩ : ∃ e, d = e + 1 := ⟨d - 1, by omega⟩
  intro heq
  have hmem : .inserted t 0 ∈ (L.placeholder t ++ X).drop (e + 1) := by
    rw [heq]
    exact mem_append_left _ (mem_placeholder.mpr ⟨0, ht, rfl⟩)
  rw [placeholder, hk, range_succ_eq_map, map_cons, cons_append, drop_succ_cons] at hmem
  rcases mem_append.mp (mem_of_mem_drop hmem) with hmem | hmem
  · obtain ⟨j, hj, heq⟩ := mem_map.mp hmem
    obtain ⟨i, -, rfl⟩ := mem_map.mp hj
    cases heq
  · exact hX hmem

/-- **The cuts of a marked text come out right exactly if they are good.** -/
theorem drop_foldr_cut_iff : ∀ {items : List (Item α τ)} {p o d : ℕ},
    (∀ t ∈ spans items, 0 < L.size t) → L.Fits p items → o ≤ p → (d = 0 ∨ d = p - o) →
    (((spans items).foldr (L.cut o) (keptFrom o (L.narrowOf (chars items)))).drop d =
        L.replacedItems o items ↔
      Good L (o + L.narrowOf (chars items)) p o d items)
  | [], p, o, d, _, _, _, _ => by simp [spans, chars, keptFrom, replacedItems, Good]
  | .free c :: items, p, o, d, hsize, hfits, hop, hd => by
    have hpos := L.narrow_pos c
    have hle := L.narrow_le c
    have hb := @Fits.bounds α τ L (p + L.wide c) items hfits
    have ih := @drop_foldr_cut_iff items (p + L.wide c) (o + L.narrow c) 0 hsize hfits (by omega)
      (Or.inl rfl)
    have hsplit : (spans (.free c :: items)).foldr (L.cut o)
        (keptFrom o (L.narrowOf (chars (.free c :: items)))) = keptFrom o (L.narrow c) ++
          (spans items).foldr (L.cut (o + L.narrow c))
            (keptFrom (o + L.narrow c) (L.narrowOf (chars items))) := by
      rw [spans_free, chars_cons, Item.chars, singleton_append, narrowOf_cons, keptFrom_append]
      exact foldr_cut_append fun t ht => ⟨by have := hb t ht; omega, (hb t ht).2.le⟩
    rw [hsplit, replacedItems, Good, chars_cons, Item.chars, singleton_append, narrowOf_cons,
      ← Nat.add_assoc, ← ih]
    by_cases hzero : d = 0
    · subst hzero
      simp
    · refine iff_of_false (drop_keptFrom_ne hpos (by omega) fun i hi => ?_) fun h => hzero h.1
      rcases mem_foldr_cut hi with hi | ⟨t, -, hi⟩
      · obtain ⟨j, hj, -, heq⟩ := mem_keptFrom.mp hi
        cases heq
        exact hj
      · obtain ⟨j, -, heq⟩ := mem_placeholder.mp hi
        cases heq
  | .mark t cs :: items, p, o, d, hsize, ⟨hstart, hstop, hne, hfits⟩, hop, hd => by
    obtain ⟨ht, hsize⟩ := forall_mem_cons.mp hsize
    have hpos := narrowOf_pos (L := L) hne
    have hle := narrowOf_le (L := L) cs
    have hb := @Fits.bounds α τ L (p + L.wideOf cs) items hfits
    have ih := @drop_foldr_cut_iff items (p + L.wideOf cs) (o + L.narrowOf cs)
      (p + L.wideOf cs - (o + L.narrowOf cs)) hsize hfits (by omega) (Or.inr rfl)
    have hX : (spans items).foldr (L.cut o) (keptFrom o (L.narrowOf cs + L.narrowOf (chars items))) =
        keptFrom o (L.narrowOf cs) ++ (spans items).foldr (L.cut (o + L.narrowOf cs))
          (keptFrom (o + L.narrowOf cs) (L.narrowOf (chars items))) := by
      rw [keptFrom_append]
      exact foldr_cut_append fun t' ht' => ⟨by have := hb t' ht'; omega, (hb t' ht').2.le⟩
    rw [spans_mark, foldr_cons, chars_cons, Item.chars, narrowOf_append, hX, replacedItems, Good,
      ← Nat.add_assoc, ← ih, cut, hstart]
    generalize hY : (spans items).foldr (L.cut (o + L.narrowOf cs))
      (keptFrom (o + L.narrowOf cs) (L.narrowOf (chars items))) = Y at ih ⊢
    have hdrop : (keptFrom o (L.narrowOf cs) ++ Y).drop (L.stop t - o) =
        Y.drop (p + L.wideOf cs - (o + L.narrowOf cs)) := by
      rw [drop_append, length_keptFrom, drop_eq_nil_of_le (by rw [length_keptFrom]; omega),
        nil_append]
      congr 1
      omega
    rw [hdrop]
    have hroom : p ≤ o + L.narrowOf cs + L.narrowOf (chars items) →
        p - o ≤ (keptFrom o (L.narrowOf cs) ++ Y).length := fun hp => by
      rw [← hY, ← hX]
      exact (take_foldr_cut (by rw [length_keptFrom]; omega) fun t' ht' => by
        have := hb t' ht'
        omega).1
    by_cases hd' : d = p - o
    · by_cases hlen : p - o ≤ (keptFrom o (L.narrowOf cs) ++ Y).length
      · rw [hd', append_assoc, drop_left' (by rw [length_take, min_eq_left hlen]),
          append_cancel_left_eq]
        refine ⟨fun h => ⟨rfl, ?_, h⟩, fun h => h.2.2⟩
        by_cases hnil : spans items = []
        · rw [hnil, foldr_nil] at hY
          rw [← hY, length_append, length_keptFrom, length_keptFrom] at hlen
          omega
        · obtain ⟨t', ht'⟩ := exists_mem_of_ne_nil _ hnil
          have := Good.start_le hfits (ih.mp h) t' ht'
          have := hb t' ht'
          omega
      · refine iff_of_false ?_ fun h => hlen (hroom h.2.1)
        rw [hd', take_of_length_le (by omega), append_assoc, drop_append,
          drop_eq_nil_of_le (by omega), nil_append]
        refine drop_placeholder_ne ht (by omega) fun hmem => ?_
        rw [← hY] at hmem
        rcases mem_foldr_cut (mem_of_mem_drop hmem) with hmem | ⟨t', ht', hmem⟩
        · obtain ⟨i, -, -, heq⟩ := mem_keptFrom.mp hmem
          cases heq
        · obtain ⟨j, -, heq⟩ := mem_placeholder.mp hmem
          cases heq
          have := hb t ht'
          omega
    · refine iff_of_false ?_ fun h => hd' h.1
      rw [hd.resolve_right hd', drop_zero, append_assoc]
      exact take_keptFrom_ne hpos (by omega) ht

/-! ### The measures -/

theorem forall_split_cons {β : Type} {i : β} {xs : List β} {Q : List β → β → Prop} :
    (∀ pre j post, i :: xs = pre ++ j :: post → Q pre j) ↔
      Q [] i ∧ ∀ pre j post, xs = pre ++ j :: post → Q (i :: pre) j := by
  constructor
  · exact fun h => ⟨h [] i xs rfl, fun pre j post heq => h (i :: pre) j post (by rw [heq]; rfl)⟩
  · rintro ⟨h₁, h₂⟩ pre j post heq
    rcases cons_eq_append_iff.mp heq with ⟨rfl, htail⟩ | ⟨pre', rfl, htail⟩
    · cases htail
      exact h₁
    · exact h₂ pre' j post htail

theorem good_iff_joint {n : ℕ} : ∀ {items before : List (Item α τ)} {p o d : ℕ},
    o = L.narrowOf (chars before) → o ≤ p → L.Fits p items →
    ((∃ t cs, before.getLast? = some (.mark t cs) ∧ L.stop t = p ∧ d = p - o) ∨
      (∃ c, before.getLast? = some (.free c) ∧ d = 0) ∨ before = [] ∧ p = 0 ∧ d = 0) →
    (L.Good n p o d items ↔
      ∀ pre i post, items = pre ++ i :: post → L.Joint n (before ++ pre) i)
  | [], _, _, _, _, _, _, _, _ => by
    refine iff_of_true trivial fun pre i post h => ?_
    simp at h
  | .free c :: items, before, p, o, d, ho, hop, hfits, hd => by
    have hle := L.narrow_le c
    have ih := @good_iff_joint n items (before ++ [.free c]) (p + L.wide c) (o + L.narrow c) 0
      (by simp [chars, Item.chars, ho]) (by omega) hfits (Or.inr (Or.inl ⟨c, by simp, rfl⟩))
    simp only [append_assoc, singleton_append] at ih
    rw [Good, ih, forall_split_cons (Q := fun pre i => L.Joint n (before ++ pre) i), append_nil]
    refine and_congr_left fun _ => ?_
    rw [Joint, ← ho]
    rcases hd with ⟨t, cs, hlast, hstop, rfl⟩ | ⟨c', hlast, rfl⟩ | ⟨rfl, rfl, rfl⟩
    · rw [hlast]
      constructor
      · rintro h t' cs' heq
        cases heq
        omega
      · intro h
        have := h t cs rfl
        omega
    · simp [hlast]
    · simp
  | .mark t cs :: items, before, p, o, d, ho, hop, ⟨hstart, hstop, _, hfits⟩, hd => by
    have hle := narrowOf_le (L := L) cs
    have ih := @good_iff_joint n items (before ++ [.mark t cs]) (p + L.wideOf cs)
      (o + L.narrowOf cs) (p + L.wideOf cs - (o + L.narrowOf cs))
      (by simp [chars, Item.chars, ho]) (by omega) hfits
      (Or.inl ⟨t, cs, by simp, hstop, rfl⟩)
    simp only [append_assoc, singleton_append] at ih
    rw [Good, ih, forall_split_cons (Q := fun pre i => L.Joint n (before ++ pre) i), append_nil,
      ← and_assoc]
    refine and_congr_left fun _ => ?_
    rw [Joint, ← ho, hstart, and_comm]
    refine and_congr_right fun _ => ?_
    rcases hd with ⟨t', cs', hlast, -, rfl⟩ | ⟨c', hlast, rfl⟩ | ⟨rfl, rfl, rfl⟩
    · simp [hlast]
    · rw [hlast]
      constructor
      · intro h c heq
        omega
      · intro h
        have := h c' rfl
        omega
    · simp

theorem good_iff_aligned {items : List (Item α τ)} (h : L.Fits 0 items) :
    L.Good (L.narrowOf (chars items)) 0 0 0 items ↔ L.Aligned items :=
  @good_iff_joint α τ L (L.narrowOf (chars items)) items [] 0 0 0 rfl le_rfl h
    (Or.inr (Or.inr ⟨rfl, rfl, rfl⟩))

/-! ### Spans that overlap -/

/-- What stands in the middle only is not needed. -/
theorem sublist_of_disjoint_middle {β : Type} {S A M B : List β} (h : S <+ A ++ M ++ B)
    (hM : ∀ x ∈ S, x ∉ M) : S <+ A ++ B := by
  obtain ⟨S', S₃, rfl, h, h₃⟩ := sublist_append_iff.mp h
  obtain ⟨S₁, S₂, rfl, h₁, h₂⟩ := sublist_append_iff.mp h
  have hnil : S₂ = [] := eq_nil_iff_forall_not_mem.mpr fun x hx =>
    hM x (by simp [hx]) (h₂.subset hx)
  rw [hnil, append_nil]
  exact h₁.append h₃

theorem sublist_of_sublist_foldr {a b : τ} {X : List (Piece τ)} : ∀ {ts : List τ},
    a ∉ ts → b ∉ ts → (∀ t ∈ ts, L.start t ≤ L.stop t) →
    [.inserted a 0, .inserted b 0] <+ ts.foldr (L.cut 0) X →
    [.inserted a 0, .inserted b 0] <+ X
  | [], _, _, _, h => h
  | t :: ts, ha, hb, hss, h => by
    rw [foldr_cons, cut] at h
    have hout : [.inserted a 0, .inserted b 0] <+
        (ts.foldr (L.cut 0) X).take (L.start t - 0) ++ (ts.foldr (L.cut 0) X).drop (L.stop t - 0) := by
      refine sublist_of_disjoint_middle h fun q hq hmem => ?_
      obtain ⟨j, -, rfl⟩ := mem_placeholder.mp hmem
      rcases mem_pair.mp hq with heq | heq
      · cases heq
        exact ha mem_cons_self
      · cases heq
        exact hb mem_cons_self
    have hle : L.start t ≤ L.stop t := hss t mem_cons_self
    have hdrop : (ts.foldr (L.cut 0) X).drop (L.stop t - 0) <+
        (ts.foldr (L.cut 0) X).drop (L.start t - 0) :=
      drop_sublist_drop_left _ (by omega)
    have hall := (Sublist.refl ((ts.foldr (L.cut 0) X).take (L.start t - 0))).append hdrop
    rw [take_append_drop] at hall
    exact sublist_of_sublist_foldr (fun h => ha (mem_cons_of_mem _ h))
      (fun h => hb (mem_cons_of_mem _ h)) (fun t' ht' => hss t' (mem_cons_of_mem _ ht'))
      (hout.trans hall)

/-- **The cut of a span takes away the start of what was put in for a later one that it overlaps.** -/
theorem not_sublist_cut_cut {a b : τ} {Z : List (Piece τ)} (hne : a ≠ b) (hsize : 0 < L.size b)
    (hlt : L.start b < L.stop a) (ha : .inserted a 0 ∉ Z) (hb : .inserted b 0 ∉ Z) :
    ¬ [.inserted a 0, .inserted b 0] <+ L.cut 0 a (L.cut 0 b Z) := by
  have haT : .inserted a 0 ∉ L.cut 0 b Z := by
    rw [cut, mem_append, mem_append]
    rintro ((h | h) | h)
    · exact ha (mem_of_mem_take h)
    · obtain ⟨j, -, heq⟩ := mem_placeholder.mp h
      cases heq
      exact hne rfl
    · exact ha (mem_of_mem_drop h)
  have hbdrop : .inserted b 0 ∉ (L.cut 0 b Z).drop (L.stop a - 0) := by
    obtain ⟨e, he⟩ : ∃ e, L.stop a - 0 - (Z.take (L.start b - 0)).length = e + 1 :=
      ⟨L.stop a - 0 - (Z.take (L.start b - 0)).length - 1, by rw [length_take]; omega⟩
    obtain ⟨k, hk⟩ : ∃ k, L.size b = k + 1 := ⟨L.size b - 1, by omega⟩
    rw [cut, append_assoc, drop_append, he, placeholder, hk, range_succ_eq_map, map_cons, cons_append,
      drop_succ_cons, mem_append]
    rintro (h | h)
    · exact hb (mem_of_mem_take (mem_of_mem_drop h))
    · rcases mem_append.mp (mem_of_mem_drop h) with h | h
      · obtain ⟨j, hj, heq⟩ := mem_map.mp h
        obtain ⟨i, -, rfl⟩ := mem_map.mp hj
        cases heq
      · exact hb (mem_of_mem_drop h)
  intro h
  rw [cut] at h
  obtain ⟨S, S₃, heq, h, h₃⟩ := sublist_append_iff.mp h
  have hnil : S₃ = [] := eq_nil_iff_forall_not_mem.mpr fun q hq => by
    have hmem : q ∈ [Piece.inserted a 0, .inserted b 0] := heq ▸ mem_append_right _ hq
    rcases mem_pair.mp hmem with rfl | rfl
    · exact haT (mem_of_mem_drop (h₃.subset hq))
    · exact hbdrop (h₃.subset hq)
  rw [hnil, append_nil] at heq
  obtain ⟨S₁, S₂, rfl, h₁, h₂⟩ := sublist_append_iff.mp h
  rcases cons_eq_append_iff.mp heq with ⟨rfl, hS₂⟩ | ⟨S₁', rfl, -⟩
  · have hmem : .inserted b 0 ∈ L.placeholder a :=
      h₂.subset (hS₂ ▸ mem_cons_of_mem _ mem_cons_self)
    obtain ⟨j, -, heq⟩ := mem_placeholder.mp hmem
    cases heq
    exact hne rfl
  · exact haT (mem_of_mem_take (h₁.subset mem_cons_self))

theorem InText.le {p : ℕ} {cs : List α} {t : τ} (h : L.InText p cs t) : p ≤ L.start t := by
  obtain ⟨pre, mid, post, -, hstart, -, -⟩ := h
  omega

theorem InText.lt {p : ℕ} {cs : List α} {t : τ} (h : L.InText p cs t) : L.start t < L.stop t := by
  obtain ⟨pre, mid, post, -, -, hstop, hne⟩ := h
  have := wideOf_pos (L := L) hne
  omega

theorem not_inText_nil {p : ℕ} {t : τ} : ¬ L.InText p [] t := by
  rintro ⟨pre, mid, post, heq, -, -, hne⟩
  exact hne (append_eq_nil_iff.mp (append_eq_nil_iff.mp heq.symm).1).2

theorem InText.tail {p : ℕ} {c : α} {cs : List α} {t : τ} (h : L.InText p (c :: cs) t)
    (hne : L.start t ≠ p) : L.InText (p + L.wide c) cs t := by
  obtain ⟨pre, mid, post, heq, hstart, hstop, hmid⟩ := h
  rw [append_assoc] at heq
  rcases cons_eq_append_iff.mp heq with ⟨rfl, -⟩ | ⟨pre', rfl, hcs⟩
  · exact absurd hstart hne
  · refine ⟨pre', mid, post, by rw [hcs, append_assoc], ?_, hstop, hmid⟩
    rw [hstart, wideOf_cons, Nat.add_assoc]

theorem mem_replaced {ts : List τ} {t : τ} (hts : t ∈ ts) (ht : 0 < L.size t) : ∀ {cs : List α} {p o : ℕ},
    L.InText p cs t → .inserted t 0 ∈ L.replaced ts p o cs
  | [], _, _, h => absurd h not_inText_nil
  | c :: cs, p, o, h => by
    rw [replaced]
    by_cases heq : L.start t = p
    · refine mem_append_left _ (mem_append_left _ (mem_flatMap.mpr ⟨t, ?_, ?_⟩))
      · exact mem_filter.mpr ⟨hts, decide_eq_true heq⟩
      · exact mem_placeholder.mpr ⟨0, ht, rfl⟩
    · exact mem_append_right _ (mem_replaced hts ht (h.tail heq))

/-- In the text with the spans replaced, what is put in is in the order of the spans. -/
theorem sublist_replaced {ts : List τ} {a b : τ} (hts : [a, b] <+ ts)
    (hsize : ∀ t ∈ ts, 0 < L.size t) (hab : L.start a ≤ L.start b) : ∀ {cs : List α} {p o : ℕ},
      L.InText p cs a → L.InText p cs b → [.inserted a 0, .inserted b 0] <+ L.replaced ts p o cs
  | [], _, _, h, _ => absurd h not_inText_nil
  | c :: cs, p, o, ha, hb => by
    have hfirst : ∀ t ∈ ts, [Piece.inserted t 0] <+ L.placeholder t := fun t ht =>
      singleton_sublist.mpr (mem_placeholder.mpr ⟨0, hsize t ht, rfl⟩)
    have hats : a ∈ ts := hts.subset mem_cons_self
    have hbts : b ∈ ts := hts.subset (mem_cons_of_mem _ mem_cons_self)
    have hpa := ha.le
    rw [replaced, append_assoc]
    by_cases hbp : L.start b = p
    · have hap : L.start a = p := by omega
      have hfilter := hts.filter fun t => decide (L.start t = p)
      rw [filter_eq_self.mpr (by simp [hap, hbp])] at hfilter
      have hput := hfilter.flatMap L.placeholder
      rw [flatMap_cons, flatMap_singleton] at hput
      exact (((hfirst a hats).append (hfirst b hbts)).trans hput).trans (sublist_append_left _ _)
    · have hrest := mem_replaced (o := o + L.narrow c) hbts (hsize b hbts) (hb.tail hbp)
      by_cases hap : L.start a = p
      · refine Sublist.append (singleton_sublist.mpr (mem_flatMap.mpr ⟨a, ?_, ?_⟩))
          (singleton_sublist.mpr (mem_append_right _ hrest))
        · exact mem_filter.mpr ⟨hats, decide_eq_true hap⟩
        · exact mem_placeholder.mpr ⟨0, hsize a hats, rfl⟩
      · have ih := @sublist_replaced ts a b hts hsize hab cs (p + L.wide c) (o + L.narrow c)
          (ha.tail hap) (hb.tail hbp)
        exact (ih.trans (sublist_append_right _ _)).trans (sublist_append_right _ _)

/-- **The cuts come out right only if no two spans overlap.** -/
theorem pairwise_of_foldr_cut_eq {ts : List τ} {cs : List α} {n : ℕ}
    (hsorted : ts.Pairwise fun a b => L.start a ≤ L.start b) (hnodup : ts.Nodup)
    (hin : ∀ t ∈ ts, L.InText 0 cs t) (hsize : ∀ t ∈ ts, 0 < L.size t)
    (heq : ts.foldr (L.cut 0) (keptFrom 0 n) = L.replaced ts 0 0 cs) :
    ts.Pairwise fun a b => L.stop a ≤ L.start b := by
  have hchain : ts.IsChain fun a b => L.stop a ≤ L.start b ∧ L.start b < L.stop b := by
    refine isChain_iff_forall_rel_of_append_cons_cons.mpr fun a b pre post hts => ?_
    have hb := (hin b (by simp [hts])).lt
    refine ⟨?_, hb⟩
    by_contra hlt
    have hsub : [a, b] <+ ts := by
      rw [hts]
      exact Sublist.append (nil_sublist pre) ((sublist_append_left [a, b] post))
    have hle : L.start a ≤ L.start b := by
      simpa using hsorted.sublist hsub
    rw [hts, nodup_append] at hnodup
    obtain ⟨-, hab, hdisjoint⟩ := hnodup
    obtain ⟨ha, hb'⟩ := nodup_cons.mp hab
    have hput : ∀ t, t ∉ post → .inserted t 0 ∉ post.foldr (L.cut 0) (keptFrom 0 n) := by
      intro t ht hmem
      rcases mem_foldr_cut hmem with hmem | ⟨t', ht', hmem⟩
      · obtain ⟨i, -, -, heq⟩ := mem_keptFrom.mp hmem
        cases heq
      · obtain ⟨j, -, heq⟩ := mem_placeholder.mp hmem
        cases heq
        exact ht ht'
    have hres := @sublist_replaced α τ L ts a b hsub hsize hle cs 0 0 (hin a (by simp [hts]))
      (hin b (by simp [hts]))
    rw [← heq, hts, foldr_append] at hres
    have hne : a ≠ b := fun h => ha (by rw [h]; exact mem_cons_self)
    refine not_sublist_cut_cut hne (hsize b (by simp [hts])) (by omega)
      (hput a fun h => ha (mem_cons_of_mem _ h)) (hput b (nodup_cons.mp hb').1)
      (sublist_of_sublist_foldr (fun h => hdisjoint a h a (by simp) rfl)
        (fun h => hdisjoint b h b (by simp) rfl) (fun t ht => ?_) hres)
    exact (hin t (by simp [hts, ht])).lt.le
  have htrans : Trans (fun a b => L.stop a ≤ L.start b ∧ L.start b < L.stop b)
      (fun a b => L.stop a ≤ L.start b ∧ L.start b < L.stop b)
      (fun a b => L.stop a ≤ L.start b ∧ L.start b < L.stop b) :=
    ⟨fun h₁ h₂ => ⟨by omega, h₂.2⟩⟩
  exact hchain.pairwise.imp And.left

/-! ### Spans that do not overlap -/

theorem prefix_of_wideOf_le {a b x y : List α} (h : a ++ x = b ++ y) (hle : L.wideOf a ≤ L.wideOf b) :
    a <+: b := by
  rcases append_eq_append_iff.mp h with ⟨d, rfl, -⟩ | ⟨d, rfl, -⟩
  · exact prefix_append a d
  · by_cases hd : d = []
    · rw [hd, append_nil]
    · have := wideOf_pos (L := L) hd
      rw [wideOf_append] at hle
      omega

theorem InText.behind {p : ℕ} {cs ds : List α} {t : τ} (h : L.InText p (cs ++ ds) t)
    (hle : p + L.wideOf cs ≤ L.start t) : L.InText (p + L.wideOf cs) ds t := by
  obtain ⟨pre, mid, post, heq, hstart, hstop, hmid⟩ := h
  rw [append_assoc] at heq
  obtain ⟨pre', rfl⟩ := prefix_of_wideOf_le (L := L) heq (by omega)
  rw [append_assoc, append_cancel_left_eq, ← append_assoc] at heq
  rw [wideOf_append] at hstart
  exact ⟨pre', mid, post, heq, by omega, hstop, hmid⟩

theorem chars_append (items items' : List (Item α τ)) :
    chars (items ++ items') = chars items ++ chars items' := flatMap_append

theorem spans_append (items items' : List (Item α τ)) :
    spans (items ++ items') = spans items ++ spans items' := filterMap_append

theorem chars_map_free (cs : List α) : chars (cs.map (.free : α → Item α τ)) = cs := by
  induction cs with
  | nil => rfl
  | cons c cs ih => rw [map_cons, chars_cons, ih]; rfl

theorem spans_map_free (cs : List α) : spans (cs.map (.free : α → Item α τ)) = [] := by
  induction cs with
  | nil => rfl
  | cons c cs ih => rw [map_cons, spans_free, ih]

theorem fits_map_free {items : List (Item α τ)} : ∀ {cs : List α} {p : ℕ},
    L.Fits (p + L.wideOf cs) items → L.Fits p (cs.map .free ++ items)
  | [], _, h => h
  | c :: cs, p, h => by
    rw [wideOf_cons, ← Nat.add_assoc] at h
    exact @fits_map_free items cs (p + L.wide c) h

/-- A text in which no two spans overlap is a row of characters that stay and spans. -/
theorem exists_fits : ∀ {ts : List τ} {p : ℕ} {cs : List α},
    ts.Pairwise (fun a b => L.stop a ≤ L.start b) → (∀ t ∈ ts, L.InText p cs t) →
    ∃ items, chars items = cs ∧ spans items = ts ∧ L.Fits p items
  | [], p, cs, _, _ => ⟨cs.map .free, chars_map_free cs, spans_map_free cs, by
      simpa using @fits_map_free α τ L [] cs p trivial⟩
  | t :: ts, p, cs, hsep, hin => by
    obtain ⟨hsep, hts⟩ := pairwise_cons.mp hsep
    obtain ⟨⟨pre, mid, post, rfl, hstart, hstop, hmid⟩, hin⟩ := forall_mem_cons.mp hin
    have hrest : ∀ t' ∈ ts, L.InText (p + L.wideOf (pre ++ mid)) post t' := fun t' ht' =>
      (hin t' ht').behind (by have := hsep t' ht'; rw [wideOf_append]; omega)
    obtain ⟨items, hchars, hspans, hfits⟩ := exists_fits hts hrest
    refine ⟨pre.map .free ++ .mark t mid :: items, ?_, ?_, fits_map_free ?_⟩
    · rw [chars_append, chars_map_free, chars_cons, hchars, Item.chars, append_assoc]
    · rw [spans_append, spans_map_free, spans_mark, hspans, nil_append]
    · rw [wideOf_append, ← Nat.add_assoc] at hfits
      exact ⟨hstart, by omega, hmid, hfits⟩

/-- **The cuts replace every span and nothing else exactly if the text is a row of characters and
spans, and the measures agree where they have to.** -/
theorem foldr_cut_eq_replaced_iff {ts : List τ} {cs : List α}
    (hsorted : ts.Pairwise fun a b => L.start a ≤ L.start b) (hnodup : ts.Nodup)
    (hin : ∀ t ∈ ts, L.InText 0 cs t) (hsize : ∀ t ∈ ts, 0 < L.size t) :
    ts.foldr (L.cut 0) (keptFrom 0 (L.narrowOf cs)) = L.replaced ts 0 0 cs ↔
      ∃ items, chars items = cs ∧ spans items = ts ∧ L.Fits 0 items ∧ L.Aligned items := by
  have hitems : ∀ {items : List (Item α τ)}, (∀ t ∈ spans items, 0 < L.size t) →
      L.Fits 0 items → ((spans items).foldr (L.cut 0) (keptFrom 0 (L.narrowOf (chars items))) =
        L.replaced (spans items) 0 0 (chars items) ↔ L.Aligned items) := by
    intro items hsize hfits
    have hcut := @drop_foldr_cut_iff α τ L items 0 0 0 hsize hfits le_rfl (Or.inl rfl)
    rw [drop_zero, Nat.zero_add, good_iff_aligned hfits] at hcut
    have hreplaced := @replaced_of_fits α τ L items 0 0 [] hfits (by simp)
    rw [nil_append] at hreplaced
    rw [hreplaced, hcut]
  constructor
  · intro heq
    have hsep := pairwise_of_foldr_cut_eq hsorted hnodup hin hsize heq
    obtain ⟨items, rfl, rfl, hfits⟩ := exists_fits hsep hin
    exact ⟨items, rfl, rfl, hfits, (hitems hsize hfits).mp heq⟩
  · rintro ⟨items, rfl, rfl, hfits, haligned⟩
    exact (hitems hsize hfits).mpr haligned

end Layout

end StarStats.Lib.Spans
