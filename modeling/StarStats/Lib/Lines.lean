import Mathlib.Data.List.Flatten
import Mathlib.Data.Nat.Notation

/-! # Lines of a file

A file is a list of bytes. A reader that asks for one line after another gets the chunks of the file:
each ends with its first newline, except that the last one may lack it. A file that only grows keeps
its complete lines, so a place behind complete lines stays such a place (`chunks_append`). -/

namespace StarStats.Lib.Lines

/-- The byte that ends a line. -/
def newline : UInt8 := 10

/-- The chunks between the newlines, each with the newline that ends it. -/
def chunks : List UInt8 → List (List UInt8)
  | [] => []
  | b :: bs =>
    if b = newline then [b] :: chunks bs
    else match chunks bs with
      | [] => [[b]]
      | c :: cs => (b :: c) :: cs

/-- A chunk that ends with a newline, its only one. -/
def Complete (c : List UInt8) : Prop := ∃ l, newline ∉ l ∧ c = l ++ [newline]

theorem Complete.ne_nil {c : List UInt8} (h : Complete c) : c ≠ [] := by
  obtain ⟨l, -, rfl⟩ := h; simp

theorem Complete.length_pos {c : List UInt8} (h : Complete c) : 0 < c.length :=
  List.length_pos_iff.mpr h.ne_nil

theorem chunks_cons_of_ne {b : UInt8} (hb : b ≠ newline) (bs : List UInt8) :
    chunks (b :: bs) = match chunks bs with
      | [] => [[b]]
      | c :: cs => (b :: c) :: cs := by
  rw [chunks, if_neg hb]

theorem chunks_complete_append : ∀ {l : List UInt8}, newline ∉ l → ∀ bs : List UInt8,
    chunks (l ++ newline :: bs) = (l ++ [newline]) :: chunks bs
  | [], _, bs => by simp [chunks]
  | b :: l, h, bs => by
    rw [List.cons_append, chunks_cons_of_ne (fun e => h (by simp [e])),
      chunks_complete_append (fun hm => h (List.mem_cons_of_mem _ hm)) bs]
    rfl

/-- **What stands behind complete lines is cut as if it stood alone.** -/
theorem chunks_append : ∀ {done : List (List UInt8)}, (∀ c ∈ done, Complete c) →
    ∀ bs : List UInt8, chunks (done.flatten ++ bs) = done ++ chunks bs
  | [], _, bs => rfl
  | c :: done, h, bs => by
    obtain ⟨l, hl, rfl⟩ := h c List.mem_cons_self
    rw [List.flatten_cons, List.append_assoc, List.append_assoc, List.singleton_append,
      chunks_complete_append hl, chunks_append (fun d hd => h d (List.mem_cons_of_mem _ hd)) bs]
    rfl

theorem flatten_chunks : ∀ bs : List UInt8, (chunks bs).flatten = bs
  | [] => rfl
  | b :: bs => by
    have ih := flatten_chunks bs
    by_cases hb : b = newline
    · rw [chunks, if_pos hb, List.flatten_cons, ih]; rfl
    · rw [chunks_cons_of_ne hb]
      cases h : chunks bs with
      | nil => rw [h] at ih; simp [← ih]
      | cons c cs => rw [h] at ih; simp [← ih]

theorem mem_chunks : ∀ {bs c : List UInt8}, c ∈ chunks bs → c ≠ [] ∧ newline ∉ c.dropLast
  | b :: bs, c, h => by
    by_cases hb : b = newline
    · rw [chunks, if_pos hb] at h
      rcases List.mem_cons.mp h with rfl | h
      · exact ⟨by simp, by simp⟩
      · exact mem_chunks h
    · rw [chunks_cons_of_ne hb] at h
      cases hbs : chunks bs with
      | nil =>
        rw [hbs] at h
        obtain rfl : c = [b] := by simpa using h
        exact ⟨by simp, by simp⟩
      | cons d ds =>
        rw [hbs] at h
        rcases List.mem_cons.mp h with rfl | h
        · obtain ⟨hne, hn⟩ := mem_chunks (hbs ▸ List.mem_cons_self : d ∈ chunks bs)
          refine ⟨by simp, ?_⟩
          rw [List.dropLast_cons_of_ne_nil hne, List.mem_cons, not_or]
          exact ⟨fun e => hb e.symm, hn⟩
        · exact mem_chunks (hbs ▸ List.mem_cons_of_mem _ h : c ∈ chunks bs)

theorem complete_of_mem_chunks {bs c : List UInt8} (h : c ∈ chunks bs)
    (hl : c.getLast? = some newline) : Complete c := by
  obtain ⟨hne, hn⟩ := mem_chunks h
  refine ⟨c.dropLast, hn, ?_⟩
  rw [List.getLast?_eq_some_getLast hne] at hl
  rw [← Option.some.inj hl, List.dropLast_concat_getLast]

theorem Complete.getLast? {c : List UInt8} (h : Complete c) : c.getLast? = some newline := by
  obtain ⟨l, -, rfl⟩ := h; simp

/-! ### Lines at offsets -/

/-- The complete line `c` starts at byte `p` of the file: only complete lines stand before it. -/
def LineAt (file : List UInt8) (p : ℕ) (c : List UInt8) : Prop :=
  ∃ (done : List (List UInt8)) (rest : List UInt8), (∀ d ∈ done, Complete d) ∧ Complete c ∧
    file = done.flatten ++ (c ++ rest) ∧ p = done.flatten.length

theorem LineAt.append {file : List UInt8} {p : ℕ} {c : List UInt8} (h : LineAt file p c)
    (more : List UInt8) : LineAt (file ++ more) p c := by
  obtain ⟨done, rest, hd, hc, rfl, rfl⟩ := h
  exact ⟨done, rest ++ more, hd, hc, by simp, rfl⟩

theorem LineAt.head?_chunks_drop {file : List UInt8} {p : ℕ} {c : List UInt8}
    (h : LineAt file p c) : (chunks (file.drop p)).head? = some c := by
  obtain ⟨done, rest, -, ⟨l, hl, rfl⟩, rfl, rfl⟩ := h
  rw [List.drop_left, List.append_assoc, List.singleton_append, chunks_complete_append hl]
  rfl

theorem LineAt.unique {file : List UInt8} {p : ℕ} {c d : List UInt8} (hc : LineAt file p c)
    (hd : LineAt file p d) : c = d :=
  Option.some.inj (hc.head?_chunks_drop.symm.trans hd.head?_chunks_drop)

/-- An offset of the file with only complete lines before it. -/
def Boundary (file : List UInt8) (p : ℕ) : Prop :=
  ∃ (done : List (List UInt8)) (rest : List UInt8), (∀ d ∈ done, Complete d) ∧
    file = done.flatten ++ rest ∧ p = done.flatten.length

theorem boundary_zero (file : List UInt8) : Boundary file 0 := ⟨[], file, by simp, rfl, rfl⟩

theorem Boundary.append {file : List UInt8} {p : ℕ} (h : Boundary file p) (more : List UInt8) :
    Boundary (file ++ more) p := by
  obtain ⟨done, rest, hd, rfl, rfl⟩ := h
  exact ⟨done, rest ++ more, hd, by simp, rfl⟩

/-- A line within complete lines is one of them, and one that starts behind them is not. -/
theorem LineAt.mem_of_le {done : List (List UInt8)} {rest : List UInt8} {p : ℕ} {c : List UInt8}
    (hd : ∀ d ∈ done, Complete d) (h : LineAt (done.flatten ++ rest) p c)
    (hle : p + c.length ≤ done.flatten.length) :
    ∃ before after, done = before ++ c :: after ∧ p = before.flatten.length := by
  obtain ⟨before, rest', hb, hc, hfile, rfl⟩ := h
  have hchunks : done ++ chunks rest = before ++ c :: chunks rest' := by
    rw [← chunks_append hd rest, hfile, chunks_append hb]
    obtain ⟨l, hl, rfl⟩ := hc
    rw [List.append_assoc, List.singleton_append, chunks_complete_append hl]
  rcases List.append_eq_append_iff.mp hchunks with ⟨mid, hbefore, -⟩ | ⟨mid, hdone, hrest⟩
  · have := hc.length_pos
    rw [hbefore, List.flatten_append, List.length_append] at hle
    omega
  · cases mid with
    | nil =>
      have := hc.length_pos
      rw [hdone, List.append_nil] at hle
      omega
    | cons d mid =>
      obtain ⟨rfl, -⟩ := List.cons.inj hrest
      exact ⟨before, mid, hdone, rfl⟩

end StarStats.Lib.Lines
