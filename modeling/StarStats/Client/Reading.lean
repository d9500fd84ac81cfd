import StarStats.Client.Gamelog

/-! # What a drain reads

`readLines` gets past a run of readable lines (`Readable`) and stops before the first call that fails
(`NextFails`), the first partial line, or the end. If it is a failure it stops at, the lines before it
are lost: the offset is behind them, the buffer with them is gone. -/

namespace StarStats.Client.Reading

open StarStats.Lib.Text StarStats.Lib.Lines StarStats.Core.Parser StarStats.Client.Gamelog

/-- The text of a line as the tail stores it. -/
def lineText (c : List UInt8) : String := trimEndMatches isNewline ((decode c).getD "")

/-- Lines that follow each other, with the offsets at which they start. -/
def texts : ℕ → List (List UInt8) → List (String × ℕ)
  | _, [] => []
  | p, c :: cs => (lineText c, p) :: texts (p + c.length) cs

/-- Chunks that the calls of `read_line` from the `i`-th on get past. -/
def Readable (fails : ℕ → Bool) : ℕ → List (List UInt8) → Prop
  | _, [] => True
  | i, c :: cs =>
    fails i = false ∧ (decode c).isSome ∧ c.getLast? = some newline ∧ Readable fails (i + 1) cs

/-- The `i`-th call fails: by itself, or on bytes that are not UTF-8. -/
def NextFails (fails : ℕ → Bool) (i : ℕ) (rest : List (List UInt8)) : Prop :=
  fails i = true ∨ ∃ c, rest.head? = some c ∧ decode c = none

theorem mem_texts {l : String × ℕ} : ∀ {p : ℕ} {cs : List (List UInt8)}, l ∈ texts p cs ↔
    ∃ before c after, cs = before ++ c :: after ∧ l = (lineText c, p + before.flatten.length)
  | p, [] => by simp [texts]
  | p, c :: cs => by
    rw [texts, List.mem_cons, mem_texts]
    constructor
    · rintro (rfl | ⟨before, d, after, rfl, rfl⟩)
      · exact ⟨[], c, cs, rfl, rfl⟩
      · exact ⟨c :: before, d, after, rfl, by simp [Nat.add_assoc]⟩
    · rintro ⟨before, d, after, hcs, rfl⟩
      cases before with
      | nil =>
        obtain ⟨rfl, rfl⟩ := List.cons.inj hcs
        exact Or.inl rfl
      | cons e before =>
        obtain ⟨rfl, rfl⟩ := List.cons.inj hcs
        exact Or.inr ⟨before, d, after, rfl, by simp [Nat.add_assoc]⟩

theorem texts_append (p : ℕ) : ∀ cs ds : List (List UInt8),
    texts p (cs ++ ds) = texts p cs ++ texts (p + cs.flatten.length) ds
  | [], ds => rfl
  | c :: cs, ds => by
    simp [texts, texts_append (p + c.length) cs ds, Nat.add_assoc]

theorem Readable.getLast? {fails : ℕ → Bool} : ∀ {i : ℕ} {cs : List (List UInt8)},
    Readable fails i cs → ∀ c ∈ cs, c.getLast? = some newline ∧ (decode c).isSome
  | i, d :: cs, ⟨_, hd, hl, h⟩, c, hc => by
    rcases List.mem_cons.mp hc with rfl | hc
    · exact ⟨hl, hd⟩
    · exact h.getLast? c hc

/-- The loop stops before the first call that fails, and gives back none of the lines before. -/
theorem readLines_of_nextFails {fails : ℕ → Bool} : ∀ {i offset : ℕ} {read rest : List (List UInt8)},
    Readable fails i read → NextFails fails (i + read.length) rest →
    readLines fails i offset (read ++ rest) = .stop (offset + read.flatten.length) false
  | i, offset, [], rest, _, h => by
    rcases h with h | ⟨c, hc, hd⟩
    · cases rest <;> simp_all [readLines]
    · cases rest with
      | nil => cases hc
      | cons d rest =>
        cases hc
        by_cases hf : fails i <;> simp [readLines, hf, hd]
  | i, offset, c :: read, rest, ⟨hf, hd, hl, hread⟩, h => by
    obtain ⟨buf, hbuf⟩ := Option.isSome_iff_exists.mp hd
    have ih := @readLines_of_nextFails _ _ (offset + c.length) _ _ hread
      (by rwa [Nat.add_right_comm, Nat.add_assoc])
    simp [readLines, hf, hbuf, hl, ih, Reading.cons, Nat.add_assoc]

/-- **The loop gets past some readable lines; it gives them all back, unless it ends in a failure.** -/
theorem readLines_cases (fails : ℕ → Bool) : ∀ (i offset : ℕ) (cs : List (List UInt8)),
    ∃ read rest, cs = read ++ rest ∧ Readable fails i read ∧
      (NextFails fails (i + read.length) rest ∨
        readLines fails i offset cs = .lines (texts offset read) (offset + read.flatten.length))
  | i, offset, [] => by
    by_cases hf : fails i
    · exact ⟨[], [], rfl, trivial, Or.inl (Or.inl hf)⟩
    · exact ⟨[], [], rfl, trivial, Or.inr (by simp [readLines, hf, texts])⟩
  | i, offset, c :: cs => by
    by_cases hf : fails i
    · exact ⟨[], c :: cs, rfl, trivial, Or.inl (Or.inl hf)⟩
    cases hd : decode c with
    | none => exact ⟨[], c :: cs, rfl, trivial, Or.inl (Or.inr ⟨c, rfl, hd⟩)⟩
    | some buf =>
      by_cases hl : c.getLast? = some newline
      · obtain ⟨read, rest, rfl, hread, h⟩ := readLines_cases fails (i + 1) (offset + c.length) cs
        refine ⟨c :: read, rest, rfl, ⟨by simpa using hf, by simp [hd], hl, hread⟩, ?_⟩
        rcases h with h | h
        · exact Or.inl (by rwa [List.length_cons, Nat.add_comm read.length 1, ← Nat.add_assoc])
        · exact Or.inr (by simp [readLines, hf, hd, hl, h, Reading.cons, texts, lineText,
            Nat.add_assoc])
      · exact ⟨[], c :: cs, rfl, trivial, Or.inr (by simp [readLines, hf, hd, hl, texts])⟩

/-! ### Reading behind complete lines -/

/-- In this drain a read fails after a complete line has been read. -/
def FailsAfterLine (file : List UInt8) (io : Io) (offset : ℕ) : Prop :=
  io.opened = .found ∧ io.metadataFails = false ∧ io.seekFails = false ∧
    ∃ read rest, chunks (file.drop offset) = read ++ rest ∧ read ≠ [] ∧
      Readable io.readFails 0 read ∧ NextFails io.readFails read.length rest

section Pending
variable {done : List (List UInt8)} {rest : List UInt8} {io : Io}

/-- The chunks that a drain gets past are complete lines of the file. -/
theorem complete_of_readable {fails : ℕ → Bool} {i : ℕ} {read more : List (List UInt8)}
    (h : chunks rest = read ++ more) (hr : Readable fails i read) : ∀ c ∈ read, Complete c :=
  fun c hc => complete_of_mem_chunks (h ▸ List.mem_append_left _ hc) (hr.getLast? c hc).1

theorem ne_nil_of_chunks {read more : List (List UInt8)} (h : chunks rest = read ++ more)
    (hne : read ≠ []) : rest ≠ [] := by
  rintro rfl
  exact hne (List.append_eq_nil_iff.mp h.symm).1

/-- With something to read and no call failing before, a drain comes to the read loop. -/
theorem readPending_eq_readLines (hopen : io.opened = .found) (hmeta : io.metadataFails = false)
    (hseek : io.seekFails = false) (hrest : rest ≠ []) :
    readPending (done.flatten ++ rest) io done.flatten.length =
      readLines io.readFails 0 done.flatten.length (chunks rest) := by
  have hlt : ¬ (done.flatten ++ rest).length < done.flatten.length := by simp
  have hne : (done.flatten ++ rest).length ≠ done.flatten.length := by
    have := List.length_pos_iff.mpr hrest
    rw [List.length_append]; omega
  simp only [readPending, hopen, hmeta, hseek, if_neg hlt, if_neg hne, List.drop_left]
  rfl

/-- A drain in which a read fails after a line only moves the offset, past the lines it has read. -/
theorem readPending_of_failsAfterLine
    (h : FailsAfterLine (done.flatten ++ rest) io done.flatten.length) :
    ∃ read more, chunks rest = read ++ more ∧ read ≠ [] ∧ (∀ c ∈ read, Complete c) ∧
      readPending (done.flatten ++ rest) io done.flatten.length =
        .stop (done ++ read).flatten.length false := by
  obtain ⟨hopen, hmeta, hseek, read, more, hcs, hne, hread, hfail⟩ := h
  rw [List.drop_left] at hcs
  refine ⟨read, more, hcs, hne, complete_of_readable hcs hread, ?_⟩
  rw [readPending_eq_readLines hopen hmeta hseek (ne_nil_of_chunks hcs hne), hcs,
    readLines_of_nextFails hread (by rwa [Nat.zero_add]), List.flatten_append, List.length_append]

/-- **Any other drain gives all lines back that it gets past.** -/
theorem readPending_of_not_failsAfterLine
    (h : ¬ FailsAfterLine (done.flatten ++ rest) io done.flatten.length) :
    ∃ read more, chunks rest = read ++ more ∧ (∀ c ∈ read, Complete c ∧ (decode c).isSome) ∧
      (readPending (done.flatten ++ rest) io done.flatten.length =
          .lines (texts done.flatten.length read) (done ++ read).flatten.length ∨
        read = [] ∧ ∃ ok, readPending (done.flatten ++ rest) io done.flatten.length =
          .stop done.flatten.length ok) := by
  have early : ∀ ok, readPending (done.flatten ++ rest) io done.flatten.length =
      .stop done.flatten.length ok → ∃ read more, chunks rest = read ++ more ∧
        (∀ c ∈ read, Complete c ∧ (decode c).isSome) ∧
        (readPending (done.flatten ++ rest) io done.flatten.length =
            .lines (texts done.flatten.length read) (done ++ read).flatten.length ∨
          read = [] ∧ ∃ ok, readPending (done.flatten ++ rest) io done.flatten.length =
            .stop done.flatten.length ok) :=
    fun ok hok => ⟨[], chunks rest, rfl, by simp, Or.inr ⟨rfl, ok, hok⟩⟩
  have hlt : ¬ (done.flatten ++ rest).length < done.flatten.length := by simp
  cases hopen : io.opened with
  | notFound => exact early true (by simp [readPending, hopen])
  | failed => exact early false (by simp [readPending, hopen])
  | found =>
    by_cases hmeta : io.metadataFails
    · exact early false (by simp [readPending, hopen, hmeta])
    by_cases hrest : rest = []
    · subst hrest
      exact early true (by simp [readPending, hopen, hmeta])
    by_cases hseek : io.seekFails
    · refine early false ?_
      have hne : (done.flatten ++ rest).length ≠ done.flatten.length := by simpa using hrest
      simp only [readPending, hopen, hmeta, if_neg hlt, if_neg hne, hseek]
      rfl
    have hpending := @readPending_eq_readLines done _ _ hopen (by simpa using hmeta)
      (by simpa using hseek) hrest
    obtain ⟨read, more, hcs, hread, hfail | hlines⟩ :=
      readLines_cases io.readFails 0 done.flatten.length (chunks rest)
    · rw [Nat.zero_add] at hfail
      by_cases hne : read = []
      · subst hne
        refine early false (hpending.trans ?_)
        rw [hcs]
        exact readLines_of_nextFails trivial hfail
      · refine absurd ⟨hopen, by simpa using hmeta, by simpa using hseek, read, more, ?_, hne, hread,
          hfail⟩ h
        rw [List.drop_left, hcs]
    · refine ⟨read, more, hcs, fun c hc => ⟨complete_of_readable hcs hread c hc,
        (hread.getLast? c hc).2⟩, Or.inl ?_⟩
      rw [hpending, hlines, List.flatten_append, List.length_append]

end Pending

/-! ### Lines that a drain can read -/

/-- A complete line of the file, as the tail stores it, at its offset. -/
def IsLine (file : List UInt8) (l : String × ℕ) : Prop :=
  ∃ c, LineAt file l.2 c ∧ l.1 = lineText c

theorem IsLine.append {file : List UInt8} {l : String × ℕ} (h : IsLine file l)
    (more : List UInt8) : IsLine (file ++ more) l := by
  obtain ⟨c, hc, hl⟩ := h
  exact ⟨c, hc.append more, hl⟩

theorem IsLine.unique {file : List UInt8} {l l' : String × ℕ} (h : IsLine file l)
    (h' : IsLine file l') (ho : l.2 = l'.2) : l = l' := by
  obtain ⟨c, hc, hl⟩ := h
  obtain ⟨c', hc', hl'⟩ := h'
  rw [ho] at hc
  exact Prod.ext (by rw [hl, hl', hc.unique hc']) ho

theorem pairwise_texts : ∀ {p : ℕ} {cs : List (List UInt8)}, (∀ c ∈ cs, Complete c) →
    (texts p cs).Pairwise fun a b => a.2 < b.2
  | _, [], _ => List.Pairwise.nil
  | p, c :: cs, h => by
    refine List.pairwise_cons.mpr ⟨fun l hl => ?_, pairwise_texts fun d hd => h d (by simp [hd])⟩
    obtain ⟨before, d, after, -, rfl⟩ := mem_texts.mp hl
    have := (h c List.mem_cons_self).length_pos
    simp only
    omega

theorem getElem?_texts_inj {p i j : ℕ} {cs : List (List UInt8)} (h : ∀ c ∈ cs, Complete c) {l : String × ℕ}
    (hi : (texts p cs)[i]? = some l) (hj : (texts p cs)[j]? = some l) : i = j := by
  obtain ⟨hilt, hil⟩ := List.getElem?_eq_some_iff.mp hi
  obtain ⟨hjlt, hjl⟩ := List.getElem?_eq_some_iff.mp hj
  have hsorted := List.pairwise_iff_getElem.mp (pairwise_texts (p := p) h)
  rcases Nat.lt_trichotomy i j with hlt | heq | hlt
  · have hless := hsorted i j hilt hjlt hlt
    rw [hil, hjl] at hless
    exact absurd hless (lt_irrefl _)
  · exact heq
  · have hless := hsorted j i hjlt hilt hlt
    rw [hil, hjl] at hless
    exact absurd hless (lt_irrefl _)

theorem forall_lineAt_iff {done : List (List UInt8)} {rest : List UInt8} (hd : ∀ c ∈ done, Complete c)
    {P : String × ℕ → Prop} : (∀ p c, LineAt (done.flatten ++ rest) p c →
        p + c.length ≤ done.flatten.length → P (lineText c, p)) ↔ ∀ l ∈ texts 0 done, P l := by
  constructor
  · intro hall l hl
    obtain ⟨before, c, after, rfl, rfl⟩ := mem_texts.mp hl
    rw [Nat.zero_add]
    refine hall _ c ⟨before, after.flatten ++ rest, fun d hdm => hd d (by simp [hdm]), hd c (by simp),
      by simp, rfl⟩ ?_
    simp only [List.flatten_append, List.flatten_cons, List.length_append]
    omega
  · intro hall p c hline hle
    obtain ⟨before, after, rfl, rfl⟩ := hline.mem_of_le hd hle
    exact hall _ (mem_texts.mpr ⟨before, c, after, rfl, by rw [Nat.zero_add]⟩)

/-- A buffer of lines of the file, one behind the other. -/
structure LinesOf (file : List UInt8) (buffer : List (String × ℕ)) : Prop where
  isLine : ∀ l ∈ buffer, IsLine file l
  ordered : buffer.Pairwise fun a b => a.2 < b.2

theorem linesOf_texts {done read : List (List UInt8)} {rest : List UInt8}
    {more : List (List UInt8)} (hd : ∀ c ∈ done, Complete c) (hcs : chunks rest = read ++ more)
    (hread : ∀ c ∈ read, Complete c) :
    LinesOf (done.flatten ++ rest) (texts done.flatten.length read) := by
  refine ⟨fun l hl => ?_, pairwise_texts hread⟩
  obtain ⟨before, c, after, rfl, rfl⟩ := mem_texts.mp hl
  refine ⟨c, ⟨done ++ before, after.flatten ++ more.flatten, ?_, hread c (by simp), ?_, by simp⟩, rfl⟩
  · intro d hdm
    rcases List.mem_append.mp hdm with h | h
    · exact hd d h
    · exact hread d (by simp [h])
  · rw [← flatten_chunks rest, hcs]
    simp

theorem boundary_read {done read : List (List UInt8)} {rest : List UInt8}
    {more : List (List UInt8)} (hd : ∀ c ∈ done, Complete c) (hcs : chunks rest = read ++ more)
    (hread : ∀ c ∈ read, Complete c) :
    Boundary (done.flatten ++ rest) (done ++ read).flatten.length := by
  refine ⟨done ++ read, more.flatten, fun c hc => ?_, ?_, rfl⟩
  · exact (List.mem_append.mp hc).elim (hd c) (hread c)
  · rw [← flatten_chunks rest, hcs]
    simp

/-- **A drain from a boundary ends at a boundary**, and what it gives back are lines of the file. -/
theorem readPending_spec {file : List UInt8} {io : Io} {offset : ℕ} (h : Boundary file offset) :
    match readPending file io offset with
    | .lines buffer offset' => LinesOf file buffer ∧ Boundary file offset'
    | .stop offset' _ => Boundary file offset' := by
  obtain ⟨done, rest, hd, rfl, rfl⟩ := h
  by_cases hf : FailsAfterLine (done.flatten ++ rest) io done.flatten.length
  · obtain ⟨read, more, hcs, -, hread, hstop⟩ := readPending_of_failsAfterLine hf
    rw [hstop]
    exact boundary_read hd hcs hread
  · obtain ⟨read, more, hcs, hread, hlines | ⟨-, ok, hstop⟩⟩ := readPending_of_not_failsAfterLine hf
    · rw [hlines]
      exact ⟨linesOf_texts hd hcs fun c hc => (hread c hc).1,
        boundary_read hd hcs fun c hc => (hread c hc).1⟩
    · rw [hstop]
      exact ⟨done, rest, hd, rfl, rfl⟩

theorem ordered_of_readLines {readFails : ℕ → Bool} {offset offset' : ℕ} {rest : List UInt8}
    {buffer : List (String × ℕ)}
    (h : readLines readFails 0 offset (chunks rest) = .lines buffer offset') :
    (buffer.Pairwise fun a b => a.2 < b.2) ∧ ∀ l ∈ buffer, l.2 < offset' := by
  obtain ⟨read, more, hcs, hread, hfail | hlines⟩ := readLines_cases readFails 0 offset (chunks rest)
  · rw [hcs, readLines_of_nextFails hread hfail] at h
    cases h
  · have hcomplete := complete_of_readable hcs hread
    rw [hlines] at h
    obtain ⟨rfl, rfl⟩ := Reading.lines.inj h
    refine ⟨pairwise_texts hcomplete, fun l hl => ?_⟩
    obtain ⟨before, c, after, rfl, rfl⟩ := mem_texts.mp hl
    have hpos := (hcomplete c (by simp)).length_pos
    simp only [List.flatten_append, List.flatten_cons, List.length_append]
    omega

/-- What a drain hands over are lines at growing offsets, below the offset at which it ends. -/
theorem ordered_of_readPending {file : List UInt8} {io : Io} {offset offset' : ℕ}
    {buffer : List (String × ℕ)} (h : readPending file io offset = .lines buffer offset') :
    (buffer.Pairwise fun a b => a.2 < b.2) ∧ ∀ l ∈ buffer, l.2 < offset' := by
  unfold readPending at h
  cases hopen : io.opened with
  | notFound => simp [hopen] at h
  | failed => simp [hopen] at h
  | found =>
    simp only [hopen] at h
    split_ifs at h <;> exact ordered_of_readLines h

end StarStats.Client.Reading
