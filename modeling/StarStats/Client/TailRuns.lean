import StarStats.Client.Reading
import StarStats.Lib.Runs

/-! # Runs of the tail

The log grows and is drained, again and again, by one task that keeps its offset in memory. A run
keeps every line its offset has passed (`AllHanded`: handed to `processBuffer`) exactly as long as no
read fails after a line in the same drain (`allHanded_run_iff`): the offset has then moved on, and the
error leaves the drain before the lines are processed. -/

namespace StarStats.Client.TailRuns

open StarStats.Lib.Lines StarStats.Lib.Runs
open StarStats.Core.Crates StarStats.Core.ParserDefs StarStats.Core.Templates
open StarStats.Client.Store StarStats.Client.Gamelog StarStats.Client.Reading

/-- A log, the task that tails it, and the lines each drain has handed to `processBuffer`. -/
structure World where
  file : List UInt8
  tail : Tail
  windows : List (List (String × ℕ))

/-- All lines handed to `processBuffer`. -/
def World.handed (w : World) : List (String × ℕ) := w.windows.flatten

/-- The log grows and is drained. -/
structure Step where
  appended : List UInt8
  io : Io

/-- A new log, and a task at its start. -/
def World.start (s : Sink) : World := ⟨[], ⟨s, 0⟩, []⟩

section Run
variable (x : Externals) (rules : List CompiledRemoteRule) (burstRules : List BurstRule)
  (path : Path)

/-- The game appends, and the client polls. -/
def World.step (w : World) (s : Step) : World :=
  let file := w.file ++ s.appended
  let d := drain x rules burstRules path file s.io w.tail
  ⟨file, d.tail, w.windows ++ [d.handed]⟩

def World.run (w : World) (steps : List Step) : World :=
  steps.foldl (World.step x rules burstRules path) w

/-- Every complete line whose bytes lie below the offset has been handed to `processBuffer`. -/
def AllHanded (w : World) : Prop :=
  ∀ p c, LineAt w.file p c → p + c.length ≤ w.tail.offset → (lineText c, p) ∈ w.handed

/-- What holds in every state of a run: the offset is behind complete lines, and what was handed was
below it. -/
structure Behind (w : World) (done : List (List UInt8)) : Prop where
  complete : ∀ c ∈ done, Complete c
  split : ∃ rest, w.file = done.flatten ++ rest
  offset_eq : w.tail.offset = done.flatten.length
  lt_offset : ∀ l ∈ w.handed, l.2 < w.tail.offset

theorem behind_start (s : Sink) : Behind (World.start s) [] :=
  ⟨by simp, ⟨[], rfl⟩, rfl, by simp [World.start, World.handed]⟩

theorem Behind.allHanded_iff {w : World} {done : List (List UInt8)} (h : Behind w done) :
    AllHanded w ↔ ∀ l ∈ texts 0 done, l ∈ w.handed := by
  obtain ⟨rest, hfile⟩ := h.split
  constructor
  · intro hall l hl
    obtain ⟨before, c, after, rfl, rfl⟩ := mem_texts.mp hl
    refine hall _ c ⟨before, after.flatten ++ rest, fun d hd => h.complete d (by simp [hd]),
      h.complete c (by simp), by simp [hfile], by simp⟩ ?_
    rw [h.offset_eq]
    simp only [List.flatten_append, List.flatten_cons, List.length_append]
    omega
  · intro hall p c hline hle
    rw [hfile] at hline
    rw [h.offset_eq] at hle
    obtain ⟨before, after, rfl, rfl⟩ := hline.mem_of_le h.complete hle
    exact hall _ (mem_texts.mpr ⟨before, c, after, rfl, by simp⟩)

variable {x rules burstRules path}

theorem handed_step (w : World) (s : Step) : (w.step x rules burstRules path s).handed = w.handed ++
    (drain x rules burstRules path (w.file ++ s.appended) s.io w.tail).handed := by
  simp [World.step, World.handed]

/-- The offset of a drain is the one it has read up to, and it hands on what it has read. -/
theorem drain_of_lines {file : List UInt8} {io : Io} {t : Tail} {buffer : List (String × ℕ)}
    {offset : ℕ} (h : readPending file io t.offset = .lines buffer offset) :
    (drain x rules burstRules path file io t).tail.offset = offset ∧
      (drain x rules burstRules path file io t).handed = buffer := by
  unfold drain
  simp only [h]
  split_ifs <;> exact ⟨rfl, rfl⟩

theorem drain_of_stop {file : List UInt8} {io : Io} {t : Tail} {offset : ℕ} {ok : Bool}
    (h : readPending file io t.offset = .stop offset ok) :
    drain x rules burstRules path file io t = ⟨⟨t.sink, offset⟩, [], ok⟩ := by
  unfold drain
  simp only [h]

/-- The invariant after a drain that has got past some lines and has handed on lines of them. -/
theorem Behind.extend {w w' : World} {done read : List (List UInt8)} {rest : List UInt8}
    {more : List (List UInt8)} (h : Behind w done) (hfile : w'.file = done.flatten ++ rest)
    (hcs : chunks rest = read ++ more) (hread : ∀ c ∈ read, Complete c)
    (hoff : w'.tail.offset = (done ++ read).flatten.length)
    (hhanded : ∀ l ∈ w'.handed, l ∈ w.handed ∨ l ∈ texts w.tail.offset read) :
    Behind w' (done ++ read) := by
  refine ⟨fun c hc => (List.mem_append.mp hc).elim (h.complete c) (hread c),
    ⟨more.flatten, ?_⟩, hoff, fun l hl => ?_⟩
  · rw [hfile, ← flatten_chunks rest, hcs]
    simp
  · have hle := h.offset_eq
    rw [hoff, List.flatten_append, List.length_append]
    rcases hhanded l hl with hl | hl
    · have := h.lt_offset l hl
      omega
    · obtain ⟨before, c, after, rfl, rfl⟩ := mem_texts.mp hl
      have := (hread c (by simp)).length_pos
      simp only [List.flatten_append, List.flatten_cons, List.length_append]
      omega

/-- **Where a read fails after a line**, the offset passes a line that is never handed on. -/
theorem Behind.step_of_failsAfterLine {w : World} {done : List (List UInt8)} {s : Step}
    (h : Behind w done) (hf : FailsAfterLine (w.file ++ s.appended) s.io w.tail.offset) :
    ∃ read, read ≠ [] ∧ Behind (w.step x rules burstRules path s) (done ++ read) ∧
      (w.step x rules burstRules path s).handed = w.handed := by
  obtain ⟨rest, hfile⟩ := h.split
  rw [hfile, List.append_assoc, h.offset_eq] at hf
  obtain ⟨read, more, hcs, hne, hread, hstop⟩ := readPending_of_failsAfterLine hf
  rw [← h.offset_eq, ← List.append_assoc, ← hfile] at hstop
  have hd := @drain_of_stop x rules burstRules path _ _ _ _ _ hstop
  have hhanded : (w.step x rules burstRules path s).handed = w.handed := by
    rw [handed_step, hd, List.append_nil]
  refine ⟨read, hne, h.extend ?_ hcs hread (by simp [World.step, hd]) ?_, hhanded⟩
  · simp [World.step, hfile]
  · exact fun l hl => Or.inl (hhanded ▸ hl)

/-- **Any other drain** hands on every line that its offset passes. -/
theorem Behind.step_of_not_failsAfterLine {w : World} {done : List (List UInt8)} {s : Step}
    (h : Behind w done) (hf : ¬ FailsAfterLine (w.file ++ s.appended) s.io w.tail.offset) :
    ∃ read, Behind (w.step x rules burstRules path s) (done ++ read) ∧
      (w.step x rules burstRules path s).handed = w.handed ++ texts w.tail.offset read := by
  obtain ⟨rest, hfile⟩ := h.split
  rw [hfile, List.append_assoc, h.offset_eq] at hf
  obtain ⟨read, more, hcs, hread, hpending⟩ := readPending_of_not_failsAfterLine hf
  rw [← h.offset_eq, ← List.append_assoc, ← hfile] at hpending
  refine ⟨read, ?_⟩
  have hhanded : (w.step x rules burstRules path s).handed =
      w.handed ++ texts w.tail.offset read := by
    rw [handed_step]
    rcases hpending with hl | ⟨rfl, ok, hs⟩
    · rw [(drain_of_lines hl).2]
    · rw [drain_of_stop hs, texts]
  refine ⟨h.extend ?_ hcs (fun c hc => (hread c hc).1) ?_ ?_, hhanded⟩
  · simp [World.step, hfile]
  · rcases hpending with hl | ⟨rfl, ok, hs⟩
    · exact (drain_of_lines hl).1
    · rw [List.append_nil, ← h.offset_eq]
      exact congrArg (fun d => d.tail.offset) (drain_of_stop hs)
  · intro l hl
    rw [hhanded] at hl
    exact List.mem_append.mp hl

/-- A drain keeps what was handed, all of it, exactly if no read of it fails after a line. -/
theorem Behind.allHanded_step_iff {w : World} {done : List (List UInt8)} {s : Step}
    (h : Behind w done) (hall : AllHanded w) :
    AllHanded (w.step x rules burstRules path s) ↔
      ¬ FailsAfterLine (w.file ++ s.appended) s.io w.tail.offset := by
  rw [h.allHanded_iff] at hall
  constructor
  · intro hall' hf
    obtain ⟨read, hne, hb, hhanded⟩ := h.step_of_failsAfterLine (x := x) hf
    rw [hb.allHanded_iff, hhanded, texts_append] at hall'
    obtain ⟨c, read, rfl⟩ := List.exists_cons_of_ne_nil hne
    have hlost := h.lt_offset _ (hall' (lineText c, 0 + done.flatten.length) (by simp [texts]))
    simp only [h.offset_eq] at hlost
    omega
  · intro hf
    obtain ⟨read, hb, hhanded⟩ := h.step_of_not_failsAfterLine (x := x) hf
    rw [hb.allHanded_iff, hhanded, texts_append, Nat.zero_add, ← h.offset_eq]
    intro l hl
    rcases List.mem_append.mp hl with hl | hl
    · exact List.mem_append_left _ (hall l hl)
    · exact List.mem_append_right _ hl

theorem Behind.exists_step {w : World} {done : List (List UInt8)} (h : Behind w done) (s : Step) :
    ∃ done', Behind (w.step x rules burstRules path s) done' := by
  by_cases hf : FailsAfterLine (w.file ++ s.appended) s.io w.tail.offset
  · obtain ⟨read, -, hb, -⟩ := h.step_of_failsAfterLine hf
    exact ⟨_, hb⟩
  · obtain ⟨read, hb, -⟩ := h.step_of_not_failsAfterLine hf
    exact ⟨_, hb⟩

/-- **The tail loses no line, in any state of a run, exactly if in none of its drains a read fails
after a complete line has been read.** -/
theorem allHanded_run_iff (x : Externals) (rules : List CompiledRemoteRule)
    (burstRules : List BurstRule) (path : Path) (s : Sink) (steps : List Step) :
    (∀ n, AllHanded ((World.start s).run x rules burstRules path (steps.take n))) ↔
      ∀ n step, steps[n]? = some step →
        ¬ FailsAfterLine
          (((World.start s).run x rules burstRules path (steps.take n)).file ++ step.appended) step.io
          ((World.start s).run x rules burstRules path (steps.take n)).tail.offset := by
  refine @forall_take_iff _ _ _ _ (fun w => ∃ done, Behind w done) AllHanded
    (fun w step => ¬ FailsAfterLine (w.file ++ step.appended) step.io w.tail.offset)
    ⟨_, behind_start s⟩ ?_ ?_ ?_ steps
  · rintro w step ⟨done, hb⟩
    exact hb.exists_step step
  · exact ((behind_start s).allHanded_iff).mpr (by simp [texts])
  · rintro w step ⟨done, hb⟩ hall
    exact hb.allHanded_step_iff hall

/-- A line, and then a byte that is not UTF-8: the drain ends with an error, and the offset is behind
the line that nothing has processed. -/
theorem not_allHanded_invalidByte : ¬ AllHanded ((World.start ⟨.fresh [] "", .zero⟩).run .std [] []
    ["LIVE", "Game.log"] [⟨[97, 10, 0xff, 10], .good⟩]) := by
  have hread : readPending ([] ++ [97, 10, 0xff, 10]) .good 0 = .stop 2 false := by decide +kernel
  have hrun : (World.start ⟨.fresh [] "", .zero⟩).run .std [] [] ["LIVE", "Game.log"]
      [⟨[97, 10, 0xff, 10], .good⟩] = ⟨[97, 10, 0xff, 10], ⟨⟨.fresh [] "", .zero⟩, 2⟩, [[]]⟩ := by
    simp only [World.run, List.foldl_cons, List.foldl_nil, World.step, World.start]
    rw [drain_of_stop hread]
    rfl
  rw [hrun]
  intro h
  have hline : LineAt [97, 10, 0xff, 10] 0 [97, 10] :=
    ⟨[], [0xff, 10], by simp, ⟨[97], by decide, rfl⟩, rfl, rfl⟩
  have := h 0 [97, 10] hline (by decide)
  cases this

end Run

end StarStats.Client.TailRuns
