import StarStats.Client.UnknownCache
import StarStats.Lib.Runs

/-! # The review queue

The commands behind the review pane list and count the cached shapes that are worth a look, dismiss a
shape, and stamp the shapes of a submission that the server took. What is dismissed is neither listed
nor counted again; what is submitted is both, until it is dismissed (`neverResurfaces_iff`). -/

namespace StarStats.Client.ReviewQueue

open StarStats.Lib.Tables StarStats.Lib.Runs
open StarStats.Core.Crates StarStats.Core.UnknownLines
open StarStats.Client.Store StarStats.Client.Store.Storage
open StarStats.Client.UnknownCache (mem_listUnknownLines)

/-! ### The commands -/

/-- The least interest that a line needs to be reviewed. -/
def unknownLineReviewThreshold : ℕ := 50

/-- What is done to the cache: a captured line, the hash the pane dismisses, and the hashes of a
submission the server took, with the time. -/
inductive Command where
  | cache (line : UnknownLine)
  | dismiss (shapeHash : String)
  | submit (shapeHashes : List String) (now : String)

/-- After the server took a submission, each of its shapes is stamped. -/
def submitUnknownLines (st : Storage) (shapeHashes : List String) (now : String) : Storage :=
  shapeHashes.foldl (fun st k => st.markSubmitted k now) st

def Command.run (st : Storage) : Command → Storage
  | .cache line => st.cacheUnknownLine line
  | .dismiss k => st.dismissUnknownLine k
  | .submit ks now => submitUnknownLines st ks now

/-- The page's list. -/
def listed (st : Storage) : List UnknownLine := st.listUnknownLines unknownLineReviewThreshold

/-- The badge. -/
def counted (st : Storage) : ℕ := st.countUnknownLines unknownLineReviewThreshold

/-! ### Statement -/

/-- The row was dismissed, or submitted. -/
def handled (r : UnknownLineRow) : Bool := r.dismissed || r.submittedAt.isSome

/-- The line has been dismissed or submitted. -/
def Handled (st : Storage) (k : String) : Prop :=
  ∃ r ∈ st.unknownLines.contents, r.key = k ∧ handled r = true

/-- **What was handled never resurfaces**: in every state of the run no shape that was handled by then
is listed or counted, and every other cached shape worth a look is. -/
def NeverResurfaces (st : Storage) (cmds : List Command) : Prop :=
  ∀ n, let v := (cmds.take n).foldl Command.run st
    (∀ m ≤ n, ∀ k, Handled ((cmds.take m).foldl Command.run st) k →
      ∀ u ∈ listed v, u.shapeHash ≠ k) ∧
    counted v = (v.unknownLines.contents.filter fun r =>
      unknownLineReviewThreshold ≤ r.record.interestScore && !handled r).length ∧
    ∀ r ∈ v.unknownLines.contents, unknownLineReviewThreshold ≤ r.record.interestScore →
      (∀ m ≤ n, ¬ Handled ((cmds.take m).foldl Command.run st) r.key) →
        ∃ u ∈ listed v, u.shapeHash = r.key

/-- The row is neither listed nor counted. -/
def Silent (r : UnknownLineRow) : Prop :=
  r.dismissed = true ∨ r.record.interestScore < unknownLineReviewThreshold

/-- No shape is submitted that would be listed. -/
def OnlySilent (st : Storage) : Command → Prop
  | .submit ks _ => ∀ r ∈ st.unknownLines.contents, r.key ∈ ks → Silent r
  | _ => True

/-! ### The rows after a command -/

theorem contents_dismissUnknownLine (st : Storage) (k : String) :
    (st.dismissUnknownLine k).unknownLines.contents = st.unknownLines.contents.map fun r =>
      if r.key = k then { r with dismissed := true } else r :=
  Table.contents_updateKey _ _ _ _

theorem contents_submitUnknownLines (st : Storage) (ks : List String) (now : String) :
    (submitUnknownLines st ks now).unknownLines.contents = st.unknownLines.contents.map fun r =>
      if r.key ∈ ks then { r with submittedAt := some now } else r := by
  unfold submitUnknownLines
  induction ks generalizing st with
  | nil => simp
  | cons k ks ih =>
    have hmark : (st.markSubmitted k now).unknownLines.contents = st.unknownLines.contents.map
        fun r => if r.key = k then { r with submittedAt := some now } else r :=
      Table.contents_updateKey _ _ _ _
    rw [List.foldl_cons, ih, hmark, List.map_map]
    refine List.map_congr_left fun r _ => ?_
    simp only [Function.comp, List.mem_cons]
    by_cases hk : r.key = k
    · rw [if_pos hk, if_pos (Or.inl hk)]
      split_ifs <;> rfl
    · rw [if_neg hk]
      simp only [hk, false_or]

/-- What a command does to a row keeps its hash and its score, and it stays handled. -/
theorem exists_of_mem_run {st : Storage} {cmd : Command} {r : UnknownLineRow}
    (h : r ∈ st.unknownLines.contents) :
    ∃ r' ∈ (cmd.run st).unknownLines.contents, r'.key = r.key ∧
      (handled r = true → handled r' = true) := by
  cases cmd with
  | cache line =>
    by_cases hk : r.key = (newUnknownLine line).key
    · refine ⟨touchUnknownLine line r, ?_, rfl, fun hr => hr⟩
      exact Table.mem_contents_upsert.mpr (Or.inr (Or.inl ⟨r, h, hk, rfl⟩))
    · exact ⟨r, Table.mem_contents_upsert.mpr (Or.inl ⟨h, hk⟩), rfl, fun hr => hr⟩
  | dismiss k =>
    refine ⟨if r.key = k then { r with dismissed := true } else r, ?_, ?_, fun hr => ?_⟩
    · rw [Command.run, contents_dismissUnknownLine]
      exact List.mem_map_of_mem h
    · split_ifs <;> rfl
    · split_ifs
      · rfl
      · exact hr
  | submit ks now =>
    refine ⟨if r.key ∈ ks then { r with submittedAt := some now } else r, ?_, ?_, fun hr => ?_⟩
    · rw [Command.run, contents_submitUnknownLines]
      exact List.mem_map_of_mem h
    · split_ifs <;> rfl
    · split_ifs
      · simp [handled]
      · exact hr

theorem Handled.run {st : Storage} {k : String} (h : Handled st k) (cmd : Command) :
    Handled (cmd.run st) k := by
  obtain ⟨r, hr, rfl, hh⟩ := h
  obtain ⟨r', hr', hk, hkeep⟩ := exists_of_mem_run hr
  exact ⟨r', hr', hk, hkeep hh⟩

theorem Handled.foldl {st : Storage} {k : String} (h : Handled st k) (cmds : List Command) :
    Handled (cmds.foldl Command.run st) k := by
  induction cmds generalizing st with
  | nil => exact h
  | cons cmd cmds ih => exact ih (h.run cmd)

theorem Handled.take {st : Storage} {cmds : List Command} {m n : ℕ} (hmn : m ≤ n) {k : String}
    (h : Handled ((cmds.take m).foldl Command.run st) k) :
    Handled ((cmds.take n).foldl Command.run st) k := by
  obtain ⟨j, rfl⟩ := Nat.exists_eq_add_of_le hmn
  rw [List.take_add, List.foldl_append]
  exact h.foldl _

/-! ### When the lists are right -/

/-- A submitted shape is silent. -/
def Quiet (st : Storage) : Prop :=
  ∀ r ∈ st.unknownLines.contents, r.submittedAt.isSome = true → Silent r

theorem quiet_run_iff {st : Storage} (h : Quiet st) (cmd : Command) :
    Quiet (cmd.run st) ↔ OnlySilent st cmd := by
  cases cmd with
  | cache line =>
    refine iff_of_true (fun r hr hs => ?_) trivial
    rcases Table.mem_contents_upsert.mp hr with ⟨hr, -⟩ | ⟨r₀, hr₀, -, rfl⟩ | ⟨-, rfl⟩
    · exact h r hr hs
    · exact h r₀ hr₀ hs
    · simp [newUnknownLine] at hs
  | dismiss k =>
    refine iff_of_true (fun r hr hs => ?_) trivial
    rw [Command.run, contents_dismissUnknownLine] at hr
    obtain ⟨r₀, hr₀, rfl⟩ := List.mem_map.mp hr
    by_cases hk : r₀.key = k
    · rw [if_pos hk]
      exact Or.inl rfl
    · rw [if_neg hk] at hs ⊢
      exact h r₀ hr₀ hs
  | submit ks now =>
    have hrun := contents_submitUnknownLines st ks now
    constructor
    · intro hq r hr hk
      have hmem : { r with submittedAt := some now } ∈
          (submitUnknownLines st ks now).unknownLines.contents := by
        rw [hrun]
        exact List.mem_map.mpr ⟨r, hr, if_pos hk⟩
      exact hq { r with submittedAt := some now } hmem rfl
    · intro hsilent r hr hs
      rw [Command.run, hrun] at hr
      obtain ⟨r₀, hr₀, rfl⟩ := List.mem_map.mp hr
      by_cases hk : r₀.key ∈ ks
      · rw [if_pos hk]
        exact hsilent r₀ hr₀ hk
      · rw [if_neg hk] at hs ⊢
        exact h r₀ hr₀ hs

theorem exists_listed_iff {st : Storage} {k : String} :
    (∃ u ∈ listed st, u.shapeHash = k) ↔
      ∃ r ∈ st.unknownLines.contents, r.key = k ∧ ¬ Silent r := by
  constructor
  · rintro ⟨u, hu, rfl⟩
    obtain ⟨r, hr, hd, hscore, rfl⟩ := mem_listUnknownLines.mp hu
    refine ⟨r, hr, rfl, ?_⟩
    rintro (h | h)
    · rw [hd] at h
      cases h
    · omega
  · rintro ⟨r, hr, rfl, hs⟩
    obtain ⟨hd, hscore⟩ := not_or.mp hs
    exact ⟨decodeUnknownLine r, mem_listUnknownLines.mpr
      ⟨r, hr, Bool.eq_false_of_not_eq_true hd, Nat.le_of_not_lt hscore, rfl⟩, rfl⟩

theorem handled_of_not_silent {r : UnknownLineRow} (h : ¬ Silent r)
    (hquiet : r.submittedAt.isSome = true → Silent r) : handled r = false := by
  have hd : r.dismissed = false := Bool.eq_false_of_not_eq_true fun hd => h (Or.inl hd)
  have hs : r.submittedAt.isSome = false :=
    Bool.eq_false_of_not_eq_true fun hs => h (hquiet hs)
  rw [handled, hd, hs]
  rfl

theorem counted_of_quiet {st : Storage} (h : Quiet st) :
    counted st = (st.unknownLines.contents.filter fun r =>
      unknownLineReviewThreshold ≤ r.record.interestScore && !handled r).length := by
  unfold counted countUnknownLines
  congr 1
  refine List.filter_congr fun r hr => ?_
  by_cases hs : Silent r
  · rcases hs with hd | hscore
    · simp [hd, handled]
    · have : ¬ unknownLineReviewThreshold ≤ r.record.interestScore := by omega
      simp [this]
  · have hh := handled_of_not_silent hs (h r hr)
    have hd : r.dismissed = false := Bool.eq_false_of_not_eq_true fun hd => hs (Or.inl hd)
    rw [hh, hd, Bool.and_comm]

theorem neverResurfaces_iff_quiet {st : Storage} {cmds : List Command} :
    NeverResurfaces st cmds ↔ ∀ n, Quiet ((cmds.take n).foldl Command.run st) := by
  constructor
  · intro h n r hr hs
    by_contra hsilent
    obtain ⟨u, hu, hk⟩ := exists_listed_iff.mpr ⟨r, hr, rfl, hsilent⟩
    exact (h n).1 n le_rfl r.key ⟨r, hr, rfl, by simp [handled, hs]⟩ u hu hk
  · intro h n
    refine ⟨fun m hmn k hk u hu hku => ?_, counted_of_quiet (h n), fun r hr hscore hnever => ?_⟩
    · obtain ⟨r, hr, hrk, hs⟩ := exists_listed_iff.mp ⟨u, hu, hku⟩
      obtain ⟨r', hr', hrk', hh⟩ := hk.take hmn
      obtain ⟨a, ha, rfl⟩ := Table.mem_contents.mp hr
      obtain ⟨a', ha', rfl⟩ := Table.mem_contents.mp hr'
      rw [Table.eq_of_key_eq ha' ha (hrk'.trans hrk.symm),
        handled_of_not_silent hs (h n a.2 hr)] at hh
      cases hh
    · refine exists_listed_iff.mpr ⟨r, hr, rfl, fun hs => ?_⟩
      rcases hs with hd | hlow
      · exact hnever n le_rfl ⟨r, hr, rfl, by simp [handled, hd]⟩
      · omega

/-- **What was handled never resurfaces exactly if no shape is submitted that would be listed.** -/
theorem neverResurfaces_iff (noiseList : List String) (now : String) (cmds : List Command) :
    NeverResurfaces (.fresh noiseList now) cmds ↔ ∀ n cmd, cmds[n]? = some cmd →
      OnlySilent ((cmds.take n).foldl Command.run (.fresh noiseList now)) cmd := by
  rw [neverResurfaces_iff_quiet]
  refine @forall_take_iff _ _ Command.run _ (fun _ => True) Quiet OnlySilent trivial
    (fun _ _ _ => trivial) (fun r hr => ?_) (fun st cmd _ h => quiet_run_iff h cmd) cmds
  cases hr

/-- A captured line with a tag that is not known, in brackets and with digits. -/
def taggedLine : UnknownLine :=
  capture .std "a" "<Tag> [12345] at 2024-05" (some "Tag") CaptureContext.default ""

/-- It is listed again after it was submitted. -/
theorem not_neverResurfaces_tagged :
    ¬ NeverResurfaces (.fresh [] "") [.cache taggedLine, .submit [taggedLine.shapeHash] "now"] := by
  intro h
  have hquiet := neverResurfaces_iff_quiet.mp h 2
  have hcached : (Storage.cacheUnknownLine (.fresh [] "") taggedLine).unknownLines.contents =
      [newUnknownLine taggedLine] := rfl
  have hmem : { newUnknownLine taggedLine with submittedAt := some "now" } ∈
      (submitUnknownLines (Storage.cacheUnknownLine (.fresh [] "") taggedLine)
        [taggedLine.shapeHash] "now").unknownLines.contents := by
    rw [contents_submitUnknownLines, hcached, List.map_singleton]
    exact List.mem_singleton.mpr (if_pos (List.mem_singleton.mpr rfl)).symm
  have hsilent := hquiet _ hmem rfl
  unfold Silent at hsilent
  revert hsilent
  decide +kernel

end StarStats.Client.ReviewQueue
