import StarStats.Lib.Runs
import StarStats.Server.Audit

/-! # Rows that are verified by themselves

The hash of a row is of the number that the call expects, and the row has the number that the table
gives. A row verifies from its own columns, and its copy in the mirror has its number, when the two are
the same and the payload is read back as it was hashed. -/

namespace StarStats.Server.Audit

open StarStats.Lib StarStats.Lib.Json StarStats.Lib.Runs

section Numbers
variable (digest : Hash → String → Hash) (readBack : Value → Value)

/-- **Each row gives its own hash, and its copy has its number.** -/
structure Verifies (log : Log) : Prop where
  rows : ∀ r ∈ log.table, r.rowHash = digest r.prevHash r.text
  mirror : ∀ e ∈ log.mirror, ∀ r ∈ log.table, r.rowHash = e.rowHash → e.seq = r.seq

/-- The log after the first calls. -/
def after (calls : List Call) (n : ℕ) : Log := (calls.take n).foldl (append digest readBack) .empty

/-- The log verifies after each of the calls. -/
def AllVerify (calls : List Call) : Prop := ∀ n, Verifies digest (after digest readBack calls n)

/-- The table is about to give the number that the next call expects. -/
def InStep (log : Log) : Prop := log.next = log.table.getLast?.elim 1 (·.seq + 1)

/-- A call that commits gets the number that it expects, and its payload is read back as it was. -/
def Foreseen (log : Log) (c : Call) : Prop :=
  Commits digest log c → InStep log ∧
    canonicalize (readBack c.entry.payload) = canonicalize c.entry.payload

/-- The hash tells the number of the row: there is a copy of it, or the payload is an object, or it is
read back as it was. -/
structure Told (log : Log) (c : Call) : Prop where
  collisionFree : CollisionFree digest
    (let p := prepare digest c.entry log.table.getLast?
     [(p.prevHash, p.text), (p.prevHash, (rowOf readBack c.entry c.now log.next p).text)])
  framed : c.mirrored = true ∨
    canonicalize (readBack c.entry.payload) = canonicalize c.entry.payload ∨
    ∃ fs fs', c.entry.payload = .obj fs ∧ readBack c.entry.payload = .obj fs'

end Numbers

section Steps
variable {digest : Hash → String → Hash} {readBack : Value → Value} {log : Log} {c : Call}

/-- What the copies are of. -/
def Copied (log : Log) : Prop := ∀ e ∈ log.mirror, e.rowHash ∈ log.table.map (·.rowHash)

theorem mem_mirror_of_commits (h : Commits digest log c) {e : AuditEntryRow} :
    e ∈ (append digest readBack log c).mirror ↔ e ∈ log.mirror ∨
      (c.mirrored = true ∧
        e = mirrorOf c.entry c.now (prepare digest c.entry log.table.getLast?)) := by
  rw [append_of_commits h]
  cases c.mirrored <;> simp

theorem mem_table_of_commits (h : Commits digest log c) {r : AuditRow} :
    r ∈ (append digest readBack log c).table ↔ r ∈ log.table ∨
      r = rowOf readBack c.entry c.now log.next (prepare digest c.entry log.table.getLast?) := by
  rw [table_of_commits h]
  simp

theorem same_of_not_commits (h : ¬ Commits digest log c) :
    (append digest readBack log c).table = log.table ∧
      (append digest readBack log c).mirror = log.mirror := by
  have hrows : (append digest readBack log c).rows = log.rows := (append_of_not_commits h).1
  exact ⟨congrArg (List.map _) hrows, (append_of_not_commits h).2⟩

theorem Copied.step (h : Copied log) (c : Call) : Copied (append digest readBack log c) := by
  by_cases hc : Commits digest log c
  · intro e he
    rw [table_of_commits hc, List.map_append]
    rcases (mem_mirror_of_commits hc).mp he with he | ⟨-, rfl⟩
    · exact List.mem_append_left _ (h e he)
    · exact List.mem_append_right _ (List.mem_singleton_self _)
  · obtain ⟨htable, hmirror⟩ : (append digest readBack log c).table = log.table ∧ _ :=
      same_of_not_commits hc
    intro e he
    rw [htable]
    exact h e (hmirror ▸ he)

theorem Verifies.step (h : Verifies digest log) (hcopied : Copied log)
    (hc : Foreseen digest readBack log c) : Verifies digest (append digest readBack log c) := by
  by_cases hcommits : Commits digest log c
  · obtain ⟨hstep, hpayload⟩ := hc hcommits
    constructor
    · intro r hr
      rcases (mem_table_of_commits hcommits).mp hr with hr | rfl
      · exact h.rows r hr
      · simp only [rowOf, AuditRow.text, prepare, hpayload, hstep.symm]
    · intro e he r hr hhash
      rcases (mem_mirror_of_commits hcommits).mp he with he | ⟨-, rfl⟩ <;>
        rcases (mem_table_of_commits hcommits).mp hr with hr | rfl
      · exact h.mirror e he r hr hhash
      · have hmem := hcopied e he
        rw [← hhash] at hmem
        exact absurd hmem hcommits.2
      · exact absurd (List.mem_map.mpr ⟨r, hr, hhash⟩) hcommits.2
      · exact hstep.symm
  · obtain ⟨htable, hmirror⟩ : (append digest readBack log c).table = log.table ∧ _ :=
      same_of_not_commits hcommits
    constructor
    · rw [htable]
      exact h.rows
    · rw [htable, hmirror]
      exact h.mirror

theorem foreseen_of_verifies (htold : Told digest readBack log c)
    (h : Verifies digest (append digest readBack log c)) : Foreseen digest readBack log c := by
  intro hcommits
  have hrow := h.rows _ ((mem_table_of_commits hcommits).mpr (Or.inr rfl))
  have htext := congrArg Prod.snd (htold.collisionFree _ List.mem_cons_self _
    (List.mem_cons_of_mem _ List.mem_cons_self) hrow)
  change canonicalize c.entry.payload ++ toString (log.table.getLast?.elim 1 (·.seq + 1)) =
    canonicalize (readBack c.entry.payload) ++ toString log.next at htext
  rcases htold.framed with hmirrored | hsame | ⟨fs, fs', hfs, hfs'⟩
  · have hseq := h.mirror _ ((mem_mirror_of_commits hcommits).mpr (Or.inr ⟨hmirrored, rfl⟩)) _
      ((mem_table_of_commits hcommits).mpr (Or.inr rfl)) rfl
    have hstep : InStep log := hseq.symm
    refine ⟨hstep, ?_⟩
    rw [← hstep, String.append_left_inj] at htext
    exact htext.symm
  · rw [hsame, String.append_right_inj] at htext
    exact ⟨(Text.toString_int_inj htext).symm, hsame⟩
  · rw [hfs'] at htext ⊢
    rw [hfs] at htext ⊢
    obtain ⟨hpayload, hseq⟩ := text_inj htext
    exact ⟨hseq.symm, hpayload.symm⟩

theorem after_succ {calls : List Call} {n : ℕ} (h : calls[n]? = some c) :
    after digest readBack calls (n + 1) = append digest readBack (after digest readBack calls n) c :=
  run_take_succ h

/-- **All rows verify in every state exactly if every call that commits is foreseen**, when the hashes
tell the numbers. -/
theorem allVerify_iff {calls : List Call} :
    ((∀ n c, calls[n]? = some c → Foreseen digest readBack (after digest readBack calls n) c) →
      AllVerify digest readBack calls) ∧
    ((∀ n c, calls[n]? = some c → Told digest readBack (after digest readBack calls n) c) →
      AllVerify digest readBack calls →
      ∀ n c, calls[n]? = some c → Foreseen digest readBack (after digest readBack calls n) c) := by
  constructor
  · intro hall n
    have hinv : Copied (after digest readBack calls n) ∧
        Verifies digest (after digest readBack calls n) := by
      refine @invariant_take_of _ _ (append digest readBack) .empty
        (fun log => Copied log ∧ Verifies digest log) (Foreseen digest readBack) ?_
        (fun log c h hc => ⟨h.1.step c, h.2.step h.1 hc⟩) calls hall n
      exact ⟨fun _ he => absurd he List.not_mem_nil, fun _ hr => absurd hr List.not_mem_nil,
        fun _ he => absurd he List.not_mem_nil⟩
    exact hinv.2
  · intro htold hall n c hc
    have hnext := hall (n + 1)
    rw [after_succ hc] at hnext
    exact foreseen_of_verifies (htold n c hc) hnext

end Steps

theorem allVerify_committed : AllVerify sha256Of id [committedCall true, committedCall false] := by
  refine allVerify_iff.1 fun n c hc _ => ⟨?_, rfl⟩
  unfold InStep
  match n with
  | 0 => decide +kernel
  | 1 => decide +kernel
  | n + 2 => cases hc

def rolledBackCall (shown : Bool) : Call := ⟨visibilityChanged shown, 0, .rolledBack, true⟩

/-- After an insert that is rolled back the next row is hashed for the number before its own. -/
theorem not_allVerify_rolledBack :
    ¬ AllVerify sha256Of id [committedCall true, rolledBackCall true, committedCall false] := by
  intro h
  have hnot : ¬ ∀ r ∈ (after sha256Of id
      [committedCall true, rolledBackCall true, committedCall false] 3).table,
        r.rowHash = sha256Of r.prevHash r.text := by decide +kernel
  exact hnot (h 3).rows

end StarStats.Server.Audit
