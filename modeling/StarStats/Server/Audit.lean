import Mathlib.Data.String.Basic
import StarStats.Lib.Chain
import StarStats.Lib.Json
import StarStats.Lib.Tables
import StarStats.Lib.Text

/-! # The audit log

A row of the audit log keeps the hash of the row before it, and its own: of that hash, of the canonical
text of its payload and of the number that it is expected to get. The table numbers its rows itself. -/

namespace StarStats.Server.Audit

open StarStats.Lib StarStats.Lib.Json StarStats.Lib.Tables StarStats.Lib.Chain

/-- The 32 bytes of a SHA-256 hash. -/
abbrev Hash := BitVec 256

/-- The instance has one name wherever hashes are looked up. -/
instance lawfulBEq_hash : LawfulBEq Hash := inferInstance

/-- What is to be logged. -/
structure AuditEntry where
  actorSub : Option String
  actorHandle : Option String
  action : String
  payload : Value

/-- A row of `audit_log`. -/
structure AuditRow where
  seq : ℤ
  occurredAt : ℤ
  actorSub : Option String
  actorHandle : Option String
  action : String
  payload : Value
  prevHash : Hash
  rowHash : Hash

/-- A row as it is put in the mirror; the hashes stand in hexadecimal there. -/
structure AuditEntryRow where
  seq : ℤ
  occurredAt : ℤ
  actorSub : Option String
  actorHandle : Option String
  action : String
  payload : Value
  prevHash : Hash
  rowHash : Hash

/-! ### Canonical text -/

mutual

/-- The fields of every object in the order of their names. -/
def sortKeys : Value → Value
  | .obj fs => .obj (sortBy Prod.fst (sortFields fs))
  | .arr vs => .arr (sortItems vs)
  | v => v

/-- `sortKeys` along an array. -/
def sortItems : List Value → List Value
  | [] => []
  | v :: vs => sortKeys v :: sortItems vs

/-- `sortKeys` along the fields of an object. -/
def sortFields : List (String × Value) → List (String × Value)
  | [] => []
  | (k, v) :: fs => (k, sortKeys v) :: sortFields fs

end

/-- The text of a payload with its keys in order. -/
def canonicalize (v : Value) : String := (sortKeys v).render

/-! ### Appending -/

/-- The hash and the number that a row is made for, and what is hashed after the hash. -/
structure Prepared where
  nextSeq : ℤ
  prevHash : Hash
  text : String
  rowHash : Hash

section Append
variable (digest : Hash → String → Hash) (readBack : Value → Value)

/-- What is worked out from the tail that has been read; `digest` is SHA-256 of a hash and a text. -/
def prepare (entry : AuditEntry) (tail : Option AuditRow) : Prepared :=
  let nextSeq := tail.elim 1 (·.seq + 1)
  let prevHash := tail.elim 0 (·.rowHash)
  let text := canonicalize entry.payload ++ toString nextSeq
  ⟨nextSeq, prevHash, text, digest prevHash text⟩

/-- The row that is inserted, under the number that it gets; `readBack` is what is kept of a payload. -/
def rowOf (entry : AuditEntry) (now seq : ℤ) (p : Prepared) : AuditRow where
  seq := seq
  occurredAt := now
  actorSub := entry.actorSub
  actorHandle := entry.actorHandle
  action := entry.action
  payload := readBack entry.payload
  prevHash := p.prevHash
  rowHash := p.rowHash

/-- The trigger: a row follows the tail that is there. -/
def checkChain (tail : Option AuditRow) (prevHash : Hash) : Bool := prevHash = tail.elim 0 (·.rowHash)

/-- The mirror's row for a committed one. -/
def mirrorOf (entry : AuditEntry) (now : ℤ) (p : Prepared) : AuditEntryRow where
  seq := p.nextSeq
  occurredAt := now
  actorSub := entry.actorSub
  actorHandle := entry.actorHandle
  action := entry.action
  payload := entry.payload
  prevHash := p.prevHash
  rowHash := p.rowHash

/-! ### One call after the other -/

/-- How far a call gets. -/
inductive Outcome where
  /-- It fails before its row is inserted. -/
  | refused
  /-- The insert is executed and rolled back. -/
  | rolledBack
  | committed
  deriving DecidableEq

/-- One call of `append`, and how far it gets. -/
structure Call where
  entry : AuditEntry
  now : ℤ
  outcome : Outcome
  /-- Is the row put in the mirror? -/
  mirrored : Bool

/-- A row of the table, beside the text that was hashed for it. -/
structure Appended where
  row : AuditRow
  text : String

/-- The table, its sequence and the mirror. -/
structure Log where
  /-- By number. -/
  rows : List Appended
  /-- The next number. -/
  next : ℤ
  mirror : List AuditEntryRow

/-- The table before the first call. -/
def Log.empty : Log := ⟨[], 1, []⟩

/-- The rows as they are stored. -/
def Log.table (log : Log) : List AuditRow := log.rows.map (·.row)

/-- A number is used up whatever becomes of the insert. -/
def append (log : Log) (c : Call) : Log :=
  if c.outcome = .refused then log
  else
    let p := prepare digest c.entry log.table.getLast?
    if checkChain log.table.getLast? p.prevHash = false ∨
        p.rowHash ∈ log.table.map (·.rowHash) ∨ c.outcome = .rolledBack then
      { log with next := log.next + 1 }
    else
      { rows := log.rows ++ [⟨rowOf readBack c.entry c.now log.next p, p.text⟩]
        next := log.next + 1
        mirror := if c.mirrored then log.mirror ++ [mirrorOf c.entry c.now p] else log.mirror }

/-- The log after the calls. -/
def appendAll (calls : List Call) : Log := calls.foldl (append digest readBack) .empty

end Append

/-- No two of the texts have the same hash. -/
def CollisionFree (digest : Hash → String → Hash) (ms : List (Hash × String)) : Prop :=
  ∀ m ∈ ms, ∀ m' ∈ ms, digest m.1 m.2 = digest m'.1 m'.2 → m = m'

instance (digest : Hash → String → Hash) (ms : List (Hash × String)) :
    Decidable (CollisionFree digest ms) :=
  inferInstanceAs (Decidable (∀ m ∈ ms, ∀ m' ∈ ms, _ → _))

/-- The text that a row itself gives. -/
def AuditRow.text (r : AuditRow) : String := canonicalize r.payload ++ toString r.seq

theorem text_inj {fs fs' : List (String × Value)} {m n : ℤ}
    (h : canonicalize (.obj fs) ++ toString m = canonicalize (.obj fs') ++ toString n) :
    canonicalize (.obj fs) = canonicalize (.obj fs') ∧ m = n := by
  have hobj : ∀ gs : List (String × Value), ∃ a, canonicalize (.obj gs) = a ++ String.singleton '}' :=
    fun gs => ⟨_, rfl⟩
  obtain ⟨a, ha⟩ := hobj fs
  obtain ⟨b, hb⟩ := hobj fs'
  rw [ha, hb] at h ⊢
  obtain ⟨hab, hmn⟩ := Text.after_inj (Text.not_mem_toString_int (by decide) (by decide) m)
    (Text.not_mem_toString_int (by decide) (by decide) n) h
  exact ⟨by rw [hab], Text.toString_int_inj hmn⟩

/-! ### What a call does -/

section Steps
variable {digest : Hash → String → Hash} {readBack : Value → Value} {log : Log} {c : Call}

/-- A call commits when nothing stops it. -/
def Commits (digest : Hash → String → Hash) (log : Log) (c : Call) : Prop :=
  c.outcome = .committed ∧
    (prepare digest c.entry log.table.getLast?).rowHash ∉ log.table.map (·.rowHash)

instance : Decidable (Commits digest log c) :=
  inferInstanceAs (Decidable (_ ∧ _))

theorem checkChain_prepare (entry : AuditEntry) (tail : Option AuditRow) :
    checkChain tail (prepare digest entry tail).prevHash = true := by
  simp [checkChain, prepare]

theorem append_of_commits (h : Commits digest log c) :
    append digest readBack log c =
      let p := prepare digest c.entry log.table.getLast?
      { rows := log.rows ++ [⟨rowOf readBack c.entry c.now log.next p, p.text⟩]
        next := log.next + 1
        mirror := if c.mirrored then log.mirror ++ [mirrorOf c.entry c.now p] else log.mirror } := by
  obtain ⟨hcommitted, hunique⟩ := h
  simp only [append, checkChain_prepare, hunique, hcommitted, reduceCtorEq, Bool.true_eq_false, or_self,
    if_false]

theorem append_of_not_commits (h : ¬ Commits digest log c) :
    (append digest readBack log c).rows = log.rows ∧
      (append digest readBack log c).mirror = log.mirror := by
  simp only [append, checkChain_prepare, Bool.true_eq_false, false_or]
  by_cases hrefused : c.outcome = .refused
  · rw [if_pos hrefused]
    exact ⟨rfl, rfl⟩
  · have hstopped : (prepare digest c.entry log.table.getLast?).rowHash ∈ log.table.map (·.rowHash) ∨
        c.outcome = .rolledBack := by
      by_contra hnot
      rw [not_or] at hnot
      refine h ⟨?_, hnot.1⟩
      cases hout : c.outcome with
      | refused => exact absurd hout hrefused
      | rolledBack => exact absurd hout hnot.2
      | committed => rfl
    rw [if_neg hrefused, if_pos hstopped]
    exact ⟨rfl, rfl⟩

theorem table_of_commits (h : Commits digest log c) :
    (append digest readBack log c).table = log.table ++
      [rowOf readBack c.entry c.now log.next (prepare digest c.entry log.table.getLast?)] := by
  rw [append_of_commits h]
  simp [Log.table]

/-- The rows are chained, under hashes of their own, each of the text beside it. -/
structure Chained (digest : Hash → String → Hash) (log : Log) : Prop where
  linked : Linked AuditRow.prevHash AuditRow.rowHash 0 log.table
  unique : (log.table.map (·.rowHash)).Nodup
  hashed : ∀ a ∈ log.rows, a.row.rowHash = digest a.row.prevHash a.text

theorem chained_empty : Chained digest .empty :=
  ⟨trivial, List.nodup_nil, fun _ ha => absurd ha List.not_mem_nil⟩

theorem prevHash_prepare (digest : Hash → String → Hash) (entry : AuditEntry) (l : List AuditRow) :
    (prepare digest entry l.getLast?).prevHash = tip AuditRow.rowHash 0 l := by
  unfold prepare tip
  cases l.getLast? <;> rfl

theorem Chained.step (h : Chained digest log) (c : Call) :
    Chained digest (append digest readBack log c) := by
  by_cases hc : Commits digest log c
  · refine ⟨?_, ?_, fun a ha => ?_⟩
    · rw [table_of_commits hc]
      exact linked_concat.mpr ⟨h.linked, prevHash_prepare digest c.entry log.table⟩
    · rw [table_of_commits hc, List.map_append]
      refine List.nodup_append.mpr ⟨h.unique, List.nodup_singleton _, ?_⟩
      rintro a ha b hb rfl
      obtain rfl := List.mem_singleton.mp hb
      exact hc.2 ha
    · rw [append_of_commits hc] at ha
      rcases List.mem_append.mp ha with ha | ha
      · exact h.hashed a ha
      · obtain rfl := List.mem_singleton.mp ha
        rfl
  · have hrows : (append digest readBack log c).rows = log.rows := (append_of_not_commits hc).1
    have htable : (append digest readBack log c).table = log.table := congrArg (List.map _) hrows
    exact ⟨htable ▸ h.linked, htable ▸ h.unique, fun a ha => h.hashed a (hrows ▸ ha)⟩

theorem chained_appendAll (calls : List Call) : Chained digest (appendAll digest readBack calls) := by
  unfold appendAll
  suffices hall : ∀ log, Chained digest log →
      Chained digest (calls.foldl (append digest readBack) log) from hall _ chained_empty
  intro log h
  induction calls generalizing log with
  | nil => exact h
  | cons c calls ih => exact ih _ (h.step c)

end Steps

/-! ### Two calls -/

/-- SHA-256 on the texts of these calls. -/
def sha256Of (prev : Hash) (text : String) : Hash :=
  if prev = 0 ∧ text = "\x7b\"public\":true\x7d1" then
    0x65172a1712fad7ca84f4e72aafa70d906e3e9018c2d61b04bfe54c991bc7a713
  else if prev = 0 ∧ text = "\x7b\"public\":false\x7d1" then
    0x20474923a6ceda5ac2c949021daab4527cbb8f22e2cd89e569c69a2c351e76b2
  else if prev = 0x65172a1712fad7ca84f4e72aafa70d906e3e9018c2d61b04bfe54c991bc7a713 then
    if text = "\x7b\"public\":false\x7d2" then
      0x0eede63e4656ea9bb74ec7998f0a42a029a493af18f70d58e9b3c47c9c800f51
    else if text = "\x7b\"public\":false\x7d3" then
      0x2707ea2a5d550c61fbf939004c378e04ff956bfcd7a327d1bbe5001df4dccaf2
    else 0
  else 0

def visibilityChanged (shown : Bool) : AuditEntry :=
  ⟨some "user-1", some "Owner", "share.visibility_changed", .obj [("public", .bool shown)]⟩

def committedCall (shown : Bool) : Call := ⟨visibilityChanged shown, 0, .committed, true⟩

end StarStats.Server.Audit
