import StarStats.Tray.Review

/-! # Submitted shapes

The server keeps one row for each shape and install. A batch is checked as a whole; then its rows are
written one by one, each committed by itself, and the first that fails ends the batch. A row that is there
is added to: its total grows by the count that comes in. -/

namespace StarStats.Server.ParserSubmissions

open StarStats.Lib.Text StarStats.Lib.Json StarStats.Lib.Tables
open StarStats.Core.Wire StarStats.Tray.Review

variable {υ : Type}

/-- The most submissions one batch may have. -/
def maxBatchSize : ℕ := 200

/-- The largest submission. -/
def maxPayloadBytes : ℕ := 64 * 1024

/-! ### The table -/

/-- A row of `parser_submissions`. -/
structure SubmissionRow (υ : Type) where
  shapeHash : String
  clientAnonId : String
  payloadJson : ParserSubmission υ
  totalOccurrenceCount : ℤ

/-- A client's submissions of one shape share a row. -/
def SubmissionRow.key (r : SubmissionRow υ) : String × String := (r.shapeHash, r.clientAnonId)

abbrev Submissions (υ : Type) := Table (@SubmissionRow.key υ)

/-- A count as a signed column. -/
def asI32 (n : ℕ) : ℤ :=
  if n % 2 ^ 32 < 2 ^ 31 then (n % 2 ^ 32 : ℕ) else (n % 2 ^ 32 : ℕ) - 2 ^ 32

/-- The range of the column. -/
def fitsI32 (n : ℤ) : Bool := -2 ^ 31 ≤ n && n < 2 ^ 31

/-- The row of a first submission. -/
def newRow (sub : ParserSubmission υ) : SubmissionRow υ where
  shapeHash := sub.shapeHash
  clientAnonId := sub.clientAnonId
  payloadJson := sub
  totalOccurrenceCount := asI32 sub.occurrenceCount

/-- A further one: the counts add up and the payload is the latest. -/
def touchRow (sub : ParserSubmission υ) (r : SubmissionRow υ) : SubmissionRow υ :=
  { r with totalOccurrenceCount := r.totalOccurrenceCount + asI32 sub.occurrenceCount, payloadJson := sub }

theorem key_touchRow (sub : ParserSubmission υ) (r : SubmissionRow υ) : (touchRow sub r).key = r.key := rfl

/-- The total of a shape and an install. -/
def totalOf (t : Submissions υ) (key : String × String) : Option ℤ :=
  ((t.find? key).map (·.2)).map (·.totalOccurrenceCount)

/-- The upsert of a submission; a sum out of range is an error of the statement. -/
def upsertRow (t : Submissions υ) (sub : ParserSubmission υ) : Option (Submissions υ) :=
  if fitsI32 ((totalOf t (newRow sub).key).getD 0 + asI32 sub.occurrenceCount) then
    some (t.upsert (newRow sub) (touchRow sub) (key_touchRow sub))
  else none

/-! ### The size of a submission -/

/-- A field that is left out when it is absent. -/
def optText (name : String) : Option String → List (String × Value)
  | none => []
  | some s => [(name, .str s)]

/-- An example as it is serialised. -/
def contextValue (c : ContextExample) : Value :=
  .obj [("before", .arr (c.before.map .str)), ("after", .arr (c.after.map .str))]

/-- A submission as it is written. -/
def submissionValue (sub : ParserSubmission Char) : Value :=
  .obj ([("shape_hash", .str sub.shapeHash),
      ("raw_examples", .arr (sub.rawExamples.map fun raw => .str (String.ofList raw)))] ++
    (if sub.partialStructured.isEmpty then []
      else [("partial_structured", .obj (sub.partialStructured.map fun f => (f.1, .str f.2)))]) ++
    optText "shell_tag" sub.shellTag ++ optText "suggested_event_name" sub.suggestedEventName ++
    optText "notes" sub.notes ++
    (if sub.contextExamples.isEmpty then []
      else [("context_examples", .arr (sub.contextExamples.map contextValue))]) ++
    optText "game_build" sub.gameBuild ++
    [("channel", .str sub.channel.key), ("occurrence_count", .int sub.occurrenceCount),
      ("client_anon_id", .str sub.clientAnonId)])

/-- The size that the limit is held against. -/
def payloadBytes (sub : ParserSubmission Char) : ℕ := (submissionValue sub).render.utf8ByteSize

/-! ### The handler -/

inductive Reply where
  | error (status : ℕ) (code : String)
  /-- A 202. -/
  | taken (accepted deduped : ℕ) (ids : List String)
  deriving DecidableEq

section Handler
variable (bytes : ParserSubmission υ → ℕ)

/-- What is wrong with a submission; `bytes` is its size as JSON. -/
def invalid (sub : ParserSubmission υ) : Option String :=
  if trim sub.shapeHash = "" then some "invalid_shape_hash"
  else if trim sub.clientAnonId = "" then some "invalid_client_anon_id"
  else if sub.rawExamples.isEmpty then some "missing_raw_examples"
  else if maxPayloadBytes < bytes sub then some "payload_too_large"
  else none

/-- The refusal of a batch, if it is refused. -/
def refusal (batch : List (ParserSubmission υ)) : Option Reply :=
  if batch.isEmpty then some (.error 400 "empty_batch")
  else if maxBatchSize < batch.length then some (.error 400 "batch_too_large")
  else (batch.findSome? (invalid bytes)).map (.error 400)

/-- Where the handling of a batch is. -/
inductive Progress (υ : Type) where
  | arrived
  /-- The rows to be written, and the reply as far as it is. -/
  | writing (rest : List (ParserSubmission υ)) (accepted deduped : ℕ) (ids : List String)
  | answered (reply : Reply)

/-- One turn of the handler of a batch: the checks, a row, or the answer. -/
def turn (t : Submissions υ) (batch : List (ParserSubmission υ)) (fault : Bool) :
    Progress υ → Submissions υ × Progress υ
  | .arrived =>
    match refusal bytes batch with
    | some reply => (t, .answered reply)
    | none => (t, .writing batch 0 0 [])
  | .writing [] accepted deduped ids => (t, .answered (.taken accepted deduped ids))
  | .writing (sub :: rest) accepted deduped ids =>
    match if fault then none else upsertRow t sub with
    | none => (t, .answered (.error 500 "submission_write_failed"))
    | some t' =>
      let id := ((t'.find? (newRow sub).key).map fun a => toString a.1).toList
      if (newRow sub).key ∈ t.keys then (t', .writing rest accepted (deduped + 1) (ids ++ id))
      else (t', .writing rest (accepted + 1) deduped (ids ++ id))
  | .answered reply => (t, .answered reply)

end Handler

/-! ### Totals -/

section Totals
variable {t t' : Submissions υ} {sub : ParserSubmission υ} {key : String × String}

theorem asI32_eq {n : ℕ} (h : n < 2 ^ 31) : asI32 n = n := by
  unfold asI32
  have hmod : n % 2 ^ 32 = n := Nat.mod_eq_of_lt (by omega)
  rw [hmod, if_pos h]

/-- **A row adds its count to the total of its key**, and leaves the others. -/
theorem totalOf_upsertRow (h : upsertRow t sub = some t') : totalOf t' key =
    if key = (newRow sub).key then
      some ((totalOf t key).getD 0 + asI32 sub.occurrenceCount)
    else totalOf t key := by
  unfold upsertRow at h
  split_ifs at h
  obtain rfl := Option.some.inj h
  unfold totalOf
  split_ifs with hkey
  · subst hkey
    rw [Table.map_find?_upsert_key]
    cases (t.find? (newRow sub).key).map (·.2) with
    | none => simp [newRow]
    | some r => simp [touchRow]
  · rw [Table.map_find?_upsert_of_ne hkey]

end Totals

end StarStats.Server.ParserSubmissions
