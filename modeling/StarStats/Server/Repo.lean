import StarStats.Lib.Json
import StarStats.Lib.Tables
import StarStats.Core.Wire

/-! # The event store of the server

Events are unique by handle and idempotency key; an insert under a pair that is there does nothing.
An insert may also fail for a reason of its own, and then changes nothing.

`rfc3339` reads a timestamp, as `DateTime::parse_from_rfc3339` does, into an instant. -/

namespace StarStats.Server.Repo

open StarStats.Lib.Json StarStats.Lib.Tables
open StarStats.Core.Events StarStats.Core.Metadata StarStats.Core.Wire

/-- What is stored of an envelope; the id and the sequence number are the table's. -/
structure StoredEvent where
  idempotencyKey : String
  claimedHandle : String
  eventType : String
  eventTimestamp : Option ℤ
  logSource : LogSource
  sourceOffset : ℤ
  rawLine : String
  payload : Value
  metadata : Option EventMetadata

/-- Events are told apart by handle and key. -/
def StoredEvent.key (e : StoredEvent) : String × String := (e.claimedHandle, e.idempotencyKey)

/-- The table, with the constraint on its key. -/
abbrev Events := Table StoredEvent.key

/-- The text of a string value. -/
def asStr : Value → Option String
  | .str s => some s
  | _ => none

/-- An offset as a signed column. -/
def asI64 (n : ℕ) : ℤ :=
  if n % 2 ^ 64 < 2 ^ 63 then (n % 2 ^ 64 : ℕ) else (n % 2 ^ 64 : ℕ) - 2 ^ 64

/-- Without a type the event is `unknown`. -/
def extractTypeAndTs (rfc3339 : String → Option ℤ) (payload : Value) : String × Option ℤ :=
  (((payload.get "type").bind asStr).getD "unknown",
    ((payload.get "timestamp").bind asStr).bind rfc3339)

/-- The payload of an envelope: the event, or `null`. -/
def payloadOf : Option GameEvent → Value
  | some event => event.toValue
  | none => .null

/-- The row of an envelope, under the handle of its batch. -/
def fromEnvelope (rfc3339 : String → Option ℤ) (env : EventEnvelope) (claimedHandle : String) :
    StoredEvent where
  idempotencyKey := env.idempotencyKey
  claimedHandle := claimedHandle
  eventType := (extractTypeAndTs rfc3339 (payloadOf env.event)).1
  eventTimestamp := (extractTypeAndTs rfc3339 (payloadOf env.event)).2
  logSource := env.source
  sourceOffset := asI64 env.sourceOffset
  rawLine := env.rawLine
  payload := payloadOf env.event
  metadata := env.metadata

/-- Whether the row is new. -/
inductive InsertOutcome where
  | inserted
  | duplicate
  deriving DecidableEq

/-- Insert one event; `none` is an error of the store. -/
def insertEvent (fault : Bool) (db : Events) (e : StoredEvent) : Events × Option InsertOutcome :=
  if fault then (db, none)
  else if e.key ∈ db.keys then (db, some .duplicate)
  else (db.insert e, some .inserted)

theorem insertEvent_fst (db : Events) (e : StoredEvent) :
    (insertEvent false db e).1 = db.insert e := by
  by_cases h : e.key ∈ db.keys
  · simp [insertEvent, h, Table.insert_of_mem h]
  · simp [insertEvent, h]

end StarStats.Server.Repo
