import StarStats.Core.Metadata

/-! # Wire format

What crosses the network between the client and the server. -/

namespace StarStats.Core.Wire

open StarStats.Core.Events StarStats.Core.Metadata

/-- Which of the game's channels a log is of. -/
inductive LogSource where
  | live
  | ptu
  | eptu
  | hotfix
  | tech
  | other
  deriving DecidableEq

/-- The text of a source in JSON and in the columns of both stores. -/
def LogSource.key : LogSource → String
  | live => "live"
  | ptu => "ptu"
  | eptu => "eptu"
  | hotfix => "hotfix"
  | tech => "tech"
  | other => "other"

/-- One event with what the server needs to deduplicate it. -/
structure EventEnvelope where
  idempotencyKey : String
  rawLine : String
  event : Option GameEvent
  source : LogSource
  sourceOffset : ℕ
  metadata : Option EventMetadata
  deriving DecidableEq

/-- One batch from a client. -/
structure IngestBatch where
  schemaVersion : ℕ
  batchId : String
  gameBuild : Option String
  claimedHandle : String
  events : List EventEnvelope
  deriving DecidableEq

/-- `CURRENT_SCHEMA_VERSION` -/
def currentSchemaVersion : ℕ := 2

end StarStats.Core.Wire
