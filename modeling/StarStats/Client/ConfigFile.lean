import Mathlib.Data.Nat.Notation

/-! # The client's configuration file

The fields that the worker and the commands here read or change. The file is loaded and saved as a
whole. -/

namespace StarStats.Client.ConfigFile

/-- The section on synchronisation. -/
structure RemoteSyncConfig where
  enabled : Bool
  apiUrl : Option String
  claimedHandle : Option String
  accessToken : Option String
  intervalSecs : ℕ
  batchSize : ℕ
  deriving DecidableEq

/-- A health item the user has dismissed. -/
structure DismissedHealth where
  id : String
  fingerprint : String
  dismissedAt : String
  deriving DecidableEq

/-- What the updates read and write. -/
structure Config where
  remoteSync : RemoteSyncConfig
  dismissedHealth : List DismissedHealth
  clientAnonId : Option String
  deriving DecidableEq

/-- What `clear_persisted_device_token` changes. -/
def Config.clearDeviceToken (cfg : Config) : Config :=
  { cfg with remoteSync := { cfg.remoteSync with accessToken := none, claimedHandle := none } }

end StarStats.Client.ConfigFile
