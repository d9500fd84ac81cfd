import StarStats.Core.Parser

/-! # The log of the launcher

The launcher writes a timestamp and a level in brackets, and then a message. What a message is about is
guessed from the words in it; a level or a word that says error comes before all others. -/

namespace StarStats.Core.LauncherLog

open StarStats.Lib.Text StarStats.Core.Events StarStats.Core.Crates StarStats.Core.Parser

/-- The parts of a line. -/
structure LauncherLogLine where
  timestamp : String
  level : String
  message : String
  deriving DecidableEq

/-- Timestamp, level and message. -/
def launcherRe : String := r"^\[(?P<ts>[^\]]+)\]\s*\[(?P<level>[A-Za-z]+)\]\s*(?P<msg>.*)$"

/-- Nothing for a line without the two brackets, and for one without a message. -/
def parseLauncherLine (x : Externals) (line : String) : Option LauncherLogLine := do
  let line := trimEndMatches isNewline line
  if line = "" then none
  let c ← x.captures launcherRe line
  let timestamp := trim (← nameText c "ts")
  let level ← nameText c "level"
  let message := trim (← nameText c "msg")
  if message = "" then none
  return ⟨timestamp, level, message⟩

/-- What tells an error. -/
def errorWords : List String := ["error", "failed", "failure", "exception", "err_"]

/-- What tells of logging in or out. -/
def authWords : List String :=
  ["log in", "logged in", "logging in", "log out", "logged out", "sign in", "signed in", "authenticat",
    "credential", "session refresh", "token refresh", "oauth"]

/-- What tells of a patch. -/
def patchWords : List String := ["patch", "delta", "applying update", "applying "]

/-- What tells of an installation. -/
def installWords : List String :=
  ["install", "download", "verify", "verification", "integrity", "repair", "file check"]

/-- What tells of the launcher's own update. -/
def updateWords : List String :=
  ["launcher update", "self-update", "self update", "checking for updates"]

/-- The level is in lower case, the message as it was written. -/
def classifyLauncherMessage (level message : String) : LauncherCategory :=
  let hasAny (words : List String) : Bool := words.any (contains message.toLower)
  if level = "error" || level = "fatal" || hasAny errorWords then .error
  else if hasAny authWords then .auth
  else if hasAny patchWords then .patch
  else if hasAny installWords then .install
  else if hasAny updateWords then .update
  else .info

/-- The event of a line. -/
def launcherActivity (parsed : LauncherLogLine) : LauncherActivity :=
  let level := parsed.level.toLower
  ⟨parsed.timestamp, level, parsed.message, classifyLauncherMessage level parsed.message⟩

end StarStats.Core.LauncherLog
