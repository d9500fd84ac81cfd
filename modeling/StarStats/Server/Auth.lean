import Mathlib.Data.Nat.Notation

/-! # Who sends a request

What the extractor gives a handler of the token it has verified. -/

namespace StarStats.Server.Auth

/-- The three kinds of token the server mints. -/
inductive TokenType where
  | user
  | device
  /-- Half a login: the password was right, the second factor is still due. -/
  | loginInterim
  deriving DecidableEq

/-- The claims of a token that was accepted. -/
structure AuthenticatedUser where
  sub : String
  preferredUsername : String
  tokenType : TokenType
  deviceId : Option String
  deriving DecidableEq

end StarStats.Server.Auth
