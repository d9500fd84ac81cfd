import StarStats.Lib.Tables
import StarStats.Lib.Text

/-! # What an account logs in with

The columns of `users` that the routes for the address, the password and the second factor read and
write, and the statements they do it with. Each statement but that on the address works on the one row of
an account, whatever has become of it since it was read. -/

namespace StarStats.Server.Credentials

open StarStats.Lib.Tables

/-- A row of `users`, as far as it bears on logging in. -/
structure Account where
  id : String
  email : String
  emailVerifiedAt : Option ℤ
  passwordHash : String
  passwordChangedAt : ℤ
  pendingEmail : Option String
  pendingEmailToken : Option String
  pendingEmailExpiresAt : Option ℤ
  passwordResetToken : Option String
  passwordResetExpiresAt : Option ℤ
  totpSecretCiphertext : Option String
  totpSecretNonce : Option String
  totpSetupAt : Option ℤ
  totpEnabledAt : Option ℤ
  deriving DecidableEq

abbrev Accounts := Table Account.id

/-- How letters are made small: by the server, and by the database, which leaves alone what the server has
made small. -/
structure Casing where
  toLowercase : String → String
  lower : String → String
  lower_toLowercase : ∀ s, lower (toLowercase s) = toLowercase s

/-- The casing of ASCII letters. -/
def asciiCasing : Casing where
  toLowercase s := String.ofList (s.toList.map Char.toLower)
  lower s := String.ofList (s.toList.map Char.toLower)
  lower_toLowercase s := by
    have htwice : ∀ c : Char, c.toLower.toLower = c.toLower := by
      intro c
      unfold Char.toLower
      grind
    rw [String.toList_ofList, List.map_map]
    exact congrArg _ (List.map_congr_left fun c _ => htwice c)

namespace Accounts

def findById (accounts : Accounts) (userId : String) : Option Account :=
  (accounts.find? userId).map (·.2)

/-- Whatever the case of the address. -/
def findByEmail (c : Casing) (accounts : Accounts) (email : String) : Option Account :=
  accounts.contents.find? fun a => c.lower a.email = c.lower email

/-- Write columns of one row. -/
def set (accounts : Accounts) (userId : String) (f : Account → Account)
    (hf : ∀ a, (f a).id = a.id) : Accounts :=
  accounts.updateKey userId f hf

/-! ### Email change -/

/-- A new request takes the place of the one before. -/
def setPendingEmail (c : Casing) (accounts : Accounts) (userId newEmail token : String)
    (expiresAt : ℤ) : Accounts :=
  accounts.set userId (fun a => { a with
    pendingEmail := some (c.lower newEmail)
    pendingEmailToken := some token
    pendingEmailExpiresAt := some expiresAt }) fun _ => rfl

/-- Whose change a token confirms. -/
def findByPendingEmailToken (accounts : Accounts) (token : String) : Option Account :=
  accounts.contents.find? (·.pendingEmailToken = some token)

/-- What is pending becomes the address, unless nothing is. -/
def promotePending (now : ℤ) (a : Account) : Account :=
  match a.pendingEmail with
  | none => a
  | some email => { a with
      email := email
      emailVerifiedAt := some now
      pendingEmail := none
      pendingEmailToken := none
      pendingEmailExpiresAt := none }

theorem id_promotePending (now : ℤ) (a : Account) : (promotePending now a).id = a.id := by
  unfold promotePending
  split <;> rfl

/-- The unique index on the address stands in the way. -/
def emailTaken (c : Casing) (accounts : Accounts) (userId : String) : Bool :=
  match (accounts.findById userId).bind (·.pendingEmail) with
  | none => false
  | some email => accounts.contents.any fun a => a.id ≠ userId && c.lower a.email = c.lower email

/-- `none` where another account has the address. -/
def commitPendingEmail (c : Casing) (accounts : Accounts) (userId : String) (now : ℤ) :
    Option Accounts :=
  if accounts.emailTaken c userId then none
  else some (accounts.set userId (promotePending now) (id_promotePending now))

/-! ### Password reset -/

/-- A new token takes the place of the one before. -/
def setPasswordResetToken (accounts : Accounts) (userId token : String) (expiresAt : ℤ) : Accounts :=
  accounts.set userId (fun a => { a with
    passwordResetToken := some token
    passwordResetExpiresAt := some expiresAt }) fun _ => rfl

/-- Whose reset a token is for. -/
def findByPasswordResetToken (accounts : Accounts) (token : String) : Option Account :=
  accounts.contents.find? (·.passwordResetToken = some token)

/-- The token is used up with the write. -/
def completePasswordReset (accounts : Accounts) (userId newPhc : String) (now : ℤ) : Accounts :=
  accounts.set userId (fun a => { a with
    passwordHash := newPhc
    passwordChangedAt := now
    passwordResetToken := none
    passwordResetExpiresAt := none }) fun _ => rfl

/-! ### Second factor -/

/-- A new secret; whether the second factor is on stays as it was. -/
def startTotpSetup (accounts : Accounts) (userId ciphertext nonce : String) (now : ℤ) : Accounts :=
  accounts.set userId (fun a => { a with
    totpSecretCiphertext := some ciphertext
    totpSecretNonce := some nonce
    totpSetupAt := some now }) fun _ => rfl

/-- Both parts, or none. -/
def getTotpSecret (accounts : Accounts) (userId : String) : Option (String × String) :=
  match accounts.findById userId with
  | none => none
  | some a =>
    match a.totpSecretCiphertext, a.totpSecretNonce with
    | some ciphertext, some nonce => some (ciphertext, nonce)
    | _, _ => none

/-- The second factor is on. -/
def markTotpEnabled (accounts : Accounts) (userId : String) (now : ℤ) : Accounts :=
  accounts.set userId (fun a => { a with totpEnabledAt := some now }) fun _ => rfl

/-- The secret goes with it. -/
def disableTotp (accounts : Accounts) (userId : String) : Accounts :=
  accounts.set userId (fun a => { a with
    totpSecretCiphertext := none
    totpSecretNonce := none
    totpSetupAt := none
    totpEnabledAt := none }) fun _ => rfl

/-! ### What the statements do to a row -/

variable {accounts : Accounts} {userId u token : String} {a : Account} {f : Account → Account}
  {hf : ∀ a, (f a).id = a.id}

theorem findById_eq_some : accounts.findById u = some a ↔ a ∈ accounts.contents ∧ a.id = u :=
  Table.map_find?_eq_some

theorem findById_set : (accounts.set userId f hf).findById u =
    if u = userId then (accounts.findById u).map f else accounts.findById u :=
  Table.map_find?_updateKey

theorem mem_contents_set (h : a ∈ (accounts.set userId f hf).contents) :
    a ∈ accounts.contents ∨ ∃ b ∈ accounts.contents, b.id = userId ∧ a = f b := by
  unfold set at h
  rw [Table.contents_updateKey] at h
  obtain ⟨b, hb, rfl⟩ := List.mem_map.mp h
  split_ifs with hid
  · exact Or.inr ⟨b, hb, hid, rfl⟩
  · exact Or.inl hb

theorem findByPendingEmailToken_some (h : accounts.findByPendingEmailToken token = some a) :
    accounts.findById a.id = some a ∧ a.pendingEmailToken = some token := by
  have htoken : a.pendingEmailToken = some token := by simpa using List.find?_some h
  exact ⟨findById_eq_some.mpr ⟨List.mem_of_find?_eq_some h, rfl⟩, htoken⟩

theorem findByPasswordResetToken_some (h : accounts.findByPasswordResetToken token = some a) :
    accounts.findById a.id = some a ∧ a.passwordResetToken = some token := by
  have htoken : a.passwordResetToken = some token := by simpa using List.find?_some h
  exact ⟨findById_eq_some.mpr ⟨List.mem_of_find?_eq_some h, rfl⟩, htoken⟩

end Accounts

end StarStats.Server.Credentials
