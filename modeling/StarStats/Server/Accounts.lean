import StarStats.Server.Ingest

/-! # Accounts and their handles

A handle is kept as it was written at sign-up; no two accounts have handles that differ in case
only. -/

namespace StarStats.Server.Accounts

open StarStats.Lib.Tables StarStats.Server.Ingest

/-- A handle without regard to the case of its letters. -/
def lower (s : String) : List Char := s.toList.map Char.toLower

theorem eqIgnoreAsciiCase_iff {s t : String} : eqIgnoreAsciiCase s t = true ↔ lower s = lower t := by
  simp [eqIgnoreAsciiCase, lower]

/-- What a handle may look like. -/
def validateHandle (handle : String) : Bool :=
  handle ≠ "" && handle.utf8ByteSize ≤ 64 &&
    handle.toList.all fun c => c.isAlphanum || c = '_' || c = '-'

/-- A row of `users`, as far as sharing needs it. -/
structure User where
  id : String
  claimedHandle : String
  rsiVerifiedAt : Option ℤ
  sharesPausedUntil : Option ℤ
  deriving DecidableEq

/-- A handle is taken whatever its case. -/
def User.key (u : User) : List Char := lower u.claimedHandle

abbrev Users := Table User.key

def findById (users : Users) (id : String) : Option User := users.contents.find? (·.id = id)

/-- Whatever the case of the handle. -/
def findByHandle (users : Users) (handle : String) : Option User :=
  (users.find? (lower handle)).map (·.2)

theorem findByHandle_eq_some {users : Users} {handle : String} {u : User} :
    findByHandle users handle = some u ↔ u ∈ users.contents ∧ lower u.claimedHandle = lower handle :=
  Table.map_find?_eq_some

theorem eq_of_lower_eq {users : Users} {u v : User} (hu : u ∈ users.contents)
    (hv : v ∈ users.contents) (h : lower u.claimedHandle = lower v.claimedHandle) : u = v := by
  have hfind := findByHandle_eq_some.mpr ⟨hu, rfl⟩
  rw [findByHandle_eq_some.mpr ⟨hv, h.symm⟩] at hfind
  exact (Option.some.inj hfind).symm

end StarStats.Server.Accounts
