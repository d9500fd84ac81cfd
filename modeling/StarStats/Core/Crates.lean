import StarStats.Lib.Regex
import StarStats.Core.Events

/-! # What the program takes from outside

The code leaves some things to others: the `regex` crate finds the matches of its patterns, the
standard library reads decimals as binary64 and hashes strings, and the `uuid` crate derives an
identifier from a name. `Externals` holds them as functions, with the two facts the code relies on:
a match says truly where it lies, and two names with one identifier are equal, as collisions of SHA-1
are left out of account. The development is about every choice of them; `Externals.std` is one that
can be run, with the matcher of `Lib.Regex`, a reading of plain decimals, and names as their own
identifiers. -/

namespace StarStats.Core.Crates

open StarStats.Lib.Text (slice slice_eq)
open StarStats.Lib.Regex StarStats.Core.Events

/-- What one match has captured: the groups that took part in it, the whole match as group `0`. -/
abbrev Captures := List Slot

/-- The group of a number. -/
def getGroup (c : Captures) (i : ℕ) : Option Slot := c.find? (·.index = i)

/-- The text of a named group, if it took part. -/
def nameText (c : Captures) (name : String) : Option String :=
  (c.find? (·.name = some name)).map fun s => String.ofList s.text

/-- The text of a named group that takes part in every match. -/
def groupText (c : Captures) (name : String) : String := (nameText c name).getD ""

/-- What is called of other crates. -/
structure Externals where
  /-- The successive matches of a pattern in a text. -/
  capturesIter : String → String → List Captures
  /-- A group is the slice of the text between its two offsets. -/
  slice_group : ∀ pattern text, ∀ c ∈ capturesIter pattern text, ∀ g ∈ c,
    slice text g.start g.stop = some (String.ofList g.text)
  /-- A decimal as a binary64. -/
  parseF64 : String → Option F64
  /-- `DefaultHasher` on one string. -/
  hash : String → UInt64
  /-- `Uuid::new_v5` in the OID namespace, as text. -/
  newV5 : String → String
  newV5_injective : Function.Injective newV5

/-- The first match. -/
def Externals.captures (x : Externals) (pattern text : String) : Option Captures :=
  (x.capturesIter pattern text).head?

/-- A decimal without sign and exponent, as the shortest decimal of the same number; exact for at
most fifteen significant digits and numbers that are printed without an exponent. -/
def plainDecimal (s : String) : Option F64 :=
  let whole := s.toList.takeWhile Char.isDigit
  let frac := match s.toList.dropWhile Char.isDigit with
    | [] => some []
    | '.' :: ds => if ds.all Char.isDigit then some ds else none
    | _ => none
  match frac with
  | none => none
  | some ds =>
    if whole = [] ∧ ds = [] then none
    else
      let w := whole.dropWhile (· = '0')
      let f := (ds.reverse.dropWhile (· = '0')).reverse
      some ⟨String.ofList ((if w = [] then ['0'] else w) ++ '.' :: (if f = [] then ['0'] else f))⟩

/-- A hash that can be run, in place of the unspecified one of `DefaultHasher`. -/
def plainHash (s : String) : UInt64 := s.toList.foldl (fun h c => 31 * h + c.toNat.toUInt64) 7

theorem slice_findAll (pattern text : String) : ∀ c ∈ findAll pattern text, ∀ g ∈ c,
    slice text g.start g.stop = some (String.ofList g.text) := by
  intro c hc g hg
  obtain ⟨pre, post, ht, hs, he⟩ := findAll_sound hc g hg
  rw [hs, he, slice_eq ht]

/-- The externals that can be run. -/
def Externals.std : Externals where
  capturesIter := findAll
  slice_group := slice_findAll
  parseF64 := plainDecimal
  hash := plainHash
  newV5 := id
  newV5_injective := Function.injective_id

end StarStats.Core.Crates
