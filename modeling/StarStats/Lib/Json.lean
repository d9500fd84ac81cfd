import Mathlib.Data.List.Basic

/-! # JSON values and their compact text

Values as a serialiser builds them: the fields of an object stand in the order in which they were
written. Integers are kept as integers; a binary floating-point number is kept as the decimal it is
printed as. -/

namespace StarStats.Lib.Json

/-- A JSON value; an object keeps the order of its fields. -/
inductive Value where
  | null
  | bool (b : Bool)
  | int (n : Int)
  | float (repr : String)
  | str (s : String)
  | arr (vs : List Value)
  | obj (fields : List (String × Value))

/-- One hexadecimal digit, lower case. -/
def hexDigit (n : Nat) : Char := if n < 10 then Char.ofNat (48 + n) else Char.ofNat (87 + n)

/-- A character inside a string literal. -/
def escapeChar (c : Char) : List Char :=
  match c with
  | '"' => ['\\', '"']
  | '\\' => ['\\', '\\']
  | '\n' => ['\\', 'n']
  | '\r' => ['\\', 'r']
  | '\t' => ['\\', 't']
  | c =>
    if c.toNat = 8 then ['\\', 'b']
    else if c.toNat = 12 then ['\\', 'f']
    else if c.toNat < 32 then ['\\', 'u', '0', '0', hexDigit (c.toNat / 16), hexDigit (c.toNat % 16)]
    else [c]

/-- A string literal. -/
def quote (s : String) : String := "\"" ++ String.ofList (s.toList.flatMap escapeChar) ++ "\""

mutual

/-- The compact text of a value. -/
def Value.render : Value → String
  | .null => "null"
  | .bool b => if b then "true" else "false"
  | .int n => toString n
  | .float r => r
  | .str s => quote s
  | .arr vs => "[" ++ renderItems vs ++ "]"
  | .obj fs => "\x7b" ++ renderFields fs ++ "\x7d"

/-- The items of an array. -/
def renderItems : List Value → String
  | [] => ""
  | [v] => v.render
  | v :: vs => v.render ++ "," ++ renderItems vs

/-- The fields of an object. -/
def renderFields : List (String × Value) → String
  | [] => ""
  | [(k, v)] => quote k ++ ":" ++ v.render
  | (k, v) :: fs => quote k ++ ":" ++ v.render ++ "," ++ renderFields fs

end

/-- The text of an object tells its last field. -/
theorem renderFields_concat_inj {k : String} {v w : Value} : ∀ {fs : List (String × Value)},
    renderFields (fs ++ [(k, v)]) = renderFields (fs ++ [(k, w)]) → v.render = w.render
  | [], h => by
    simpa only [List.nil_append, renderFields, String.append_right_inj] using h
  | [(k', v')], h => by
    refine @renderFields_concat_inj k _ _ [] ?_
    simpa only [List.cons_append, List.nil_append, renderFields, String.append_right_inj] using h
  | (k', v') :: f :: fs, h => by
    refine @renderFields_concat_inj k _ _ (f :: fs) ?_
    simpa only [List.cons_append, renderFields, String.append_right_inj] using h

/-- The field of an object under a name. -/
def Value.get (name : String) : Value → Option Value
  | .obj fields => fields.lookup name
  | _ => none

/-- The text of a string. -/
def Value.asStr : Value → Option String
  | .str s => some s
  | _ => none

/-- A value that may be absent. -/
def Value.ofOption {α : Type} (f : α → Value) : Option α → Value
  | none => .null
  | some a => f a

end StarStats.Lib.Json
