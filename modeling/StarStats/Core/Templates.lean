import Mathlib.Data.List.Sort
import StarStats.Lib.Text
import StarStats.Core.Parser

/-! # Bursts of lines

A burst is an anchor line followed by more lines of the same kind, with up to `maxMemberGap` other
lines between two of them. `detectBursts` scans a window once for each rule; a line that an earlier
rule has taken counts as one of the others.

The scan works on cells: a line of the window, its index, and whether a burst has taken it. One scan
of a rule never looks back, so what the rule itself takes on the way makes no difference to it, and
`consumed` is brought up to date between the rules. -/

namespace StarStats.Core.Templates

open StarStats.Lib.Text StarStats.Core.Parser

/-- How one line is matched. -/
inductive StepMatch where
  | eventName (name : String)
  | bodyStartsWith (pre : String)
  | bodyContains (needle : String)
  | any
  deriving DecidableEq

/-- Does the line match, with all the tags? -/
def lineMatches (line : LogLine) (mat : StepMatch) (tags : List String) : Bool :=
  (match mat with
    | .eventName name => line.eventName = some name
    | .bodyStartsWith pre => startsWith line.body pre
    | .bodyContains needle => contains line.body needle
    | .any => true) && tags.all (· ∈ line.tags)

/-- How a burst starts, what belongs to it, and how long it must be. -/
structure BurstRule where
  id : String
  anchor : StepMatch
  member : StepMatch
  tags : List String
  minBurstSize : ℕ
  maxMemberGap : ℕ
  deriving DecidableEq

/-- A burst that was found, by the indices of its lines. -/
structure BurstHit where
  ruleId : String
  startIndex : ℕ
  endIndex : ℕ
  size : ℕ
  memberIndices : List ℕ
  deriving DecidableEq

/-- A line of the window: its index, and whether a burst has taken it. -/
structure Cell where
  idx : ℕ
  line : LogLine
  consumed : Bool
  deriving DecidableEq

/-- Is the line free and a member for the rule? -/
def Cell.isMember (rule : BurstRule) (c : Cell) : Bool :=
  !c.consumed && lineMatches c.line rule.member rule.tags

/-- Is the line free and an anchor for the rule? -/
def Cell.isAnchor (rule : BurstRule) (c : Cell) : Bool :=
  !c.consumed && lineMatches c.line rule.anchor rule.tags

/-- Walk forward from an anchor, `gap` lines after the last member: the indices of the members, and
how many lines were walked over until the gap was exceeded or the window ended. -/
def collect (rule : BurstRule) : ℕ → List Cell → List ℕ × ℕ
  | _, [] => ([], 0)
  | gap, c :: cs =>
    if c.isMember rule then
      let (members, walked) := collect rule 0 cs
      (c.idx :: members, walked + 1)
    else if rule.maxMemberGap < gap + 1 then ([], 0)
    else
      let (members, walked) := collect rule (gap + 1) cs
      (members, walked + 1)

/-- The hit of a rule on the members with these indices. -/
def BurstRule.hit (rule : BurstRule) (start : ℕ) (members : List ℕ) : BurstHit :=
  ⟨rule.id, start, (start :: members).getLast (by simp), members.length + 1, start :: members⟩

/-- One scan of a rule; `skip` lines still belong to the burst before. -/
def scanRule (rule : BurstRule) : ℕ → List Cell → List BurstHit
  | _, [] => []
  | skip + 1, _ :: cs => scanRule rule skip cs
  | 0, c :: cs =>
    if c.isAnchor rule then
      let (members, walked) := collect rule 0 cs
      if rule.minBurstSize ≤ members.length + 1 then
        rule.hit c.idx members :: scanRule rule walked cs
      else scanRule rule 0 cs
    else scanRule rule 0 cs

/-- Mark the lines with these indices as taken. -/
def markConsumed (taken : List ℕ) (cells : List Cell) : List Cell :=
  cells.map fun c => { c with consumed := c.consumed || decide (c.idx ∈ taken) }

/-- One scan for each rule, in order. -/
def sweep : List BurstRule → List Cell → List BurstHit
  | [], _ => []
  | rule :: rules, cells =>
    let hits := scanRule rule 0 cells
    hits ++ sweep rules (markConsumed (hits.flatMap (·.memberIndices)) cells)

/-- The cells of a window, none of them taken. -/
def cellsOf (window : List LogLine) : List Cell :=
  window.zipIdx.map fun (line, i) => ⟨i, line, false⟩

/-- The bursts of a window, by the index at which they start. -/
def detectBursts (window : List LogLine) (rules : List BurstRule) : List BurstHit :=
  (sweep rules (cellsOf window)).insertionSort fun a b => a.startIndex ≤ b.startIndex

end StarStats.Core.Templates
