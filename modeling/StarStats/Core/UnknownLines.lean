import Mathlib.Data.List.Sort
import StarStats.Core.Wire
import StarStats.Core.Parser

/-! # Unknown lines

A line no rule knows is captured for review: its shape, in which identifiers are replaced by
placeholders, its hash, a score, and the tokens in it that may be sensitive, with their byte offsets.

`Sensitive` says what a token claims of the line it belongs to. Every token that `detectPii` gives is
sensitive in the line it was given (`sensitive_of_mem_detectPii`). -/

namespace StarStats.Core.UnknownLines

open StarStats.Lib.Text StarStats.Lib.Json StarStats.Lib.Regex
open StarStats.Core.Crates StarStats.Core.Wire

/-- What makes a token sensitive. -/
inductive PiiKind where
  | ownHandle
  | friendHandle
  | shardId
  | geid
  | ipPort
  deriving DecidableEq

/-- A sensitive token of a line, from byte `start` up to byte `stop`. -/
structure PiiToken where
  kind : PiiKind
  start : ℕ
  stop : ℕ
  suggestedRedaction : String
  defaultRedact : Bool
  deriving DecidableEq

/-- A captured line. -/
structure UnknownLine where
  id : String
  rawLine : String
  timestamp : Option String
  shellTag : Option String
  partialStructured : List (String × String)
  contextBefore : List String
  contextAfter : List String
  gameBuild : Option String
  channel : LogSource
  interestScore : ℕ
  shapeHash : String
  occurrenceCount : ℕ
  firstSeen : String
  lastSeen : String
  detectedPii : List PiiToken
  dismissed : Bool
  deriving DecidableEq

/-! ### Shape -/

/-- A timestamp. -/
def tsRe : String := r"\d{4}-\d{2}-\d{2}T\d{2}:\d{2}:\d{2}(?:\.\d+)?Z?"

/-- An identifier in five groups. -/
def uuidRe : String := r"[0-9a-fA-F]{8}-[0-9a-fA-F]{4}-[0-9a-fA-F]{4}-[0-9a-fA-F]{4}-[0-9a-fA-F]{12}"

/-- A number in brackets. -/
def geidRe : String := r"\[\d{5,}\]"

/-- An address, with or without a port. -/
def ipPortRe : String := r"\b\d{1,3}\.\d{1,3}\.\d{1,3}\.\d{1,3}(?::\d{1,5})?\b"

/-- A quoted text that is not empty. -/
def quotedRe : String := r#""[^"]+""#

/-- A shard's name after the word. -/
def shardRe : String := r"shard[\[\s=:]+([A-Za-z0-9_-]+)"

/-- The whole matches of a pattern, as `find_iter` gives them. -/
def findIter (x : Externals) (pattern text : String) : List Slot :=
  (x.capturesIter pattern text).filterMap (getGroup · 0)

/-- The text with other text in place of each match; `last` is where the match before ended. -/
def replaceFrom (text replacement : String) : ℕ → List Slot → String
  | last, [] => (slice text last (len text)).getD ""
  | last, m :: ms =>
    (slice text last m.start).getD "" ++ replacement ++ replaceFrom text replacement m.stop ms

/-- Every match gives way to the placeholder. -/
def replaceAll (x : Externals) (pattern text replacement : String) : String :=
  replaceFrom text replacement 0 (findIter x pattern text)

/-- The line with its identifiers replaced by placeholders. -/
def shapeOf (x : Externals) (line : String) : String :=
  let s := replaceAll x tsRe line "<TS>"
  let s := replaceAll x uuidRe s "<UUID>"
  let s := replaceAll x geidRe s "[<GEID>]"
  let s := replaceAll x ipPortRe s "<IPPORT>"
  replaceAll x quotedRe s "\"<STR>\""

/-- Sixteen hexadecimal digits. -/
def hex16 (n : UInt64) : String :=
  String.ofList ((List.range 16).reverse.map fun i => hexDigit (n.toNat / 16 ^ i % 16))

/-- Lines of one shape share it. -/
def shapeHash (x : Externals) (line : String) : String := "sh_" ++ hex16 (x.hash (shapeOf x line))

/-! ### Score -/

/-- What the score depends on besides the line. -/
structure InterestContext where
  knownShellTags : List String
  knownRuleTags : List String
  sessionOccurrenceCount : ℕ
  multiSession : Bool
  alreadyRemoteMatched : Bool

/-- How likely a line carries a useful event, from 0 to 100. -/
def interestScore (line : String) (shellTag : Option String) (ctx : InterestContext) : ℕ :=
  if ctx.alreadyRemoteMatched then 0
  else
    let tag : ℤ := match shellTag with
      | some t => if t ∉ ctx.knownShellTags then 40 else if t ∉ ctx.knownRuleTags then 30 else 0
      | none => 0
    let cluster : ℤ := if contains line "[" && 5 ≤ line.toList.countP Char.isDigit then 15 else 0
    let keyword : ℤ :=
      if contains line "OOC_" || contains line "body_" || contains line "_class" then 10 else 0
    let session : ℤ := if 3 ≤ ctx.sessionOccurrenceCount then 10 else 0
    let multi : ℤ := if ctx.multiSession then 20 else 0
    let length : ℤ := if 20 ≤ len line ∧ len line ≤ 2000 then 0 else -30
    (min 100 (max 0 (tag + cluster + keyword + session + multi + length))).toNat

/-! ### Sensitive tokens -/

/-- The tokens of one kind at some offsets. -/
def handleTokens (kind : PiiKind) (redaction : String) (default : Bool) (line handle : String) :
    List PiiToken :=
  if handle = "" then []
  else (matchIndices line handle).map fun i => ⟨kind, i, i + len handle, redaction, default⟩

/-- The tokens of one kind at some groups. -/
def slotTokens (kind : PiiKind) (redaction : String) (default : Bool) (slots : List Slot) :
    List PiiToken :=
  slots.map fun m => ⟨kind, m.start, m.stop, redaction, default⟩

/-- The sensitive tokens of a line, by the offset at which they start. -/
def detectPii (x : Externals) (line ownHandle : String) (knownFriends : List String) :
    List PiiToken :=
  (handleTokens .ownHandle "[HANDLE]" true line ownHandle ++
    knownFriends.flatMap (handleTokens .friendHandle "[FRIEND]" false line) ++
    slotTokens .geid "[GEID]" false (findIter x geidRe line) ++
    slotTokens .ipPort "[IPPORT]" false (findIter x ipPortRe line) ++
    slotTokens .shardId "[SHARD]" true
      ((x.capturesIter shardRe line).filterMap (getGroup · 1))).insertionSort
    fun a b => a.start ≤ b.start

/-! ### Capture -/

/-- What is known where the line was read. -/
structure CaptureContext where
  ownHandle : String
  knownFriends : List String
  knownShellTags : List String
  knownRuleTags : List String
  sessionOccurrenceCount : ℕ
  multiSession : Bool
  alreadyRemoteMatched : Bool
  gameBuild : Option String
  channel : LogSource
  contextBefore : List String

/-- The context with nothing known. -/
def CaptureContext.default : CaptureContext where
  ownHandle := ""
  knownFriends := []
  knownShellTags := []
  knownRuleTags := []
  sessionOccurrenceCount := 0
  multiSession := false
  alreadyRemoteMatched := false
  gameBuild := none
  channel := .other
  contextBefore := []

/-- What of it the score looks at. -/
def CaptureContext.interest (ctx : CaptureContext) : InterestContext :=
  ⟨ctx.knownShellTags, ctx.knownRuleTags, ctx.sessionOccurrenceCount, ctx.multiSession,
    ctx.alreadyRemoteMatched⟩

/-- The first timestamp in the line. -/
def extractTimestamp (x : Externals) (line : String) : Option String :=
  (findIter x tsRe line).head?.map fun m => String.ofList m.text

/-- The record of an unknown line; `id` is a fresh UUID. -/
def capture (x : Externals) (id line : String) (shellTag : Option String) (ctx : CaptureContext)
    (now : String) : UnknownLine where
  id := id
  rawLine := line
  timestamp := extractTimestamp x line
  shellTag := shellTag
  partialStructured := []
  contextBefore := ctx.contextBefore
  contextAfter := []
  gameBuild := ctx.gameBuild
  channel := ctx.channel
  interestScore := interestScore line shellTag ctx.interest
  shapeHash := shapeHash x line
  occurrenceCount := 1
  firstSeen := now
  lastSeen := now
  detectedPii := detectPii x line ctx.ownHandle ctx.knownFriends
  dismissed := false

/-! ### What a token says -/

/-- The token lies in the line, and what stands there is sensitive, of the kind it says: the own
handle, the handle of a friend, or what the pattern of the kind matches in the line. -/
def Sensitive (x : Externals) (line ownHandle : String) (knownFriends : List String)
    (t : PiiToken) : Prop :=
  ∃ text, slice line t.start t.stop = some text ∧
    match t.kind with
    | .ownHandle => text = ownHandle ∧ text ≠ ""
    | .friendHandle => text ∈ knownFriends ∧ text ≠ ""
    | .geid => ∃ m ∈ findIter x geidRe line, m.start = t.start ∧ m.stop = t.stop
    | .ipPort => ∃ m ∈ findIter x ipPortRe line, m.start = t.start ∧ m.stop = t.stop
    | .shardId => ∃ c ∈ x.capturesIter shardRe line, ∃ m, getGroup c 1 = some m ∧
        m.start = t.start ∧ m.stop = t.stop

section Sensitive
variable {x : Externals} {line own : String} {friends : List String} {t : PiiToken}

theorem slice_of_getGroup {pattern : String} {c : Captures} {i : ℕ} {m : Slot}
    (hc : c ∈ x.capturesIter pattern line) (hm : getGroup c i = some m) :
    slice line m.start m.stop = some (String.ofList m.text) :=
  x.slice_group pattern line c hc m (List.mem_of_find?_eq_some hm)

theorem mem_findIter {pattern : String} {m : Slot} : m ∈ findIter x pattern line ↔
    ∃ c ∈ x.capturesIter pattern line, getGroup c 0 = some m := List.mem_filterMap

theorem mem_handleTokens {kind : PiiKind} {redaction : String} {default : Bool} {handle : String} :
    t ∈ handleTokens kind redaction default line handle ↔ handle ≠ "" ∧
      ∃ i ∈ matchIndices line handle, PiiToken.mk kind i (i + len handle) redaction default = t := by
  unfold handleTokens
  by_cases h : handle = "" <;> simp [h]

/-- **Every token lies in its line, and says the truth about it.** -/
theorem sensitive_of_mem_detectPii (h : t ∈ detectPii x line own friends) :
    Sensitive x line own friends t := by
  rw [detectPii, List.mem_insertionSort] at h
  simp only [List.mem_append, List.mem_flatMap, slotTokens, List.mem_map] at h
  rcases h with (((h | ⟨f, hf, h⟩) | ⟨m, hm, rfl⟩) | ⟨m, hm, rfl⟩) | ⟨m, hm, rfl⟩
  · obtain ⟨hne, i, hi, rfl⟩ := mem_handleTokens.mp h
    exact ⟨own, slice_matchIndices hi, rfl, hne⟩
  · obtain ⟨hne, i, hi, rfl⟩ := mem_handleTokens.mp h
    exact ⟨f, slice_matchIndices hi, hf, hne⟩
  · obtain ⟨c, hc, hg⟩ := mem_findIter.mp hm
    exact ⟨_, slice_of_getGroup hc hg, m, hm, rfl, rfl⟩
  · obtain ⟨c, hc, hg⟩ := mem_findIter.mp hm
    exact ⟨_, slice_of_getGroup hc hg, m, hm, rfl, rfl⟩
  · obtain ⟨c, hc, hg⟩ := List.mem_filterMap.mp hm
    exact ⟨_, slice_of_getGroup hc hg, c, hc, m, hg, rfl, rfl⟩

end Sensitive

end StarStats.Core.UnknownLines
