import Mathlib.Data.List.GetD
import StarStats.Lib.Spans
import StarStats.Client.UnknownCache

/-! # The review of unknown lines

The review pane shows a row of the cache with a toggle for each sensitive token, and submits the line
with the tokens cut out whose toggle is on. The offsets of a token are bytes; the pane cuts units of
UTF-16. The lines around go along as they are.

What is submitted is a text whose units come from the line or from what is put in (`submission_map`).
With the toggles as they are at first, it is the line with exactly the marked tokens replaced, and the
lines around have none of them, in the cases `noLeak_iff` gives, and only there. -/

namespace StarStats.Tray.Review

open StarStats.Lib.Text StarStats.Lib.Spans StarStats.Lib.Regex
open StarStats.Core.Crates StarStats.Core.Wire StarStats.Core.UnknownLines
open StarStats.Client.UnknownCache

/-! ### Text in the browser -/

/-- A character as units of UTF-16. -/
def utf16 (c : Char) : List UInt16 :=
  if c.toNat < 0x10000 then [c.toNat.toUInt16]
  else
    let n := c.toNat - 0x10000
    [(0xD800 + n / 0x400).toUInt16, (0xDC00 + n % 0x400).toUInt16]

/-- A text in the units of the page. -/
def units (s : String) : List UInt16 := s.toList.flatMap utf16

/-! ### Redaction -/

/-- `${kind}@${start}`. -/
def tokenKey (t : PiiToken) : PiiKind × ℕ := (t.kind, t.start)

/-- The toggles as they are at first: of two tokens with one key, the last. -/
def defaultRedactions (tokens : List PiiToken) (key : PiiKind × ℕ) : Bool :=
  ((tokens.filter fun t => tokenKey t = key).getLast?.map (·.defaultRedact)).getD false

/-- The text with the tokens cut out whose toggle is on, from right to left. -/
def applyRedactions {υ : Type} (suggested : PiiToken → List υ) (raw : List υ)
    (tokens : List PiiToken) (redactions : PiiKind × ℕ → Bool) : List υ :=
  (tokens.insertionSort fun a b => b.start ≤ a.start).foldl (fun result t =>
    if redactions (tokenKey t) then result.take t.start ++ suggested t ++ result.drop t.stop
    else result) raw

/-! ### Submission -/

/-- What the pane hands over; `rawExample` is the redacted text. -/
structure SubmitPayload (υ : Type) where
  shapeHash : String
  rawExample : List υ
  suggestedEventName : Option String
  notes : Option String
  redactions : PiiKind × ℕ → Bool

/-- The lines around an example. -/
structure ContextExample where
  before : List String
  after : List String

/-- What is submitted of a shape. -/
structure ParserSubmission (υ : Type) where
  shapeHash : String
  rawExamples : List (List υ)
  partialStructured : List (String × String)
  shellTag : Option String
  suggestedEventName : Option String
  notes : Option String
  contextExamples : List ContextExample
  gameBuild : Option String
  channel : LogSource
  occurrenceCount : ℕ
  clientAnonId : String

section
variable {υ : Type} (suggested : PiiToken → List υ) (text : String → List υ)

/-- The submit button of a row. -/
def submit (row : UnknownLine) (redactions : PiiKind × ℕ → Bool) (suggestedName notes : String) :
    SubmitPayload υ where
  shapeHash := row.shapeHash
  rawExample := applyRedactions suggested (text row.rawLine) row.detectedPii redactions
  suggestedEventName := if suggestedName = "" then none else some suggestedName
  notes := if notes = "" then none else some notes
  redactions := redactions

/-- What goes to the client for a payload: the row it came from is looked up again. -/
def onSubmit (rows : List UnknownLine) (payload : SubmitPayload υ) : Option (ParserSubmission υ) :=
  (rows.find? fun r => r.shapeHash = payload.shapeHash).map fun row =>
    { shapeHash := payload.shapeHash
      rawExamples := [payload.rawExample]
      partialStructured := row.partialStructured
      shellTag := row.shellTag
      suggestedEventName := payload.suggestedEventName
      notes := payload.notes
      contextExamples := [⟨row.contextBefore, row.contextAfter⟩]
      gameBuild := row.gameBuild
      channel := row.channel
      occurrenceCount := row.occurrenceCount
      clientAnonId := "" }

/-- A captured line is submitted with the toggles as they are at first. -/
def submission (x : Externals) (c : Captured) (suggestedName notes : String) :
    Option (ParserSubmission υ) :=
  let row := c.record x
  onSubmit [row] (submit suggested text row (defaultRedactions row.detectedPii) suggestedName notes)

end

/-- The same submission in other units. -/
def ParserSubmission.map {υ υ' : Type} (f : υ → υ') (s : ParserSubmission υ) : ParserSubmission υ' :=
  { s with rawExamples := s.rawExamples.map (List.map f) }

/-- The lines around, of all examples. -/
def ParserSubmission.contextTexts {υ : Type} (s : ParserSubmission υ) : List String :=
  s.contextExamples.flatMap fun e => e.before ++ e.after

/-- What goes to the client. -/
def submitted (x : Externals) (c : Captured) (suggestedName notes : String) :
    Option (ParserSubmission UInt16) :=
  submission (fun t => units t.suggestedRedaction) units x c suggestedName notes

/-! ### Where the units come from -/

theorem length_utf16_pos (c : Char) : 0 < (utf16 c).length := by
  unfold utf16
  split_ifs <;> simp

theorem length_utf16_le (c : Char) : (utf16 c).length ≤ c.utf8Size := by
  have hpos := c.utf8Size_pos
  unfold utf16
  split_ifs with h
  · exact hpos
  · have hbig : ¬ c.val ≤ 0xFFFF := fun hle => h (Nat.lt_succ_of_le (UInt32.le_iff_toNat_le.mp hle))
    have hsize : c.utf8Size = 4 := by
      have h₁ : ¬ c.val ≤ 0x7F := fun hle => hbig (UInt32.le_trans hle (by decide))
      have h₂ : ¬ c.val ≤ 0x7FF := fun hle => hbig (UInt32.le_trans hle (by decide))
      change (if c.val ≤ 0x7F then 1 else if c.val ≤ 0x7FF then 2 else if c.val ≤ 0xFFFF then 3 else 4) = 4
      rw [if_neg h₁, if_neg h₂, if_neg hbig]
    rw [hsize]
    simp

/-- Bytes and units of UTF-16. -/
def layout : Layout Char PiiToken where
  wide := Char.utf8Size
  narrow c := (utf16 c).length
  narrow_pos := length_utf16_pos
  narrow_le := length_utf16_le
  start := PiiToken.start
  stop := PiiToken.stop
  size t := (units t.suggestedRedaction).length

/-- The unit a piece stands for. -/
def unitOf (line : String) : Piece PiiToken → UInt16
  | .kept i => (units line).getD i 0
  | .inserted t j => (units t.suggestedRedaction).getD j 0

/-- What goes to the client, each unit with where it comes from. -/
def traced (x : Externals) (c : Captured) (suggestedName notes : String) :
    Option (ParserSubmission (Piece PiiToken)) :=
  submission layout.placeholder (fun s => keptFrom 0 (layout.narrowOf s.toList)) x c suggestedName notes

/-! ### Statement -/

/-- The tokens of the line that are redacted at first, by the offset at which they start. -/
def marked (x : Externals) (c : Captured) : List PiiToken :=
  (((c.tokens x).insertionSort fun a b => b.start ≤ a.start).filter (·.defaultRedact)).reverse

/-- Neither the own handle nor what a marked token stands for is in the text. -/
def Clean (x : Externals) (c : Captured) (text : String) : Prop :=
  (c.ctx.ownHandle ≠ "" → contains text c.ctx.ownHandle = false) ∧
    ∀ t ∈ marked x c, ∀ s, slice c.line t.start t.stop = some s → contains text s = false

/-- **Nothing leaks**: the sample is the line with exactly the marked tokens replaced, and the lines
around are clean. -/
def NoLeak (x : Externals) (c : Captured) (sub : ParserSubmission (Piece PiiToken)) : Prop :=
  sub.rawExamples = [layout.replaced (marked x c) 0 0 c.line.toList] ∧
    ∀ text ∈ sub.contextTexts, Clean x c text

/-- The line is a row of characters and marked tokens, and wherever a character that stays meets one of
these, what is before has as many bytes as units of UTF-16. -/
def BytesAreUnits (x : Externals) (c : Captured) : Prop :=
  ∃ items, chars items = c.line.toList ∧ spans items = marked x c ∧ layout.Fits 0 items ∧
    layout.Aligned items

/-- Successive matches do not overlap, and there is a shard id in each. -/
def ShardsApart (x : Externals) (line : String) : Prop :=
  let slots := (x.capturesIter shardRe line).filterMap (getGroup · 1)
  (∀ m ∈ slots, m.start < m.stop) ∧ slots.Pairwise fun m m' => m.stop ≤ m'.start

/-! ### What is submitted, unit by unit -/

theorem map_applyRedactions {υ υ' : Type} (f : υ → υ') (suggested : PiiToken → List υ) (raw : List υ)
    (tokens : List PiiToken) (redactions : PiiKind × ℕ → Bool) :
    (applyRedactions suggested raw tokens redactions).map f =
      applyRedactions (fun t => (suggested t).map f) (raw.map f) tokens redactions := by
  unfold applyRedactions
  induction tokens.insertionSort (fun a b => b.start ≤ a.start) generalizing raw with
  | nil => rfl
  | cons t ts ih =>
    rw [List.foldl_cons, List.foldl_cons, ih]
    congr 1
    split_ifs
    · simp [List.map_take, List.map_drop]
    · rfl

theorem map_getD_range {β : Type} (l : List β) (d : β) :
    (List.range l.length).map (fun i => l.getD i d) = l := by
  refine List.ext_getElem (by simp) fun i h₁ h₂ => ?_
  rw [List.getElem_map, List.getElem_range]
  exact List.getD_eq_getElem _ _ h₂

theorem map_unitOf_placeholder (line : String) (t : PiiToken) :
    (layout.placeholder t).map (unitOf line) = units t.suggestedRedaction := by
  unfold Layout.placeholder
  rw [List.map_map]
  exact map_getD_range _ 0

theorem length_units (s : String) : (units s).length = layout.narrowOf s.toList := by
  unfold units
  rw [List.length_flatMap]
  rfl

theorem map_unitOf_keptFrom (line : String) :
    (keptFrom 0 (layout.narrowOf line.toList)).map (unitOf line) = units line := by
  unfold keptFrom
  rw [List.map_map, ← List.range_eq_range', ← length_units]
  exact map_getD_range _ 0

/-- **What is submitted is what the trace says.** -/
theorem submission_map (x : Externals) (c : Captured) (suggestedName notes : String) :
    submitted x c suggestedName notes =
      (traced x c suggestedName notes).map (ParserSubmission.map (unitOf c.line)) := by
  have hraw : applyRedactions (fun t => units t.suggestedRedaction) (units c.line)
      (c.record x).detectedPii (defaultRedactions (c.record x).detectedPii) =
        (applyRedactions layout.placeholder (keptFrom 0 (layout.narrowOf c.line.toList))
          (c.record x).detectedPii (defaultRedactions (c.record x).detectedPii)).map
            (unitOf c.line) := by
    rw [map_applyRedactions, map_unitOf_keptFrom]
    congr 1
    funext t
    exact (map_unitOf_placeholder c.line t).symm
  have hline : (c.record x).rawLine = c.line := rfl
  simp only [submitted, traced, submission, onSubmit, submit, hline, hraw]
  simp [ParserSubmission.map]

/-! ### The marked tokens -/

section Marked
variable {x : Externals} {c : Captured}

/-- Whether a token is redacted at first depends on its kind only. -/
theorem defaultRedact_of_mem {t : PiiToken} (h : t ∈ c.tokens x) :
    t.defaultRedact = decide (t.kind = .ownHandle ∨ t.kind = .shardId) ∧
      t.suggestedRedaction ≠ "" := by
  rw [Captured.tokens, detectPii, List.mem_insertionSort] at h
  simp only [List.mem_append, List.mem_flatMap, slotTokens, List.mem_map] at h
  rcases h with (((h | ⟨f, hf, h⟩) | ⟨m, hm, rfl⟩) | ⟨m, hm, rfl⟩) | ⟨m, hm, rfl⟩
  · obtain ⟨hne, i, hi, rfl⟩ := mem_handleTokens.mp h
    simp
  · obtain ⟨hne, i, hi, rfl⟩ := mem_handleTokens.mp h
    simp
  · simp
  · simp
  · simp

theorem defaultRedactions_of_mem {t : PiiToken} (h : t ∈ c.tokens x) :
    defaultRedactions (c.tokens x) (tokenKey t) = t.defaultRedact := by
  have hmem : t ∈ (c.tokens x).filter fun t' => tokenKey t' = tokenKey t :=
    List.mem_filter.mpr ⟨h, decide_eq_true rfl⟩
  unfold defaultRedactions
  cases hlast : ((c.tokens x).filter fun t' => tokenKey t' = tokenKey t).getLast? with
  | none =>
    rw [List.getLast?_eq_none_iff.mp hlast] at hmem
    exact absurd hmem List.not_mem_nil
  | some t' =>
    obtain ⟨ht', hkey⟩ := List.mem_filter.mp (List.mem_of_getLast? hlast)
    have hkind : t'.kind = t.kind := congrArg Prod.fst (of_decide_eq_true hkey)
    simp [(defaultRedact_of_mem ht').1, (defaultRedact_of_mem h).1, hkind]

theorem mem_marked {t : PiiToken} : t ∈ marked x c ↔ t ∈ c.tokens x ∧ t.defaultRedact = true := by
  simp [marked]

/-- With the toggles as they are at first, the marked tokens are cut out from right to left. -/
theorem applyRedactions_default :
    applyRedactions layout.placeholder (keptFrom 0 (layout.narrowOf c.line.toList)) (c.tokens x)
        (defaultRedactions (c.tokens x)) =
      (marked x c).foldr (layout.cut 0) (keptFrom 0 (layout.narrowOf c.line.toList)) := by
  unfold applyRedactions marked
  rw [List.foldr_reverse, List.foldl_filter]
  refine List.foldl_ext _ _ _ fun result t ht => ?_
  rw [defaultRedactions_of_mem ((List.mem_insertionSort _).mp ht)]
  rfl

theorem pairwise_marked : (marked x c).Pairwise fun a b => a.start ≤ b.start := by
  unfold marked
  rw [List.pairwise_reverse]
  refine List.Pairwise.filter _ ?_
  have : Std.Total fun a b : PiiToken => b.start ≤ a.start := ⟨fun a b => Nat.le_total _ _⟩
  have : IsTrans PiiToken fun a b => b.start ≤ a.start := ⟨fun a b c h₁ h₂ => h₂.trans h₁⟩
  exact List.pairwise_insertionSort _ _

theorem inText_of_mem_marked (hs : ShardsApart x c.line) {t : PiiToken} (h : t ∈ marked x c) :
    layout.InText 0 c.line.toList t := by
  obtain ⟨hmem, hdefault⟩ := mem_marked.mp h
  obtain ⟨text, hslice, hkind⟩ := sensitive_of_mem_detectPii hmem
  obtain ⟨pre, post, hline, hstart, hstop⟩ := exists_of_slice hslice
  refine ⟨pre, text.toList, post, hline, by rw [Nat.zero_add]; exact hstart, hstop, ?_⟩
  intro hnil
  rw [(defaultRedact_of_mem hmem).1, decide_eq_true_eq] at hdefault
  rcases hdefault with hk | hk
  · rw [hk] at hkind
    exact hkind.2 (String.toList_eq_nil_iff.mp hnil)
  · rw [hk] at hkind
    obtain ⟨cap, hcap, m, hm, hms, hme⟩ := hkind
    have := hs.1 m (List.mem_filterMap.mpr ⟨cap, hcap, hm⟩)
    rw [hnil, bytes_nil] at hstop
    omega

theorem nodup_marked (hs : ShardsApart x c.line) : (marked x c).Nodup := by
  have hkinds : ∀ {kind redaction default} {slots : List Slot},
      ∀ t ∈ slotTokens kind redaction default slots, t.kind = kind := by
    intro kind redaction default slots t ht
    obtain ⟨m, -, rfl⟩ := List.mem_map.mp ht
    rfl
  have hoff : ∀ {ts : List PiiToken}, (∀ t ∈ ts, t.defaultRedact = false) →
      ts.filter (·.defaultRedact) = [] := fun h =>
    List.filter_eq_nil_iff.mpr fun t ht => by simp [h t ht]
  have hslots : ∀ kind redaction slots,
      (slotTokens kind redaction false slots).filter (·.defaultRedact) = [] := fun _ _ _ =>
    hoff fun t ht => by
      obtain ⟨m, -, rfl⟩ := List.mem_map.mp ht
      rfl
  have hfriends : (c.ctx.knownFriends.flatMap
      (handleTokens .friendHandle "[FRIEND]" false c.line)).filter (·.defaultRedact) = [] :=
    hoff fun t ht => by
      obtain ⟨f, -, ht⟩ := List.mem_flatMap.mp ht
      obtain ⟨-, i, -, rfl⟩ := mem_handleTokens.mp ht
      rfl
  unfold marked
  rw [List.nodup_reverse]
  have hperm := (List.perm_insertionSort (fun a b : PiiToken => b.start ≤ a.start)
    (c.tokens x)).trans (List.perm_insertionSort _ _)
  rw [(hperm.filter _).nodup_iff]
  rw [List.filter_append, List.filter_append, List.filter_append, List.filter_append, hfriends,
    hslots, hslots, List.append_nil, List.append_nil, List.append_nil]
  refine List.nodup_append.mpr ⟨List.Nodup.filter _ ?_, List.Nodup.filter _ ?_, ?_⟩
  · unfold handleTokens
    split_ifs
    · exact List.nodup_nil
    · have hlt : (matchIndices c.line c.ctx.ownHandle).Pairwise (· < ·) := pairwise_matchIndicesFrom
      refine List.Pairwise.map _ (fun i j hij heq => ?_) hlt
      have := congrArg PiiToken.start heq
      simp only at this
      omega
  · have hnd : ((x.capturesIter shardRe c.line).filterMap (getGroup · 1)).Pairwise
        fun m m' => m.start < m'.start :=
      hs.2.imp_of_mem fun hm _ hle => (hs.1 _ hm).trans_le hle
    refine List.Pairwise.map _ (fun m m' hlt heq => ?_) hnd
    have := congrArg PiiToken.start heq
    simp only at this
    omega
  · rintro a ha b hb rfl
    have hown : a.kind = .ownHandle := by
      obtain ⟨-, i, -, rfl⟩ := mem_handleTokens.mp (List.mem_of_mem_filter ha)
      rfl
    rw [hkinds a (List.mem_of_mem_filter hb)] at hown
    cases hown

end Marked

theorem exists_traced (x : Externals) (c : Captured) (suggestedName notes : String) :
    ∃ sub, traced x c suggestedName notes = some sub ∧
      sub.rawExamples = [(marked x c).foldr (layout.cut 0)
        (keptFrom 0 (layout.narrowOf c.line.toList))] ∧
      sub.contextTexts = c.ctx.contextBefore := by
  obtain ⟨sub, hsub⟩ : ∃ sub, traced x c suggestedName notes = some sub := by
    simp [traced, submission, onSubmit, submit]
  have heq := hsub
  simp only [traced, submission, onSubmit, submit, List.find?_cons, decide_true, Option.map_some,
    Option.some.injEq] at heq
  refine ⟨sub, hsub, ?_, ?_⟩
  · rw [← applyRedactions_default, ← heq]
    rfl
  · rw [← heq]
    simp [ParserSubmission.contextTexts, Captured.record, capture]

/-- **With the toggles as they are at first nothing leaks exactly if bytes are units wherever a marked
token is cut out, and the lines around are clean.** -/
theorem noLeak_iff {x : Externals} {c : Captured} (hs : ShardsApart x c.line)
    (suggestedName notes : String) :
    ∃ sub, traced x c suggestedName notes = some sub ∧
      submitted x c suggestedName notes = some (sub.map (unitOf c.line)) ∧
      (NoLeak x c sub ↔ BytesAreUnits x c ∧ ∀ text ∈ c.ctx.contextBefore, Clean x c text) := by
  obtain ⟨sub, hsub, hraw, htexts⟩ := exists_traced x c suggestedName notes
  refine ⟨sub, hsub, by rw [submission_map, hsub]; rfl, ?_⟩
  unfold NoLeak BytesAreUnits
  rw [hraw, htexts, List.singleton_inj]
  refine and_congr_left fun _ => ?_
  refine Layout.foldr_cut_eq_replaced_iff pairwise_marked (nodup_marked hs)
    (fun t ht => inText_of_mem_marked hs ht) fun t ht => ?_
  have hne : t.suggestedRedaction.toList ≠ [] := fun h =>
    (defaultRedact_of_mem (mem_marked.mp ht).1).2 (String.toList_eq_nil_iff.mp h)
  have hpos := Layout.narrowOf_pos (L := layout) hne
  rw [← length_units] at hpos
  exact hpos

/-! ### A line with accents -/

/-- The own handle behind three characters of two bytes. -/
def accented : Captured where
  id := ""
  line := "ééé JIM"
  shellTag := none
  ctx := { CaptureContext.default with ownHandle := "JIM" }
  now := ""

/-- The cut is made behind the handle. -/
theorem not_noLeak_accented : ∃ sub, traced .std accented "" "" = some sub ∧
    ¬ NoLeak .std accented sub ∧
    submitted .std accented "" "" = some (sub.map (unitOf accented.line)) ∧
    (sub.map (unitOf accented.line)).rawExamples = [units "ééé JIM[HANDLE]"] := by
  obtain ⟨sub, hsub, hraw, -⟩ := exists_traced .std accented "" ""
  refine ⟨sub, hsub, fun h => ?_, by rw [submission_map, hsub]; rfl, ?_⟩
  · have heq := hraw.symm.trans h.1
    revert heq
    decide +kernel
  · change sub.rawExamples.map (List.map (unitOf accented.line)) = _
    rw [hraw]
    decide +kernel

/-- The own handle and a shard id, with nothing but ASCII before them. -/
def plain : Captured where
  id := ""
  line := "JIM shard=a é"
  shellTag := none
  ctx := { CaptureContext.default with ownHandle := "JIM" }
  now := ""

theorem shardsApart_plain : ShardsApart .std plain.line := by
  unfold ShardsApart
  decide +kernel

theorem noLeak_iff_plain : ∃ sub, traced .std plain "" "" = some sub ∧
    submitted .std plain "" "" = some (sub.map (unitOf plain.line)) ∧
    (NoLeak .std plain sub ↔ BytesAreUnits .std plain ∧
      ∀ text ∈ plain.ctx.contextBefore, Clean .std plain text) :=
  noLeak_iff shardsApart_plain "" ""

end StarStats.Tray.Review
