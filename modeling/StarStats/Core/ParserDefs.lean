import StarStats.Core.Parser

/-! # Remote rules, and what a line is recognised as

Rules fetched at run time are tried where `classify` knows no event. The first rule whose anchor fits
the line decides: if its pattern does not match, no later rule is tried. `recognise` is the
composition every ingest path uses.

What the parser can produce is said once (`Produced`): its payloads never carry an inferred zone, a
zone signal comes under one of two event names, and no line is ever recognised as a summary. -/

namespace StarStats.Core.ParserDefs

open StarStats.Lib.Text StarStats.Core.Events StarStats.Core.Crates StarStats.Core.Parser

/-- What a rule looks at first. -/
inductive RuleMatchKind where
  | eventName
  | bodyKeyword
  deriving DecidableEq

/-- A rule ready to run; a compiled pattern is named by its text. -/
structure CompiledRemoteRule where
  id : String
  eventName : String
  matchKind : RuleMatchKind
  regex : String
  fields : List String
  deriving DecidableEq

/-- Insert into a map that is kept sorted by name. -/
def insertField (k v : String) : List (String × String) → List (String × String)
  | [] => [(k, v)]
  | (k', v') :: m =>
    if k < k' then (k, v) :: (k', v') :: m
    else if k = k' then (k, v) :: m
    else (k', v') :: insertField k v m

/-- The named captures among `fields` that took part in the match. -/
def captureFields (c : Captures) (fields : List String) : List (String × String) :=
  fields.foldl (fun m f => match nameText c f with
    | some v => insertField f v m
    | none => m) []

/-- Does the anchor of the rule fit the line? -/
def CompiledRemoteRule.matchesAnchor (r : CompiledRemoteRule) (line : LogLine) : Bool :=
  match r.matchKind with
  | .eventName => line.eventName = some r.eventName
  | .bodyKeyword => contains line.body r.eventName

/-- The event of the first rule whose anchor fits. -/
def applyRemoteRules (x : Externals) (line : LogLine) : List CompiledRemoteRule → Option GameEvent
  | [] => none
  | r :: rs =>
    if r.matchesAnchor line then
      -- a pattern that does not match leaves the whole search, not just this rule
      (x.captures r.regex line.body).map fun c =>
        .remoteMatch ⟨line.timestamp, r.id, r.eventName, captureFields c r.fields⟩
    else applyRemoteRules x line rs

/-- The event of a parsed line: the built-in rules first, then the remote ones. -/
def recogniseParsed (x : Externals) (rules : List CompiledRemoteRule) (p : LogLine) :
    Option GameEvent :=
  (classify x p).or (applyRemoteRules x p rules)

/-- The event of a line. -/
def recognise (x : Externals) (rules : List CompiledRemoteRule) (line : String) :
    Option GameEvent :=
  (structuralParse x line).bind (recogniseParsed x rules)

/-! ### What the parser produces -/

/-- What holds of an event that `line` is recognised as. -/
def Produced (line : LogLine) : GameEvent → Prop
  | .planetTerrainLoad _ => line.eventName = some "InvalidateAllTerrainCells"
  | .locationInventoryRequested _ => line.eventName = some "RequestLocationInventory"
  | .playerDeath e => e.zone = none
  | .playerIncapacitated e => e.zone = none
  | .gameCrash _ | .launcherActivity _ | .burstSummary _ | .locationChanged _
  | .shopRequestTimedOut _ => False
  | _ => True

/-- Whichever way an arm is left, the event it yields satisfies `P`. -/
def Arm.Yields (P : GameEvent → Prop) (a : Arm) : Prop :=
  ∀ e, a = .ok (some e) ∨ a = .error (some e) → P e

section Arms
variable {P : GameEvent → Prop}

theorem Arm.yields_ok {e : GameEvent} (h : P e) : Arm.Yields P (.ok (some e)) := by
  rintro e' (h' | h') <;> cases h'
  exact h

theorem Arm.yields_none : Arm.Yields P (.ok none) := by
  rintro e (h | h) <;> cases h

theorem Arm.yields_orReturn {α : Type} {o : Option α} {f : α → Arm}
    (h : ∀ a, Arm.Yields P (f a)) : Arm.Yields P (orReturn o >>= f) := by
  cases o with
  | none => rintro e (h' | h') <;> cases h'
  | some a => exact h a

end Arms

variable (x : Externals) (line : LogLine)

theorem yields_hudNotificationArm : Arm.Yields (Produced line) (hudNotificationArm x line) := by
  unfold hudNotificationArm
  refine Arm.yields_orReturn fun c => Arm.yields_orReturn fun id => ?_
  by_cases h : startsWith (groupText c "text") "Incapacitated:"
  · rw [if_pos h]
    rintro e (h' | h') <;> cases h'
    rfl
  · rw [if_neg h]
    exact Arm.yields_ok trivial

/-- **The dispatch produces what it should under each name.** -/
theorem yields_shellMatch (event : String) (h : line.eventName = some event) :
    Arm.Yields (Produced line) (shellMatch x line event) := by
  unfold shellMatch
  split
  case h_1 =>
    unfold initArm
    split_ifs
    · exact Arm.yields_orReturn fun c => Arm.yields_ok trivial
    · exact Arm.yields_none
  case h_11 => exact yields_hudNotificationArm x line
  case h_12 => exact Arm.yields_orReturn fun c => Arm.yields_ok rfl
  case h_13 => exact Arm.yields_orReturn fun c => Arm.yields_ok h
  case h_14 => exact Arm.yields_orReturn fun c => Arm.yields_ok h
  case h_20 => exact Arm.yields_ok trivial
  case h_21 => exact Arm.yields_ok trivial
  case h_22 => exact Arm.yields_none
  all_goals
    first
      | exact Arm.yields_orReturn fun c => Arm.yields_ok trivial
      | exact Arm.yields_orReturn fun c => Arm.yields_orReturn fun d => Arm.yields_ok trivial

theorem produced_of_classifyBodyPrefix {ts body : String} {e : GameEvent}
    (h : classifyBodyPrefix x ts body = some e) : Produced line e := by
  unfold classifyBodyPrefix at h
  split_ifs at h
  · obtain ⟨c, -, hc⟩ := Option.bind_eq_some_iff.mp h
    cases hc; trivial
  all_goals cases h; trivial

theorem produced_of_classify {e : GameEvent} (h : classify x line = some e) : Produced line e := by
  unfold classify at h
  cases hn : line.eventName with
  | none => rw [hn] at h; exact produced_of_classifyBodyPrefix x line h
  | some event =>
    simp only [hn] at h
    have hy := yields_shellMatch x line event hn
    cases ha : shellMatch x line event with
    | error r => rw [ha] at h; exact hy e (Or.inr (by rw [ha]; exact congrArg _ h))
    | ok m =>
      rw [ha] at h
      cases m with
      | none => exact produced_of_classifyBodyPrefix x line h
      | some e' => exact hy e (Or.inl (by rw [ha]; exact congrArg _ h))

theorem produced_of_applyRemoteRules {e : GameEvent} :
    ∀ {rules : List CompiledRemoteRule}, applyRemoteRules x line rules = some e → Produced line e
  | r :: rs, h => by
    unfold applyRemoteRules at h
    split_ifs at h
    · obtain ⟨c, -, rfl⟩ := Option.map_eq_some_iff.mp h; trivial
    · exact produced_of_applyRemoteRules h

variable {x} {rules : List CompiledRemoteRule}

/-- **What a parsed line is recognised as is what the parser can produce for it.** -/
theorem produced_of_recogniseParsed {line : LogLine} {e : GameEvent}
    (h : recogniseParsed x rules line = some e) : Produced line e := by
  unfold recogniseParsed at h
  rcases Option.or_eq_some_iff.mp h with h | ⟨-, h⟩
  · exact produced_of_classify x line h
  · exact produced_of_applyRemoteRules x line h

theorem recognise_eq_some {line : String} {e : GameEvent} :
    recognise x rules line = some e ↔
      ∃ p, structuralParse x line = some p ∧ recogniseParsed x rules p = some e :=
  Option.bind_eq_some_iff

theorem eventTypeKey_ne_burstSummary {line : String} {e : GameEvent}
    (h : recognise x rules line = some e) : e.eventTypeKey ≠ "burst_summary" := by
  obtain ⟨p, -, he⟩ := recognise_eq_some.mp h
  have := produced_of_recogniseParsed he
  cases e <;> first | exact this.elim | (simp only [GameEvent.eventTypeKey]; decide)

/-! ### Which rule is taken -/

section FirstMatch
variable (x : Externals) (line : LogLine)

/-- Do the anchor and the pattern of the rule both fit the line? -/
def CompiledRemoteRule.fits (r : CompiledRemoteRule) : Bool :=
  r.matchesAnchor line && (x.captures r.regex line.body).isSome

/-- The search finds a rule that fits exactly if there is one, and then it is the first. -/
def FirstMatch (rules : List CompiledRemoteRule) : Prop :=
  ((∃ m, applyRemoteRules x line rules = some (.remoteMatch m)) ↔ ∃ r ∈ rules, r.fits x line) ∧
    ∀ m, applyRemoteRules x line rules = some (.remoteMatch m) →
      (rules.find? (·.fits x line)).map (·.id) = some m.ruleId

/-- What the search yields: the first rule whose anchor fits, if its pattern matches. -/
theorem applyRemoteRules_eq : ∀ rules : List CompiledRemoteRule, applyRemoteRules x line rules =
    (rules.find? (·.matchesAnchor line)).bind fun r => (x.captures r.regex line.body).map fun c =>
      .remoteMatch ⟨line.timestamp, r.id, r.eventName, captureFields c r.fields⟩
  | [] => rfl
  | r :: rs => by
    unfold applyRemoteRules
    cases ha : r.matchesAnchor line with
    | true => simp only [List.find?_cons, ha, if_true, Option.bind_some]
    | false =>
      simp only [List.find?_cons, ha, Bool.false_eq_true, if_false]
      exact applyRemoteRules_eq rs

variable {x line}

/-- If the first rule whose anchor fits also matches, it is the first that fits. -/
theorem find?_fits_of_anchor : ∀ {rules : List CompiledRemoteRule} {r : CompiledRemoteRule},
    rules.find? (·.matchesAnchor line) = some r → r.fits x line →
    rules.find? (·.fits x line) = some r
  | r' :: rs, r, h, hfit => by
    cases ha : r'.matchesAnchor line with
    | true =>
      simp only [List.find?_cons, ha, Option.some.injEq] at h
      subst h
      simp only [List.find?_cons, hfit]
    | false =>
      have hnot : r'.fits x line = false := by simp [CompiledRemoteRule.fits, ha]
      simp only [List.find?_cons, ha] at h
      simp only [List.find?_cons, hnot]
      exact find?_fits_of_anchor h hfit

theorem applyRemoteRules_eq_none {rules : List CompiledRemoteRule} {r : CompiledRemoteRule}
    (h : rules.find? (·.matchesAnchor line) = some r) (hfit : ¬ r.fits x line) :
    applyRemoteRules x line rules = none := by
  have ha : r.matchesAnchor line = true :=
    List.find?_some (p := fun r : CompiledRemoteRule => r.matchesAnchor line) h
  have hc : x.captures r.regex line.body = none := by
    simpa [CompiledRemoteRule.fits, ha] using hfit
  rw [applyRemoteRules_eq, h, Option.bind_some, hc, Option.map_none]

/-- Where the first rule whose anchor fits also matches, the search is a first-match search. -/
theorem firstMatch_of_fits {rules : List CompiledRemoteRule} {r : CompiledRemoteRule}
    (h : rules.find? (·.matchesAnchor line) = some r) (hfit : r.fits x line) :
    FirstMatch x line rules := by
  have hfirst := find?_fits_of_anchor h hfit
  obtain ⟨c, hc⟩ : ∃ c, x.captures r.regex line.body = some c := by
    rw [CompiledRemoteRule.fits, Bool.and_eq_true] at hfit
    exact Option.isSome_iff_exists.mp hfit.2
  have hyield := applyRemoteRules_eq x line rules
  rw [h, Option.bind_some, hc, Option.map_some] at hyield
  refine ⟨⟨fun _ => ⟨r, List.mem_of_find?_eq_some h, hfit⟩, fun _ => ⟨_, hyield⟩⟩, fun m hm => ?_⟩
  rw [hyield] at hm
  obtain rfl := GameEvent.remoteMatch.inj (Option.some.inj hm)
  rw [hfirst, Option.map_some]

theorem firstMatch_of_none {rules : List CompiledRemoteRule} (h : ∀ r ∈ rules, ¬ r.fits x line) :
    FirstMatch x line rules := by
  have hnone : applyRemoteRules x line rules = none := by
    cases ha : rules.find? (·.matchesAnchor line) with
    | none => rw [applyRemoteRules_eq, ha, Option.bind_none]
    | some r => exact applyRemoteRules_eq_none ha (h r (List.mem_of_find?_eq_some ha))
  refine ⟨⟨fun ⟨m, hm⟩ => ?_, fun ⟨r, hr, hfit⟩ => absurd hfit (h r hr)⟩, fun m hm => ?_⟩ <;>
    simp [hnone] at hm

/-- **The search takes the first rule that fits exactly if the first rule whose anchor fits also
matches, or no rule of the list fits.** -/
theorem firstMatch_iff (x : Externals) (line : LogLine) (rules : List CompiledRemoteRule) :
    FirstMatch x line rules ↔
      (∃ r, rules.find? (·.matchesAnchor line) = some r ∧ r.fits x line) ∨
        ∀ r ∈ rules, ¬ r.fits x line := by
  constructor
  · rintro ⟨hexact, -⟩
    by_cases hany : ∃ r ∈ rules, r.fits x line
    · left
      obtain ⟨m, hm⟩ := hexact.2 hany
      cases ha : rules.find? (·.matchesAnchor line) with
      | none =>
        rw [applyRemoteRules_eq, ha] at hm
        cases hm
      | some r =>
        refine ⟨r, rfl, by_contra fun hfit => ?_⟩
        rw [applyRemoteRules_eq_none ha hfit] at hm
        cases hm
    · exact Or.inr fun r hr hfit => hany ⟨r, hr, hfit⟩
  · rintro (⟨r, h, hfit⟩ | h)
    · exact firstMatch_of_fits h hfit
    · exact firstMatch_of_none h

/-- Patterns of which only the one named `broad` matches. -/
def broadOnly : Externals where
  capturesIter pattern _ := if pattern = "broad" then [[]] else []
  slice_group pattern text c hc g hg := by
    split_ifs at hc
    · rw [List.mem_singleton.mp hc] at hg
      cases hg
    · cases hc
  parseF64 _ := none
  hash _ := 0
  newV5 := id
  newV5_injective := Function.injective_id

/-- A narrow and a broad rule on one anchor: the narrow one does not match, and hides the broad one. -/
theorem not_firstMatch : ¬ FirstMatch broadOnly ⟨"t", none, some "E", "body", []⟩
    [⟨"r1", "E", .eventName, "narrow", []⟩, ⟨"r2", "E", .eventName, "broad", []⟩] := by
  rintro ⟨hexact, -⟩
  obtain ⟨m, hm⟩ := hexact.2 ⟨_, List.mem_cons_of_mem _ List.mem_cons_self, by decide⟩
  have hnone : applyRemoteRules broadOnly ⟨"t", none, some "E", "body", []⟩
      [⟨"r1", "E", .eventName, "narrow", []⟩, ⟨"r2", "E", .eventName, "broad", []⟩] = none := by
    decide
  rw [hnone] at hm
  cases hm

end FirstMatch

end StarStats.Core.ParserDefs
