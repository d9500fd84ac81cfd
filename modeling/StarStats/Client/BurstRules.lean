import StarStats.Core.ParserDefs
import StarStats.Core.Templates

/-! # Built-in burst rules

One rule for each of the four kinds of line that come in runs. The rules match on the event name
and tags, and no two on the same name. Lines of these kinds are also events in their own right:
`notifiedLine` is the shortest there is of a notification. -/

namespace StarStats.Client.BurstRules

open StarStats.Core.Events StarStats.Core.Crates StarStats.Core.Parser StarStats.Core.ParserDefs
open StarStats.Core.Templates

/-- A rule whose anchor and members are the lines with an event name and some tags. -/
def eventNameRule (id eventName : String) (tags : List String) (minBurstSize maxMemberGap : ℕ) :
    BurstRule :=
  ⟨id, .eventName eventName, .eventName eventName, tags, minBurstSize, maxMemberGap⟩

/-- The rules of the client, in their order. -/
def builtinBurstRules : List BurstRule :=
  [eventNameRule "loadout_restore_burst" "AttachmentReceived" ["Inventory"] 3 1,
   eventNameRule "terrain_load_burst" "StatObjLoad 0x800 Format" ["CoreTech"] 5 0,
   eventNameRule "hud_notification_burst" "SHUDEvent_OnNotification" [] 3 0,
   eventNameRule "vehicle_stowed_burst" "VehicleStowed" [] 3 0]

/-- The event names the built-in rules are about. -/
def burstEventNames : List String :=
  ["AttachmentReceived", "StatObjLoad 0x800 Format", "SHUDEvent_OnNotification", "VehicleStowed"]

theorem lineMatches_eventName {line : LogLine} {name : String} {tags : List String}
    (h : lineMatches line (.eventName name) tags) : line.eventName = some name := by
  simp only [lineMatches, Bool.and_eq_true, decide_eq_true_eq] at h
  exact h.1

/-- A line that a built-in rule takes has one of the event names. -/
theorem eventName_of_lineMatches {rule : BurstRule} (hr : rule ∈ builtinBurstRules) {line : LogLine}
    (h : lineMatches line rule.anchor rule.tags ∨ lineMatches line rule.member rule.tags) :
    ∃ name ∈ burstEventNames, line.eventName = some name := by
  simp only [builtinBurstRules, List.mem_cons, List.not_mem_nil, or_false] at hr
  rcases hr with rfl | rfl | rfl | rfl <;>
    exact ⟨_, by simp [burstEventNames], lineMatches_eventName (h.elim id id)⟩

/-- No line is taken by two of the rules. -/
theorem eq_of_lineMatches {rule rule' : BurstRule} (hr : rule ∈ builtinBurstRules)
    (hr' : rule' ∈ builtinBurstRules) {line : LogLine}
    (h : lineMatches line rule.anchor rule.tags ∨ lineMatches line rule.member rule.tags)
    (h' : lineMatches line rule'.anchor rule'.tags ∨ lineMatches line rule'.member rule'.tags) :
    rule = rule' := by
  simp only [builtinBurstRules, List.mem_cons, List.not_mem_nil, or_false] at hr hr'
  rcases hr with rfl | rfl | rfl | rfl <;> rcases hr' with rfl | rfl | rfl | rfl <;>
    first
      | rfl
      | exact absurd (Option.some.inj ((lineMatches_eventName (h.elim id id)).symm.trans
          (lineMatches_eventName (h'.elim id id)))) (by decide)

theorem nodup_ruleIds : (builtinBurstRules.map (·.id)).Nodup := by decide

/-! ### A notification -/

def notifiedLine : String := "<1> <SHUDEvent_OnNotification> Added notification \"\" [1]."

def notifiedLog : LogLine :=
  ⟨"1", none, some "SHUDEvent_OnNotification", "Added notification \"\" [1].", []⟩

def notifiedEvent : GameEvent := .hudNotification ⟨"1", "", 1, none⟩

theorem structuralParse_notifiedLine : structuralParse .std notifiedLine = some notifiedLog := by
  decide +kernel

theorem classify_notifiedLog : classify .std notifiedLog = some notifiedEvent := by decide +kernel

theorem recognise_notifiedLine : recognise .std [] notifiedLine = some notifiedEvent := by
  rw [recognise, structuralParse_notifiedLine, Option.bind_some, recogniseParsed,
    classify_notifiedLog, Option.some_or]

end StarStats.Client.BurstRules
