import StarStats.Core.Parser

/-! # Misses of the shell

A line whose arm yields no event is to be classified by its body. The `?` operator inside an arm does not
leave the arm, however, but all of `classify`: where the pattern of an arm does not match, or a number in
it cannot be read, the body is never searched. So `classify` falls through exactly where no such miss meets
a body with an entry (`fallsThrough_iff`). -/

namespace StarStats.Core.ShellMisses

open StarStats.Lib.Text StarStats.Core.Events StarStats.Core.Crates StarStats.Core.Parser

variable (x : Externals) (line : LogLine)

/-- The event of an arm, whichever way it is left. -/
def yielded : Arm → Option GameEvent
  | .ok m => m
  | .error r => r

/-- **The law of the fall-through**: without an event from the shell, the body decides. -/
def FallsThrough : Prop :=
  match line.eventName with
  | none => classify x line = classifyBodyPrefix x line.timestamp line.body
  | some event => yielded (shellMatch x line event) = none →
      classify x line = classifyBodyPrefix x line.timestamp line.body

/-! ### Misses and entries -/

/-- The pattern matches, and the number in the match can be read. -/
def reads (pattern : String) (number : Captures → Bool) : Bool :=
  (x.captures pattern line.body).any number

/-- There is no number in the match. -/
def noNumber (_ : Captures) : Bool := true

/-- An unsigned number of the given range in a field. -/
def unsignedIn (name : String) (bound : ℕ) (c : Captures) : Bool :=
  (parseUnsigned bound (groupText c name)).isSome

/-- The arm of the event name asks for something that the body does not have. -/
def misses (event : String) : Bool :=
  match event with
  | "Init" => "ProcessInit" ∈ line.tags && !reads x line processInitRe noNumber
  | "Legacy login response" => !reads x line legacyLoginRe noNumber
  | "Join PU" => !reads x line joinPuRe (unsignedIn "port" (2 ^ 16))
  | "Change Server Start" => !reads x line changeServerRe noNumber
  | "Change Server End" => !reads x line changeServerRe noNumber
  | "Seed Solar System" => !reads x line seedSsRe noNumber
  | "Seed Solar System Success" => !reads x line seedSsRe noNumber
  | "ResolveSpawnLocation Location Not Found" => !reads x line resolveSpawnRe noNumber
  | "Actor Death" => !reads x line actorDeathRe noNumber
  | "Vehicle Destruction" => !reads x line vehicleDestructionRe (unsignedIn "level" (2 ^ 8))
  | "SHUDEvent_OnNotification" => !reads x line hudNotificationRe (unsignedIn "id" (2 ^ 64))
  | "Adding non kept item [CSCActorCorpseUtils::PopulateItemPortForItemRecoveryEntitlement]" =>
    !reads x line playerDeathRe noNumber
  | "RequestLocationInventory" => !reads x line locationInventoryRe noNumber
  | "InvalidateAllTerrainCells" => !reads x line planetTerrainRe noNumber
  | "CLandingArea::UnregisterFromExternalSystems" => !reads x line vehicleStowedRe noNumber
  | "AttachmentReceived" =>
    !reads x line attachmentReceivedRe fun c => (x.parseF64 (groupText c "elapsed")).isSome
  | "Player Selected Quantum Target - Local" => !reads x line quantumTargetRe noNumber
  | "Player Requested Fuel to Quantum Target - Server Routing" => !reads x line quantumTargetRe noNumber
  | "CLocalMissionPhaseMarker::CreateMarker" => !reads x line missionPhaseRe noNumber
  | _ => false

/-- The names under which a purchase is requested. -/
def hasBuyRequest (body : String) : Bool :=
  contains body "BuyRequest" && (contains body "SendShopBuyRequest" ||
    contains body "SendStandardItemBuyRequest" || contains body "SendStandardShopBuyRequest")

/-- The body has an entry that it is classified by. Where it names a mission objective, nothing but the
identifier of the mission counts. -/
def hasEntry (body : String) : Bool :=
  if contains body "CreateMissionObjectiveMarker" then (x.captures missionObjectiveRe body).isSome
  else hasBuyRequest body || contains body "ShopFlowResponse" || contains body "SendCommodityBuyRequest" ||
    contains body "SendCommoditySellRequest" || contains body "CCIGBroker::FastShutdown"

theorem hasBuyRequest_iff {body : String} : hasBuyRequest body = true ↔ contains body "BuyRequest" ∧
    (contains body "SendShopBuyRequest" ∨ contains body "SendStandardItemBuyRequest" ∨
      contains body "SendStandardShopBuyRequest") := by
  simp [hasBuyRequest, or_assoc]

theorem isSome_classifyBodyPrefix (ts body : String) :
    (classifyBodyPrefix x ts body).isSome = hasEntry x body := by
  unfold classifyBodyPrefix hasEntry
  by_cases hmission : contains body "CreateMissionObjectiveMarker" = true
  · rw [if_pos hmission, if_pos hmission]
    cases x.captures missionObjectiveRe body <;> rfl
  · rw [if_neg hmission, if_neg hmission]
    split_ifs with hbuy hresponse hcommodityBuy hcommoditySell hshutdown
    · simp [hasBuyRequest_iff.mpr hbuy]
    · simp [hresponse]
    · simp [hcommodityBuy]
    · simp [hcommoditySell]
    · simp [hshutdown]
    · have hnot : hasBuyRequest body = false := Bool.eq_false_iff.mpr (mt hasBuyRequest_iff.mp hbuy)
      simp [hnot, hresponse, hcommodityBuy, hcommoditySell, hshutdown]

/-! ### The arms -/

section Arms
variable {x line} {α : Type} {o : Option α}

theorem returns_orReturn {f : α → Arm} : orReturn o >>= f = .error none ↔
    o = none ∨ ∃ a, o = some a ∧ f a = .error none := by
  cases o with
  | none => exact iff_of_true rfl (Or.inl rfl)
  | some a =>
    constructor
    · exact fun h => Or.inr ⟨a, rfl, h⟩
    · rintro (h | ⟨b, hb, h⟩)
      · cases h
      · cases hb
        exact h

theorem returns_pattern {pattern : String} {f : Captures → GameEvent} :
    (orReturn (x.captures pattern line.body) >>= fun c => (.ok (some (f c)) : Arm)) = .error none ↔
      (!reads x line pattern noNumber) = true := by
  rw [returns_orReturn]
  unfold reads
  cases x.captures pattern line.body <;> simp [noNumber]

/-- An arm that also reads a number. -/
theorem returns_number {β : Type} {pattern : String} {number : Captures → Option β}
    {f : Captures → β → Arm} (hf : ∀ c n, f c n ≠ .error none) :
    (orReturn (x.captures pattern line.body) >>= fun c => orReturn (number c) >>= f c) = .error none ↔
      (!reads x line pattern fun c => (number c).isSome) = true := by
  rw [returns_orReturn]
  unfold reads
  cases x.captures pattern line.body with
  | none => simp
  | some c =>
    have hrest : orReturn (number c) >>= f c = .error none ↔ number c = none := by
      rw [returns_orReturn]
      refine ⟨?_, Or.inl⟩
      rintro (h | ⟨n, -, h⟩)
      · exact h
      · exact absurd h (hf c n)
    cases hnumber : number c with
    | none =>
      refine iff_of_true (Or.inr ⟨c, rfl, hrest.mpr hnumber⟩) ?_
      simp [hnumber]
    | some n =>
      refine iff_of_false ?_ (by simp [hnumber])
      rintro (h | ⟨c', hc, h⟩)
      · cases h
      · cases hc
        rw [hrest, hnumber] at h
        cases h

theorem returns_initArm : initArm x line = .error none ↔
    ("ProcessInit" ∈ line.tags && !reads x line processInitRe noNumber) = true := by
  unfold initArm
  by_cases h : "ProcessInit" ∈ line.tags
  · rw [if_pos h, Bool.and_eq_true]
    refine Iff.trans ?_ (and_iff_right (decide_eq_true h)).symm
    exact returns_pattern
  · rw [if_neg h]
    simp [h, pure, Except.pure]

theorem returns_hudNotificationArm : hudNotificationArm x line = .error none ↔
    (!reads x line hudNotificationRe (unsignedIn "id" (2 ^ 64))) = true := by
  unfold hudNotificationArm
  refine returns_number fun c id => ?_
  split_ifs <;> exact nofun

/-- **An arm leaves `classify` without an event exactly where it misses.** -/
theorem returns_shellMatch (event : String) :
    shellMatch x line event = .error none ↔ misses x line event = true := by
  unfold shellMatch misses
  split
  case h_1 => exact returns_initArm
  case h_3 => exact returns_number nofun
  case h_10 => exact returns_number nofun
  case h_11 => exact returns_hudNotificationArm
  case h_16 => exact returns_number nofun
  case h_20 => exact iff_of_false nofun nofun
  case h_21 => exact iff_of_false nofun nofun
  case h_22 =>
    -- no other name is in the table of misses
    refine iff_of_false nofun ?_
    split
    case h_20 => exact Bool.false_ne_true
    all_goals exact absurd rfl ‹_›
  all_goals exact returns_pattern

end Arms

/-! ### The law -/

variable {x line}

theorem classify_of_returns {event : String} {r : Option GameEvent} (hname : line.eventName = some event)
    (h : shellMatch x line event = .error r) : classify x line = r := by
  simp [classify, hname, h]

theorem classify_of_ok {event : String} {m : Option GameEvent} (hname : line.eventName = some event)
    (h : shellMatch x line event = .ok m) :
    classify x line = m.or (classifyBodyPrefix x line.timestamp line.body) := by
  simp [classify, hname, h]

/-- **The body decides on every shell miss exactly if no arm that asks for what the line does not have
meets a body with an entry.** -/
theorem fallsThrough_iff : FallsThrough x line ↔ ∀ event, line.eventName = some event →
    misses x line event = true → hasEntry x line.body = false := by
  unfold FallsThrough
  cases hname : line.eventName with
  | none =>
    refine iff_of_true ?_ (fun _ h => absurd h nofun)
    simp only [classify, hname]
  | some event =>
    have hmisses := @returns_shellMatch x line event
    simp only [Option.some.injEq, forall_eq']
    cases hshell : shellMatch x line event with
    | error r =>
      rw [classify_of_returns hname hshell]
      cases r with
      | none =>
        rw [← isSome_classifyBodyPrefix x line.timestamp, Option.isSome_eq_false_iff,
          Option.isNone_iff_eq_none]
        have hmiss : misses x line event = true := hmisses.mp hshell
        constructor
        · exact fun h _ => (h rfl).symm
        · exact fun h _ => (h hmiss).symm
      | some e =>
        refine iff_of_true (fun h => absurd h nofun) fun h => ?_
        rw [hmisses.mpr h] at hshell
        cases hshell
    | ok m =>
      rw [classify_of_ok hname hshell]
      refine iff_of_true (fun h => ?_) fun h => ?_
      · have hnone : m = none := h
        rw [hnone, Option.none_or]
      · rw [hmisses.mpr h] at hshell
        cases hshell

/-- A purchase that is logged under the name of a join. -/
def purchaseOnJoin : LogLine :=
  ⟨"2026-05-02T21:14:23.189Z", some "Notice", some "Join PU", "SendShopBuyRequest shopId=12", []⟩

/-- Its body alone is a purchase, but it is classified as nothing. -/
theorem not_fallsThrough_purchaseOnJoin : ¬ FallsThrough .std purchaseOnJoin := by
  intro h
  have hreturns : shellMatch .std purchaseOnJoin "Join PU" = .error none :=
    (returns_shellMatch _).mpr (by decide +kernel)
  have hbody : (classifyBodyPrefix .std purchaseOnJoin.timestamp purchaseOnJoin.body).isSome = true := by
    rw [isSome_classifyBodyPrefix]
    decide +kernel
  have hfell : classify .std purchaseOnJoin =
      classifyBodyPrefix .std purchaseOnJoin.timestamp purchaseOnJoin.body :=
    h (congrArg yielded hreturns)
  rw [← hfell, classify_of_returns rfl hreturns] at hbody
  cases hbody

end StarStats.Core.ShellMisses
