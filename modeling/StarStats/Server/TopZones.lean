import Mathlib.Data.List.Count
import Mathlib.Data.String.Basic
import Mathlib.Order.WithBot
import StarStats.Lib.Text
import StarStats.Lib.TopLists
import StarStats.Server.Auth
import StarStats.Server.Queries

/-! # Deaths by zone

The deaths of a user are events of two types. The zones of each are counted, cut to the first hundred, and
then added up, so a zone that is frequent in both together may be missing from one of them. The list is the
true one exactly if no zone of the true list has been cut from either (`trueZones_iff`). -/

namespace StarStats.Server.TopZones

open StarStats.Lib.Json StarStats.Lib.Tables StarStats.Lib.Tallies StarStats.Lib.TopLists
open StarStats.Server.Auth StarStats.Server.Queries

/-- `STATS_DEFAULT_HOURS` -/
def statsDefaultHours : ℤ := 24 * 30

/-- `STATS_MAX_HOURS` -/
def statsMaxHours : ℤ := 24 * 365

/-- `STATS_BUCKET_LIMIT` -/
def statsBucketLimit : ℕ := 100

/-- The microseconds of an hour. -/
def usPerHour : ℤ := 3600000000

/-- How the database puts texts in order, and how it writes a value that is neither a text nor null. -/
structure Database (κ : Type) where
  collate : String ↪ κ
  text : Value → String

/-- A field of the payload must have a value. -/
structure PayloadFilter where
  field : String
  equals : String

/-- The clock, and which of the queries fail. -/
structure Env where
  now : ℤ
  killsFail : Bool
  deathsActorFail : Bool
  deathsPlayerFail : Bool
  weaponsFail : Bool
  zonesActorFail : Bool
  zonesPlayerFail : Bool

/-- The error of a request and its status. -/
structure ApiError where
  status : ℕ
  error : String
  detail : Option String
  deriving DecidableEq

/-- What the combat page is answered with. -/
structure CombatStatsResponse where
  hours : ℤ
  kills : ℕ
  deaths : ℕ
  topWeapons : List (String × ℕ)
  deathsByZone : List (String × ℕ)
  deriving DecidableEq

section Database
variable {κ : Type} (db : Database κ) (rows : List EventRow) (handle eventType payloadField : String)
  (payloadFilter : Option PayloadFilter) (since : Option ℤ)

/-- `payload->>field` -/
def payloadText (field : String) (r : EventRow) : Option String :=
  match r.event.payload.get field with
  | none => none
  | some .null => none
  | some (.str s) => some s
  | some v => some (db.text v)

/-- `$4::timestamptz IS NULL OR event_timestamp >= $4` -/
def inWindow (r : EventRow) : Bool := since.all fun s => r.event.eventTimestamp.any (s ≤ ·)

/-- `$5::text IS NULL OR payload->>$5 = $6` -/
def passes (r : EventRow) : Bool := payloadFilter.all fun f => payloadText db f.field r = some f.equals

/-- The rows of one type of event. -/
def counted (r : EventRow) : Bool :=
  r.event.claimedHandle = handle && r.event.eventType = eventType && inWindow since r &&
    passes db payloadFilter r

/-- The rows of one type, in the window and under the filter. -/
def countEventType : ℕ := rows.countP (counted db handle eventType payloadFilter since)

/-- What is grouped: the field of each row that has it, where it may be null. -/
def breakdownValues : List (Option String) :=
  (rows.filter fun r => counted db handle eventType payloadFilter since r &&
    (r.event.payload.get payloadField).isSome).map (payloadText db payloadField)

/-- `value ASC`, with null last. -/
def valueOrd : Option String → WithTop κ
  | none => ⊤
  | some s => (db.collate s : κ)

/-- The groups are cut to the limit, and then the one of null is dropped. -/
def payloadFieldBreakdown [LinearOrder κ] (limit : ℕ) : List (String × ℕ) :=
  (top (valueOrd db) limit
    (groupCount (breakdownValues db rows handle eventType payloadField payloadFilter since))).filterMap
      fun g => g.1.map (·, g.2)

end Database

/-- The counts of both lists added up; the values stand in the order of their characters. -/
def mergeBuckets (a b : List (String × ℕ)) (limit : ℕ) : List (String × ℕ) :=
  top String.toList limit (merge (a ++ b))

/-- The hours asked for and the time they start at; hours out of range are refused. -/
def parseStatsWindow (now : ℤ) (hours : Option ℤ) : Except ApiError (ℤ × Option ℤ) :=
  let hours := hours.getD statsDefaultHours
  if hours ≤ 0 ∨ statsMaxHours < hours then .error ⟨400, "invalid_hours", none⟩
  else .ok (hours, some (now - hours * usPerHour))

/-- `u64::saturating_add` -/
def saturatingAdd (m n : ℕ) : ℕ := min (m + n) 18446744073709551615

/-- The answer of a query, or nothing where it fails. -/
def unwrapOr {α : Type} (fails : Bool) (default value : α) : α := if fails then default else value

section Route
variable {κ : Type} [LinearOrder κ] (db : Database κ) (env : Env) (rows : List EventRow)
  (user : AuthenticatedUser) (hours : Option ℤ)

/-- The handler: each of its numbers is a query of its own. -/
def statsCombat : Except ApiError CombatStatsResponse :=
  match parseStatsWindow env.now hours with
  | .error e => .error e
  | .ok (hours, since) =>
    let handle := user.preferredUsername
    let killerFilter : PayloadFilter := ⟨"killer", handle⟩
    let victimFilter : PayloadFilter := ⟨"victim", handle⟩
    let kills := unwrapOr env.killsFail 0
      (countEventType db rows handle "actor_death" (some killerFilter) since)
    let deathsActor := unwrapOr env.deathsActorFail 0
      (countEventType db rows handle "actor_death" (some victimFilter) since)
    let deathsPlayer := unwrapOr env.deathsPlayerFail 0
      (countEventType db rows handle "player_death" none since)
    let topWeapons := unwrapOr env.weaponsFail []
      (payloadFieldBreakdown db rows handle "actor_death" "weapon" (some killerFilter) since
        statsBucketLimit)
    let zoneActor := unwrapOr env.zonesActorFail []
      (payloadFieldBreakdown db rows handle "actor_death" "zone" (some victimFilter) since
        statsBucketLimit)
    let zonePlayer := unwrapOr env.zonesPlayerFail []
      (payloadFieldBreakdown db rows handle "player_death" "zone" none since statsBucketLimit)
    .ok
      { hours := hours
        kills := kills
        deaths := saturatingAdd deathsActor deathsPlayer
        topWeapons := topWeapons
        deathsByZone := mergeBuckets zoneActor zonePlayer statsBucketLimit }

/-! ### The true list -/

/-- The zones of the deaths of a user in the window: where an actor died that was he, or where his player
died. -/
def deathZones (handle : String) (since : Option ℤ) : List String :=
  (rows.filter fun r => r.event.claimedHandle = handle && inWindow since r &&
    (r.event.eventType = "actor_death" && payloadText db "victim" r = some handle ||
      r.event.eventType = "player_death")).filterMap (payloadText db "zone")

/-- The zones with the most deaths, each with their number, by descending number and then by name. -/
def trueTop (handle : String) (since : Option ℤ) : List (String × ℕ) :=
  top String.toList statsBucketLimit (groupCount (deathZones db rows handle since))

/-- **The list of a response is the true one.** -/
def TrueZones : Prop :=
  ∀ window since resp, parseStatsWindow env.now hours = .ok (window, since) →
    statsCombat db env rows user hours = .ok resp →
      resp.deathsByZone = trueTop db rows user.preferredUsername since

/-- The zones of the actor deaths, and those of the player deaths. -/
def actorZones (handle : String) (since : Option ℤ) : List (Option String) :=
  breakdownValues db rows handle "actor_death" "zone" (some ⟨"victim", handle⟩) since

/-- The zones of the newer type of deaths. -/
def playerZones (handle : String) (since : Option ℤ) : List (Option String) :=
  breakdownValues db rows handle "player_death" "zone" none since

/-- Where the zone occurs among the values, the query does not fail, and fewer groups than the limit are
ahead of that of the zone. -/
def Uncut (fails : Bool) (values : List (Option String)) (zone : String) : Prop :=
  some zone ∈ values → fails = false ∧
    (groupCount values).countP (fun g => rank (valueOrd db) g <
      rank (valueOrd db) (some zone, occurs values (some zone))) < statsBucketLimit

end Route

/-! ### Counts -/

section Counts
variable {κ : Type} {db : Database κ} {rows : List EventRow} {handle zone : String} {since : Option ℤ}

theorem occurs_of_filter {f : EventRow → Option String} {p : EventRow → Bool} (zone : String) :
    occurs ((rows.filter p).filterMap f) zone = rows.countP fun r => p r && f r = some zone := by
  rw [occurs_filterMap, List.countP_filter]
  refine List.countP_congr fun r _ => ?_
  simp [and_comm]

theorem occurs_map {f : EventRow → Option String} {p : EventRow → Bool} (zone : String) :
    occurs ((rows.filter p).map f) (some zone) = rows.countP fun r => p r && f r = some zone := by
  rw [occurs_eq_countP, List.countP_map, List.countP_filter]
  refine List.countP_congr fun r _ => ?_
  simp [and_comm]

theorem countP_or {a b d : EventRow → Bool} (hd : ∀ r, d r = (a r || b r))
    (hnot : ∀ r, ¬ (a r = true ∧ b r = true)) : rows.countP d = rows.countP a + rows.countP b := by
  induction rows with
  | nil => rfl
  | cons r rows ih =>
    have hone := hnot r
    rw [List.countP_cons, List.countP_cons, List.countP_cons, ih, hd r]
    cases ha : a r <;> cases hb : b r
    · simp
    · simp
      omega
    · simp
      omega
    · exact absurd ⟨ha, hb⟩ hone

/-- A zone has as many deaths as it has in both sources. -/
theorem occurs_deathZones (db : Database κ) (rows : List EventRow) (handle : String) (since : Option ℤ)
    (zone : String) : occurs (deathZones db rows handle since) zone =
      occurs (actorZones db rows handle since) (some zone) +
        occurs (playerZones db rows handle since) (some zone) := by
  unfold deathZones actorZones playerZones breakdownValues
  rw [occurs_of_filter, occurs_map, occurs_map]
  have hhas : ∀ r, payloadText db "zone" r = some zone → (r.event.payload.get "zone").isSome = true := by
    intro r h
    unfold payloadText at h
    cases hget : r.event.payload.get "zone" with
    | none =>
      rw [hget] at h
      cases h
    | some v => rfl
  refine countP_or (fun r => ?_) fun r => ?_
  · by_cases hzone : payloadText db "zone" r = some zone
    · simp only [counted, passes, hzone, hhas r hzone, decide_true, Bool.and_true, Option.all_some,
        Option.all_none]
      grind
    · simp [hzone]
  · simp only [counted, Bool.and_eq_true, decide_eq_true_eq]
    rintro ⟨ha, hp⟩
    have hactor := ha.1.1.1.1.2
    have hplayer := hp.1.1.1.1.2
    rw [hactor] at hplayer
    exact absurd hplayer (by decide)

end Counts

/-! ### What is cut -/

section Cut
variable {κ : Type}

theorem valueOrd_injective (db : Database κ) : Function.Injective (valueOrd db) := by
  intro v w h
  cases v with
  | none =>
    cases w with
    | none => rfl
    | some s => cases h
  | some s =>
    cases w with
    | none => cases h
    | some s' => exact congrArg some (db.collate.injective (WithTop.coe_injective h))

variable [LinearOrder κ] {db : Database κ} {fails : Bool} {values : List (Option String)}
  {zone : String} {limit : ℕ}

/-- The groups that are left. -/
def leftGroups (db : Database κ) (limit : ℕ) (values : List (Option String)) : List (String × ℕ) :=
  (top (valueOrd db) limit (groupCount values)).filterMap fun g => g.1.map (·, g.2)

theorem amountOf_filterMap (l : List (Option String × ℕ)) (zone : String) :
    amountOf (l.filterMap fun g => g.1.map (·, g.2)) zone = amountOf l (some zone) := by
  induction l with
  | nil => rfl
  | cons g l ih =>
    obtain ⟨v, n⟩ := g
    rw [amountOf_cons, ← ih]
    cases v with
    | none => simp
    | some z => simp [amountOf_cons]

theorem pos_leftGroups : ∀ e ∈ leftGroups db limit values, 0 < e.2 := by
  intro e he
  obtain ⟨g, hg, hvalue⟩ := List.mem_filterMap.mp he
  obtain ⟨z, -, rfl⟩ := Option.map_eq_some_iff.mp hvalue
  exact (((counts_groupCount values).mem g).mp (mem_of_mem_top hg)).2

/-- The groups that are left tell the count of each zone that is among them. -/
theorem amountOf_leftGroups (db : Database κ) (limit : ℕ) (values : List (Option String)) (zone : String) :
    amountOf (leftGroups db limit values) zone =
      if (some zone, occurs values (some zone)) ∈ top (valueOrd db) limit (groupCount values) then
        occurs values (some zone)
      else 0 := by
  have hall := counts_groupCount values
  have hkeys := nodup_keys_groupCount values
  have hleft : Counts (amountOf (top (valueOrd db) limit (groupCount values)))
      (top (valueOrd db) limit (groupCount values)) := by
    refine counts_of_nodup ?_ fun e he => ((hall.mem e).mp (mem_of_mem_top he)).2
    exact (((perm_sortBy _ _).map _).nodup_iff.mpr hkeys).sublist ((List.take_sublist ..).map _)
  unfold leftGroups
  rw [amountOf_filterMap]
  split_ifs with hmem
  · exact ((hleft.mem _).mp hmem).1.symm
  · by_contra hpos
    have hin := (hleft.mem (some zone, amountOf _ (some zone))).mpr ⟨rfl, Nat.pos_of_ne_zero hpos⟩
    have hcount := ((hall.mem _).mp (mem_of_mem_top hin)).1
    simp only at hcount
    rw [hcount] at hin
    exact hmem hin

theorem amountOf_leftGroups_le : amountOf (unwrapOr fails [] (leftGroups db limit values)) zone ≤
    occurs values (some zone) := by
  unfold unwrapOr
  split_ifs
  · exact Nat.zero_le _
  · rw [amountOf_leftGroups]
    split_ifs
    · exact le_rfl
    · exact Nat.zero_le _

/-- A source tells the count of a zone exactly if the zone has not been cut. -/
theorem amountOf_eq_iff_uncut : amountOf (unwrapOr fails [] (leftGroups db statsBucketLimit values)) zone =
    occurs values (some zone) ↔ Uncut db fails values zone := by
  unfold Uncut
  by_cases hin : some zone ∈ values
  case neg =>
    refine iff_of_true ?_ fun h => absurd h hin
    have hzero := occurs_eq_zero hin
    rw [hzero]
    exact Nat.eq_zero_of_le_zero (hzero ▸ amountOf_leftGroups_le)
  have hpos : 0 < occurs values (some zone) := occurs_pos_iff.mpr hin
  have hgroup : (some zone, occurs values (some zone)) ∈ groupCount values :=
    ((counts_groupCount values).mem _).mpr ⟨rfl, hpos⟩
  have hmem := @mem_take_sortBy _ _ _ (rank (valueOrd db)) (groupCount values) _ statsBucketLimit
    (rank_injective (valueOrd_injective db)) (counts_groupCount values).nodup hgroup
  rw [← hmem]
  cases fails with
  | true =>
    show amountOf ([] : List (String × ℕ)) zone = _ ↔ _
    have hnil : amountOf ([] : List (String × ℕ)) zone = 0 := rfl
    rw [hnil]
    refine iff_of_false hpos.ne fun h => ?_
    cases (h hin).1
  | false =>
    show amountOf (leftGroups db statsBucketLimit values) zone = _ ↔ _
    rw [amountOf_leftGroups]
    unfold top
    split_ifs with hfirst
    · exact iff_of_true rfl fun _ => ⟨rfl, hfirst⟩
    · exact iff_of_false hpos.ne fun h => hfirst (h hin).2

end Cut

/-! ### The list of a response -/

section Responses
variable {κ : Type} [LinearOrder κ] {db : Database κ} {env : Env} {rows : List EventRow}
  {user : AuthenticatedUser} {hours : Option ℤ}

/-- What the route answers to a valid window. -/
theorem deathsByZone_statsCombat {window : ℤ} {since : Option ℤ}
    (hwindow : parseStatsWindow env.now hours = .ok (window, since)) :
    ∃ resp, statsCombat db env rows user hours = .ok resp ∧ resp.deathsByZone =
      mergeBuckets
        (unwrapOr env.zonesActorFail []
          (leftGroups db statsBucketLimit (actorZones db rows user.preferredUsername since)))
        (unwrapOr env.zonesPlayerFail []
          (leftGroups db statsBucketLimit (playerZones db rows user.preferredUsername since)))
        statsBucketLimit := by
  unfold statsCombat
  rw [hwindow]
  exact ⟨_, rfl, rfl⟩

/-- What is left of both sources makes up the true list exactly if each zone of that is uncut in both. -/
theorem mergeBuckets_eq_trueTop (env : Env) (handle : String) (since : Option ℤ) : mergeBuckets
      (unwrapOr env.zonesActorFail []
        (leftGroups db statsBucketLimit (actorZones db rows handle since)))
      (unwrapOr env.zonesPlayerFail []
        (leftGroups db statsBucketLimit (playerZones db rows handle since)))
      statsBucketLimit = trueTop db rows handle since ↔
    ∀ g ∈ trueTop db rows handle since,
      Uncut db env.zonesActorFail (actorZones db rows handle since) g.1 ∧
      Uncut db env.zonesPlayerFail (playerZones db rows handle since) g.1 := by
  have hpos : ∀ (fails : Bool) (values : List (Option String)),
      ∀ e ∈ unwrapOr fails [] (leftGroups db statsBucketLimit values), 0 < e.2 := by
    intro fails values e he
    unfold unwrapOr at he
    split_ifs at he
    · cases he
    · exact pos_leftGroups e he
  have htrue := counts_groupCount (deathZones db rows handle since)
  unfold mergeBuckets trueTop
  rw [top_eq_iff (fun _ _ h => String.toList_injective h) htrue
    (counts_merge fun e he => (List.mem_append.mp he).elim (hpos _ _ e) (hpos _ _ e)) fun zone => ?_]
  · refine forall₂_congr fun g hg => ?_
    have hcount := ((htrue.mem g).mp (mem_of_mem_top hg)).1
    rw [hcount, occurs_deathZones, amountOf_append, ← amountOf_eq_iff_uncut, ← amountOf_eq_iff_uncut]
    have hactor := @amountOf_leftGroups_le κ _ db env.zonesActorFail (actorZones db rows handle since) g.1
      statsBucketLimit
    have hplayer := @amountOf_leftGroups_le κ _ db env.zonesPlayerFail (playerZones db rows handle since)
      g.1 statsBucketLimit
    omega
  · rw [occurs_deathZones, amountOf_append]
    exact Nat.add_le_add amountOf_leftGroups_le amountOf_leftGroups_le

/-- **The zones of a response are the true ones exactly if each zone of the true list is uncut in both
sources.** -/
theorem trueZones_iff : TrueZones db env rows user hours ↔
    ∀ window since, parseStatsWindow env.now hours = .ok (window, since) →
      ∀ g ∈ trueTop db rows user.preferredUsername since,
        Uncut db env.zonesActorFail (actorZones db rows user.preferredUsername since) g.1 ∧
        Uncut db env.zonesPlayerFail (playerZones db rows user.preferredUsername since) g.1 := by
  constructor
  · intro htrue window since hwindow
    obtain ⟨resp, hresp, hzones⟩ :=
      @deathsByZone_statsCombat κ _ db env rows user hours window since hwindow
    exact (mergeBuckets_eq_trueTop env _ since).mp
      (hzones.symm.trans (htrue window since resp hwindow hresp))
  · intro huncut window since resp hwindow hresp
    obtain ⟨resp', hresp', hzones⟩ :=
      @deathsByZone_statsCombat κ _ db env rows user hours window since hwindow
    obtain rfl := Except.ok.inj (hresp.symm.trans hresp')
    exact hzones.trans ((mergeBuckets_eq_trueTop env _ since).mpr (huncut window since hwindow))

end Responses

/-! ### A zone that is cut -/

/-- Texts in the order of their characters. -/
def plainDatabase : Database (List Char) :=
  ⟨⟨String.toList, fun _ _ h => String.toList_injective h⟩, Value.render⟩

def sound : Env := ⟨0, false, false, false, false, false, false⟩

def jim : AuthenticatedUser := ⟨"1", "Jim", .user, none⟩

def zoneName (i : ℕ) : String := "Z" ++ toString i

def death (eventType : String) (i : ℕ) : EventRow :=
  ⟨i, ⟨"", "Jim", eventType, some 0, .live, 0, "",
    .obj [("victim", .str "Jim"), ("zone", .str (zoneName i))], none⟩, none⟩

/-- An actor death in each of 101 zones, and a player death in the one that is the last by its name. -/
def deaths : List EventRow := (List.range 101).map (death "actor_death") ++ [death "player_death" 99]

theorem nodup_zoneNames : ((List.range 101).map zoneName).Nodup := by
  refine List.nodup_range.map fun i j h => ?_
  exact Lib.Text.toString_nat_inj ((String.append_right_inj "Z").mp h)

/-- The zone with two deaths is the first of the true list. -/
theorem mem_trueTop_deaths :
    (zoneName 99, 2) ∈ trueTop plainDatabase deaths "Jim" (some (-2592000000000)) := by
  have hzones : deathZones plainDatabase deaths "Jim" (some (-2592000000000)) =
      (List.range 101).map zoneName ++ [zoneName 99] := by decide +kernel
  have hcounts := counts_groupCount ((List.range 101).map zoneName ++ [zoneName 99])
  have hoccurs : ∀ z, occurs ((List.range 101).map zoneName ++ [zoneName 99]) z ≤
      1 + if z = zoneName 99 then 1 else 0 := by
    intro z
    unfold occurs
    rw [List.count_append, List.count_singleton]
    have hone := List.nodup_iff_count_le_one.mp nodup_zoneNames z
    by_cases hz : z = zoneName 99
    · simp [hz]
      exact hz ▸ hone
    · simpa [hz, Ne.symm hz] using hone
  have hgroup : (zoneName 99, 2) ∈ groupCount ((List.range 101).map zoneName ++ [zoneName 99]) :=
    (hcounts.mem _).mpr ⟨by decide +kernel, Nat.two_pos⟩
  unfold trueTop
  rw [hzones]
  refine (mem_take_sortBy (rank_injective fun _ _ h => String.toList_injective h) hcounts.nodup
    hgroup).mpr ?_
  rw [List.countP_eq_zero.mpr fun b hb hlt => ?_]
  · decide
  · have hlt := of_decide_eq_true hlt
    obtain ⟨hcount, -⟩ := (hcounts.mem b).mp hb
    have hle : b.2 ≤ 1 + if b.1 = zoneName 99 then 1 else 0 := hcount.le.trans (hoccurs b.1)
    have htwo : 2 ≤ b.2 := le_of_rank_lt hlt
    split_ifs at hle with hzone
    · have hsame : b = (zoneName 99, 2) := Prod.ext hzone (by omega)
      exact lt_irrefl _ (hsame ▸ hlt)
    · omega

/-- The zone with the most deaths is cut from the actor deaths, so only one of its two is counted. -/
theorem not_trueZones_deaths : ¬ TrueZones plainDatabase sound deaths jim none := by
  intro htrue
  have hwindow : parseStatsWindow sound.now none = .ok (720, some (-2592000000000)) := by decide +kernel
  obtain ⟨resp, hresp, hzones⟩ :=
    @deathsByZone_statsCombat _ _ plainDatabase sound deaths jim none _ _ hwindow
  have huncut := (mergeBuckets_eq_trueTop sound "Jim" (some (-2592000000000))).mp
    (hzones.symm.trans (htrue _ _ resp hwindow hresp))
  have hactor : actorZones plainDatabase deaths "Jim" (some (-2592000000000)) =
      ((List.range 101).map zoneName).map some := by decide +kernel
  have hnodup : (((List.range 101).map zoneName).map some).Nodup :=
    nodup_zoneNames.map (Option.some_injective _)
  have hone := (huncut _ mem_trueTop_deaths).1
  unfold Uncut at hone
  rw [hactor, groupCount_of_nodup hnodup] at hone
  have hahead := (hone (by decide +kernel)).2
  revert hahead
  decide +kernel

end StarStats.Server.TopZones
