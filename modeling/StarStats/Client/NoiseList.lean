import StarStats.Client.Store
import StarStats.Lib.Text
import StarStats.Lib.Threads

/-! # The list of noise

Events on the list of noise are not sampled: a line of one is checked against the list, and only then
recorded. An event is put on the list by the user, which also deletes its samples, or with the defaults
when the store is opened; an opening takes names off the list that an earlier version has shipped. A line that
has been checked before a mark may be recorded after it; those are all: a mark silences its event, as long as
it is on the list, exactly if no such line is recorded (`silent_iff`). -/

namespace StarStats.Client.NoiseList

open StarStats.Lib.Tables StarStats.Lib.Text StarStats.Lib.Threads StarStats.Client.Store

/-- A row of `event_noise_list`. -/
structure NoiseRow where
  eventName : String
  source : String

/-- The two tables that take part. -/
structure Db where
  noise : Table NoiseRow.eventName
  samples : Table UnknownSampleRow.key

/-- `DEFAULT_NOISE`: chatter of the engine that says nothing of the player. -/
def defaultNoise : List String :=
  ["StatObjLoad 0x800 Format", "CContextEstablisherStepStart", "ContextEstablisherTaskFinished",
    "Context Establisher Blocked", "Context Establisher Unblocked", "Context Establisher Done",
    "ContextEstablisher Model Change State", "ContextEstablisher State Change Delivery Result",
    "ContextEstablisher Send State Change", "ContextEstablisher Remote Change State Success",
    "CSCLoadingPlatformManager::TransitionLightGroupState",
    "CSCLoadingPlatformManager::LoadEntitiesReference",
    "CSCLoadingPlatformManager::LoadEntitiesReference::<lambda_1>::operator ()",
    "CSCLoadingPlatformManager::OnLoadingPlatformStateChanged",
    "CSCLoadingPlatformManager::StopEffectForAllTags",
    "CSCLoadingPlatformManager::loadEntityFromXML::<lambda_1>::operator ()",
    "LoadingPlatformUtilities::LoadFromXmlNode", "Update group cache", "SerializedOverwrite",
    "RegisterUniverseHierarchy_End", "ReuseChannel", "Stream started", "[BuildingBlocks] Invalid Url",
    "ProximitySensorMakingLocalHelper"]

/-- `LIKE '%…%'`, which does not tell small letters from capital ones. -/
def likeContains (s needle : String) : Bool :=
  infixOf needle.toList (s.toList.map Char.toLower)

/-- The names under which earlier versions have shipped what is now captured otherwise. -/
def obsolete (eventName : String) : Bool :=
  likeContains eventName "::<lambda" && !likeContains eventName "operator ()"

/-- A name that an earlier parser has cut short. -/
def malformed (eventName : String) : Bool :=
  likeContains eventName "::<lambda" && !endsWith eventName ">"

section Statements
variable (db : Db)

/-- Is the event on the list? -/
def isNoise (eventName : String) : Bool := decide (eventName ∈ db.noise.keys)

/-- A sample of an event; one that is there is counted and replaced. -/
def recordUnknown (now logSource eventName sampleLine sampleBody : String) : Db :=
  { db with
    samples := db.samples.upsert ⟨logSource, eventName, 1, now, now, sampleLine, sampleBody⟩
      (Storage.touchUnknown now sampleLine sampleBody) fun _ => rfl }

/-- The sample of an event and a log is taken away. -/
def deleteUnknown (logSource eventName : String) : Db :=
  { db with samples := db.samples.deleteWhere fun r => r.logSource = logSource ∧ r.eventName = eventName }

/-- A mark, whose second statement may fail. -/
def addNoise (purgeFails : Bool) (eventName source : String) : Db where
  noise := db.noise.insert ⟨eventName, source⟩
  samples := if purgeFails then db.samples else db.samples.deleteWhere fun r => r.eventName = eventName

/-- What the list was shipped with, and is obsolete, is taken off it; what the user has marked stays. -/
def dropObsolete : Db :=
  { db with noise := db.noise.deleteWhere fun r => r.source = "builtin" && obsolete r.eventName }

/-- The names are put on the list, where they are not on it. -/
def seedNoise (names : List String) : Db :=
  { db with noise := db.noise.insertAll (names.map fun name => ⟨name, "builtin"⟩) }

/-- The samples of events on the list are deleted. -/
def purgeNoise : Db := { db with samples := db.samples.deleteWhere fun r => isNoise db r.eventName }

/-- The samples under malformed names are deleted. -/
def purgeMalformed : Db := { db with samples := db.samples.deleteWhere fun r => malformed r.eventName }

end Statements

/-- A call that reads or changes the two tables. -/
inductive Request where
  /-- A line that no rule recognises. -/
  | line (logSource eventName sampleLine sampleBody : String)
  /-- The user marks an event. -/
  | mark (eventName : String)
  /-- A re-parse has recognised a sample. -/
  | forget (logSource eventName : String)
  /-- The store is opened. -/
  | reopen

/-- Where a request is. -/
inductive Place where
  | asked
  /-- The event of the line was not on the list. -/
  | clean
  | dropped
  | seeded
  | purged
  | done
  deriving DecidableEq

/-- The clock, and which statements fail; of the default names so many are inserted before one fails. -/
structure Env where
  now : String
  fault : Bool
  purgeFails : Bool
  inserted : ℕ

section Handlers
variable (env : Env) (db : Db)

/-- The end of `ingest_one_line`, for a line that no rule recognises. -/
def ingestLine (logSource eventName sampleLine sampleBody : String) : Place → Db × Place
  | .asked => (db, if env.fault || isNoise db eventName then .done else .clean)
  | .clean =>
    (if env.fault then db else recordUnknown db env.now logSource eventName sampleLine sampleBody, .done)
  | place => (db, place)

/-- `mark_event_as_noise` -/
def markEventAsNoise (eventName : String) : Place → Db × Place
  | .asked => (if env.fault then db else addNoise db env.purgeFails eventName "user", .done)
  | place => (db, place)

/-- A re-parse takes away a sample that it has recognised. -/
def forget (logSource eventName : String) : Place → Db × Place
  | .asked => (if env.fault then db else deleteUnknown db logSource eventName, .done)
  | place => (db, place)

/-- The statements of `seed_default_noise` and `purge_noise_from_unknowns`; the first that fails is the
last. -/
def openStorage : Place → Db × Place
  | .asked => if env.fault then (db, .done) else (dropObsolete db, .dropped)
  | .dropped =>
    if env.fault then (seedNoise db (defaultNoise.take env.inserted), .done)
    else (seedNoise db defaultNoise, .seeded)
  | .seeded => if env.fault then (db, .done) else (purgeNoise db, .purged)
  | .purged => if env.fault then (db, .done) else (purgeMalformed db, .done)
  | place => (db, place)

end Handlers

section Machine
variable {ι : Type} [DecidableEq ι] (requests : ι → Request) (start : Db)

/-- A request takes its next step. -/
def step (i : ι) (env : Env) (db : Db) (place : Place) : Db × Place :=
  match requests i with
  | .line logSource eventName sampleLine sampleBody =>
    ingestLine env db logSource eventName sampleLine sampleBody place
  | .mark eventName => markEventAsNoise env db eventName place
  | .forget logSource eventName => forget env db logSource eventName place
  | .reopen => openStorage env db place

/-- The tables are as an earlier version may have left them, and all requests are yet to begin. -/
def initial : Shared ι Db Place := ⟨start, fun _ => .asked⟩

variable (as : List (ι × Env))

/-- The state after the first turns. -/
def state (n : ℕ) : Shared ι Db Place := after (step requests) (initial start) as n

/-- The event has a sample. -/
def Sampled (db : Db) (e : String) : Prop := ∃ r ∈ db.samples.contents, r.eventName = e

/-- The event is on the list as one that the list was shipped with. -/
def Shipped (db : Db) (e : String) : Prop :=
  ∃ row ∈ db.noise.contents, row.eventName = e ∧ row.source = "builtin"

/-- A mark of the event goes all the way. -/
def Marks (e : String) (n : ℕ) : Prop :=
  ∃ i env, as[n]? = some (i, env) ∧ requests i = .mark e ∧ (state requests start as n).place i = .asked ∧
    env.fault = false ∧ env.purgeFails = false

/-- An opening takes the event off the list. -/
def Drops (e : String) (n : ℕ) : Prop :=
  ∃ i env, as[n]? = some (i, env) ∧ requests i = .reopen ∧ (state requests start as n).place i = .asked ∧
    env.fault = false ∧ obsolete e = true ∧ Shipped (state requests start as n).store e

/-- The line of a request is recorded as a sample of the event. -/
def Records (e : String) (i : ι) (n : ℕ) : Prop :=
  ∃ env, as[n]? = some (i, env) ∧ (∃ s l b, requests i = .line s e l b) ∧
    (state requests start as n).place i = .clean ∧ env.fault = false

/-- The event has no sample between two moments. -/
def Silent (e : String) (p n : ℕ) : Prop :=
  ∀ m, p < m → m ≤ n → ¬ Sampled (state requests start as m).store e

end Machine

/-! ### What a step does -/

section Steps
variable {ι : Type} {requests : ι → Request} {i : ι} {env : Env} {db : Db} {place : Place} {e : String}

theorem Sampled.congr {db' : Db} (hsame : db'.samples = db.samples) (h : Sampled db' e) : Sampled db e := by
  obtain ⟨r, hr, he⟩ := h
  exact ⟨r, hsame ▸ hr, he⟩

theorem Sampled.of_deleteWhere {db' : Db} {p : UnknownSampleRow → Bool}
    (hsame : db'.samples = db.samples.deleteWhere p) (h : Sampled db' e) : Sampled db e := by
  obtain ⟨r, hr, he⟩ := h
  rw [hsame] at hr
  exact ⟨r, (Table.mem_contents_deleteWhere.mp hr).1, he⟩

theorem sampled_recordUnknown {now s e' l b : String} :
    Sampled (recordUnknown db now s e' l b) e ↔ Sampled db e ∨ e' = e := by
  constructor
  · rintro ⟨r, hr, rfl⟩
    rcases Table.mem_contents_upsert.mp hr with ⟨hold, -⟩ | ⟨r₀, -, hkey, rfl⟩ | ⟨-, rfl⟩
    · exact Or.inl ⟨r, hold, rfl⟩
    · exact Or.inr (congrArg Prod.snd hkey).symm
    · exact Or.inr rfl
  · intro h
    have hkeep : ∀ r ∈ db.samples.contents, Sampled (recordUnknown db now s e' l b) r.eventName := by
      intro r hr
      by_cases hkey : r.key = (s, e')
      · exact ⟨_, Table.mem_contents_upsert.mpr (Or.inr (Or.inl ⟨r, hr, hkey, rfl⟩)), rfl⟩
      · exact ⟨r, Table.mem_contents_upsert.mpr (Or.inl ⟨hr, hkey⟩), rfl⟩
    rcases h with ⟨r, hr, rfl⟩ | rfl
    · exact hkeep r hr
    · by_cases hused : (s, e') ∈ db.samples.keys
      · obtain ⟨a, ha, hkey⟩ := Table.mem_keys.mp hused
        have hname : a.2.eventName = e' := congrArg Prod.snd hkey
        have hkept := hkeep a.2 (List.mem_map_of_mem ha)
        rwa [hname] at hkept
      · exact ⟨_, Table.mem_contents_upsert.mpr (Or.inr (Or.inr ⟨hused, rfl⟩)), rfl⟩

theorem samples_seedNoise {names : List String} : (seedNoise db names).samples = db.samples := rfl

theorem isNoise_seedNoise {names : List String} (h : isNoise db e = true) :
    isNoise (seedNoise db names) e = true := by
  unfold isNoise seedNoise
  rw [decide_eq_true_eq]
  exact Table.mem_keys_insertAll.mpr (Or.inl (of_decide_eq_true h))

theorem sampled_openStorage (h : Sampled (openStorage env db place).1 e) : Sampled db e := by
  unfold openStorage at h
  cases place with
  | asked =>
    simp only at h
    split_ifs at h
    · exact h
    · have hsame : (dropObsolete db).samples = db.samples := rfl
      exact Sampled.congr hsame h
  | dropped =>
    simp only at h
    split_ifs at h
    · exact Sampled.congr samples_seedNoise h
    · exact Sampled.congr samples_seedNoise h
  | seeded =>
    simp only at h
    split_ifs at h
    · exact h
    · have hsame : (purgeNoise db).samples = db.samples.deleteWhere fun r => isNoise db r.eventName := rfl
      exact Sampled.of_deleteWhere hsame h
  | purged =>
    simp only at h
    split_ifs at h
    · exact h
    · have hsame : (purgeMalformed db).samples = db.samples.deleteWhere fun r => malformed r.eventName := rfl
      exact Sampled.of_deleteWhere hsame h
  | _ => exact h

/-- A turn that makes the first sample of an event records a line of it. -/
theorem records_of_sampled (hbefore : ¬ Sampled db e) (h : Sampled (step requests i env db place).1 e) :
    (∃ s l b, requests i = .line s e l b) ∧ place = .clean ∧ env.fault = false := by
  unfold step at h
  cases hrequest : requests i with
  | line s e' l b =>
    rw [hrequest] at h
    cases place with
    | clean =>
      simp only [ingestLine] at h
      split_ifs at h with hfault
      · exact absurd h hbefore
      · obtain rfl := (sampled_recordUnknown.mp h).resolve_left hbefore
        exact ⟨⟨s, l, b, rfl⟩, rfl, Bool.not_eq_true _ ▸ hfault⟩
    | _ => exact absurd h hbefore
  | mark e' =>
    rw [hrequest] at h
    refine absurd ?_ hbefore
    cases place with
    | asked =>
      simp only [markEventAsNoise] at h
      split_ifs at h
      · exact h
      · cases hpurge : env.purgeFails with
        | true =>
          have hsame : (addNoise db env.purgeFails e' "user").samples = db.samples := by
            simp [addNoise, hpurge]
          exact h.congr hsame
        | false =>
          refine h.of_deleteWhere (p := fun r => r.eventName = e') ?_
          simp [addNoise, hpurge]
    | _ => exact h
  | forget s e' =>
    rw [hrequest] at h
    refine absurd ?_ hbefore
    cases place with
    | asked =>
      simp only [forget] at h
      split_ifs at h
      · exact h
      · have hsame : (deleteUnknown db s e').samples =
            db.samples.deleteWhere fun r => r.logSource = s ∧ r.eventName = e' := rfl
        exact Sampled.of_deleteWhere hsame h
    | _ => exact h
  | reopen =>
    rw [hrequest] at h
    exact absurd (sampled_openStorage h) hbefore

theorem isNoise_insert {row : NoiseRow} (h : isNoise db e = true) {samples : Table UnknownSampleRow.key} :
    isNoise ⟨db.noise.insert row, samples⟩ e = true := by
  have hmem : e ∈ db.noise.keys := of_decide_eq_true h
  exact decide_eq_true (Table.mem_keys_insert.mpr (Or.inl hmem))

theorem isNoise_openStorage (h : isNoise db e = true)
    (hkept : ¬ (place = .asked ∧ env.fault = false ∧ obsolete e = true ∧ Shipped db e)) :
    isNoise (openStorage env db place).1 e = true := by
  have hmem : e ∈ db.noise.keys := of_decide_eq_true h
  unfold openStorage
  cases place with
  | asked =>
    simp only
    split_ifs with hfault
    · exact h
    · obtain ⟨a, ha, hname⟩ := Table.mem_keys.mp hmem
      refine decide_eq_true (Table.mem_keys.mpr ⟨a, ?_, hname⟩)
      refine List.mem_filter.mpr ⟨ha, ?_⟩
      rw [Bool.not_eq_true', Bool.and_eq_false_iff]
      by_cases hsource : a.2.source = "builtin"
      · right
        by_contra hold
        have hobsolete : obsolete e = true := by
          have hrow : obsolete a.2.eventName = true := by simpa using hold
          rwa [hname] at hrow
        have hshipped : Shipped db e := ⟨a.2, Table.mem_contents.mpr ⟨a, ha, rfl⟩, hname, hsource⟩
        exact hkept ⟨rfl, by simpa using hfault, hobsolete, hshipped⟩
      · left
        exact decide_eq_false hsource
  | dropped =>
    simp only
    split_ifs
    · exact isNoise_seedNoise h
    · exact isNoise_seedNoise h
  | seeded =>
    simp only
    split_ifs
    · exact h
    · exact h
  | purged =>
    simp only
    split_ifs
    · exact h
    · exact h
  | _ => exact h

/-- The list loses a name only where an opening drops it. -/
theorem isNoise_step (h : isNoise db e = true)
    (hkept : ¬ (requests i = .reopen ∧ place = .asked ∧ env.fault = false ∧ obsolete e = true ∧
      Shipped db e)) :
    isNoise (step requests i env db place).1 e = true := by
  unfold step
  cases hrequest : requests i with
  | line s e' l b =>
    cases place with
    | clean =>
      simp only [ingestLine]
      split_ifs
      · exact h
      · exact h
    | _ => exact h
  | mark e' =>
    cases place with
    | asked =>
      simp only [markEventAsNoise]
      split_ifs
      · exact h
      · exact isNoise_insert h
    | _ => exact h
  | forget s e' =>
    cases place with
    | asked =>
      simp only [forget]
      split_ifs
      · exact h
      · exact h
    | _ => exact h
  | reopen => exact isNoise_openStorage h fun hdrop => hkept ⟨hrequest, hdrop⟩

theorem clean_step (hbefore : place ≠ .clean) (h : (step requests i env db place).2 = .clean) :
    ∃ s e l b, requests i = .line s e l b ∧ isNoise db e = false := by
  unfold step at h
  cases hrequest : requests i with
  | line s e l b =>
    rw [hrequest] at h
    cases place with
    | asked =>
      simp only [ingestLine] at h
      split_ifs at h with hskip
      simp only [Bool.or_eq_true, not_or, Bool.not_eq_true] at hskip
      exact ⟨s, e, l, b, rfl, hskip.2⟩
    | clean => exact absurd rfl hbefore
    | _ => cases h
  | mark e =>
    rw [hrequest] at h
    cases place with
    | clean => exact absurd rfl hbefore
    | _ => cases h
  | forget s e =>
    rw [hrequest] at h
    cases place with
    | clean => exact absurd rfl hbefore
    | _ => cases h
  | reopen =>
    rw [hrequest] at h
    unfold openStorage at h
    cases place with
    | clean => exact absurd rfl hbefore
    | done => cases h
    | _ => simp only at h; split_ifs at h

theorem marked_step (hmark : requests i = .mark e) (hfault : env.fault = false)
    (hpurge : env.purgeFails = false) : isNoise (step requests i env db .asked).1 e = true ∧
      ¬ Sampled (step requests i env db .asked).1 e := by
  have hstep : (step requests i env db .asked).1 = addNoise db false e "user" := by
    simp [step, hmark, markEventAsNoise, hfault, hpurge]
  rw [hstep]
  constructor
  · exact decide_eq_true (Table.key_mem_keys_insert db.noise ⟨e, "user"⟩)
  · rintro ⟨r, hr, he⟩
    have hrow : r ∈ (db.samples.deleteWhere fun r => r.eventName = e).contents := hr
    have hkept := (Table.mem_contents_deleteWhere.mp hrow).2
    simp [he] at hkept

end Steps

/-! ### Runs -/

section Runs
variable {ι : Type} [DecidableEq ι] {requests : ι → Request} {start : Db} {as : List (ι × Env)} {e : String}
  {p N : ℕ}

/-- After a mark an event stays on the list until an opening drops it. -/
theorem isNoise_between (hmark : Marks requests start as e p)
    (hkept : ∀ q, p < q → q < N → ¬ Drops requests start as e q) {n : ℕ} (hpn : p < n)
    (hnN : n ≤ N) : isNoise (state requests start as n).store e = true := by
  induction n, hpn using Nat.le_induction with
  | base =>
    obtain ⟨i, env, ha, hrequest, hplace, hfault, hpurge⟩ := hmark
    have hturn : state requests start as (p + 1) =
        turn (step requests) (state requests start as p) (i, env) := after_succ ha
    rw [hturn, store_turn, hplace]
    exact (marked_step hrequest hfault hpurge).1
  | succ n hpn ih =>
    have hbefore := ih (by omega)
    cases ha : as[n]? with
    | none =>
      have hsame : state requests start as (n + 1) = state requests start as n := after_of_none ha
      rw [hsame]
      exact hbefore
    | some a =>
      have hturn : state requests start as (n + 1) = turn (step requests) (state requests start as n) a :=
        after_succ ha
      rw [hturn, store_turn]
      refine isNoise_step hbefore ?_
      rintro ⟨hreopen, hasked, hfault, hobsolete, hshipped⟩
      exact hkept n (by omega) (by omega) ⟨a.1, a.2, ha, hreopen, hasked, hfault, hobsolete, hshipped⟩

theorem not_sampled_mark (hmark : Marks requests start as e p) :
    ¬ Sampled (state requests start as (p + 1)).store e := by
  obtain ⟨i, env, ha, hrequest, hplace, hfault, hpurge⟩ := hmark
  have hturn : state requests start as (p + 1) = turn (step requests) (state requests start as p) (i, env) :=
    after_succ ha
  rw [hturn, store_turn, hplace]
  exact (marked_step hrequest hfault hpurge).2

/-- A line that is recorded after a mark has been checked before it. -/
theorem clean_of_records (hmark : Marks requests start as e p)
    (hkept : ∀ q, p < q → q < N → ¬ Drops requests start as e q) {i : ι} {m : ℕ} (hpm : p < m) (hmN : m < N)
    (hrecords : Records requests start as e i m) : (state requests start as p).place i = .clean := by
  obtain ⟨env, -, ⟨s, l, b, hline⟩, hclean, -⟩ := hrecords
  have hstart : ¬ (@initial ι start).place i = .clean := by rintro ⟨⟩
  obtain ⟨k, env', hkm, ha, hbefore, hstays⟩ := @exists_arrival ι Db Place Env _ (step requests)
    (initial start) as i (fun place => place = .clean) hstart m hclean
  have hnext := hstays (k + 1) (by omega) (by omega)
  rw [after_succ ha, place_turn_self] at hnext
  obtain ⟨s', e', l', b', hline', hfree⟩ := clean_step hbefore hnext
  obtain ⟨-, rfl, -, -⟩ := Request.line.inj (hline.symm.trans hline')
  rcases Nat.lt_trichotomy k p with hkp | rfl | hpk
  · exact hstays p hkp (by omega)
  · obtain ⟨j, env₂, ha₂, hrequest, -⟩ := hmark
    obtain ⟨rfl, -⟩ := Prod.mk.inj (Option.some.inj (ha.symm.trans ha₂))
    rw [hline] at hrequest
    cases hrequest
  · have hnoise : isNoise (state requests start as k).store e = true :=
      isNoise_between hmark hkept hpk (by omega)
    exact Bool.noConfusion (hfree.symm.trans hnoise)

/-- **A mark silences its event, as long as it is on the list, exactly if no line that was checked before
it is recorded after it.** -/
theorem silent_iff (hmark : Marks requests start as e p)
    (hkept : ∀ q, p < q → q < N → ¬ Drops requests start as e q) :
    Silent requests start as e p N ↔
      ∀ i m, (state requests start as p).place i = .clean → p < m → m < N →
        ¬ Records requests start as e i m := by
  constructor
  · rintro hsilent i m - hpm hmN ⟨env, ha, ⟨s, l, b, hline⟩, hclean, hfault⟩
    refine hsilent (m + 1) (by omega) hmN ?_
    have hturn : state requests start as (m + 1) =
        turn (step requests) (state requests start as m) (i, env) := after_succ ha
    rw [hturn, store_turn, hclean]
    have hstep : (step requests i env (state requests start as m).store .clean).1 =
        recordUnknown (state requests start as m).store env.now s e l b := by
      simp [step, hline, ingestLine, hfault]
    rw [hstep]
    exact sampled_recordUnknown.mpr (Or.inr rfl)
  · intro hnone n hpn hnN hsampled
    rcases holds_or_turned (P := fun db => Sampled db e) hpn hsampled with
      hfirst | ⟨m, i, env, hpm, hmn, ha, hbefore, hmade⟩
    · exact not_sampled_mark hmark hfirst
    · have hrecords : Records requests start as e i m := ⟨env, ha, records_of_sampled hbefore hmade⟩
      have hclean := clean_of_records hmark hkept hpm (by omega) hrecords
      exact hnone i m hclean hpm (by omega) hrecords

end Runs

/-- The user marks an event under an obsolete name, the store is opened again, and a line of it comes. -/
def chatter : Option Bool → Request
  | some true => .mark "Chatter::<lambda_1>"
  | some false => .line "live" "Chatter::<lambda_1>" "" ""
  | none => .reopen

def turns : List (Option Bool × Env) := [some true, none, some false].map (·, ⟨"", false, false, 0⟩)

/-- The opening leaves what the user has marked on the list. -/
theorem silent_iff_reopened :
    Silent chatter ⟨Table.empty, Table.empty⟩ turns "Chatter::<lambda_1>" 0 3 := by
  have hmark : Marks chatter ⟨Table.empty, Table.empty⟩ turns "Chatter::<lambda_1>" 0 :=
    ⟨some true, ⟨"", false, false, 0⟩, rfl, rfl, rfl, rfl, rfl⟩
  refine (silent_iff hmark ?_).mpr ?_
  · rintro q hq hqN ⟨i, env, ha, hreopen, -, -, -, row, hrow, -, hsource⟩
    obtain rfl | rfl : q = 1 ∨ q = 2 := by omega
    · have hrows : (state chatter ⟨Table.empty, Table.empty⟩ turns 1).store.noise.contents =
          [⟨"Chatter::<lambda_1>", "user"⟩] := rfl
      rw [hrows, List.mem_singleton] at hrow
      rw [hrow] at hsource
      exact absurd hsource (by decide)
    · obtain ⟨rfl, -⟩ := Prod.mk.inj (Option.some.inj ha)
      cases hreopen
  · rintro i m hclean
    cases hclean

end StarStats.Client.NoiseList
