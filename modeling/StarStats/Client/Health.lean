import Mathlib.Data.List.ReduceOption
import Mathlib.Data.List.Sort
import StarStats.Lib.JsonText
import StarStats.Lib.Histories

/-! # The health page

What the page shows is derived from a snapshot of the client, less what the user has dismissed. A dismissal
is kept with the text of the item's parameters, in a file that other commands save as well, as they have
loaded it. So an item is hidden exactly if one with the same parameters is among the dismissals that the
last save kept (`shown_iff`): one whose parameters have changed is shown again, and an error is never
hidden (`error_mem_page`). -/

namespace StarStats.Client.Health

open StarStats.Lib.Histories StarStats.Lib.Json StarStats.Lib.Text StarStats.Lib.Threads

/-- How urgent an item is. -/
inductive Severity where
  | error
  | warn
  | info
  deriving DecidableEq

/-- What the health page can show. -/
inductive HealthId where
  | gamelogMissing
  | apiUrlMissing
  | pairMissing
  | authLost
  | cookieMissing
  | syncFailing
  | hangarSkip
  | emailUnverified
  | gameLogStale
  | updateAvailable
  | diskFreeLow
  deriving DecidableEq

/-- The field of the settings that an item points to. -/
inductive SettingsField where
  | gamelogPath
  | apiUrl
  | pairingCode
  | rsiCookie
  | updates
  deriving DecidableEq

/-- The button of an item. -/
inductive HealthAction where
  | goToSettings (field : SettingsField)
  | retrySync
  | refreshHangar
  | openUrl (url : String)
  deriving DecidableEq

/-- The values in an item's text. -/
inductive HealthParams where
  | gamelogMissing
  | apiUrlMissing
  | pairMissing
  | authLost
  | cookieMissing
  | syncFailing (lastError : String) (attemptsSinceSuccess : ℕ)
  | hangarSkip (reason since : String)
  | emailUnverified
  | gameLogStale (lastEventAt : String)
  | updateAvailable (version : String)
  | diskFreeLow (freeBytes : ℕ)
  deriving DecidableEq

/-- An item of the page. -/
structure HealthItem where
  id : HealthId
  severity : Severity
  params : HealthParams
  action : Option HealthAction
  dismissible : Bool
  fingerprint : String
  deriving DecidableEq

/-- An item that the user has put away, as it looked then. -/
structure DismissedHealth where
  id : HealthId
  fingerprint : String
  dismissedAt : ℤ

/-- Times are in nanoseconds. -/
structure HealthInputs where
  now : ℤ
  gamelogDiscoveredCount : ℕ
  gamelogOverrideSet : Bool
  remoteSyncEnabled : Bool
  apiUrl : Option String
  accessToken : Option String
  webOrigin : Option String
  authLost : Bool
  emailVerified : Option Bool
  cookieConfigured : Bool
  syncLastError : Option String
  syncAttemptsSinceSuccess : ℕ
  hangarLastAttemptAt : Option ℤ
  hangarLastSuccessAt : Option ℤ
  hangarLastSkipReason : Option String
  tailCurrentPath : Option String
  tailLastEventAt : Option ℤ
  scProcessRunning : Bool
  diskFreeBytes : Option ℕ
  updateAvailableVersion : Option String
  dismissed : List DismissedHealth

/-- After so many minutes a log that does not grow is stale. -/
def gameLogStaleMin : ℤ := 30

/-- One gibibyte. -/
def diskFreeLowThreshold : ℕ := 1073741824

/-! ### Items -/

/-- Parameters as they are serialised, with the tag first. -/
def HealthParams.fields : HealthParams → List (String × Value)
  | .gamelogMissing => [("id", .str "gamelog_missing")]
  | .apiUrlMissing => [("id", .str "api_url_missing")]
  | .pairMissing => [("id", .str "pair_missing")]
  | .authLost => [("id", .str "auth_lost")]
  | .cookieMissing => [("id", .str "cookie_missing")]
  | .syncFailing lastError attempts =>
    [("id", .str "sync_failing"), ("last_error", .str lastError), ("attempts_since_success", .int attempts)]
  | .hangarSkip reason since => [("id", .str "hangar_skip"), ("reason", .str reason), ("since", .str since)]
  | .emailUnverified => [("id", .str "email_unverified")]
  | .gameLogStale lastEventAt => [("id", .str "game_log_stale"), ("last_event_at", .str lastEventAt)]
  | .updateAvailable version => [("id", .str "update_available"), ("version", .str version)]
  | .diskFreeLow freeBytes => [("id", .str "disk_free_low"), ("free_bytes", .int freeBytes)]

/-- The text of the parameters: it changes when they do. -/
def fingerprint (params : HealthParams) : String := (Value.obj params.fields).render

/-- Errors cannot be put away. -/
def dismissibleFor (severity : Severity) : Bool := severity = .warn || severity = .info

/-- The derived fields follow from severity and parameters. -/
def item (id : HealthId) (severity : Severity) (params : HealthParams) (action : Option HealthAction) :
    HealthItem :=
  ⟨id, severity, params, action, dismissibleFor severity, fingerprint params⟩

/-- Put away, and unchanged since. -/
def isDismissed (i : HealthItem) (dismissed : List DismissedHealth) : Bool :=
  dismissed.any fun d => d.id = i.id && d.fingerprint = i.fingerprint

/-- The order of the severities on the page. -/
def severityOrder : Severity → ℕ
  | .error => 0
  | .warn => 1
  | .info => 2

/-- The order among equals. -/
def idOrder : HealthId → ℕ
  | .gamelogMissing => 0
  | .apiUrlMissing => 1
  | .pairMissing => 2
  | .authLost => 3
  | .cookieMissing => 4
  | .syncFailing => 5
  | .hangarSkip => 6
  | .emailUnverified => 7
  | .gameLogStale => 8
  | .updateAvailable => 9
  | .diskFreeLow => 10

/-- Whole minutes of a duration. -/
def numMinutes (d : ℤ) : ℤ := d.tdiv (60 * 10 ^ 9)

section Derive
variable (rfc3339 : ℤ → String) (inputs : HealthInputs)

/-- The checks in their order, each with the item that it raises. -/
def checks : List (Option HealthItem) :=
  [if inputs.gamelogDiscoveredCount = 0 && !inputs.gamelogOverrideSet then
      some (item .gamelogMissing .warn .gamelogMissing (some (.goToSettings .gamelogPath)))
    else none,
    if inputs.remoteSyncEnabled && inputs.apiUrl.isNone then
      some (item .apiUrlMissing .warn .apiUrlMissing (some (.goToSettings .apiUrl)))
    else none,
    if inputs.remoteSyncEnabled && inputs.apiUrl.isSome && inputs.accessToken.isNone then
      some (item .pairMissing .warn .pairMissing (some (.goToSettings .pairingCode)))
    else none,
    if inputs.authLost then
      some (item .authLost .error .authLost (some (.goToSettings .pairingCode)))
    else none,
    -- Only when paired, and after a first look at the hangar.
    if inputs.apiUrl.isSome && inputs.accessToken.isSome && !inputs.cookieConfigured &&
        inputs.hangarLastAttemptAt.isSome then
      some (item .cookieMissing .warn .cookieMissing (some (.goToSettings .rsiCookie)))
    else none,
    -- A lost authentication is the cause of a failing sync.
    inputs.syncLastError.bind fun lastError =>
      if inputs.authLost then none
      else
        some (item .syncFailing .error (.syncFailing lastError inputs.syncAttemptsSinceSuccess)
          (some .retrySync)),
    inputs.hangarLastSkipReason.bind fun reason =>
      if inputs.hangarLastSuccessAt.isSome then none
      else
        some (item .hangarSkip .warn
          (.hangarSkip reason (rfc3339 (inputs.hangarLastAttemptAt.getD inputs.now)))
          (some .refreshHangar)),
    inputs.webOrigin.bind fun origin =>
      if inputs.emailVerified = some false &&
          (startsWith origin "http://" || startsWith origin "https://") then
        some (item .emailUnverified .warn .emailUnverified
          (some (.openUrl (trimEndMatches (· = '/') origin ++ "/verify-email"))))
      else none,
    inputs.tailLastEventAt.bind fun last =>
      if inputs.scProcessRunning && inputs.tailCurrentPath.isSome &&
          gameLogStaleMin ≤ numMinutes (inputs.now - last) then
        some (item .gameLogStale .warn (.gameLogStale (rfc3339 last)) none)
      else none,
    inputs.updateAvailableVersion.map fun version =>
      item .updateAvailable .info (.updateAvailable version) (some (.goToSettings .updates)),
    inputs.diskFreeBytes.bind fun free =>
      if free < diskFreeLowThreshold then some (item .diskFreeLow .warn (.diskFreeLow free) none)
      else none]

/-- What the checks raise. -/
def raised : List HealthItem := (checks rfc3339 inputs).reduceOption

/-- The items that are raised and not put away, in the page's order. -/
def currentHealth : List HealthItem :=
  ((raised rfc3339 inputs).filter fun i => !isDismissed i inputs.dismissed).insertionSort fun a b =>
    severityOrder a.severity < severityOrder b.severity ∨
      (severityOrder a.severity = severityOrder b.severity ∧ idOrder a.id ≤ idOrder b.id)

end Derive

/-! ### Dismissals -/

/-- The item that parameters are of. -/
def HealthParams.id : HealthParams → HealthId
  | .gamelogMissing => .gamelogMissing
  | .apiUrlMissing => .apiUrlMissing
  | .pairMissing => .pairMissing
  | .authLost => .authLost
  | .cookieMissing => .cookieMissing
  | .syncFailing _ _ => .syncFailing
  | .hangarSkip _ _ => .hangarSkip
  | .emailUnverified => .emailUnverified
  | .gameLogStale _ => .gameLogStale
  | .updateAvailable _ => .updateAvailable
  | .diskFreeLow _ => .diskFreeLow

/-- What reaches the saved configuration. -/
inductive Request where
  | dismiss (id : HealthId)
  /-- Another command that loads the configuration and saves it again. -/
  | command

/-- Where a request is. -/
inductive Place where
  | asked
  /-- The item that was found on the page. -/
  | found (id : HealthId) (fingerprint : String)
  /-- The list that is to be saved. -/
  | loaded (dismissed : List DismissedHealth)
  | done

/-- The snapshot, and whether a step fails. -/
structure Env where
  inputs : HealthInputs
  fault : Bool

/-- The list in the configuration, and who holds the lock. -/
structure Site (ι : Type) where
  dismissed : List DismissedHealth
  lock : Option ι

section Machine
variable {ι : Type} [DecidableEq ι] (rfc3339 : ℤ → String) (requests : ι → Request)

/-- The page of a snapshot, with the dismissals of the configuration. -/
def page (inputs : HealthInputs) (dismissed : List DismissedHealth) : List HealthItem :=
  currentHealth rfc3339 { inputs with dismissed := dismissed }

/-- A dismissal looks its item up without the lock. -/
def findTarget (inputs : HealthInputs) (dismissed : List DismissedHealth) (id : HealthId) : Place :=
  match (page rfc3339 inputs dismissed).find? fun i => i.id = id with
  | none => .done
  | some target => if target.dismissible then .found target.id target.fingerprint else .done

/-- Only dismissals take the lock; a request that waits for it stays where it is. A save that fails fails
before it has written anything: one that dies within its write, which truncates the file first, is not in the
model. -/
def step (i : ι) (env : Env) (st : Site ι) : Place → Site ι × Place
  | .asked =>
    if env.fault then (st, .done)
    else
      match requests i with
      | .dismiss id => (st, findTarget rfc3339 env.inputs st.dismissed id)
      | .command => (st, .loaded st.dismissed)
  | .found id fingerprint =>
    if st.lock.isSome then (st, .found id fingerprint)
    else if env.fault then (st, .done)
    else
      ({ st with lock := some i }, .loaded (st.dismissed ++ [⟨id, fingerprint, env.inputs.now⟩]))
  | .loaded dismissed =>
    (⟨if env.fault then st.dismissed else dismissed, if st.lock = some i then none else st.lock⟩, .done)
  | .done => (st, .done)

/-- Nothing is dismissed, and all requests are yet to begin. -/
def initial : Shared ι (Site ι) Place := ⟨⟨[], none⟩, fun _ => .asked⟩

variable (as : List (ι × Env))

/-- The state after the first turns. -/
def state (n : ℕ) : Shared ι (Site ι) Place := after (step rfc3339 requests) initial as n

/-- A dismissal finds an item with these parameters on the page. -/
def Finds (params : HealthParams) (i : ι) (env : Env) (st : Site ι) (place : Place) : Prop :=
  place = .asked ∧ env.fault = false ∧ requests i = .dismiss params.id ∧
    ∃ target ∈ page rfc3339 env.inputs st.dismissed, target.params = params ∧ target.dismissible = true

/-- The lock is free. -/
def Proceeds (_ : Env) (st : Site ι) (_ : Place) : Prop := st.lock = none

/-- A request loads the configuration. -/
def Loads (i : ι) (env : Env) (st : Site ι) (place : Place) : Prop :=
  env.fault = false ∧
    (place = .asked ∧ requests i = .command ∨ (∃ id text, place = .found id text) ∧ st.lock = none)

/-- A request saves what it has loaded, a dismissal with its item. -/
def Saves (_ : ι) (env : Env) (_ : Site ι) (place : Place) : Prop :=
  (∃ dismissed, place = .loaded dismissed) ∧ env.fault = false

/-- The last save before `n`: at `p`, of what was loaded at `l`. -/
structure LastSave (n l p : ℕ) (i : ι) : Prop where
  after : l < p
  before : p < n
  loads : TurnOf (step rfc3339 requests) initial as i (Loads requests i) l
  idle : Idle as i l p
  saves : TurnOf (step rfc3339 requests) initial as i (Saves i) p
  last : ∀ q, p < q → q < n → ¬ Turns (step rfc3339 requests) initial as Saves q

/-- The last to save the configuration has dismissed an item with these parameters, or had loaded it with
one that was dismissed. -/
inductive Kept (params : HealthParams) : ℕ → Prop where
  | dismissed {n l p : ℕ} {i : ι} (hsave : LastSave rfc3339 requests as n l p i)
      (hfound : Since (TurnOf (step rfc3339 requests) initial as i (Finds rfc3339 requests params i))
        (TurnOf (step rfc3339 requests) initial as i Proceeds) l) : Kept params n
  | carried {n l p : ℕ} {i : ι} (hsave : LastSave rfc3339 requests as n l p i) (hkept : Kept params l) :
      Kept params n

end Machine

/-! ### What the checks raise -/

theorem HealthParams.fields_inj {p q : HealthParams} (h : p.fields = q.fields) : p = q := by
  cases p <;> cases q <;> simp_all [HealthParams.fields]

theorem fingerprint_inj {p q : HealthParams} (h : fingerprint p = fingerprint q) : p = q := by
  have hintegral : ∀ p : HealthParams, Integral (.obj p.fields) := by
    intro p
    cases p <;> simp [HealthParams.fields, Integral, IntegralFields]
  have hobj := render_inj (hintegral p) (hintegral q) h
  exact HealthParams.fields_inj (Value.obj.inj hobj)

/-- The severity each item is raised with. -/
def HealthId.severity : HealthId → Severity
  | .authLost => .error
  | .syncFailing => .error
  | .updateAvailable => .info
  | _ => .warn

/-- The item of an id. -/
structure Of (k : HealthId) (i : HealthItem) : Prop where
  id : i.id = k
  severity : i.severity = k.severity
  params : i.params.id = k
  dismissible : i.dismissible = dismissibleFor k.severity
  fingerprint : i.fingerprint = fingerprint i.params

section Raised
variable {rfc3339 : ℤ → String} {inputs : HealthInputs} {k : HealthId} {i j : HealthItem}
  {severity : Severity} {params : HealthParams} {action : Option HealthAction} {c : Prop} [Decidable c]

theorem of_item (hseverity : severity = k.severity) (hparams : params.id = k) :
    Of k (item k severity params action) := ⟨rfl, hseverity, hparams, by rw [← hseverity]; rfl, rfl⟩

theorem of_if {i : HealthItem} (h : Of k i) : ∀ i' ∈ (if c then some i else none), Of k i' := by
  intro i' hi'
  split_ifs at hi'
  · obtain rfl := Option.some.inj hi'
    exact h
  · cases hi'

theorem of_bind {α : Type} {o : Option α} {f : α → Option HealthItem} (h : ∀ a, ∀ i ∈ f a, Of k i) :
    ∀ i ∈ o.bind f, Of k i := by
  intro i hi
  obtain ⟨a, -, ha⟩ := Option.bind_eq_some_iff.mp hi
  exact h a i ha

/-- The ids in the order of the checks. -/
def allIds : List HealthId :=
  [.gamelogMissing, .apiUrlMissing, .pairMissing, .authLost, .cookieMissing, .syncFailing, .hangarSkip,
    .emailUnverified, .gameLogStale, .updateAvailable, .diskFreeLow]

theorem of_unless {i : HealthItem} (h : Of k i) : ∀ i' ∈ (if c then none else some i), Of k i' := by
  intro i' hi'
  split_ifs at hi'
  · cases hi'
  · obtain rfl := Option.some.inj hi'
    exact h

theorem of_map {α : Type} {o : Option α} {f : α → HealthItem} (h : ∀ a, Of k (f a)) :
    ∀ i ∈ o.map f, Of k i := by
  intro i hi
  obtain ⟨a, -, rfl⟩ := Option.map_eq_some_iff.mp hi
  exact h a

theorem forall₂_checks : List.Forall₂ (fun k o => ∀ i ∈ o, Of k i) allIds (checks rfc3339 inputs) := by
  unfold allIds checks
  refine .cons (of_if (of_item rfl rfl)) <| .cons (of_if (of_item rfl rfl)) <|
    .cons (of_if (of_item rfl rfl)) <| .cons (of_if (of_item rfl rfl)) <|
    .cons (of_if (of_item rfl rfl)) <| .cons (of_bind fun e => of_unless (of_item rfl rfl)) <|
    .cons (of_bind fun e => of_unless (of_item rfl rfl)) <|
    .cons (of_bind fun e => of_if (of_item rfl rfl)) <| .cons (of_bind fun e => of_if (of_item rfl rfl)) <|
    .cons (of_map fun e => of_item rfl rfl) <| .cons (of_bind fun e => of_if (of_item rfl rfl)) .nil

theorem eq_of_forall₂ {ks : List HealthId} {os : List (Option HealthItem)}
    (h : List.Forall₂ (fun k o => ∀ i ∈ o, Of k i) ks os) (hnodup : ks.Nodup) (hi : some i ∈ os)
    (hj : some j ∈ os) (hid : i.id = j.id) : i = j := by
  have hmem : ∀ {ks os}, List.Forall₂ (fun k o => ∀ i ∈ o, Of k i) ks os → ∀ {i : HealthItem},
      some i ∈ os → i.id ∈ ks := by
    intro ks os h i hi
    induction h with
    | nil => cases hi
    | cons ho _ ih =>
      rcases List.mem_cons.mp hi with rfl | hi
      · rw [(ho i rfl).id]
        exact List.mem_cons_self
      · exact List.mem_cons_of_mem _ (ih hi)
  induction h with
  | nil => cases hi
  | cons ho htail ih =>
    obtain ⟨hfresh, hnodup⟩ := List.nodup_cons.mp hnodup
    rcases List.mem_cons.mp hi with rfl | hilater
    · rcases List.mem_cons.mp hj with hj | hjlater
      · exact Option.some.inj hj.symm
      · have hlater := hmem htail hjlater
        rw [← hid, (ho i rfl).id] at hlater
        exact absurd hlater hfresh
    · rcases List.mem_cons.mp hj with rfl | hjlater
      · have hlater := hmem htail hilater
        rw [hid, (ho j rfl).id] at hlater
        exact absurd hlater hfresh
      · exact ih hnodup hilater hjlater

theorem of_forall₂ {ks : List HealthId} {os : List (Option HealthItem)}
    (h : List.Forall₂ (fun k o => ∀ i ∈ o, Of k i) ks os) (hi : some i ∈ os) : Of i.id i := by
  induction h with
  | nil => cases hi
  | cons ho _ ih =>
    rcases List.mem_cons.mp hi with rfl | hi
    · have hof := ho i rfl
      exact hof.id.symm ▸ hof
    · exact ih hi

theorem mem_raised : i ∈ raised rfc3339 inputs ↔ some i ∈ checks rfc3339 inputs :=
  List.reduceOption_mem_iff

theorem of_raised (hi : i ∈ raised rfc3339 inputs) : Of i.id i := of_forall₂ forall₂_checks (mem_raised.mp hi)

theorem eq_of_id (hi : i ∈ raised rfc3339 inputs) (hj : j ∈ raised rfc3339 inputs) (hid : i.id = j.id) :
    i = j := eq_of_forall₂ forall₂_checks (by decide) (mem_raised.mp hi) (mem_raised.mp hj) hid

end Raised

/-! ### The page -/

/-- A dismissal of an item with these parameters is in the list. -/
def Hides (params : HealthParams) (dismissed : List DismissedHealth) : Prop :=
  ∃ d ∈ dismissed, d.id = params.id ∧ d.fingerprint = fingerprint params

section Page
variable {rfc3339 : ℤ → String} {inputs : HealthInputs} {dismissed : List DismissedHealth} {i : HealthItem}
  {k : HealthId} {params : HealthParams} {entry : DismissedHealth}

theorem hides_append : Hides params (dismissed ++ [entry]) ↔
    Hides params dismissed ∨ entry.id = params.id ∧ entry.fingerprint = fingerprint params := by
  unfold Hides
  simp only [List.mem_append, List.mem_singleton]
  constructor
  · rintro ⟨d, hd | rfl, hentry⟩
    · exact Or.inl ⟨d, hd, hentry⟩
    · exact Or.inr hentry
  · rintro (⟨d, hd, hentry⟩ | hentry)
    · exact ⟨d, Or.inl hd, hentry⟩
    · exact ⟨entry, Or.inr rfl, hentry⟩

theorem isDismissed_iff (hi : Of i.id i) : isDismissed i dismissed = true ↔ Hides i.params dismissed := by
  unfold isDismissed Hides
  rw [List.any_eq_true, hi.params, ← hi.fingerprint]
  simp only [Bool.and_eq_true, decide_eq_true_eq]

theorem mem_page : i ∈ page rfc3339 inputs dismissed ↔
    i ∈ raised rfc3339 inputs ∧ ¬ Hides i.params dismissed := by
  have hraised : raised rfc3339 { inputs with dismissed := dismissed } = raised rfc3339 inputs := rfl
  unfold page currentHealth
  rw [List.mem_insertionSort, List.mem_filter, hraised]
  refine and_congr_right fun hi => ?_
  rw [Bool.not_eq_true', ← isDismissed_iff (of_raised hi), Bool.not_eq_true]

theorem find_page : (page rfc3339 inputs dismissed).find? (fun i => i.id = k) = some i ↔
    i ∈ page rfc3339 inputs dismissed ∧ i.id = k := by
  have hid : ∀ {j}, (page rfc3339 inputs dismissed).find? (fun i => i.id = k) = some j → j.id = k := by
    intro j hfind
    have hsome := List.find?_some hfind
    exact of_decide_eq_true hsome
  constructor
  · intro hfind
    exact ⟨List.mem_of_find?_eq_some hfind, hid hfind⟩
  · rintro ⟨hi, hik⟩
    cases hfind : (page rfc3339 inputs dismissed).find? (fun i => i.id = k) with
    | none => exact absurd (decide_eq_true hik) (List.find?_eq_none.mp hfind i hi)
    | some j =>
      have hj := (mem_page.mp (List.mem_of_find?_eq_some hfind)).1
      rw [eq_of_id hj (mem_page.mp hi).1 ((hid hfind).trans hik.symm)]

theorem findTarget_iff :
    findTarget rfc3339 inputs dismissed k = .found params.id (fingerprint params) ↔
      k = params.id ∧
        ∃ target ∈ page rfc3339 inputs dismissed, target.params = params ∧ target.dismissible = true := by
  unfold findTarget
  constructor
  · intro h
    split at h
    · cases h
    · next target hfind =>
      split_ifs at h with hdismissible
      obtain ⟨hid, htext⟩ := Place.found.inj h
      obtain ⟨hmem, hk⟩ := find_page.mp hfind
      have hof := of_raised (mem_page.mp hmem).1
      refine ⟨hk.symm.trans hid, target, hmem, ?_, hdismissible⟩
      exact fingerprint_inj (hof.fingerprint.symm.trans htext)
  · rintro ⟨rfl, target, hmem, rfl, hdismissible⟩
    have hof := of_raised (mem_page.mp hmem).1
    rw [find_page.mpr ⟨hmem, hof.params.symm⟩]
    simp [hdismissible, hof.params, hof.fingerprint]

end Page

/-! ### What a step does -/

section Steps
variable {ι : Type} [DecidableEq ι] {rfc3339 : ℤ → String} {requests : ι → Request} {i : ι} {env : Env}
  {st : Site ι} {place : Place} {params : HealthParams}

theorem findTarget_ne_loaded {inputs : HealthInputs} {dismissed ds : List DismissedHealth} {k : HealthId} :
    findTarget rfc3339 inputs dismissed k ≠ .loaded ds := by
  unfold findTarget
  split
  · simp
  · split_ifs <;> simp

theorem hides_step : Hides params (step rfc3339 requests i env st place).1.dismissed ↔
    ((∃ ds, place = .loaded ds ∧ Hides params ds) ∧ env.fault = false) ∨
      Hides params st.dismissed ∧ ¬ Saves i env st place := by
  unfold step Saves
  cases place with
  | asked =>
    simp only
    split_ifs
    · simp
    · split <;> simp
  | found id text =>
    simp only
    split_ifs <;> simp
  | loaded ds => cases env.fault <;> simp
  | done => simp

theorem found_step :
    (step rfc3339 requests i env st place).2 = .found params.id (fingerprint params) ↔
      Finds rfc3339 requests params i env st place ∨
        place = .found params.id (fingerprint params) ∧ ¬ Proceeds env st place := by
  unfold step Finds Proceeds
  cases place with
  | asked =>
    cases env.fault with
    | true => simp
    | false =>
      cases requests i with
      | dismiss k => simp [findTarget_iff]
      | command => simp
  | found id text =>
    simp only
    cases st.lock with
    | none => cases env.fault <;> simp
    | some j => simp
  | loaded ds => simp
  | done => simp

theorem loaded_step :
    (∃ ds, (step rfc3339 requests i env st place).2 = .loaded ds ∧ Hides params ds) ↔
      (Loads requests i env st place ∧
        (Hides params st.dismissed ∨ place = .found params.id (fingerprint params))) ∨
      (∃ ds, place = .loaded ds ∧ Hides params ds) ∧ ¬ True := by
  unfold step Loads
  cases place with
  | asked =>
    cases env.fault with
    | true => simp
    | false =>
      cases requests i with
      | dismiss k => simp [findTarget_ne_loaded]
      | command => simp
  | found id text =>
    simp only
    cases st.lock with
    | none => cases env.fault <;> simp [hides_append]
    | some j => simp
  | loaded ds => simp
  | done => simp

end Steps

/-! ### Runs -/

section Runs
variable {ι : Type} [DecidableEq ι] {rfc3339 : ℤ → String} {requests : ι → Request} {as : List (ι × Env)}
  {params : HealthParams}

theorem hides_since (n : ℕ) : Hides params (state rfc3339 requests as n).store.dismissed ↔
    Since (Turns (step rfc3339 requests) initial as fun _ env _ place =>
      (∃ ds, place = .loaded ds ∧ Hides params ds) ∧ env.fault = false)
      (Turns (step rfc3339 requests) initial as Saves) n :=
  @store_iff_since ι (Site ι) Place Env _ (step rfc3339 requests) initial as
    (fun st => Hides params st.dismissed) _ _ (by rintro ⟨d, hd, -⟩; cases hd)
    (fun _ _ _ _ => hides_step) n

theorem loaded_since (i : ι) (n : ℕ) :
    (∃ ds, (state rfc3339 requests as n).place i = .loaded ds ∧ Hides params ds) ↔
      Since (TurnOf (step rfc3339 requests) initial as i fun env st place =>
        Loads requests i env st place ∧
          (Hides params st.dismissed ∨ place = .found params.id (fingerprint params)))
        (TurnOf (step rfc3339 requests) initial as i fun _ _ _ => True) n :=
  @place_iff_since ι (Site ι) Place Env _ (step rfc3339 requests) initial as i
    (fun place => ∃ ds, place = .loaded ds ∧ Hides params ds) _ _ (by rintro ⟨ds, ⟨⟩, -⟩)
    (fun _ _ _ => loaded_step) n

theorem found_since (i : ι) (n : ℕ) :
    (state rfc3339 requests as n).place i = .found params.id (fingerprint params) ↔
      Since (TurnOf (step rfc3339 requests) initial as i (Finds rfc3339 requests params i))
        (TurnOf (step rfc3339 requests) initial as i Proceeds) n :=
  @place_iff_since ι (Site ι) Place Env _ (step rfc3339 requests) initial as i
    (fun place => place = .found params.id (fingerprint params)) _ _ (by rintro ⟨⟩)
    (fun _ _ _ => found_step) n

theorem idle_iff {i : ι} {m n : ℕ} : Idle as i m n ↔ ∀ q, m < q → q < n →
    ¬ TurnOf (step rfc3339 requests) initial as i (fun _ _ _ => True) q := by
  constructor
  · rintro hidle q hmq hqn ⟨j, env, hq, rfl, -⟩
    exact hidle q hmq hqn env hq
  · intro hnone q hmq hqn env hq
    exact hnone q hmq hqn ⟨i, env, hq, rfl, trivial⟩

/-- The list has a dismissal exactly if the last save wrote one, or one that had been kept until it was
loaded. -/
theorem hides_iff (n : ℕ) : Hides params (state rfc3339 requests as n).store.dismissed ↔
    Kept rfc3339 requests as params n := by
  induction n using Nat.strong_induction_on with
  | _ n ih =>
    constructor
    · intro hhides
      obtain ⟨p, hpn, ⟨i, env, hp, hloaded, hfault⟩, hlast⟩ := (hides_since n).mp hhides
      obtain ⟨l, hlp, ⟨j, env', hl, rfl, hloads, hfrom⟩, hidle⟩ := (loaded_since i p).mp hloaded
      obtain ⟨ds, hplace, -⟩ := hloaded
      have hsave : LastSave rfc3339 requests as n l p j :=
        ⟨hlp, hpn, ⟨j, env', hl, rfl, hloads⟩, idle_iff.mpr hidle,
          ⟨j, env, hp, rfl, ⟨ds, hplace⟩, hfault⟩, hlast⟩
      rcases hfrom with hcarried | hfound
      · exact .carried hsave ((ih l (hlp.trans hpn)).mp hcarried)
      · exact .dismissed hsave ((found_since j l).mp hfound)
    · intro hkept
      have hwrites : ∀ {l p : ℕ} {i : ι}, LastSave rfc3339 requests as n l p i →
          (Hides params (state rfc3339 requests as l).store.dismissed ∨
            (state rfc3339 requests as l).place i = .found params.id (fingerprint params)) →
          Hides params (state rfc3339 requests as n).store.dismissed := by
        intro l p i hsave hfrom
        obtain ⟨j, env, hl, rfl, hloads⟩ := hsave.loads
        have hloaded := (loaded_since j p).mpr
          ⟨l, hsave.after, ⟨j, env, hl, rfl, hloads, hfrom⟩, idle_iff.mp hsave.idle⟩
        obtain ⟨k, env', hp, rfl, -, hfault⟩ := hsave.saves
        exact (hides_since n).mpr ⟨p, hsave.before, ⟨k, env', hp, hloaded, hfault⟩, hsave.last⟩
      cases hkept with
      | dismissed hsave hfound => exact hwrites hsave (Or.inr ((found_since _ _).mpr hfound))
      | carried hsave hkept =>
        exact hwrites hsave (Or.inl ((ih _ (hsave.after.trans hsave.before)).mpr hkept))

theorem not_kept_of_error (herror : params.id.severity = .error) {n : ℕ} :
    ¬ Kept rfc3339 requests as params n := by
  intro hkept
  induction hkept with
  | dismissed hsave hfound =>
    obtain ⟨m, -, ⟨i, env, -, -, -, -, -, target, htarget, rfl, hdismissible⟩, -⟩ := hfound
    have hof := of_raised (mem_page.mp htarget).1
    rw [hof.dismissible, ← hof.params, herror] at hdismissible
    cases hdismissible
  | carried _ _ ih => exact ih

theorem error_mem_page {inputs : HealthInputs} {i : HealthItem} {n : ℕ} (hi : i ∈ raised rfc3339 inputs)
    (herror : i.severity = .error) :
    i ∈ page rfc3339 inputs (state rfc3339 requests as n).store.dismissed := by
  have hof := of_raised hi
  have hid : i.params.id.severity = .error := by rw [hof.params, ← hof.severity, herror]
  rw [mem_page, hides_iff]
  exact ⟨hi, not_kept_of_error hid⟩

end Runs

end StarStats.Client.Health
