import StarStats.Client.Rejection
import StarStats.Lib.Text

/-! # Commands that change the configuration file

Four commands load the configuration file, change some of its fields and save it as a whole. One of
them holds a lock meanwhile, the others do not. Their steps come in any order.

Nothing that a command has done is lost as long as a command writes back what it would write if it
loaded the file only then (`nothingLost_run`). -/

namespace StarStats.Client.ConfigRaces

open StarStats.Lib.Text StarStats.Lib.Runs
open StarStats.Client.ConfigFile StarStats.Client.Rejection

/-! ### The commands -/

/-- The id on disk, or a new one, and whether that has to be saved. -/
def resolveClientAnonId (existing : Option String) (uuid : String) : String × Bool :=
  match existing with
  | some e => if trim e = "" then ("anon_" ++ uuid, true) else (e, false)
  | none => ("anon_" ++ uuid, true)

/-- `dismiss_health`, `pair_device` and `get_or_create_client_anon_id`, each with what it is given or
comes up with, and `clear_persisted_device_token`. -/
inductive Update where
  | dismissHealth (item : DismissedHealth)
  | pairDevice (pairing : Pairing)
  | getOrCreateClientAnonId (uuid : String)
  | clearPersistedDeviceToken

/-- The file with the change made. -/
def Update.apply : Update → Config → Config
  | .dismissHealth item, cfg => { cfg with dismissedHealth := cfg.dismissedHealth ++ [item] }
  | .pairDevice pairing, cfg => pairing.save cfg
  | .getOrCreateClientAnonId uuid, cfg =>
    if (resolveClientAnonId cfg.clientAnonId uuid).2 then
      { cfg with clientAnonId := some (resolveClientAnonId cfg.clientAnonId uuid).1 }
    else cfg
  | .clearPersistedDeviceToken, cfg => cfg.clearDeviceToken

/-- Does the file have to be saved? -/
def Update.dirty : Update → Config → Bool
  | .getOrCreateClientAnonId uuid, cfg => (resolveClientAnonId cfg.clientAnonId uuid).2
  | _, _ => true

/-- The id the command returns, if it returns one. -/
def Update.returned : Update → Config → Option String
  | .getOrCreateClientAnonId uuid, cfg => some (resolveClientAnonId cfg.clientAnonId uuid).1
  | _, _ => none

/-- Does it take `CONFIG_MUTATION_LOCK`? -/
def Update.locks : Update → Bool
  | .dismissHealth _ => true
  | _ => false

/-- How far an update has come. -/
inductive Phase where
  | ready
  | locked
  | loaded (cfg : Config)
  | done (returned : Option String)

/-- The file, who holds the lock, and how far each call has come. -/
structure World where
  config : Config
  lock : Option ℕ
  phase : ℕ → Phase

/-- No update is under way. -/
def World.start (config : Config) : World := ⟨config, none, fun _ => .ready⟩

/-- One update goes on. -/
def World.to (w : World) (i : ℕ) (p : Phase) : World :=
  { w with phase := Function.update w.phase i p }

/-- Load the file; what needs no change is done. -/
def World.load (w : World) (i : ℕ) (u : Update) : World :=
  if u.dirty w.config then w.to i (.loaded w.config) else w.to i (.done (u.returned w.config))

/-- The next step of a call; one that waits for the lock stays where it is. -/
def World.step (calls : List Update) (w : World) (i : ℕ) : World :=
  match calls[i]? with
  | none => w
  | some u =>
    match w.phase i with
    | .ready =>
      if u.locks then if w.lock = none then { w.to i .locked with lock := some i } else w
      else w.load i u
    | .locked => w.load i u
    | .loaded cfg =>
      { w.to i (.done (u.returned cfg)) with
        config := u.apply cfg
        lock := if u.locks then none else w.lock }
    | .done _ => w

/-! ### Statement -/

/-- What the updates write. -/
inductive Field where
  | apiUrl
  | accessToken
  | claimedHandle
  | enabled
  | dismissedHealth
  | clientAnonId

/-- Is the field one that the command changes? -/
def Update.Changes : Update → Field → Prop
  | .dismissHealth _, f => f = .dismissedHealth
  | .pairDevice _, f => f = .apiUrl ∨ f = .accessToken ∨ f = .claimedHandle ∨ f = .enabled
  | .getOrCreateClientAnonId _, f => f = .clientAnonId
  | .clearPersistedDeviceToken, f => f = .accessToken ∨ f = .claimedHandle

/-- The field has what the command wrote, or returned. -/
def Update.Shows (u : Update) (returned : Option String) (cfg : Config) (f : Field) : Prop :=
  match u, f with
  | .dismissHealth item, .dismissedHealth => item ∈ cfg.dismissedHealth
  | .pairDevice p, .apiUrl => cfg.remoteSync.apiUrl = some p.apiUrl
  | .pairDevice p, .accessToken => cfg.remoteSync.accessToken = some p.token
  | .pairDevice p, .claimedHandle => cfg.remoteSync.claimedHandle = some p.claimedHandle
  | .pairDevice _, .enabled => cfg.remoteSync.enabled = true
  | .getOrCreateClientAnonId _, .clientAnonId => cfg.clientAnonId = returned
  | .clearPersistedDeviceToken, .accessToken => cfg.remoteSync.accessToken = none
  | .clearPersistedDeviceToken, .claimedHandle => cfg.remoteSync.claimedHandle = none
  | _, _ => True

/-- The field is changed by no other call, or is one that the calls add to. -/
def Own (calls : List Update) (i : ℕ) (f : Field) : Prop :=
  f = .dismissedHealth ∨ f = .clientAnonId ∨
    ∀ j u, j ≠ i → calls[j]? = some u → ¬ u.Changes f

/-- **Nothing is lost**: the file has the effect of every completed call on its own fields. -/
def NothingLost (calls : List Update) (w : World) : Prop :=
  ∀ i u returned, calls[i]? = some u → w.phase i = .done returned →
    ∀ f, u.Changes f → Own calls i f → u.Shows returned w.config f

/-- A call about to save writes back what it would write if it loaded the file only now. -/
def WritesCurrent (calls : List Update) (w : World) (i : ℕ) : Prop :=
  ∀ u cfg, calls[i]? = some u → w.phase i = .loaded cfg →
    u.apply cfg = u.apply w.config ∧ u.returned cfg = u.returned w.config

/-! ### The anonymous id -/

theorem resolve_some (e uuid : String) : resolveClientAnonId (some e) uuid =
    if trim e = "" then ("anon_" ++ uuid, true) else (e, false) := rfl

theorem resolve_ne_blank (existing : Option String) (uuid : String) :
    trim (resolveClientAnonId existing uuid).1 ≠ "" := by
  have hfresh : trim ("anon_" ++ uuid) ≠ "" :=
    @trim_ne_empty _ 'a' (by rw [String.toList_append]; simp) (by decide)
  cases existing with
  | none => exact hfresh
  | some e =>
    rw [resolve_some]
    by_cases he : trim e = ""
    · rw [if_pos he]
      exact hfresh
    · rw [if_neg he]
      exact he

theorem resolve_of_ne_blank {e : String} (h : trim e ≠ "") (uuid : String) :
    resolveClientAnonId (some e) uuid = (e, false) := by
  rw [resolve_some, if_neg h]

theorem of_not_dirty {existing : Option String} {uuid : String}
    (h : (resolveClientAnonId existing uuid).2 = false) :
    existing = some (resolveClientAnonId existing uuid).1 := by
  cases existing with
  | none => cases h
  | some e =>
    by_cases he : trim e = ""
    · rw [resolve_some, if_pos he] at h
      cases h
    · rw [resolve_of_ne_blank he]

/-! ### What an update does to a field -/

section Fields
variable {u v : Update} {cfg : Config} {f : Field} {returned : Option String}

theorem apply_getOrCreateClientAnonId (uuid : String) (cfg : Config) :
    (Update.getOrCreateClientAnonId uuid).apply cfg =
      if (resolveClientAnonId cfg.clientAnonId uuid).2 then
        { cfg with clientAnonId := some (resolveClientAnonId cfg.clientAnonId uuid).1 }
      else cfg := rfl

theorem clientAnonId_apply (uuid : String) (cfg : Config) :
    ((Update.getOrCreateClientAnonId uuid).apply cfg).clientAnonId =
      some (resolveClientAnonId cfg.clientAnonId uuid).1 := by
  rw [apply_getOrCreateClientAnonId]
  by_cases hd : (resolveClientAnonId cfg.clientAnonId uuid).2 = true
  · rw [if_pos hd]
  · rw [if_neg hd]
    exact of_not_dirty (by simpa using hd)

theorem remoteSync_apply (uuid : String) (cfg : Config) :
    ((Update.getOrCreateClientAnonId uuid).apply cfg).remoteSync = cfg.remoteSync ∧
      ((Update.getOrCreateClientAnonId uuid).apply cfg).dismissedHealth = cfg.dismissedHealth := by
  rw [apply_getOrCreateClientAnonId]
  split_ifs <;> exact ⟨rfl, rfl⟩

theorem shows_apply (u : Update) (cfg : Config) (f : Field) :
    u.Shows (u.returned cfg) (u.apply cfg) f := by
  cases u with
  | dismissHealth item =>
    cases f <;> first | trivial | exact List.mem_append_right _ List.mem_cons_self
  | pairDevice p => cases f <;> trivial
  | getOrCreateClientAnonId uuid =>
    cases f <;> first | trivial | exact clientAnonId_apply uuid cfg
  | clearPersistedDeviceToken => cases f <;> trivial

theorem Update.Shows.of_not_changes (h : v.Shows returned cfg f) (hn : ¬ u.Changes f) :
    v.Shows returned (u.apply cfg) f := by
  cases u with
  | dismissHealth item =>
    cases f with
    | dismissedHealth => exact absurd rfl hn
    | _ => cases v <;> exact h
  | pairDevice p =>
    cases f with
    | dismissedHealth => cases v <;> exact h
    | clientAnonId => cases v <;> exact h
    | _ => exact absurd (by simp [Update.Changes]) hn
  | getOrCreateClientAnonId uuid =>
    obtain ⟨hremote, hdismissed⟩ := remoteSync_apply uuid cfg
    cases f with
    | clientAnonId => exact absurd rfl hn
    | dismissedHealth =>
      cases v <;> simp only [Update.Shows] at h ⊢
      rwa [hdismissed]
    | _ => cases v <;> simp only [Update.Shows] at h ⊢ <;> rwa [hremote]
  | clearPersistedDeviceToken =>
    cases f with
    | accessToken => exact absurd (Or.inl rfl) hn
    | claimedHandle => exact absurd (Or.inr rfl) hn
    | _ => cases v <;> exact h

theorem Update.Shows.dismissed (h : v.Shows returned cfg .dismissedHealth) (u : Update) :
    v.Shows returned (u.apply cfg) .dismissedHealth := by
  by_cases hn : u.Changes .dismissedHealth
  · cases u with
    | dismissHealth item =>
      cases v with
      | dismissHealth item' => exact List.mem_append_left _ h
      | _ => trivial
    | _ => simp [Update.Changes] at hn
  · exact h.of_not_changes hn

theorem Update.Shows.anonId (h : v.Shows returned cfg .clientAnonId)
    (hid : ∀ uuid, v = .getOrCreateClientAnonId uuid → ∃ id, returned = some id ∧ trim id ≠ "")
    (u : Update) : v.Shows returned (u.apply cfg) .clientAnonId := by
  by_cases hn : u.Changes .clientAnonId
  · cases u with
    | getOrCreateClientAnonId uuid =>
      cases v with
      | getOrCreateClientAnonId uuid' =>
        obtain ⟨id, rfl, hne⟩ := hid uuid' rfl
        change cfg.clientAnonId = some id at h
        change ((Update.getOrCreateClientAnonId uuid).apply cfg).clientAnonId = some id
        rw [clientAnonId_apply, h, resolve_of_ne_blank hne]
      | _ => trivial
    | _ => simp [Update.Changes] at hn
  · exact h.of_not_changes hn

end Fields

/-! ### Runs -/

/-- An id that a call returned is not blank. -/
def IdsReturned (calls : List Update) (w : World) : Prop :=
  ∀ i uuid returned, calls[i]? = some (.getOrCreateClientAnonId uuid) →
    w.phase i = .done returned → ∃ id, returned = some id ∧ trim id ≠ ""

section Step
variable {calls : List Update} {w : World}

/-- A step of a call changes its phase, and if it comes to its end that shows. -/
theorem step_spec (w : World) (i : ℕ) (hcur : WritesCurrent calls w i) :
    w.step calls i = w ∨
    (∃ p lock, (∀ returned, p ≠ .done returned) ∧
      w.step calls i = ⟨w.config, lock, Function.update w.phase i p⟩) ∨
    ∃ u lock, calls[i]? = some u ∧ w.step calls i =
      ⟨u.apply w.config, lock, Function.update w.phase i (.done (u.returned w.config))⟩ := by
  have hload : ∀ u, calls[i]? = some u →
      (∃ p lock, (∀ returned, p ≠ .done returned) ∧
        w.load i u = ⟨w.config, lock, Function.update w.phase i p⟩) ∨
      ∃ v lock, calls[i]? = some v ∧ w.load i u =
        ⟨v.apply w.config, lock, Function.update w.phase i (.done (v.returned w.config))⟩ := by
    intro u hu
    unfold World.load
    by_cases hd : u.dirty w.config = true
    · rw [if_pos hd]
      exact Or.inl ⟨.loaded w.config, w.lock, nofun, rfl⟩
    · rw [if_neg hd]
      refine Or.inr ⟨u, w.lock, hu, ?_⟩
      have hsame : u.apply w.config = w.config := by
        cases u with
        | getOrCreateClientAnonId uuid => exact if_neg hd
        | _ => exact absurd rfl hd
      rw [hsame]
      rfl
  unfold World.step
  cases hu : calls[i]? with
  | none => exact Or.inl rfl
  | some u =>
    rw [hu] at hload
    cases hp : w.phase i with
    | ready =>
      by_cases hl : u.locks = true
      · by_cases hfree : w.lock = none
        · exact Or.inr (Or.inl ⟨.locked, some i, nofun, by simp [hl, hfree, World.to]⟩)
        · exact Or.inl (by simp [hl, hfree])
      · simpa [hl] using Or.inr (hload u rfl)
    | locked => exact Or.inr (hload u rfl)
    | loaded cfg =>
      obtain ⟨happly, hreturned⟩ := hcur u cfg hu hp
      refine Or.inr (Or.inr ⟨u, if u.locks then none else w.lock, rfl, ?_⟩)
      rw [← happly, ← hreturned]
      rfl
    | done returned => exact Or.inl rfl

/-- **A step that writes what is current loses nothing.** -/
theorem nothingLost_step (hn : NothingLost calls w) (hi : IdsReturned calls w) {i : ℕ}
    (hcur : WritesCurrent calls w i) :
    NothingLost calls (w.step calls i) ∧ IdsReturned calls (w.step calls i) := by
  rcases step_spec w i hcur with heq | ⟨p, lock, hp, heq⟩ | ⟨u, lock, hu, heq⟩ <;> rw [heq]
  · exact ⟨hn, hi⟩
  · have hold : ∀ j returned, Function.update w.phase i p j = .done returned →
        w.phase j = .done returned := by
      intro j returned hj
      by_cases hji : j = i
      · rw [hji, Function.update_self] at hj
        exact absurd hj (hp returned)
      · rwa [Function.update_of_ne hji] at hj
    exact ⟨fun j v returned hv hj => hn j v returned hv (hold j returned hj),
      fun j uuid returned hv hj => hi j uuid returned hv (hold j returned hj)⟩
  · constructor
    · intro j v returned hv hj f hf hown
      by_cases hji : j = i
      · subst hji
        obtain rfl : u = v := Option.some.inj (hu.symm.trans hv)
        change Function.update w.phase j _ j = _ at hj
        rw [Function.update_self] at hj
        cases hj
        exact shows_apply u w.config f
      · change Function.update w.phase i _ j = _ at hj
        rw [Function.update_of_ne hji] at hj
        have hshows := hn j v returned hv hj f hf hown
        rcases hown with rfl | rfl | hother
        · exact hshows.dismissed u
        · refine hshows.anonId (fun uuid hvu => ?_) u
          exact hi j uuid returned (hvu ▸ hv) hj
        · exact hshows.of_not_changes (hother i u (Ne.symm hji) hu)
    · intro j uuid returned hv hj
      by_cases hji : j = i
      · subst hji
        rw [hu] at hv
        cases hv
        change Function.update w.phase j _ j = _ at hj
        rw [Function.update_self] at hj
        cases hj
        exact ⟨_, rfl, resolve_ne_blank _ _⟩
      · change Function.update w.phase i _ j = _ at hj
        rw [Function.update_of_ne hji] at hj
        exact hi j uuid returned hv hj

end Step

/-- **If every call that saves writes what is current, nothing is lost at any time.** -/
theorem nothingLost_run {calls : List Update} {config : Config} {turns : List ℕ}
    (h : ∀ n i, turns[n]? = some i →
      WritesCurrent calls ((turns.take n).foldl (World.step calls) (.start config)) i) (n : ℕ) :
    NothingLost calls ((turns.take n).foldl (World.step calls) (.start config)) := by
  have hall : NothingLost calls ((turns.take n).foldl (World.step calls) (.start config)) ∧
      IdsReturned calls ((turns.take n).foldl (World.step calls) (.start config)) := by
    induction n with
    | zero => exact ⟨nofun, nofun⟩
    | succ n ih =>
      cases ht : turns[n]? with
      | none => rwa [run_take_of_none ht]
      | some i =>
        rw [run_take_succ ht]
        exact nothingLost_step ih.1 ih.2 (h n i ht)
  exact hall.1

/-! ### A dismissal and a pairing -/

def gone : DismissedHealth := ⟨"disk_free_low", "fp", "now"⟩

def both : List Update := [.dismissHealth gone, .pairDevice pairing]

/-- One after the other. -/
def inTurn : List ℕ := [0, 0, 0, 1, 1]

/-- The file is loaded for the pairing before the dismissal and saved after it. -/
def acrossEachOther : List ℕ := [1, 0, 0, 0, 1]

theorem writesCurrent_inTurn (n i : ℕ) (h : inTurn[n]? = some i) :
    WritesCurrent both ((inTurn.take n).foldl (World.step both) (.start oldConfig)) i := by
  match n with
  | 0 => cases h; exact nofun
  | 1 => cases h; exact nofun
  | 2 =>
    cases h
    intro u cfg hu hp
    cases hu
    cases hp
    exact ⟨rfl, rfl⟩
  | 3 => cases h; exact nofun
  | 4 =>
    cases h
    intro u cfg hu hp
    cases hu
    cases hp
    exact ⟨rfl, rfl⟩
  | n + 5 => cases h

theorem nothingLost_inTurn :
    NothingLost both ((inTurn.take 5).foldl (World.step both) (.start oldConfig)) :=
  nothingLost_run writesCurrent_inTurn 5

/-- The dismissal is not in the file in the end. -/
theorem not_nothingLost_acrossEachOther :
    ¬ NothingLost both (acrossEachOther.foldl (World.step both) (.start oldConfig)) := by
  intro h
  have hgone := h 0 (.dismissHealth gone) none rfl rfl .dismissedHealth rfl (Or.inl rfl)
  revert hgone
  exact List.not_mem_nil

end StarStats.Client.ConfigRaces
