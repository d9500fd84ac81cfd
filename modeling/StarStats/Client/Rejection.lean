import StarStats.Client.SyncWorkers

/-! # A rejected token and a new pairing

A worker that drains with the old token gets a rejection, clears the token from the configuration file
and reports that the authentication is lost. Meanwhile the device is paired again: the new token is
saved, the report is withdrawn, the worker is aborted and another one is started. An abort takes effect
where the worker waits for the network only.

The new pairing survives exactly if the worker does not write behind its back
(`pairingSurvives_iff`). -/

namespace StarStats.Client.Rejection

open StarStats.Client.ConfigFile StarStats.Client.SyncWorkers StarStats.Lib.Runs

/-! ### The two parties -/

/-- How far the drain with the old token has come: the request is about to be sent, it is sent, the
status of the answer is known, its body was read; then the configuration file is loaded and saved. The
last two: it came to its end, or was dropped where it waited. -/
inductive DrainPhase where
  | sending
  | sent
  | rejected
  | clearing
  | loaded (cfg : Config)
  | saved
  | done
  | dropped
  deriving DecidableEq

/-- How far the pairing has come once the code is redeemed. -/
inductive PairPhase where
  | redeemed
  | loaded (cfg : Config)
  | saved
  | reset
  | aborted
  | done
  deriving DecidableEq

/-- What the code is redeemed for. -/
structure Pairing where
  apiUrl : String
  token : String
  claimedHandle : String

/-- `config` is the file; `aborted` says that the worker was told to stop, and `fresh` is the token of
the worker that was started after it. -/
structure World where
  config : Config
  authLost : Bool
  drain : DrainPhase
  pair : PairPhase
  aborted : Bool
  fresh : Option String
  deriving DecidableEq

/-- What `pair_device` changes. -/
def Pairing.save (p : Pairing) (cfg : Config) : Config :=
  { cfg with
    remoteSync :=
      { cfg.remoteSync with
        apiUrl := some p.apiUrl
        accessToken := some p.token
        claimedHandle := some p.claimedHandle
        enabled := true } }

/-- The next step of `drain_once` with a token that is rejected; `yields` says that the worker has to
wait for the body of the answer. -/
def World.drainOnce (w : World) (yields : Bool) : World :=
  match w.drain with
  | .sending => { w with drain := .sent }
  | .sent => { w with drain := if w.aborted then .dropped else .rejected }
  | .rejected => { w with drain := if w.aborted && yields then .dropped else .clearing }
  | .clearing => { w with drain := .loaded w.config }
  | .loaded cfg => { w with drain := .saved, config := cfg.clearDeviceToken }
  | .saved => { w with drain := .done, authLost := true }
  | .done => w
  | .dropped => w

/-- The next step of `pair_device`; the worker that is started uses the token then in the file. -/
def World.pairDevice (w : World) (p : Pairing) : World :=
  match w.pair with
  | .redeemed => { w with pair := .loaded w.config }
  | .loaded cfg => { w with pair := .saved, config := p.save cfg }
  | .saved => { w with pair := .reset, authLost := false }
  | .reset => { w with pair := .aborted, aborted := true }
  | .aborted =>
    { w with
      pair := .done
      fresh := if starts w.config.remoteSync true then w.config.remoteSync.accessToken else none }
  | .done => w

/-- Whose turn it is. -/
inductive Turn where
  | drain (yields : Bool)
  | pair

/-- One of the two goes on. -/
def World.step (p : Pairing) (w : World) : Turn → World
  | .drain yields => w.drainOnce yields
  | .pair => w.pairDevice p

/-- The drain is about to send, and the code was just redeemed. -/
def World.start (config : Config) (authLost : Bool) : World :=
  ⟨config, authLost, .sending, .redeemed, false, none⟩

/-! ### Statement -/

/-- Both have come to their end. -/
def World.Finished (w : World) : Prop := (w.drain = .done ∨ w.drain = .dropped) ∧ w.pair = .done

/-- **The new pairing is in the file, and the authentication is not lost.** -/
def World.PairingSurvives (p : Pairing) (w : World) : Prop :=
  w.config.remoteSync.accessToken = some p.token ∧ w.authLost = false

/-- The new token was saved. -/
def World.Saved (w : World) : Prop := w.pair ≠ .redeemed ∧ ∀ cfg, w.pair ≠ .loaded cfg

/-- The report was withdrawn. -/
def World.Reset (w : World) : Prop := w.Saved ∧ w.pair ≠ .saved

/-- The drain does not save the file after the new token was saved, and does not report a lost
authentication after the report was withdrawn. -/
def NotBehind (w : World) : Turn → Prop
  | .drain _ => (∀ cfg, w.drain = .loaded cfg → ¬ w.Saved) ∧ (w.drain = .saved → ¬ w.Reset)
  | .pair => True

/-! ### What is kept -/

/-- What the pairing has written so far is still there. -/
def World.Kept (p : Pairing) (w : World) : Prop :=
  (w.Saved → w.config.remoteSync.accessToken = some p.token) ∧ (w.Reset → w.authLost = false)

section Step
variable {p : Pairing} {w : World}

theorem drainOnce_cases (w : World) (yields : Bool) :
    (∃ cfg, w.drain = .loaded cfg ∧
      w.drainOnce yields = { w with drain := .saved, config := cfg.clearDeviceToken }) ∨
    (w.drain = .saved ∧ w.drainOnce yields = { w with drain := .done, authLost := true }) ∨
    ((∀ cfg, w.drain ≠ .loaded cfg) ∧ w.drain ≠ .saved ∧
      ∃ d, w.drainOnce yields = { w with drain := d }) := by
  unfold World.drainOnce
  cases hd : w.drain with
  | loaded cfg => exact Or.inl ⟨cfg, rfl, rfl⟩
  | saved => exact Or.inr (Or.inl ⟨rfl, rfl⟩)
  | sending => exact Or.inr (Or.inr ⟨nofun, nofun, _, rfl⟩)
  | sent => exact Or.inr (Or.inr ⟨nofun, nofun, _, rfl⟩)
  | rejected => exact Or.inr (Or.inr ⟨nofun, nofun, _, rfl⟩)
  | clearing => exact Or.inr (Or.inr ⟨nofun, nofun, _, rfl⟩)
  | done => exact Or.inr (Or.inr ⟨nofun, nofun, w.drain, rfl⟩)
  | dropped => exact Or.inr (Or.inr ⟨nofun, nofun, w.drain, rfl⟩)

theorem kept_pairDevice (h : w.Kept p) : (w.pairDevice p).Kept p := by
  unfold World.pairDevice
  cases hp : w.pair with
  | redeemed => exact ⟨fun hs => absurd rfl (hs.2 w.config), fun hr => absurd rfl (hr.1.2 w.config)⟩
  | loaded cfg => exact ⟨fun _ => rfl, fun hr => absurd rfl hr.2⟩
  | saved => exact ⟨fun _ => h.1 ⟨by simp [hp], by simp [hp]⟩, fun _ => rfl⟩
  | reset => exact ⟨fun _ => h.1 ⟨by simp [hp], by simp [hp]⟩,
      fun _ => h.2 ⟨⟨by simp [hp], by simp [hp]⟩, by simp [hp]⟩⟩
  | aborted => exact ⟨fun _ => h.1 ⟨by simp [hp], by simp [hp]⟩,
      fun _ => h.2 ⟨⟨by simp [hp], by simp [hp]⟩, by simp [hp]⟩⟩
  | done => exact h

theorem kept_of_pairDevice (h : (w.pairDevice p).Kept p) : w.Kept p := by
  unfold World.pairDevice at h
  cases hp : w.pair with
  | redeemed => exact ⟨fun hs => absurd hp hs.1, fun hr => absurd hp hr.1.1⟩
  | loaded cfg => exact ⟨fun hs => absurd hp (hs.2 cfg), fun hr => absurd hp (hr.1.2 cfg)⟩
  | saved =>
    rw [hp] at h
    exact ⟨fun _ => h.1 ⟨nofun, nofun⟩, fun hr => absurd hp hr.2⟩
  | reset =>
    rw [hp] at h
    exact ⟨fun _ => h.1 ⟨nofun, nofun⟩, fun _ => h.2 ⟨⟨nofun, nofun⟩, nofun⟩⟩
  | aborted =>
    rw [hp] at h
    exact ⟨fun _ => h.1 ⟨nofun, nofun⟩, fun _ => h.2 ⟨⟨nofun, nofun⟩, nofun⟩⟩
  | done =>
    rw [hp] at h
    exact h

/-- **A step keeps what the pairing wrote exactly if the drain does not write behind its back.** -/
theorem kept_step_iff (h : w.Kept p) (t : Turn) : (w.step p t).Kept p ↔ NotBehind w t := by
  cases t with
  | pair => exact iff_of_true (kept_pairDevice h) trivial
  | drain yields =>
    change (w.drainOnce yields).Kept p ↔
      (∀ cfg, w.drain = .loaded cfg → ¬ w.Saved) ∧ (w.drain = .saved → ¬ w.Reset)
    rcases drainOnce_cases w yields with ⟨cfg, hd, heq⟩ | ⟨hd, heq⟩ | ⟨hload, hsave, d, heq⟩
    · rw [heq, hd]
      refine ⟨fun hk => ⟨fun _ _ hs => ?_, nofun⟩, fun hn => ⟨fun hs => ?_, fun hr => ?_⟩⟩
      · cases hk.1 hs
      · exact absurd hs (hn.1 cfg rfl)
      · exact absurd hr.1 (hn.1 cfg rfl)
    · rw [heq, hd]
      refine ⟨fun hk => ⟨nofun, fun _ hr => ?_⟩, fun hn => ⟨h.1, fun hr => ?_⟩⟩
      · cases hk.2 hr
      · exact absurd hr (hn.2 rfl)
    · rw [heq]
      exact iff_of_true h ⟨fun cfg hd => absurd hd (hload cfg), fun hd => absurd hd hsave⟩

theorem kept_of_step {t : Turn} (h : (w.step p t).Kept p) : w.Kept p := by
  cases t with
  | pair => exact kept_of_pairDevice h
  | drain yields =>
    change (w.drainOnce yields).Kept p at h
    rcases drainOnce_cases w yields with ⟨cfg, -, heq⟩ | ⟨-, heq⟩ | ⟨-, -, d, heq⟩ <;>
      rw [heq] at h
    · exact ⟨fun hs => absurd (h.1 hs) nofun, h.2⟩
    · exact ⟨h.1, fun hr => absurd (h.2 hr) nofun⟩
    · exact h

end Step

theorem World.Finished.kept_iff {p : Pairing} {w : World} (h : w.Finished) :
    w.Kept p ↔ w.PairingSurvives p := by
  have hsaved : w.Saved := by
    unfold World.Saved
    rw [h.2]
    exact ⟨nofun, nofun⟩
  have hreset : w.Reset := by
    refine ⟨hsaved, ?_⟩
    rw [h.2]
    exact nofun
  exact and_congr (imp_iff_right hsaved) (imp_iff_right hreset)

/-- The worker that is started after the abort never has the old token. -/
theorem fresh_run {p : Pairing} (config : Config) (authLost : Bool) (turns : List Turn) :
    let w := turns.foldl (World.step p) (.start config authLost)
    w.fresh = none ∨ w.fresh = some p.token := by
  have hinv := @invariant_run World Turn (World.step p) (.start config authLost) (fun w =>
    (w.Saved → w.config.remoteSync.accessToken = none ∨
      w.config.remoteSync.accessToken = some p.token) ∧
    (w.fresh = none ∨ w.fresh = some p.token)) ⟨fun hs => absurd rfl hs.1, Or.inl rfl⟩ ?_ turns
  · exact hinv.2
  · intro w t ⟨htoken, hfresh⟩
    cases t with
    | drain yields =>
      rw [show w.step p (.drain yields) = w.drainOnce yields from rfl]
      rcases drainOnce_cases w yields with ⟨cfg, -, heq⟩ | ⟨-, heq⟩ | ⟨-, -, d, heq⟩ <;> rw [heq]
      · exact ⟨fun _ => Or.inl rfl, hfresh⟩
      · exact ⟨htoken, hfresh⟩
      · exact ⟨htoken, hfresh⟩
    | pair =>
      unfold World.step World.pairDevice
      cases hp : w.pair with
      | redeemed => exact ⟨fun hs => absurd rfl (hs.2 w.config), hfresh⟩
      | loaded cfg => exact ⟨fun _ => Or.inr rfl, hfresh⟩
      | saved => exact ⟨fun _ => htoken ⟨by simp [hp], by simp [hp]⟩, hfresh⟩
      | reset => exact ⟨fun _ => htoken ⟨by simp [hp], by simp [hp]⟩, hfresh⟩
      | aborted =>
        have hs := htoken ⟨by simp [hp], by simp [hp]⟩
        refine ⟨fun _ => hs, ?_⟩
        split_ifs
        · exact hs
        · exact Or.inl rfl
      | done => exact ⟨htoken, hfresh⟩

/-- **When both have come to their end the new pairing survives exactly if the drain never wrote behind
its back.** -/
theorem pairingSurvives_iff {p : Pairing} {config : Config} {authLost : Bool} {turns : List Turn}
    (h : (turns.foldl (World.step p) (.start config authLost)).Finished) :
    (turns.foldl (World.step p) (.start config authLost)).PairingSurvives p ↔
      ∀ n t, turns[n]? = some t →
        NotBehind ((turns.take n).foldl (World.step p) (.start config authLost)) t := by
  rw [← h.kept_iff]
  refine @run_iff _ _ (World.step p) _ (fun _ => True) (World.Kept p) NotBehind trivial
    (fun _ _ _ => trivial) ?_ (fun _ _ _ hk => kept_of_step hk) (fun _ t _ hk => kept_step_iff hk t)
    turns
  exact ⟨fun hs => absurd rfl hs.1, fun hr => absurd rfl hr.1.1⟩

/-! ### Two orders -/

def pairing : Pairing := ⟨"url", "new", "jim"⟩

def oldConfig : Config := ⟨⟨true, some "url", some "jim", some "old", 60, 200⟩, [], none⟩

/-- The pairing is over before the answer is there. -/
def answerLate : List Turn :=
  [.drain true, .pair, .pair, .pair, .pair, .pair, .drain true]

/-- The token is cleared after the new one was saved. -/
def clearLate : List Turn :=
  [.drain true, .drain true, .drain true, .pair, .pair, .pair, .drain true, .drain true, .drain true,
    .pair, .pair]

theorem finished_answerLate :
    (answerLate.foldl (World.step pairing) (.start oldConfig true)).Finished :=
  ⟨Or.inr rfl, rfl⟩

theorem pairingSurvives_iff_answerLate :
    (answerLate.foldl (World.step pairing) (.start oldConfig true)).PairingSurvives pairing ↔
      ∀ n t, answerLate[n]? = some t →
        NotBehind ((answerLate.take n).foldl (World.step pairing) (.start oldConfig true)) t :=
  pairingSurvives_iff finished_answerLate

/-- The file has no token in the end, and the authentication counts as lost. -/
theorem not_pairingSurvives_clearLate :
    (clearLate.foldl (World.step pairing) (.start oldConfig false)).Finished ∧
      ¬ (clearLate.foldl (World.step pairing) (.start oldConfig false)).PairingSurvives pairing := by
  refine ⟨⟨Or.inl rfl, rfl⟩, fun h => ?_⟩
  have hlost := h.2
  revert hlost
  decide

end StarStats.Client.Rejection
