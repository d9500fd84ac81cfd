import Mathlib.Logic.Function.Basic
import StarStats.Client.ConfigFile
import StarStats.Lib.Runs

/-! # The sync worker and its successors

To put a new configuration into effect the running worker is aborted and another one is started. The
handle of the running worker is taken out of its slot under a lock, the configuration is read, the
worker is started, and its handle is put into the slot under the lock again. Calls may run side by side,
and their steps come in any order.

No worker is left behind exactly if every handle is put into an empty slot (`noneLeftBehind_iff`). -/

namespace StarStats.Client.SyncWorkers

open StarStats.Client.ConfigFile StarStats.Lib.Runs

/-! ### The calls -/

/-- Is there a worker for this configuration? `builds` says whether there is an HTTP client. -/
def starts (cfg : RemoteSyncConfig) (builds : Bool) : Bool :=
  cfg.enabled && cfg.apiUrl.isSome && cfg.claimedHandle.isSome && cfg.accessToken.isSome && builds

/-- How far a call has come; a worker is known by its number. -/
inductive Phase where
  | ready
  | aborted
  | loaded (cfg : RemoteSyncConfig)
  | started (handle : Option ℕ)
  | done

/-- The phase of each call, the handle in the slot, how many workers were started so far, and those
that were aborted. -/
structure World where
  phase : ℕ → Phase
  syncHandle : Option ℕ
  spawned : ℕ
  aborted : List ℕ

/-- Before any call; there may be a worker from the start of the program. -/
def World.boot (running : Bool) : World :=
  if running then ⟨fun _ => .ready, some 0, 1, []⟩ else ⟨fun _ => .ready, none, 0, []⟩

/-- The call whose turn it is, the configuration if it can be read just then, and whether an HTTP
client can be built. -/
structure Turn where
  call : ℕ
  config : Option RemoteSyncConfig
  builds : Bool

/-- The next step of a call of `respawn`. -/
def World.respawn (w : World) (t : Turn) : World :=
  match w.phase t.call with
  | .ready =>
    { w with
      phase := Function.update w.phase t.call .aborted
      syncHandle := none
      aborted := w.syncHandle.toList ++ w.aborted }
  | .aborted =>
    match t.config with
    | none => { w with phase := Function.update w.phase t.call .done }
    | some cfg => { w with phase := Function.update w.phase t.call (.loaded cfg) }
  | .loaded cfg =>
    if starts cfg t.builds then
      { w with
        phase := Function.update w.phase t.call (.started (some w.spawned))
        spawned := w.spawned + 1 }
    else { w with phase := Function.update w.phase t.call (.started none) }
  | .started handle =>
    { w with phase := Function.update w.phase t.call .done, syncHandle := handle }
  | .done => w

/-! ### Statement -/

/-- Every call that began has come to its end. -/
def World.Finished (w : World) : Prop :=
  ∀ i, w.phase i = .ready ∨ w.phase i = .done

/-- **Every worker was aborted, except possibly the one whose handle is in the slot.** -/
def World.NoneLeftBehind (w : World) : Prop :=
  ∀ n < w.spawned, n ∈ w.aborted ∨ w.syncHandle = some n

/-- If a handle is put into the slot, that is empty. -/
def SlotFree (w : World) (t : Turn) : Prop :=
  ∀ handle, w.phase t.call = .started handle → w.syncHandle = none

/-! ### Where the workers are -/

/-- Every worker was aborted, or its handle is in the slot or with the call that started it. -/
def World.Reachable (w : World) : Prop :=
  ∀ n < w.spawned, n ∈ w.aborted ∨ w.syncHandle = some n ∨ ∃ i, w.phase i = .started (some n)

/-- A handle is in one place only. -/
structure World.Distinct (w : World) : Prop where
  slot : ∀ n, w.syncHandle = some n →
    n < w.spawned ∧ n ∉ w.aborted ∧ ∀ i, w.phase i ≠ .started (some n)
  held : ∀ i n, w.phase i = .started (some n) →
    n < w.spawned ∧ n ∉ w.aborted ∧ ∀ j, w.phase j = .started (some n) → j = i
  aborted : ∀ n ∈ w.aborted, n < w.spawned

theorem distinct_boot (running : Bool) : (World.boot running).Distinct := by
  cases running
  · refine ⟨fun n h => ?_, fun i n h => ?_, fun n h => ?_⟩ <;> cases h
  · refine ⟨fun n h => ?_, fun i n h => ?_, fun n h => ?_⟩
    · cases h
      exact ⟨Nat.one_pos, List.not_mem_nil, fun i h => by cases h⟩
    · cases h
    · cases h

/-- What a step does. -/
theorem respawn_cases (w : World) (t : Turn) :
    (w.phase t.call = .ready ∧ w.respawn t = ⟨Function.update w.phase t.call .aborted, none, w.spawned,
      w.syncHandle.toList ++ w.aborted⟩) ∨
    (∃ cfg builds, w.phase t.call = .loaded cfg ∧ starts cfg builds = true ∧ w.respawn t =
      ⟨Function.update w.phase t.call (.started (some w.spawned)), w.syncHandle, w.spawned + 1,
        w.aborted⟩) ∨
    (∃ handle, w.phase t.call = .started handle ∧
      w.respawn t = ⟨Function.update w.phase t.call .done, handle, w.spawned, w.aborted⟩) ∨
    ((∀ handle, w.phase t.call ≠ .started handle) ∧ ∃ p, (∀ n, p ≠ .started (some n)) ∧
      w.respawn t = ⟨Function.update w.phase t.call p, w.syncHandle, w.spawned, w.aborted⟩) := by
  unfold World.respawn
  cases hp : w.phase t.call with
  | ready => exact Or.inl ⟨rfl, rfl⟩
  | aborted =>
    refine Or.inr (Or.inr (Or.inr ⟨nofun, ?_⟩))
    cases t.config with
    | none => exact ⟨.done, nofun, rfl⟩
    | some cfg => exact ⟨.loaded cfg, nofun, rfl⟩
  | loaded cfg =>
    by_cases hs : starts cfg t.builds = true
    · exact Or.inr (Or.inl ⟨cfg, t.builds, rfl, hs, by simp [hs]⟩)
    · exact Or.inr (Or.inr (Or.inr ⟨nofun, .started none, nofun, by simp [hs]⟩))
  | started handle => exact Or.inr (Or.inr (Or.inl ⟨handle, rfl, rfl⟩))
  | done =>
    have hself : Function.update w.phase t.call .done = w.phase := by
      rw [← hp, Function.update_eq_self]
    exact Or.inr (Or.inr (Or.inr ⟨nofun, .done, nofun, by rw [hself]⟩))

section Step
variable {w : World} {t : Turn}

theorem held_of_update {f : ℕ → Phase} {i j n : ℕ} {p : Phase} (hp : p ≠ .started (some n))
    (h : Function.update f i p j = .started (some n)) : j ≠ i ∧ f j = .started (some n) := by
  by_cases hj : j = i
  · rw [hj, Function.update_self] at h
    exact absurd h hp
  · rw [Function.update_of_ne hj] at h
    exact ⟨hj, h⟩

theorem World.Distinct.respawn (h : w.Distinct) (t : Turn) : (w.respawn t).Distinct := by
  rcases respawn_cases w t with ⟨-, heq⟩ | ⟨cfg, builds, hp, -, heq⟩ | ⟨handle, hp, heq⟩ |
    ⟨-, p, hp, heq⟩ <;> rw [heq]
  · refine ⟨nofun, fun i n hi => ?_, fun n hn => ?_⟩
    · obtain ⟨-, hi⟩ := held_of_update (p := .aborted) nofun hi
      obtain ⟨hlt, hna, huniq⟩ := h.held i n hi
      refine ⟨hlt, fun hn => ?_, fun j hj => huniq j (held_of_update (p := .aborted) nofun hj).2⟩
      rcases List.mem_append.mp hn with hn | hn
      · exact (h.slot n (Option.mem_toList.mp hn)).2.2 i hi
      · exact hna hn
    · rcases List.mem_append.mp hn with hn | hn
      · exact (h.slot n (Option.mem_toList.mp hn)).1
      · exact h.aborted n hn
  · refine ⟨fun n hn => ?_, fun i n hi => ?_, fun n hn => Nat.lt_succ_of_lt (h.aborted n hn)⟩
    · obtain ⟨hlt, hna, hnone⟩ := h.slot n hn
      refine ⟨Nat.lt_succ_of_lt hlt, hna, fun i hi => ?_⟩
      have hne : Phase.started (some w.spawned) ≠ .started (some n) := fun he => by
        cases he
        exact absurd hlt (Nat.lt_irrefl _)
      exact hnone i (held_of_update hne hi).2
    · by_cases hn : n = w.spawned
      · subst hn
        refine ⟨Nat.lt_succ_self _, fun hn => absurd (h.aborted _ hn) (Nat.lt_irrefl _), fun j hj => ?_⟩
        have only : ∀ k, Function.update w.phase t.call (.started (some w.spawned)) k =
            .started (some w.spawned) → k = t.call := fun k hk => by
          by_contra hne
          rw [Function.update_of_ne hne] at hk
          exact absurd (h.held k _ hk).1 (Nat.lt_irrefl _)
        rw [only j hj, only i hi]
      · have hne : Phase.started (some w.spawned) ≠ .started (some n) := fun he => by
          cases he
          exact hn rfl
        obtain ⟨-, hi⟩ := held_of_update hne hi
        obtain ⟨hlt, hna, huniq⟩ := h.held i n hi
        exact ⟨Nat.lt_succ_of_lt hlt, hna, fun j hj => huniq j (held_of_update hne hj).2⟩
  · refine ⟨fun n hn => ?_, fun i n hi => ?_, h.aborted⟩
    · change handle = some n at hn
      subst hn
      obtain ⟨hlt, hna, huniq⟩ := h.held t.call n hp
      refine ⟨hlt, hna, fun i hi => ?_⟩
      obtain ⟨hne, hi⟩ := held_of_update (p := .done) nofun hi
      exact hne (huniq i hi)
    · obtain ⟨-, hi⟩ := held_of_update (p := .done) nofun hi
      obtain ⟨hlt, hna, huniq⟩ := h.held i n hi
      exact ⟨hlt, hna, fun j hj => huniq j (held_of_update (p := .done) nofun hj).2⟩
  · refine ⟨fun n hn => ?_, fun i n hi => ?_, h.aborted⟩
    · obtain ⟨hlt, hna, hnone⟩ := h.slot n hn
      exact ⟨hlt, hna, fun i hi => hnone i (held_of_update (hp n) hi).2⟩
    · obtain ⟨-, hi⟩ := held_of_update (hp n) hi
      obtain ⟨hlt, hna, huniq⟩ := h.held i n hi
      exact ⟨hlt, hna, fun j hj => huniq j (held_of_update (hp n) hj).2⟩

theorem reachable_of_respawn (hr : (w.respawn t).Reachable) : w.Reachable := by
  intro n hn
  rcases respawn_cases w t with ⟨-, heq⟩ | ⟨cfg, builds, -, -, heq⟩ | ⟨handle, hp, heq⟩ |
    ⟨-, p, hp, heq⟩ <;> rw [heq] at hr
  · rcases hr n hn with hn | hn | ⟨i, hi⟩
    · rcases List.mem_append.mp hn with hn | hn
      · exact Or.inr (Or.inl (Option.mem_toList.mp hn))
      · exact Or.inl hn
    · cases hn
    · exact Or.inr (Or.inr ⟨i, (held_of_update (p := .aborted) nofun hi).2⟩)
  · rcases hr n (Nat.lt_succ_of_lt hn) with hn | hn | ⟨i, hi⟩
    · exact Or.inl hn
    · exact Or.inr (Or.inl hn)
    · have hne : Phase.started (some w.spawned) ≠ .started (some n) := fun he => by
        cases he
        exact absurd hn (Nat.lt_irrefl _)
      exact Or.inr (Or.inr ⟨i, (held_of_update hne hi).2⟩)
  · rcases hr n hn with hn | hn | ⟨i, hi⟩
    · exact Or.inl hn
    · change handle = some n at hn
      subst hn
      exact Or.inr (Or.inr ⟨t.call, hp⟩)
    · exact Or.inr (Or.inr ⟨i, (held_of_update (p := .done) nofun hi).2⟩)
  · rcases hr n hn with hn | hn | ⟨i, hi⟩
    · exact Or.inl hn
    · exact Or.inr (Or.inl hn)
    · exact Or.inr (Or.inr ⟨i, (held_of_update (hp n) hi).2⟩)

theorem held_update {f : ℕ → Phase} {i j n : ℕ} (p : Phase) (hf : f i ≠ .started (some n))
    (h : f j = .started (some n)) : Function.update f i p j = .started (some n) := by
  have hne : j ≠ i := fun hj => hf (hj ▸ h)
  rwa [Function.update_of_ne hne]

/-- **A step leaves a worker behind exactly if it puts a handle into a slot that is not empty.** -/
theorem reachable_respawn_iff (h : w.Distinct) (hr : w.Reachable) (t : Turn) :
    (w.respawn t).Reachable ↔ SlotFree w t := by
  rcases respawn_cases w t with ⟨hp, heq⟩ | ⟨cfg, builds, hp, -, heq⟩ | ⟨handle, hp, heq⟩ |
    ⟨hnot, p, hp, heq⟩ <;> rw [heq]
  · refine iff_of_true (fun n hn => ?_) fun handle hh => by rw [hp] at hh; cases hh
    rcases hr n hn with hn | hn | ⟨i, hi⟩
    · exact Or.inl (List.mem_append_right _ hn)
    · exact Or.inl (List.mem_append_left _ (Option.mem_toList.mpr hn))
    · exact Or.inr (Or.inr ⟨i, held_update _ (by rw [hp]; exact nofun) hi⟩)
  · refine iff_of_true (fun n hn => ?_) fun handle hh => by rw [hp] at hh; cases hh
    rcases Nat.lt_succ_iff_lt_or_eq.mp hn with hn | rfl
    · rcases hr n hn with hn | hn | ⟨i, hi⟩
      · exact Or.inl hn
      · exact Or.inr (Or.inl hn)
      · exact Or.inr (Or.inr ⟨i, held_update _ (by rw [hp]; exact nofun) hi⟩)
    · exact Or.inr (Or.inr ⟨t.call, Function.update_self ..⟩)
  · constructor
    · intro hreach handle' hh
      by_contra hsome
      obtain ⟨n, hn⟩ := Option.ne_none_iff_exists'.mp hsome
      obtain ⟨hlt, hna, hnone⟩ := h.slot n hn
      rcases hreach n hlt with hn' | hn' | ⟨i, hi⟩
      · exact hna hn'
      · change handle = some n at hn'
        exact hnone t.call (hn' ▸ hp)
      · exact hnone i (held_of_update (p := .done) nofun hi).2
    · intro hfree n hn
      rcases hr n hn with hn | hn | ⟨i, hi⟩
      · exact Or.inl hn
      · rw [hfree handle hp] at hn
        cases hn
      · by_cases hi' : i = t.call
        · rw [hi', hp] at hi
          cases hi
          exact Or.inr (Or.inl rfl)
        · exact Or.inr (Or.inr ⟨i, (Function.update_of_ne hi' _ _).trans hi⟩)
  · refine iff_of_true (fun n hn => ?_) fun handle hh => absurd hh (hnot handle)
    rcases hr n hn with hn | hn | ⟨i, hi⟩
    · exact Or.inl hn
    · exact Or.inr (Or.inl hn)
    · exact Or.inr (Or.inr ⟨i, held_update _ (hnot _) hi⟩)

end Step

theorem World.Finished.reachable_iff {w : World} (h : w.Finished) :
    w.Reachable ↔ w.NoneLeftBehind := by
  refine forall₂_congr fun n _ => or_congr_right (or_iff_left ?_)
  rintro ⟨i, hi⟩
  rcases h i with hi' | hi' <;> rw [hi'] at hi <;> cases hi

/-- **When all calls have come to their end no worker is left behind exactly if every handle was put into
an empty slot.** -/
theorem noneLeftBehind_iff {running : Bool} {turns : List Turn}
    (h : (turns.foldl World.respawn (.boot running)).Finished) :
    (turns.foldl World.respawn (.boot running)).NoneLeftBehind ↔
      ∀ n t, turns[n]? = some t →
        SlotFree ((turns.take n).foldl World.respawn (.boot running)) t := by
  rw [← h.reachable_iff]
  refine run_iff (distinct_boot running) (fun _ t hd => hd.respawn t) (fun n hn => ?_)
    (fun _ t _ hr => reachable_of_respawn hr) (fun _ t hd hr => reachable_respawn_iff hd hr t) turns
  cases running
  · cases hn
  · exact Or.inr (Or.inl (congrArg some (Nat.lt_one_iff.mp hn).symm))

/-! ### Two calls side by side -/

/-- A configuration that is complete. -/
def paired : RemoteSyncConfig := ⟨true, some "url", some "jim", some "token", 60, 200⟩

def turn (i : ℕ) : Turn := ⟨i, some paired, true⟩

/-- One call after the other. -/
def oneByOne : List Turn := [turn 0, turn 0, turn 0, turn 0, turn 1, turn 1, turn 1, turn 1]

/-- Step by step in turn. -/
def sideBySide : List Turn := [turn 0, turn 1, turn 0, turn 1, turn 0, turn 1, turn 0, turn 1]

theorem finished_oneByOne : (oneByOne.foldl World.respawn (.boot true)).Finished
  | 0 => Or.inr rfl
  | 1 => Or.inr rfl
  | _ + 2 => Or.inl rfl

theorem noneLeftBehind_iff_oneByOne :
    (oneByOne.foldl World.respawn (.boot true)).NoneLeftBehind ↔
      ∀ n t, oneByOne[n]? = some t →
        SlotFree ((oneByOne.take n).foldl World.respawn (.boot true)) t :=
  noneLeftBehind_iff finished_oneByOne

/-- The worker of the first call is left behind. -/
theorem not_noneLeftBehind_sideBySide :
    (sideBySide.foldl World.respawn (.boot true)).Finished ∧
      ¬ (sideBySide.foldl World.respawn (.boot true)).NoneLeftBehind := by
  constructor
  · intro i
    match i with
    | 0 => exact Or.inr rfl
    | 1 => exact Or.inr rfl
    | _ + 2 => exact Or.inl rfl
  · intro h
    have hworker := h 1 (by decide)
    revert hworker
    decide

end StarStats.Client.SyncWorkers
