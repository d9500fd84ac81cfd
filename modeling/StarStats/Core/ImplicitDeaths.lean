import Mathlib.Data.List.Forall2
import Mathlib.Data.List.Pairwise
import StarStats.Core.Inference

/-! # Inferred deaths

A destroyed vehicle and a spawn after it make a death. Every destruction looks for its spawn alone, and the
time between them is counted in whole seconds, so two destructions may share a spawn, and a spawn may come
almost a second late. Both are kept out exactly where every destruction that reaches a spawn reaches it in
time and alone (`sound_iff`). Positions are those of the envelopes in the stream. -/

namespace StarStats.Core.ImplicitDeaths

open StarStats.Core.Events StarStats.Core.Metadata StarStats.Core.Wire StarStats.Core.Inference
open StarStats.Lib.Ints

/-- The row is of the rule for deaths. -/
def isDeath (row : InferredEvent) : Bool :=
  match row.event with
  | .playerDeath _ => true
  | _ => false

section Stream
variable (parseTs : String → Option ℤ)

/-- The spawn that the rule finds for an envelope. -/
def matchedSpawn (config : InferenceConfig) (env : EventEnvelope) (later : List EventEnvelope) :
    Option EventEnvelope :=
  match env.event with
  | some (.vehicleDestruction veh) =>
    (parseTs veh.timestamp).bind fun vehTs =>
      scanForward parseTs implicitDeathWindowSecs vehTs isResolveSpawn (later.take config.windowSize)
  | _ => none

/-- The positions of the destruction and of the spawn of each death. -/
def sources (events : List EventEnvelope) (config : InferenceConfig) : List (ℕ × ℕ) :=
  (followed events).zipIdx.filterMap fun f =>
    (matchedSpawn parseTs config f.1.1 f.1.2).map fun spawn => (f.2, f.2 + 1 + f.1.2.idxOf spawn)

/-- The row is a death of the destruction, and the spawn comes at most fifteen seconds after it. -/
def DeathOf (events : List EventEnvelope) (row : InferredEvent) (p : ℕ × ℕ) : Prop :=
  p.1 < p.2 ∧ ∃ env veh spawn s t death, events[p.1]? = some env ∧ events[p.2]? = some spawn ∧
    env.event = some (.vehicleDestruction veh) ∧ spawn.event.any isResolveSpawn ∧
    parseTs veh.timestamp = some s ∧ envelopeTs parseTs spawn = some t ∧
    t ≤ s + implicitDeathWindowSecs * nsPerSec ∧
    row.event = .playerDeath death ∧ death.timestamp = veh.timestamp ∧ death.zone = veh.zone ∧
    row.metadata.inferenceInputs = [env.idempotencyKey, spawn.idempotencyKey]

/-- Every death has its destruction and its spawn in time, and no two have the same spawn. -/
structure Sound (events : List EventEnvelope) (config : InferenceConfig) : Prop where
  deaths : List.Forall₂ (DeathOf parseTs events) ((infer parseTs events config).filter isDeath)
    (sources parseTs events config)
  once : (sources parseTs events config).Pairwise fun p q => p.2 ≠ q.2

/-- The time of a destruction at a position, if it can be read. -/
def destroyedAt (events : List EventEnvelope) (i : ℕ) : Option ℤ :=
  events[i]?.bind fun env =>
    match env.event with
    | some (.vehicleDestruction veh) => parseTs veh.timestamp
    | _ => none

/-- The time of a spawn at a position, if it can be read. -/
def spawnedAt (events : List EventEnvelope) (i : ℕ) : Option ℤ :=
  events[i]?.bind fun env => if env.event.any isResolveSpawn then envelopeTs parseTs env else none

/-- The next spawn after a destruction is among the envelopes that are read for it, and less than sixteen
seconds after it. -/
structure Reaches (events : List EventEnvelope) (config : InferenceConfig) (i j : ℕ) (s t : ℤ) :
    Prop where
  lt : i < j
  within : j ≤ i + config.windowSize
  destroyed : destroyedAt parseTs events i = some s
  spawned : spawnedAt parseTs events j = some t
  next : ∀ k, i < k → k < j → spawnedAt parseTs events k = none
  near : t < s + (implicitDeathWindowSecs + 1) * nsPerSec

/-- A destruction that reaches a spawn reaches it in time, and no other one lies between them. -/
def Clear (events : List EventEnvelope) (config : InferenceConfig) : Prop :=
  ∀ i j s t, Reaches parseTs events config i j s t → t ≤ s + implicitDeathWindowSecs * nsPerSec ∧
    ∀ k, i < k → k < j → destroyedAt parseTs events k = none

end Stream

/-! ### Where a scan stops -/

/-- The first envelope that is wanted and can be read is at this position, and near enough. -/
structure FoundAt (parseTs : String → Option ℤ) (limit start : ℤ) (wanted : GameEvent → Bool)
    (l : List EventEnvelope) (n : ℕ) (e : EventEnvelope) (t : ℤ) : Prop where
  here : l[n]? = some e
  found : e.event.any wanted = true
  time : envelopeTs parseTs e = some t
  near : t < start + (limit + 1) * nsPerSec
  first : ∀ k x, k < n → l[k]? = some x → x.event.any wanted = true → envelopeTs parseTs x = none

section Scans
variable {parseTs : String → Option ℤ} {limit start : ℤ} {wanted : GameEvent → Bool}
  {l : List EventEnvelope} {e f : EventEnvelope}

theorem exists_foundAt_cons (hskip : f.event.any wanted = true → envelopeTs parseTs f = none) :
    (∃ n t, FoundAt parseTs limit start wanted (f :: l) n e t) ↔
      ∃ n t, FoundAt parseTs limit start wanted l n e t := by
  constructor
  · rintro ⟨n, t, hn, hwanted, ht, hnear, hfirst⟩
    cases n with
    | zero =>
      obtain rfl := Option.some.inj hn
      rw [hskip hwanted] at ht
      cases ht
    | succ n =>
      exact ⟨n, t, hn, hwanted, ht, hnear, fun k x hk => hfirst (k + 1) x (Nat.succ_lt_succ hk)⟩
  · rintro ⟨n, t, hn, hwanted, ht, hnear, hfirst⟩
    refine ⟨n + 1, t, hn, hwanted, ht, hnear, fun k x hk hx => ?_⟩
    cases k with
    | zero =>
      obtain rfl := Option.some.inj hx
      exact hskip
    | succ k => exact hfirst k x (Nat.lt_of_succ_lt_succ hk) hx

theorem scanForward_eq_some_iff (hlimit : 0 ≤ limit) (hl : InOrder parseTs l)
    (hstart : ∀ e ∈ l, ∀ t ∈ envelopeTs parseTs e, start ≤ t) :
    scanForward parseTs limit start wanted l = some e ↔
      ∃ n t, FoundAt parseTs limit start wanted l n e t := by
  induction l with
  | nil =>
    refine iff_of_false (by simp [scanForward]) ?_
    rintro ⟨n, t, hn, -⟩
    cases hn
  | cons f l ih =>
    obtain ⟨hf, hl⟩ := List.pairwise_cons.mp hl
    have ih := ih hl fun e he => hstart e (List.mem_cons_of_mem _ he)
    unfold scanForward
    cases hts : envelopeTs parseTs f with
    | none =>
      rw [exists_foundAt_cons fun _ => hts]
      exact ih
    | some ts =>
      have hle := hstart f (List.mem_cons_self ..) ts hts
      have hearly : ¬ numSeconds (ts - start) < 0 := by
        rw [numSeconds_neg_iff]
        unfold nsPerSec
        omega
      simp only
      rw [if_neg hearly]
      split_ifs with hlate hfound
      · -- what comes after an envelope that is too late is too late as well
        have hfar := (lt_numSeconds_iff hlimit).mp hlate
        refine iff_of_false (by simp) ?_
        rintro ⟨n, t, hn, -, ht, hnear, -⟩
        have hlater : ts ≤ t := by
          rcases List.mem_cons.mp (List.mem_of_getElem? hn) with rfl | he
          · exact Int.le_of_eq (Option.some.inj (hts.symm.trans ht))
          · exact hf e he ts hts t ht
        omega
      · have hnear : ts < start + (limit + 1) * nsPerSec := by
          rw [lt_numSeconds_iff hlimit] at hlate
          omega
        constructor
        · intro h
          obtain rfl := Option.some.inj h
          exact ⟨0, ts, rfl, hfound, hts, hnear, fun k x hk => absurd hk (Nat.not_lt_zero k)⟩
        · rintro ⟨n, t, hn, -, -, -, hfirst⟩
          cases n with
          | zero => exact hn
          | succ n =>
            have hnone := hfirst 0 f (Nat.succ_pos n) rfl hfound
            rw [hts] at hnone
            cases hnone
      · rw [exists_foundAt_cons fun hwanted => absurd hwanted hfound]
        exact ih

end Scans

section Stream
variable {parseTs : String → Option ℤ} {events later : List EventEnvelope} {config : InferenceConfig}
  {env : EventEnvelope} {i j : ℕ} {s t : ℤ}

theorem getElem?_followed {α : Type} {l : List α} {f : α × List α} {i : ℕ} :
    (followed l)[i]? = some f ↔ l.drop i = f.1 :: f.2 := by
  induction l generalizing i with
  | nil => simp [followed]
  | cons a l ih =>
    unfold followed
    cases i with
    | zero =>
      rw [List.getElem?_cons_zero, List.drop_zero, Option.some.injEq, List.cons.injEq, Prod.ext_iff]
    | succ i =>
      rw [List.getElem?_cons_succ, List.drop_succ_cons]
      exact ih

theorem getElem?_later {k : ℕ} (h : events.drop i = env :: later) :
    later[k]? = events[i + 1 + k]? := by
  have hget : (events.drop i)[k + 1]? = later[k]? := by
    rw [h]
    rfl
  rw [← hget, List.getElem?_drop]
  congr 1
  omega

theorem destroyedAt_eq_some : destroyedAt parseTs events i = some s ↔
    ∃ env veh, events[i]? = some env ∧ env.event = some (.vehicleDestruction veh) ∧
      parseTs veh.timestamp = some s := by
  unfold destroyedAt
  rw [Option.bind_eq_some_iff]
  refine exists_congr fun env => ?_
  constructor
  · rintro ⟨henv, hread⟩
    split at hread
    · exact ⟨_, henv, by assumption, hread⟩
    · cases hread
  · rintro ⟨veh, henv, hveh, hread⟩
    refine ⟨henv, ?_⟩
    rw [hveh]
    exact hread

theorem spawnedAt_eq_some : spawnedAt parseTs events i = some t ↔
    ∃ env, events[i]? = some env ∧ env.event.any isResolveSpawn = true ∧
      envelopeTs parseTs env = some t := by
  unfold spawnedAt
  rw [Option.bind_eq_some_iff]
  refine exists_congr fun env => and_congr_right fun _ => ?_
  split_ifs with hspawn
  · exact (and_iff_right hspawn).symm
  · exact iff_of_false (by simp) fun h => hspawn h.1

theorem matchedSpawn_eq_some {spawn : EventEnvelope} :
    matchedSpawn parseTs config env later = some spawn ↔ ∃ veh s,
      env.event = some (.vehicleDestruction veh) ∧ parseTs veh.timestamp = some s ∧
        scanForward parseTs implicitDeathWindowSecs s isResolveSpawn (later.take config.windowSize) =
          some spawn := by
  unfold matchedSpawn
  constructor
  · intro h
    split at h
    · obtain ⟨s, hs, hscan⟩ := Option.bind_eq_some_iff.mp h
      exact ⟨_, s, by assumption, hs, hscan⟩
    · cases h
  · rintro ⟨veh, s, hveh, hs, hscan⟩
    rw [hveh]
    exact Option.bind_eq_some_iff.mpr ⟨s, hs, hscan⟩

/-- The scan of a destruction goes through the envelopes after it that are read for it. -/
theorem foundAt_later {n : ℕ} {spawn : EventEnvelope} (h : events.drop i = env :: later) :
    FoundAt parseTs implicitDeathWindowSecs s isResolveSpawn (later.take config.windowSize) n spawn t ↔
      n < config.windowSize ∧ events[i + 1 + n]? = some spawn ∧
        spawnedAt parseTs events (i + 1 + n) = some t ∧
        t < s + (implicitDeathWindowSecs + 1) * nsPerSec ∧
        ∀ k, i < k → k < i + 1 + n → spawnedAt parseTs events k = none := by
  constructor
  · rintro ⟨hn, hspawn, ht, hnear, hfirst⟩
    rw [List.getElem?_take] at hn
    split_ifs at hn with hwindow
    rw [getElem?_later h] at hn
    refine ⟨hwindow, hn, spawnedAt_eq_some.mpr ⟨spawn, hn, hspawn, ht⟩, hnear, fun k hk hk' => ?_⟩
    refine Option.eq_none_iff_forall_ne_some.mpr fun t' hsome => ?_
    obtain ⟨x, hx, hspawn', ht'⟩ := spawnedAt_eq_some.mp hsome
    obtain ⟨m, rfl⟩ := Nat.exists_eq_add_of_le (Nat.succ_le_of_lt hk)
    have hm : (later.take config.windowSize)[m]? = some x := by
      rw [List.getElem?_take, if_pos (by omega), getElem?_later h]
      exact hx
    have hnone := hfirst m x (by omega) hm hspawn'
    rw [ht'] at hnone
    cases hnone
  · rintro ⟨hwindow, hn, hspawned, hnear, hnext⟩
    obtain ⟨x, hx, hspawn, ht⟩ := spawnedAt_eq_some.mp hspawned
    obtain rfl := Option.some.inj (hn.symm.trans hx)
    refine ⟨?_, hspawn, ht, hnear, fun k x hk hx hspawn' => ?_⟩
    · rw [List.getElem?_take, if_pos hwindow, getElem?_later h, hn]
    · rw [List.getElem?_take, if_pos (by omega), getElem?_later h] at hx
      refine Option.eq_none_iff_forall_ne_some.mpr fun t' ht' => ?_
      have hnone := hnext (i + 1 + k) (by omega) (by omega)
      rw [spawnedAt_eq_some.mpr ⟨x, hx, hspawn', ht'⟩] at hnone
      cases hnone

/-- The spawn that is found for an envelope is the one that it reaches. -/
theorem matchedSpawn_iff (h : InOrder parseTs events) (hdrop : events.drop i = env :: later)
    {spawn : EventEnvelope} : matchedSpawn parseTs config env later = some spawn ↔
      ∃ n s t, Reaches parseTs events config i (i + 1 + n) s t ∧ events[i + 1 + n]? = some spawn := by
  have henv : events[i]? = some env := by
    have hget := congrArg (fun l : List EventEnvelope => l[0]?) hdrop
    simpa [List.getElem?_drop] using hget
  have horder : InOrder parseTs (env :: later) := by
    rw [← hdrop]
    exact h.sublist (List.drop_sublist ..)
  obtain ⟨hafter, hlater⟩ := List.pairwise_cons.mp horder
  have hscan : ∀ veh s, env.event = some (.vehicleDestruction veh) → parseTs veh.timestamp = some s →
      (scanForward parseTs implicitDeathWindowSecs s isResolveSpawn (later.take config.windowSize) =
        some spawn ↔ ∃ n t, FoundAt parseTs implicitDeathWindowSecs s isResolveSpawn
          (later.take config.windowSize) n spawn t) := by
    intro veh s hveh hs
    have hread : envelopeTs parseTs env = some s := by
      unfold envelopeTs
      rw [hveh]
      exact hs
    have hlater : InOrder parseTs (later.take config.windowSize) := InOrder.take hlater _
    refine scanForward_eq_some_iff (by decide) hlater fun e he t ht => ?_
    exact hafter e (List.mem_of_mem_take he) s hread t ht
  rw [matchedSpawn_eq_some]
  constructor
  · rintro ⟨veh, s, hveh, hs, hfound⟩
    obtain ⟨n, t, hn⟩ := (hscan veh s hveh hs).mp hfound
    obtain ⟨hwindow, hspawn, hspawned, hnear, hnext⟩ := (foundAt_later hdrop).mp hn
    have hdestroyed := destroyedAt_eq_some.mpr ⟨env, veh, henv, hveh, hs⟩
    exact ⟨n, s, t, ⟨by omega, by omega, hdestroyed, hspawned, hnext, hnear⟩, hspawn⟩
  · rintro ⟨n, s, t, hreach, hspawn⟩
    obtain ⟨env', veh, henv', hveh, hs⟩ := destroyedAt_eq_some.mp hreach.destroyed
    obtain rfl := Option.some.inj (henv.symm.trans henv')
    refine ⟨veh, s, hveh, hs, (hscan veh s hveh hs).mpr ⟨n, t, (foundAt_later hdrop).mpr ?_⟩⟩
    have hwithin := hreach.within
    exact ⟨by omega, hspawn, hreach.spawned, hreach.near, hreach.next⟩

/-- Before the spawn that is reached there is no envelope like it. -/
theorem idxOf_of_reaches {n : ℕ} {spawn : EventEnvelope} (hdrop : events.drop i = env :: later)
    (hreach : Reaches parseTs events config i (i + 1 + n) s t)
    (hspawn : events[i + 1 + n]? = some spawn) : later.idxOf spawn = n := by
  rw [← getElem?_later hdrop] at hspawn
  obtain ⟨hn, hget⟩ := List.getElem?_eq_some_iff.mp hspawn
  refine (List.findIdx_eq hn).mpr ⟨beq_iff_eq.mpr hget, fun k hk => ?_⟩
  refine beq_eq_false_iff_ne.mpr fun hsame => ?_
  obtain ⟨x, hx, hfound, ht⟩ := spawnedAt_eq_some.mp hreach.spawned
  rw [← getElem?_later hdrop, hspawn] at hx
  obtain rfl := Option.some.inj hx
  have hk' : events[i + 1 + k]? = some spawn := by
    rw [← getElem?_later hdrop, List.getElem?_eq_getElem (hk.trans hn), hsame]
  have hnone := hreach.next (i + 1 + k) (by omega) (by omega)
  rw [spawnedAt_eq_some.mpr ⟨spawn, hk', hfound, ht⟩] at hnone
  cases hnone

theorem mem_sources (h : InOrder parseTs events) :
    (i, j) ∈ sources parseTs events config ↔ ∃ s t, Reaches parseTs events config i j s t := by
  unfold sources
  rw [List.mem_filterMap]
  constructor
  · rintro ⟨f, hf, hmatched⟩
    have hdrop := getElem?_followed.mp (List.mem_zipIdx_iff_getElem?.mp hf)
    obtain ⟨spawn, hspawn, hp⟩ := Option.map_eq_some_iff.mp hmatched
    obtain ⟨n, s, t, hreach, hget⟩ := (matchedSpawn_iff h hdrop).mp hspawn
    rw [idxOf_of_reaches hdrop hreach hget] at hp
    obtain ⟨rfl, rfl⟩ := Prod.mk.inj hp
    exact ⟨s, t, hreach⟩
  · rintro ⟨s, t, hreach⟩
    obtain ⟨env, veh, henv, -, -⟩ := destroyedAt_eq_some.mp hreach.destroyed
    obtain ⟨spawn, hspawn, -, -⟩ := spawnedAt_eq_some.mp hreach.spawned
    obtain ⟨n, rfl⟩ := Nat.exists_eq_add_of_le (Nat.succ_le_of_lt hreach.lt)
    have hdrop : events.drop i = env :: events.drop (i + 1) := by
      obtain ⟨hi, rfl⟩ := List.getElem?_eq_some_iff.mp henv
      exact List.drop_eq_getElem_cons hi
    refine ⟨((env, events.drop (i + 1)), i), ?_, ?_⟩
    · exact List.mem_zipIdx_iff_getElem?.mpr (getElem?_followed.mpr hdrop)
    · rw [(matchedSpawn_iff h hdrop).mpr ⟨n, s, t, hreach, hspawn⟩, Option.map_some,
        idxOf_of_reaches hdrop hreach hspawn]

/-! ### One spawn each -/

theorem sources_sorted : (sources parseTs events config).Pairwise fun p q => p.1 < q.1 := by
  have hidx : (followed events).zipIdx.Pairwise fun f g => f.2 < g.2 := by
    have hrange := @List.pairwise_lt_range' 0 (followed events).length 1 Nat.one_pos
    rw [← List.zipIdx_map_snd, List.pairwise_map] at hrange
    exact hrange
  refine List.pairwise_filterMap.mpr (hidx.imp fun hfg p hp q hq => ?_)
  obtain ⟨spawn, -, rfl⟩ := Option.map_eq_some_iff.mp hp
  obtain ⟨spawn', -, rfl⟩ := Option.map_eq_some_iff.mp hq
  exact hfg

/-- A destruction between another one and the spawn that it reaches reaches it too. -/
theorem Reaches.between {k : ℕ} {s' : ℤ} (h : InOrder parseTs events)
    (hreach : Reaches parseTs events config i j s t) (hik : i < k) (hkj : k < j)
    (hk : destroyedAt parseTs events k = some s') : Reaches parseTs events config k j s' t := by
  have hle : s ≤ s' := by
    obtain ⟨env, veh, henv, hveh, hs⟩ := destroyedAt_eq_some.mp hreach.destroyed
    obtain ⟨env', veh', henv', hveh', hs'⟩ := destroyedAt_eq_some.mp hk
    obtain ⟨hi, rfl⟩ := List.getElem?_eq_some_iff.mp henv
    obtain ⟨hk, rfl⟩ := List.getElem?_eq_some_iff.mp henv'
    refine List.pairwise_iff_getElem.mp h i k hi hk hik s ?_ s' ?_
    · unfold envelopeTs
      rw [hveh]
      exact hs
    · unfold envelopeTs
      rw [hveh']
      exact hs'
  have hwithin := hreach.within
  have hnear := hreach.near
  exact ⟨hkj, by omega, hk, hreach.spawned, fun m hm => hreach.next m (by omega), by omega⟩

theorem once_iff (h : InOrder parseTs events) :
    ((sources parseTs events config).Pairwise fun p q => p.2 ≠ q.2) ↔
      ∀ i j s t, Reaches parseTs events config i j s t →
        ∀ k, i < k → k < j → destroyedAt parseTs events k = none := by
  constructor
  · intro honce i j s t hreach k hik hkj
    refine Option.eq_none_iff_forall_ne_some.mpr fun s' hk => ?_
    have hi : (i, j) ∈ sources parseTs events config := (mem_sources h).mpr ⟨s, t, hreach⟩
    have hk' : (k, j) ∈ sources parseTs events config :=
      (mem_sources h).mpr ⟨s', t, hreach.between h hik hkj hk⟩
    have hne : (i, j) ≠ (k, j) := fun heq => hik.ne (congrArg Prod.fst heq)
    have hsymm : Std.Symm fun p q : ℕ × ℕ => p.2 ≠ q.2 := ⟨fun _ _ hne => hne.symm⟩
    exact honce.forall hi hk' hne rfl
  · intro halone
    refine sources_sorted.imp_of_mem fun {p q} hp hq hlt heq => ?_
    obtain ⟨s, t, hreach⟩ := (mem_sources h).mp hp
    obtain ⟨s', t', hreach'⟩ := (mem_sources h).mp hq
    have hbetween := hreach'.lt
    rw [← heq] at hbetween
    have hnone := halone p.1 p.2 s t hreach q.1 hlt hbetween
    rw [hreach'.destroyed] at hnone
    cases hnone

/-! ### The rows -/

/-- What two functions yield of a list goes along if they yield something of the same elements. -/
theorem forall₂_filterMap_filterMap {α β γ : Type} {f : α → Option β} {g : α → Option γ}
    {r : β → γ → Prop} {l : List α} (h : ∀ a ∈ l, f a = none ↔ g a = none) :
    List.Forall₂ r (l.filterMap f) (l.filterMap g) ↔
      ∀ a ∈ l, ∀ b c, f a = some b → g a = some c → r b c := by
  induction l with
  | nil => simp
  | cons a l ih =>
    have ha := h a (List.mem_cons_self ..)
    rw [List.forall_mem_cons, ← ih fun a' ha' => h a' (List.mem_cons_of_mem _ ha')]
    cases hf : f a with
    | none => simp [hf, ha.mp hf]
    | some b =>
      cases hg : g a with
      | none => exact absurd (hf.symm.trans (ha.mpr hg)) (Option.some_ne_none b)
      | some c => simp [hf, hg]

theorem implicitDeath_eq_none : implicitDeath parseTs config env later = none ↔
    matchedSpawn parseTs config env later = none := by
  unfold implicitDeath
  split
  case h_1 veh hveh =>
    unfold matchedSpawn
    rw [hveh]
    simp only [Option.bind_eq_none_iff, Option.map_eq_none_iff]
  case h_2 hne =>
    refine iff_of_true rfl (Option.eq_none_iff_forall_ne_some.mpr fun spawn hspawn => ?_)
    obtain ⟨veh, -, hveh, -⟩ := matchedSpawn_eq_some.mp hspawn
    exact hne veh hveh

theorem row_of_matchedSpawn {spawn : EventEnvelope} {row : InferredEvent}
    (hspawn : matchedSpawn parseTs config env later = some spawn)
    (hrow : implicitDeath parseTs config env later = some row) : ∃ veh death,
      env.event = some (.vehicleDestruction veh) ∧ row.event = .playerDeath death ∧
        death.timestamp = veh.timestamp ∧ death.zone = veh.zone ∧
        row.metadata.inferenceInputs = [env.idempotencyKey, spawn.idempotencyKey] := by
  obtain ⟨veh, s, hveh, hs, hscan⟩ := matchedSpawn_eq_some.mp hspawn
  unfold implicitDeath at hrow
  rw [hveh] at hrow
  simp only at hrow
  rw [hs, Option.bind_some, hscan, Option.map_some] at hrow
  obtain rfl := Option.some.inj hrow
  exact ⟨veh, _, hveh, rfl, rfl, rfl, rfl⟩

theorem filter_isDeath : (infer parseTs events config).filter isDeath =
    (ruleImplicitDeathAfterVehicleDestruction parseTs events config).map
      (reconcile parseTs events config) := by
  have hkeep : ∀ row row', row.event = row'.event → isDeath row = isDeath row' := by
    intro row row' h
    unfold isDeath
    rw [h]
  have hdeaths : ∀ row ∈ ruleImplicitDeathAfterVehicleDestruction parseTs events config,
      isDeath row = true := by
    intro row hrow
    obtain ⟨f, -, hf⟩ := List.mem_filterMap.mp hrow
    obtain ⟨death, hevent, -⟩ := exists_of_implicitDeath hf
    unfold isDeath
    rw [hevent]
  have hchanges : ∀ row ∈ ruleImplicitLocationChange events, ¬ isDeath row = true := by
    intro row hrow hdeath
    obtain ⟨change, hevent, -⟩ := exists_of_mem_ruleImplicitLocationChange hrow
    unfold isDeath at hdeath
    rw [hevent] at hdeath
    cases hdeath
  have htimeouts : ∀ row ∈ ruleImplicitShopRequestTimeout parseTs events config,
      ¬ isDeath row = true := by
    intro row hrow hdeath
    obtain ⟨f, -, hf⟩ := List.mem_filterMap.mp hrow
    obtain ⟨req, reqTs, -, -, -, rfl⟩ := exists_of_implicitTimeout hf
    cases hdeath
  rw [filter_infer hkeep, List.filter_eq_self.mpr hdeaths, List.filter_eq_nil_iff.mpr hchanges,
    List.filter_eq_nil_iff.mpr htimeouts, List.append_nil, List.append_nil]

/-- Each death is one of its destruction, in time if the spawn that is reached is. -/
theorem deaths_iff (h : InOrder parseTs events) :
    List.Forall₂ (DeathOf parseTs events) ((infer parseTs events config).filter isDeath)
        (sources parseTs events config) ↔
      ∀ i j s t, Reaches parseTs events config i j s t →
        t ≤ s + implicitDeathWindowSecs * nsPerSec := by
  have hrule : ruleImplicitDeathAfterVehicleDestruction parseTs events config =
      (followed events).zipIdx.filterMap fun f => implicitDeath parseTs config f.1.1 f.1.2 := by
    unfold ruleImplicitDeathAfterVehicleDestruction
    conv_lhs => rw [← @List.zipIdx_map_fst _ 0 (followed events), List.filterMap_map]
    rfl
  rw [filter_isDeath, hrule, List.forall₂_map_left_iff]
  unfold sources
  rw [forall₂_filterMap_filterMap fun f _ => by rw [implicitDeath_eq_none, Option.map_eq_none_iff]]
  constructor
  · intro hrows i j s t hreach
    have hmem : (i, j) ∈ sources parseTs events config := (mem_sources h).mpr ⟨s, t, hreach⟩
    obtain ⟨f, hf, hsource⟩ := List.mem_filterMap.mp hmem
    obtain ⟨spawn, hspawn, hp⟩ := Option.map_eq_some_iff.mp hsource
    have hsome : implicitDeath parseTs config f.1.1 f.1.2 ≠ none := by
      rw [Ne, implicitDeath_eq_none, hspawn]
      exact Option.some_ne_none spawn
    obtain ⟨row, hrow⟩ := Option.ne_none_iff_exists'.mp hsome
    obtain ⟨-, env, veh, spawn', s', t', -, henv, hget, hveh, hfound, hs, ht, hle, -⟩ :=
      hrows f hf row (i, j) hrow hsource
    have hi := hreach.destroyed
    have hj := hreach.spawned
    rw [destroyedAt_eq_some.mpr ⟨env, veh, henv, hveh, hs⟩] at hi
    rw [spawnedAt_eq_some.mpr ⟨spawn', hget, hfound, ht⟩] at hj
    obtain rfl := Option.some.inj hi
    obtain rfl := Option.some.inj hj
    exact hle
  · intro hintime f hf row p hrow hsource
    have hdrop := getElem?_followed.mp (List.mem_zipIdx_iff_getElem?.mp hf)
    obtain ⟨spawn, hspawn, rfl⟩ := Option.map_eq_some_iff.mp hsource
    obtain ⟨n, s, t, hreach, hget⟩ := (matchedSpawn_iff h hdrop).mp hspawn
    rw [idxOf_of_reaches hdrop hreach hget]
    obtain ⟨veh, death, hveh, hevent, htime, hzone, hinputs⟩ := row_of_matchedSpawn hspawn hrow
    obtain ⟨env, veh', henv, hveh', hs⟩ := destroyedAt_eq_some.mp hreach.destroyed
    obtain ⟨spawn', hget', hfound, ht⟩ := spawnedAt_eq_some.mp hreach.spawned
    obtain rfl := Option.some.inj (hget.symm.trans hget')
    have henv' : events[f.2]? = some f.1.1 := by
      have hfirst := congrArg (fun l : List EventEnvelope => l[0]?) hdrop
      simpa [List.getElem?_drop] using hfirst
    obtain rfl := Option.some.inj (henv'.symm.trans henv)
    obtain rfl := GameEvent.vehicleDestruction.inj (Option.some.inj (hveh.symm.trans hveh'))
    refine ⟨hreach.lt, f.1.1, veh, spawn, s, t, death, henv, hget, hveh, hfound, hs, ht,
      hintime _ _ s t hreach, ?_, htime, hzone, ?_⟩
    · rw [event_reconcile, hevent]
    · rw [metadata_reconcile, hinputs]

/-- **The deaths of a stream in order are sound, and no two share a spawn, exactly if every destruction
that reaches a spawn reaches it in time and alone.** -/
theorem sound_iff (h : InOrder parseTs events) :
    Sound parseTs events config ↔ Clear parseTs events config := by
  constructor
  · rintro ⟨hdeaths, honce⟩ i j s t hreach
    exact ⟨(deaths_iff h).mp hdeaths i j s t hreach, (once_iff h).mp honce i j s t hreach⟩
  · intro hclear
    refine ⟨(deaths_iff h).mpr ?_, (once_iff h).mpr ?_⟩
    · exact fun i j s t hreach => (hclear i j s t hreach).1
    · exact fun i j s t hreach => (hclear i j s t hreach).2

end Stream

/-! ### One spawn after two destructions -/

/-- The timestamps below, as nanoseconds since 1970. -/
def readTs (s : String) : Option ℤ :=
  [("2026-05-17T14:02:30Z", (1779026550000000000 : ℤ)), ("2026-05-17T14:02:35Z", 1779026555000000000),
    ("2026-05-17T14:02:37Z", 1779026557000000000),
    ("2026-05-17T14:02:45.900Z", 1779026565900000000)].lookup s

def destruction (timestamp : String) (destroyLevel : ℕ) (idk : String) : EventEnvelope :=
  makeEnvelope (.vehicleDestruction ⟨timestamp, "Cutlass", some "v1", destroyLevel, "self", none⟩) idk

def spawn (timestamp : String) (idk : String) : EventEnvelope :=
  makeEnvelope (.resolveSpawn ⟨timestamp, "Jim", false⟩) idk

def crash : List EventEnvelope :=
  [destruction "2026-05-17T14:02:30Z" 2 "envA", spawn "2026-05-17T14:02:35Z" "envB"]

/-- A vehicle that is disabled first, and then destroyed. -/
def crashInTwo : List EventEnvelope :=
  [destruction "2026-05-17T14:02:30Z" 1 "envA", destruction "2026-05-17T14:02:35Z" 2 "envB",
    spawn "2026-05-17T14:02:37Z" "envC"]

/-- A spawn almost sixteen seconds after the crash. -/
def lateSpawn : List EventEnvelope :=
  [destruction "2026-05-17T14:02:30Z" 2 "envA", spawn "2026-05-17T14:02:45.900Z" "envB"]

theorem sound_iff_crash : sources readTs crash .default = [(0, 1)] ∧
    (Sound readTs crash .default ↔ Clear readTs crash .default) := by
  refine ⟨by decide +kernel, sound_iff ?_⟩
  unfold InOrder
  decide +kernel

/-- **Two deaths share a spawn, and a death has a spawn that is too late.** -/
theorem not_sound_crashInTwo : InOrder readTs crashInTwo ∧ InOrder readTs lateSpawn ∧
    ((infer readTs crashInTwo .default).filter isDeath).map (·.metadata.inferenceInputs) =
      [["envA", "envC"], ["envB", "envC"]] ∧ ¬ Sound readTs crashInTwo .default ∧
    ((infer readTs lateSpawn .default).filter isDeath).map (·.metadata.inferenceInputs) =
      [["envA", "envB"]] ∧ ¬ Sound readTs lateSpawn .default := by
  have horder : InOrder readTs lateSpawn := by
    unfold InOrder
    decide +kernel
  refine ⟨?_, horder, by decide +kernel, fun h => ?_, by decide +kernel, fun h => ?_⟩
  · unfold InOrder
    decide +kernel
  · have honce := h.once
    have hsources : sources readTs crashInTwo .default = [(0, 2), (1, 2)] := by decide +kernel
    rw [hsources] at honce
    exact absurd honce (by decide)
  · have hreach : Reaches readTs lateSpawn .default 0 1 1779026550000000000 1779026565900000000 := by
      refine ⟨by decide, by decide, by decide +kernel, by decide +kernel, fun k hk hk' => ?_, by decide⟩
      omega
    have hintime := (deaths_iff horder).mp h.deaths 0 1 _ _ hreach
    exact absurd hintime (by decide)

end StarStats.Core.ImplicitDeaths
