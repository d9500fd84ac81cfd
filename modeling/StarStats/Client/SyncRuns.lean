import StarStats.Client.SyncMachine
import StarStats.Lib.Outbox

/-! # Any order of rounds

The machine simulates `Lib.Outbox` (`exists_simulates`), and what holds of an outbox holds of it: in
any order of steps the cursor passes only events that were acknowledged
(`cursor_passes_acknowledged`). -/

namespace StarStats.Client.SyncRuns

open StarStats.Lib StarStats.Lib.Tables
open StarStats.Client.Store StarStats.Client.Store.Storage
open StarStats.Client.ConfigFile StarStats.Client.Sync StarStats.Client.SyncMachine

/-! ### Statement -/

/-- The batch sends an event, or passes one that was deleted before it was read. -/
def Passes (p : Posted) (i : ℕ) : Prop :=
  i ∈ p.ids ∨ (i ∈ p.gone ∧ (i : ℤ) ≤ p.highest)

/-- Every id ever given out at or below the cursor was passed by a batch answered with 2xx. -/
def OnlyAcknowledged (m : Machine) : Prop :=
  ∀ e ∈ m.inserted, (e.1 : ℤ) ≤ m.storage.readSyncCursor → ∃ p ∈ m.acknowledged, Passes p e.1

/-- An event in no acknowledged batch still lies above the cursor, and a round that reads now above
any cursor takes it, or ends below it. -/
def NoneSkipped (m : Machine) : Prop :=
  ∀ a ∈ m.storage.events.rows,
    ((∀ p ∈ m.acknowledged, a.1 ∉ p.ids) → m.storage.readSyncCursor < a.1) ∧
      ∀ (cursor : ℤ) (batchSize : ℕ), cursor < a.1 →
        m.storage.readUnsent cursor (max 1 batchSize) ≠ [] ∧
          (a ∈ m.storage.readUnsent cursor (max 1 batchSize) ∨
            highestId cursor (m.storage.readUnsent cursor (max 1 batchSize)) < a.1)

/-! ### The outbox behind the machine -/

/-- A batch, as an outbox has it. -/
def toBatch (p : Posted) : Outbox.Batch ℤ where
  after := p.cursor
  sent := {i | ∃ j ∈ p.ids, (j : ℤ) = i}
  gone := {i | ∃ j ∈ p.gone, (j : ℤ) = i}
  upto := p.highest

/-- What a round relies on has happened to the outbox. -/
def Known (o : Outbox.State ℤ) : Round → Prop
  | .opened cursor => cursor ∈ o.opened
  | .posted p => toBatch p ∈ o.read
  | .acknowledged p _ => toBatch p ∈ o.acknowledged

/-- The machine is seen as an outbox. -/
structure Simulates (m : Machine) (o : Outbox.State ℤ) : Prop where
  inserted : o.inserted = {i | ∃ e ∈ m.inserted, (e.1 : ℤ) = i}
  deleted : o.deleted = {i | ∃ j ∈ m.deleted, (j : ℤ) = i}
  cursor : o.cursor = m.storage.readSyncCursor
  rounds : ∀ r ∈ m.rounds, Known o r
  acknowledged : ∀ b ∈ o.acknowledged, ∃ p ∈ m.acknowledged, toBatch p = b
  advanced : o.advanced = {b | ∃ p ∈ m.advanced, toBatch p = b}

/-! ### Simulation -/

section Simulation
variable {m : Machine} {o : Outbox.State ℤ}

theorem Known.mono {o' : Outbox.State ℤ} {r : Round} (h : Known o r)
    (hopened : o.opened ⊆ o'.opened) (hread : o.read ⊆ o'.read)
    (hacked : o.acknowledged ⊆ o'.acknowledged) : Known o' r := by
  cases r with
  | opened cursor => exact hopened h
  | posted p => exact hread h
  | acknowledged p parsed => exact hacked h

theorem simulates_start (noiseList : List String) (now : String) (cfg : Config) :
    Simulates (Machine.start noiseList now cfg) (Outbox.init 0) := by
  constructor <;>
    simp [Machine.start, Machine.storage, Storage.fresh, Outbox.init, readSyncCursor]

/-- The outbox need not move when rounds end and the rest stays. -/
theorem Simulates.congr {m' : Machine} (h : Simulates m o) (hins : m'.inserted = m.inserted)
    (hdel : m'.deleted = m.deleted) (hcur : m'.storage.readSyncCursor = m.storage.readSyncCursor)
    (hrounds : ∀ r ∈ m'.rounds, r ∈ m.rounds) (hacked : m'.acknowledged = m.acknowledged)
    (hadv : m'.advanced = m.advanced) : Simulates m' o where
  inserted := hins ▸ h.inserted
  deleted := hdel ▸ h.deleted
  cursor := hcur ▸ h.cursor
  rounds r hr := h.rounds r (hrounds r hr)
  acknowledged := hacked ▸ h.acknowledged
  advanced := hadv ▸ h.advanced

theorem Simulates.mem_live (h : Simulates m o) (hacc : Accounted m) {i : ℤ} :
    i ∈ o.live ↔ ∃ a ∈ m.storage.events.rows, (a.1 : ℤ) = i := by
  rw [Outbox.State.live, h.inserted, h.deleted]
  constructor
  · rintro ⟨⟨e, he, rfl⟩, hnd⟩
    rcases hacc.kept e he with hd | ⟨a, ha, hae⟩
    · exact absurd ⟨e.1, hd, rfl⟩ hnd
    · exact ⟨a, ha, congrArg Nat.cast hae⟩
  · rintro ⟨a, ha, rfl⟩
    obtain ⟨hins, hnd⟩ := hacc.rows a ha
    refine ⟨⟨_, hins, rfl⟩, ?_⟩
    rintro ⟨j, hj, hja⟩
    exact hnd (Int.ofNat_inj.mp hja ▸ hj)

theorem Simulates.insertEvent (h : Simulates m o) (hacc : Accounted m) (r : EventRow) :
    ∃ o', Outbox.Step 0 o o' ∧ Simulates (m.insertEvent r) o' := by
  by_cases hk : r.idempotencyKey ∈ m.storage.events.keys
  · exact ⟨o, .stutter o, h.congr (if_pos hk) rfl rfl (fun _ hr => hr) rfl rfl⟩
  have hins : (m.insertEvent r).inserted =
      (m.storage.events.seq + 1, r.idempotencyKey) :: m.inserted := if_neg hk
  refine ⟨_, .insert (i := ((m.storage.events.seq + 1 : ℕ) : ℤ)) (by omega) ?_, ?_⟩
  · rw [h.inserted]
    rintro _ ⟨e, he, rfl⟩
    have := (hacc.bounded e he).2
    omega
  · refine ⟨?_, h.deleted, h.cursor, fun r hr => h.rounds r hr, h.acknowledged, h.advanced⟩
    ext i
    rw [hins]
    simp only [h.inserted, Set.mem_insert_iff, Set.mem_ofPred_eq, List.mem_cons, or_and_right,
      exists_or, exists_eq_left]
    exact or_congr_left eq_comm

theorem Simulates.deleteEvent (h : Simulates m o) (hacc : Accounted m) (id : ℕ) :
    ∃ o', Outbox.Step 0 o o' ∧ Simulates (m.deleteEvent id) o' := by
  by_cases hid : (m.storage.deleteEventById id).2 = 0
  · exact ⟨o, .stutter o, h.congr rfl (if_pos hid) rfl (fun _ hr => hr) rfl rfl⟩
  have hdel : (m.deleteEvent id).deleted = id :: m.deleted := if_neg hid
  have hlive : (id : ℤ) ∈ o.live := by
    rw [h.mem_live hacc]
    by_contra hnone
    refine hid (deleteEventById_snd_eq_zero.mpr fun a ha heq => hnone ⟨a, ha, ?_⟩)
    exact congrArg Nat.cast heq
  refine ⟨_, .delete hlive, h.inserted, ?_, h.cursor, fun r hr => h.rounds r hr, h.acknowledged,
    h.advanced⟩
  ext i
  rw [hdel]
  simp only [h.deleted, Set.mem_insert_iff, Set.mem_ofPred_eq, List.mem_cons, or_and_right,
    exists_or, exists_eq_left]
  exact or_congr_left eq_comm

theorem Simulates.openRound (h : Simulates m o) :
    ∃ o', Outbox.Step 0 o o' ∧ Simulates (m.step .openRound) o' := by
  simp only [Machine.step]
  split_ifs
  · exact ⟨o, .stutter o, h⟩
  · refine ⟨_, .openCursor o, h.inserted, h.deleted, h.cursor, fun r hr => ?_, h.acknowledged,
      h.advanced⟩
    rcases List.mem_append.mp hr with hr | hr
    · exact (h.rounds r hr).mono (Set.subset_insert _ _) le_rfl le_rfl
    · rw [List.mem_singleton.mp hr]
      exact Or.inl h.cursor.symm

/-- What a round reads is a batch of the outbox: no row between the cursor and its highest id is
left out. -/
theorem Simulates.reads (h : Simulates m o) (hacc : Accounted m) {cursor : ℤ}
    (hc : cursor ∈ o.opened) {limit : ℕ} (hne : m.storage.readUnsent cursor limit ≠ []) :
    o.Reads (toBatch ⟨cursor, m.storage.readUnsent cursor limit, m.deleted⟩) := by
  obtain ⟨⟨a, ha, hhigh⟩, hle⟩ := @highestId_spec cursor _ hne
  refine ⟨hc, ?_, ⟨a.1, List.mem_map_of_mem ha, hhigh.symm⟩, h.deleted.symm, fun i hi hlo hhi => ?_⟩
  · rintro _ ⟨j, hj, rfl⟩
    obtain ⟨b, hb, rfl⟩ := List.mem_map.mp hj
    exact (h.mem_live hacc).mpr ⟨b, (mem_of_mem_readUnsent hb).1, rfl⟩
  · obtain ⟨b, hb, rfl⟩ := (h.mem_live hacc).mp hi
    rcases @mem_readUnsent_or_above _ _ limit _ hb hlo with hmem | habove
    · exact ⟨b.1, List.mem_map_of_mem hmem, rfl⟩
    · have hlt := habove a ha
      have hhi' : (b.1 : ℤ) ≤ a.1 := hhigh ▸ hhi
      omega

theorem Simulates.read (h : Simulates m o) (hacc : Accounted m) (k batchSize : ℕ) (now : String)
    {cursor : ℤ} (hc : cursor ∈ o.opened) :
    ∃ o', Outbox.Step 0 o o' ∧ Simulates (m.read k batchSize now cursor) o' := by
  simp only [Machine.read]
  split_ifs with hp
  · exact ⟨o, .stutter o, h.congr rfl rfl rfl (fun _ hr => List.mem_of_mem_eraseIdx hr) rfl rfl⟩
  · refine ⟨_, .read (h.reads hacc hc hp), h.inserted, h.deleted, h.cursor, fun r hr => ?_,
      h.acknowledged, h.advanced⟩
    rcases List.mem_or_eq_of_mem_set hr with hr | rfl
    · exact (h.rounds r hr).mono le_rfl (Set.subset_insert _ _) le_rfl
    · exact Set.mem_insert _ _

theorem Simulates.answer (h : Simulates m o) (k : ℕ) (io : RoundIo) {p : Posted}
    (hp : toBatch p ∈ o.read) : ∃ o', Outbox.Step 0 o o' ∧ Simulates (m.answer k io p) o' := by
  obtain ⟨app, rounds, hst, heq, hrounds⟩ := m.answer_spec k io p
  have hcur : app.storage.readSyncCursor = m.storage.readSyncCursor := congrArg readSyncCursor hst
  by_cases hsucc : io.answer.any Response.isSuccess
  · have hmono : ∀ r ∈ m.rounds,
        Known { o with acknowledged := insert (toBatch p) o.acknowledged } r := fun r hr =>
      (h.rounds r hr).mono le_rfl le_rfl (Set.subset_insert _ _)
    rw [heq, if_pos hsucc]
    refine ⟨_, .acknowledge hp, h.inserted, h.deleted, h.cursor.trans hcur.symm, fun r hr => ?_, ?_,
      h.advanced⟩
    · rcases hrounds with rfl | ⟨-, parsed, rfl⟩
      · exact hmono r (List.mem_of_mem_eraseIdx hr)
      · rcases List.mem_or_eq_of_mem_set hr with hr | rfl
        · exact hmono r hr
        · exact Set.mem_insert _ _
    · rintro b (rfl | hb)
      · exact ⟨p, List.mem_cons_self, rfl⟩
      · obtain ⟨q, hq, hqb⟩ := h.acknowledged b hb
        exact ⟨q, List.mem_cons_of_mem _ hq, hqb⟩
  · obtain rfl := hrounds.resolve_right fun hr => hsucc hr.1
    rw [heq, if_neg hsucc]
    exact ⟨o, .stutter o, h.congr rfl rfl hcur (fun _ hr => List.mem_of_mem_eraseIdx hr) rfl rfl⟩

theorem Simulates.write (h : Simulates m o) (k : ℕ) (now : String) {p : Posted}
    (parsed : IngestResponse) (hp : toBatch p ∈ o.acknowledged) (hpos : 0 ≤ p.highest) :
    ∃ o', Outbox.Step 0 o o' ∧ Simulates (m.write k now p parsed) o' := by
  refine ⟨_, .advance hp, h.inserted, h.deleted, ?_, fun r hr => ?_, h.acknowledged, ?_⟩
  · exact (max_eq_left hpos).symm
  · exact (h.rounds r (List.mem_of_mem_eraseIdx hr)).mono le_rfl le_rfl le_rfl
  · ext b
    simp only [Machine.write, h.advanced, Set.mem_insert_iff, Set.mem_ofPred_eq, List.mem_cons,
      or_and_right, exists_or, exists_eq_left]
    exact or_congr_left eq_comm

theorem Simulates.step (h : Simulates m o) (hacc : Accounted m) (hinv : Outbox.Inv 0 o)
    (a : Action) : ∃ o', Outbox.Step 0 o o' ∧ Simulates (m.step a) o' := by
  have hstay : ∃ o', Outbox.Step 0 o o' ∧ Simulates m o' := ⟨o, .stutter o, h⟩
  cases a with
  | insertEvent r => exact h.insertEvent hacc r
  | updateEventClassification id eventType timestamp payload =>
    exact ⟨o, .stutter o, h.congr rfl rfl rfl (fun _ hr => hr) rfl rfl⟩
  | deleteEventById id => exact h.deleteEvent hacc id
  | openRound => exact h.openRound
  | read k batchSize now =>
    simp only [Machine.step]
    split
    · next cursor hk => exact h.read hacc k batchSize now (h.rounds _ (List.mem_of_getElem? hk))
    · exact hstay
  | answer k io =>
    simp only [Machine.step]
    split
    · next p hk => exact h.answer k io (h.rounds _ (List.mem_of_getElem? hk))
    · exact hstay
  | write k now =>
    simp only [Machine.step]
    split
    · next p parsed hk =>
      have hp : toBatch p ∈ o.acknowledged := h.rounds _ (List.mem_of_getElem? hk)
      have hcomplete := hinv.read _ (hinv.acknowledged hp)
      refine h.write k now parsed hp ?_
      obtain ⟨j, -, hj⟩ := hcomplete.upto
      exact (Int.natCast_nonneg j).trans_eq hj
    · exact hstay
  | abort k =>
    exact ⟨o, .stutter o, h.congr rfl rfl rfl (fun _ hr => List.mem_of_mem_eraseIdx hr) rfl rfl⟩
  | crash =>
    exact ⟨o, .stutter o, h.congr rfl rfl rfl (fun _ hr => absurd hr List.not_mem_nil) rfl rfl⟩
  | saveConfig cfg => exact ⟨o, .stutter o, h.congr rfl rfl rfl (fun _ hr => hr) rfl rfl⟩
  | setAuthLost lost => exact ⟨o, .stutter o, h.congr rfl rfl rfl (fun _ hr => hr) rfl rfl⟩

end Simulation

/-! ### Runs -/

section Runs
variable {noiseList : List String} {now : String} {cfg : Config}

/-- **Every run is one of an outbox.** -/
theorem exists_simulates (as : List Action) :
    ∃ o, Outbox.Reachable 0 o ∧ Simulates ((Machine.start noiseList now cfg).run as) o := by
  induction as using List.reverseRecOn with
  | nil => exact ⟨_, .refl, simulates_start noiseList now cfg⟩
  | append_singleton as a ih =>
    obtain ⟨o, hreach, hsim⟩ := ih
    obtain ⟨o', hstep, hsim'⟩ := hsim.step (accounted_run as) (Outbox.inv_of_reachable hreach) a
    rw [run_append_singleton]
    exact ⟨o', hreach.tail hstep, hsim'⟩

theorem mem_casts {l : List ℕ} {i : ℕ} : (i : ℤ) ∈ {j : ℤ | ∃ k ∈ l, (k : ℤ) = j} ↔ i ∈ l :=
  ⟨fun ⟨_, hk, heq⟩ => Int.ofNat_inj.mp heq ▸ hk, fun h => ⟨i, h, rfl⟩⟩

theorem passed_iff {p : Posted} {i : ℕ} :
    ((i : ℤ) ∈ (toBatch p).sent ∨ (i : ℤ) ∈ (toBatch p).gone ∧ (i : ℤ) ≤ (toBatch p).upto) ↔ Passes p i :=
  or_congr mem_casts (and_congr_left' mem_casts)

/-- What was given out at or below the cursor, a batch that moved the cursor has passed. -/
theorem passes_of_le (as : List Action) {e : ℕ × String}
    (he : e ∈ ((Machine.start noiseList now cfg).run as).inserted)
    (hc : (e.1 : ℤ) ≤ ((Machine.start noiseList now cfg).run as).storage.readSyncCursor) :
    ∃ p ∈ ((Machine.start noiseList now cfg).run as).advanced, Passes p e.1 := by
  obtain ⟨o, hreach, hsim⟩ := @exists_simulates noiseList now cfg as
  have hins : (e.1 : ℤ) ∈ o.inserted := hsim.inserted ▸ ⟨e, he, rfl⟩
  obtain ⟨b, hb, hpass⟩ := Outbox.passed_of_reachable hreach hins (hc.trans_eq hsim.cursor.symm)
  rw [hsim.advanced] at hb
  obtain ⟨p, hp, rfl⟩ := hb
  exact ⟨p, hp, passed_iff.mp hpass⟩

/-- **The cursor only passes events that were acknowledged**, or deleted before they could be read,
and no round skips one. -/
theorem cursor_passes_acknowledged (noiseList : List String) (now : String) (cfg : Config)
    (as : List Action) :
    OnlyAcknowledged ((Machine.start noiseList now cfg).run as) ∧
      NoneSkipped ((Machine.start noiseList now cfg).run as) := by
  obtain ⟨o, hreach, hsim⟩ := @exists_simulates noiseList now cfg as
  have hinv := Outbox.inv_of_reachable hreach
  refine ⟨fun e he hc => ?_, fun a ha => ⟨fun hnot => ?_, fun cursor batchSize hc => ?_⟩⟩
  · have hins : (e.1 : ℤ) ∈ o.inserted := hsim.inserted ▸ ⟨e, he, rfl⟩
    obtain ⟨b, hb, hpass⟩ := Outbox.passed_of_reachable hreach hins (hc.trans_eq hsim.cursor.symm)
    obtain ⟨p, hp, rfl⟩ := hsim.acknowledged b (hinv.advanced hb)
    exact ⟨p, hp, passed_iff.mp hpass⟩
  · by_contra hle
    have hlive := (hsim.mem_live (accounted_run as)).mpr ⟨a, ha, rfl⟩
    have hcur : (a.1 : ℤ) ≤ o.cursor := hsim.cursor ▸ not_lt.mp hle
    obtain ⟨b, hb, hsent⟩ := Outbox.sent_of_live hreach hlive hcur
    obtain ⟨p, hp, rfl⟩ := hsim.acknowledged b (hinv.advanced hb)
    obtain ⟨j, hj, hja⟩ := hsent
    exact hnot p hp (Int.ofNat_inj.mp hja ▸ hj)
  · have hne := @readUnsent_ne_nil _ _ (max 1 batchSize) _ ha hc (le_max_left 1 batchSize)
    refine ⟨hne, (mem_readUnsent_or_above ha hc).imp_right fun habove => ?_⟩
    obtain ⟨⟨b, hb, hhigh⟩, -⟩ := @highestId_spec cursor _ hne
    rw [hhigh]
    exact Int.ofNat_lt.mpr (habove b hb)

end Runs

end StarStats.Client.SyncRuns
