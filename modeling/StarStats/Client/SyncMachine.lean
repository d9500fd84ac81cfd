import StarStats.Client.Sync
import StarStats.Lib.Runs

/-! # The worker among others

Rounds of the worker, more than one at a time when an old worker is not yet gone, interleave with
what else happens to the store: events are inserted, re-classified and deleted at any time. A round
reads the cursor, then the events above it, gets an answer and writes the cursor, and it may be cut
off before each of these.

The machine keeps a history beside the state of the client: the ids and keys given out, the ids
deleted, the batches answered with 2xx and those that moved the cursor. `AllKeyed` says that this
history is that of the rows. -/

namespace StarStats.Client.SyncMachine

open StarStats.Lib StarStats.Lib.Tables
open StarStats.Client.Store StarStats.Client.Store.Storage
open StarStats.Client.ConfigFile StarStats.Client.Sync

/-- A batch that was read; `gone` is what had been deleted by then. -/
structure Posted where
  cursor : ℤ
  pending : List (ℕ × EventRow)
  gone : List ℕ

/-- The events of the batch. -/
def Posted.ids (p : Posted) : List ℕ := p.pending.map (·.1)

/-- Where the cursor goes when the batch is acknowledged. -/
def Posted.highest (p : Posted) : ℤ := highestId p.cursor p.pending

/-- How far a round has come. -/
inductive Round where
  | opened (cursor : ℤ)
  | posted (p : Posted)
  | acknowledged (p : Posted) (parsed : IngestResponse)

/-- The client, the rounds that are under way, and what the theorem is told of the past. -/
structure Machine where
  app : AppState
  rounds : List Round
  /-- The ids given out, with their keys. -/
  inserted : List (ℕ × String)
  deleted : List ℕ
  /-- The batches answered with 2xx. -/
  acknowledged : List Posted
  /-- The batches that moved the cursor. -/
  advanced : List Posted

/-- A fresh database and no round. -/
def Machine.start (noiseList : List String) (now : String) (cfg : Config) : Machine :=
  ⟨⟨Storage.fresh noiseList now, cfg, .default, false⟩, [], [], [], [], []⟩

/-- What can happen between two looks at the client. -/
inductive Action where
  | insertEvent (r : EventRow)
  | updateEventClassification (id : ℕ) (eventType timestamp payloadJson : String)
  | deleteEventById (id : ℕ)
  /-- A worker reads the cursor. -/
  | openRound
  /-- Round `k` reads the events and posts them. -/
  | read (k batchSize : ℕ) (now : String)
  /-- Round `k` gets its answer. -/
  | answer (k : ℕ) (io : RoundIo)
  /-- Round `k` writes the cursor. -/
  | write (k : ℕ) (now : String)
  /-- Round `k` is cut off, by an error of the store or as its worker is aborted. -/
  | abort (k : ℕ)
  /-- The process ends and is started again. -/
  | crash
  | saveConfig (cfg : Config)
  | setAuthLost (lost : Bool)

/-! ### Steps -/

namespace Machine

def storage (m : Machine) : Storage := m.app.storage

def withStorage (m : Machine) (st : Storage) : Machine :=
  { m with app := { m.app with storage := st } }

/-- A row with a new key gets the next id. -/
def insertEvent (m : Machine) (r : EventRow) : Machine :=
  { m.withStorage (m.storage.insertEvent r) with
    inserted :=
      if r.idempotencyKey ∈ m.storage.events.keys then m.inserted
      else (m.storage.events.seq + 1, r.idempotencyKey) :: m.inserted }

/-- A deletion that finds its row is noted. -/
def deleteEvent (m : Machine) (id : ℕ) : Machine :=
  { m.withStorage (m.storage.deleteEventById id).1 with
    deleted := if (m.storage.deleteEventById id).2 = 0 then m.deleted else id :: m.deleted }

/-- A round takes up what lies after its cursor; with nothing there it ends. -/
def read (m : Machine) (k batchSize : ℕ) (now : String) (cursor : ℤ) : Machine :=
  let pending := m.storage.readUnsent cursor (max 1 batchSize)
  if pending = [] then { m with rounds := m.rounds.eraseIdx k }
  else
    { m with
      app := attempted m.app now
      rounds := m.rounds.set k (.posted ⟨cursor, pending, m.deleted⟩) }

/-- An error ends the round; what was acknowledged stays noted. -/
def answer (m : Machine) (k : ℕ) (io : RoundIo) (p : Posted) : Machine :=
  let acked := if io.answer.any Response.isSuccess then p :: m.acknowledged else m.acknowledged
  match receive m.app io with
  | (app, .error e) =>
    { m with app := failed app e, rounds := m.rounds.eraseIdx k, acknowledged := acked }
  | (app, .ok parsed) =>
    { m with app := app, rounds := m.rounds.set k (.acknowledged p parsed), acknowledged := acked }

/-- The last step of a round: the cursor is moved. -/
def write (m : Machine) (k : ℕ) (now : String) (p : Posted) (parsed : IngestResponse) : Machine :=
  { m with
    app := finish m.app p.highest parsed now
    rounds := m.rounds.eraseIdx k
    advanced := p :: m.advanced }

def step (m : Machine) : Action → Machine
  | .insertEvent r => m.insertEvent r
  | .updateEventClassification id eventType timestamp payloadJson =>
    m.withStorage (m.storage.updateEventClassification id eventType timestamp payloadJson)
  | .deleteEventById id => m.deleteEvent id
  | .openRound =>
    if m.app.authLost then m
    else { m with rounds := m.rounds ++ [.opened m.storage.readSyncCursor] }
  | .read k batchSize now =>
    match m.rounds[k]? with
    | some (.opened cursor) => m.read k batchSize now cursor
    | _ => m
  | .answer k io =>
    match m.rounds[k]? with
    | some (.posted p) => m.answer k io p
    | _ => m
  | .write k now =>
    match m.rounds[k]? with
    | some (.acknowledged p parsed) => m.write k now p parsed
    | _ => m
  | .abort k => { m with rounds := m.rounds.eraseIdx k }
  | .crash => { m with rounds := [], app := { m.app with stats := .default, authLost := false } }
  | .saveConfig cfg => { m with app := { m.app with config := cfg } }
  | .setAuthLost lost => { m with app := { m.app with authLost := lost } }

def run (m : Machine) (as : List Action) : Machine := as.foldl step m

end Machine

/-- An answer leaves the store alone; the round goes on only after a 2xx, else it ends. -/
theorem Machine.answer_spec (m : Machine) (k : ℕ) (io : RoundIo) (p : Posted) :
    ∃ app rounds, app.storage = m.app.storage ∧
      m.answer k io p =
        { m with
          app := app
          rounds := rounds
          acknowledged :=
            if io.answer.any Response.isSuccess then p :: m.acknowledged else m.acknowledged } ∧
      (rounds = m.rounds.eraseIdx k ∨ io.answer.any Response.isSuccess ∧
        ∃ parsed, rounds = m.rounds.set k (.acknowledged p parsed)) := by
  have hst := storage_receive m.app io
  cases hrec : receive m.app io with
  | mk app result =>
    rw [hrec] at hst
    cases result with
    | error e =>
      refine ⟨failed app e, m.rounds.eraseIdx k, hst, ?_, Or.inl rfl⟩
      simp only [Machine.answer, hrec]
    | ok parsed =>
      obtain ⟨resp, hans, hsucc, -⟩ := isSuccess_of_receive hrec
      refine ⟨app, m.rounds.set k (.acknowledged p parsed), hst, ?_,
        Or.inr ⟨by rw [hans]; exact hsucc, parsed, rfl⟩⟩
      simp only [Machine.answer, hrec]

/-- What is left of a round: its error is kept by the loop. -/
def settled : AppState × Except String Unit → AppState
  | (app, .error e) => failed app e
  | (app, .ok ()) => app

/-- The steps of a round with nothing in between are `drain_once`. -/
theorem run_round (fromStr : String → Option StarStats.Core.Events.GameEvent)
    (batchId claimedHandle : String) (m : Machine) (hrounds : m.rounds = [])
    (hauth : m.app.authLost = false) (batchSize : ℕ)
    (send : StarStats.Core.Wire.IngestBatch → RoundIo) :
    let io := send (buildBatch fromStr batchId claimedHandle
      (m.storage.readUnsent m.storage.readSyncCursor (max 1 batchSize)))
    (m.run [.openRound, .read 0 batchSize io.now, .answer 0 io, .write 0 io.now]).app =
      settled (drainOnce fromStr batchId claimedHandle (max 1 batchSize) send m.app) := by
  intro io
  have hopen : m.step .openRound =
      { m with rounds := [.opened m.storage.readSyncCursor] } := by
    simp [Machine.step, hauth, hrounds]
  have hstorage : m.app.storage = m.storage := rfl
  simp only [Machine.run, List.foldl_cons, List.foldl_nil, hopen]
  by_cases hp : m.storage.readUnsent m.storage.readSyncCursor (max 1 batchSize) = []
  · have hread : Machine.step { m with rounds := [.opened m.storage.readSyncCursor] }
        (.read 0 batchSize io.now) = { m with rounds := [] } :=
      (if_pos hp).trans rfl
    rw [hread, drainOnce, hstorage, if_pos hp]
    rfl
  · have hread : Machine.step { m with rounds := [.opened m.storage.readSyncCursor] }
        (.read 0 batchSize io.now) =
        { m with
          app := attempted m.app io.now
          rounds := [.posted ⟨m.storage.readSyncCursor,
            m.storage.readUnsent m.storage.readSyncCursor (max 1 batchSize), m.deleted⟩] } :=
      (if_neg hp).trans rfl
    rw [hread, drainOnce, hstorage, if_neg hp]
    simp only [Machine.step, List.getElem?_cons_zero, Machine.answer]
    rcases receive (attempted m.app io.now) io with ⟨app, _ | parsed⟩ <;>
      simp [settled, io, Machine.write, Posted.highest]

/-! ### The history of the rows -/

/-- The history is that of the rows: a row is what was inserted and not deleted, and no id is given
out twice. -/
structure Accounted (m : Machine) : Prop where
  rows : ∀ a ∈ m.storage.events.rows, (a.1, a.2.idempotencyKey) ∈ m.inserted ∧ a.1 ∉ m.deleted
  kept : ∀ e ∈ m.inserted, e.1 ∈ m.deleted ∨ ∃ a ∈ m.storage.events.rows, a.1 = e.1
  deleted : ∀ i ∈ m.deleted, ∃ e ∈ m.inserted, e.1 = i
  bounded : ∀ e ∈ m.inserted, 0 < e.1 ∧ e.1 ≤ m.storage.events.seq
  unique : ∀ e ∈ m.inserted, ∀ e' ∈ m.inserted, e.1 = e'.1 → e = e'

section Accounted
variable {m : Machine}

theorem accounted_start (noiseList : List String) (now : String) (cfg : Config) :
    Accounted (Machine.start noiseList now cfg) := by
  constructor <;> simp [Machine.start, Machine.storage, Storage.fresh, Table.empty]

theorem Accounted.congr {m' : Machine} (h : Accounted m)
    (hrows : m'.storage.events = m.storage.events) (hins : m'.inserted = m.inserted)
    (hdel : m'.deleted = m.deleted) : Accounted m' := by
  obtain ⟨h₁, h₂, h₃, h₄, h₅⟩ := h
  constructor <;> rw [hins] <;> first | rw [hrows, hdel] | rw [hdel] | rw [hrows] | skip
  all_goals assumption

theorem Accounted.insertEvent (h : Accounted m) (r : EventRow) : Accounted (m.insertEvent r) := by
  by_cases hk : r.idempotencyKey ∈ m.storage.events.keys
  · exact h.congr (Table.insert_of_mem hk) (if_pos hk) rfl
  have hrows : (m.insertEvent r).storage.events.rows =
      m.storage.events.rows ++ [(m.storage.events.seq + 1, r)] := Table.rows_insert_of_not_mem hk
  have hins : (m.insertEvent r).inserted =
      (m.storage.events.seq + 1, r.idempotencyKey) :: m.inserted := if_neg hk
  have hseq : (m.insertEvent r).storage.events.seq = m.storage.events.seq + 1 := by
    change (m.storage.events.insert r).seq = _
    rw [Table.insert, dif_neg hk]
  have hdel : (m.insertEvent r).deleted = m.deleted := rfl
  have hfresh : ∀ e ∈ m.inserted, e.1 ≠ m.storage.events.seq + 1 := fun e he heq => by
    have := (h.bounded e he).2
    omega
  refine ⟨fun a ha => ?_, fun e he => ?_, fun i hi => ?_, fun e he => ?_, fun e he e' he' heq => ?_⟩
  · rw [hrows, List.mem_append, List.mem_singleton] at ha
    rw [hins, hdel]
    rcases ha with ha | rfl
    · exact ⟨List.mem_cons_of_mem _ (h.rows a ha).1, (h.rows a ha).2⟩
    · refine ⟨List.mem_cons_self, fun hd => ?_⟩
      obtain ⟨e, he, heq⟩ := h.deleted _ hd
      exact hfresh e he heq
  · rw [hins, List.mem_cons] at he
    rw [hrows, hdel]
    rcases he with rfl | he
    · exact Or.inr ⟨_, List.mem_append_right _ List.mem_cons_self, rfl⟩
    · rcases h.kept e he with hdeleted | ⟨a, ha, hae⟩
      · exact Or.inl hdeleted
      · exact Or.inr ⟨a, List.mem_append_left _ ha, hae⟩
  · obtain ⟨e, he, heq⟩ := h.deleted i hi
    exact ⟨e, hins ▸ List.mem_cons_of_mem _ he, heq⟩
  · rw [hins, List.mem_cons] at he
    rw [hseq]
    rcases he with rfl | he
    · exact ⟨Nat.succ_pos _, le_rfl⟩
    · have := h.bounded e he
      omega
  · rw [hins, List.mem_cons] at he he'
    rcases he with rfl | he <;> rcases he' with rfl | he'
    · rfl
    · exact absurd heq.symm (hfresh e' he')
    · exact absurd heq (hfresh e he)
    · exact h.unique e he e' he' heq

theorem Accounted.updateEvent (h : Accounted m) (id : ℕ) (eventType timestamp payload : String) :
    Accounted
      (m.withStorage (m.storage.updateEventClassification id eventType timestamp payload)) := by
  have hrows : (m.withStorage (m.storage.updateEventClassification id eventType timestamp
      payload)).storage.events.rows = m.storage.events.rows.map fun a =>
        if a.1 = id then (a.1, setClassification eventType timestamp payload a.2) else a := rfl
  refine ⟨fun a ha => ?_, fun e he => ?_, h.deleted, h.bounded, h.unique⟩
  · rw [hrows, List.mem_map] at ha
    obtain ⟨b, hb, rfl⟩ := ha
    have := h.rows b hb
    split_ifs <;> exact this
  · refine (h.kept e he).imp_right fun ⟨a, ha, hae⟩ => ?_
    rw [hrows]
    refine ⟨_, List.mem_map_of_mem ha, ?_⟩
    split_ifs <;> exact hae

theorem deleteEventById_snd_eq_zero {st : Storage} {id : ℕ} :
    (st.deleteEventById id).2 = 0 ↔ ∀ a ∈ st.events.rows, a.1 ≠ id := by
  simp [deleteEventById, List.filter_eq_nil_iff]

theorem rows_deleteEventById {st : Storage} {id : ℕ} {a : ℕ × EventRow} :
    a ∈ (st.deleteEventById id).1.events.rows ↔ a ∈ st.events.rows ∧ a.1 ≠ id :=
  Table.mem_rows_delete

theorem Accounted.deleteEvent (h : Accounted m) (id : ℕ) : Accounted (m.deleteEvent id) := by
  have hrows : ∀ a, a ∈ (m.deleteEvent id).storage.events.rows ↔
      a ∈ m.storage.events.rows ∧ a.1 ≠ id := fun a => rows_deleteEventById
  by_cases hid : (m.storage.deleteEventById id).2 = 0
  · have hdel : (m.deleteEvent id).deleted = m.deleted := if_pos hid
    have hnone := deleteEventById_snd_eq_zero.mp hid
    refine ⟨fun a ha => ?_, fun e he => ?_, hdel ▸ h.deleted, h.bounded, h.unique⟩
    · rw [hdel]
      exact h.rows a ((hrows a).mp ha).1
    · rw [hdel]
      exact (h.kept e he).imp_right fun ⟨a, ha, hae⟩ => ⟨a, (hrows a).mpr ⟨ha, hnone a ha⟩, hae⟩
  · have hdel : (m.deleteEvent id).deleted = id :: m.deleted := if_neg hid
    obtain ⟨b, hb, hbid⟩ : ∃ b ∈ m.storage.events.rows, b.1 = id := by
      by_contra hnone
      exact hid (deleteEventById_snd_eq_zero.mpr fun a ha heq => hnone ⟨a, ha, heq⟩)
    refine ⟨fun a ha => ?_, fun e he => ?_, fun i hi => ?_, h.bounded, h.unique⟩
    · obtain ⟨ha, hne⟩ := (hrows a).mp ha
      rw [hdel, List.mem_cons, not_or]
      exact ⟨(h.rows a ha).1, hne, (h.rows a ha).2⟩
    · rw [hdel, List.mem_cons]
      rcases h.kept e he with hd | ⟨a, ha, hae⟩
      · exact Or.inl (Or.inr hd)
      · by_cases heq : a.1 = id
        · exact Or.inl (Or.inl (hae ▸ heq))
        · exact Or.inr ⟨a, (hrows a).mpr ⟨ha, heq⟩, hae⟩
    · rw [hdel, List.mem_cons] at hi
      rcases hi with rfl | hi
      · exact ⟨_, (h.rows b hb).1, hbid⟩
      · exact h.deleted i hi

theorem Accounted.step (h : Accounted m) (a : Action) : Accounted (m.step a) := by
  cases a with
  | insertEvent r => exact h.insertEvent r
  | updateEventClassification id eventType timestamp payload =>
    exact h.updateEvent id eventType timestamp payload
  | deleteEventById id => exact h.deleteEvent id
  | openRound =>
    simp only [Machine.step]
    split_ifs <;> exact h.congr rfl rfl rfl
  | read k batchSize now =>
    simp only [Machine.step]
    split
    · simp only [Machine.read]
      split_ifs <;> exact h.congr rfl rfl rfl
    · exact h
  | answer k io =>
    simp only [Machine.step]
    split
    · next p _ =>
      obtain ⟨app, rounds, hst, heq, -⟩ := m.answer_spec k io p
      rw [heq]
      exact h.congr (congrArg Storage.events hst) rfl rfl
    · exact h
  | write k now =>
    simp only [Machine.step]
    split
    · exact h.congr rfl rfl rfl
    · exact h
  | abort k => exact h.congr rfl rfl rfl
  | crash => exact h.congr rfl rfl rfl
  | saveConfig cfg => exact h.congr rfl rfl rfl
  | setAuthLost lost => exact h.congr rfl rfl rfl

end Accounted

/-! ### The batches of a machine -/

section Batches
variable {m : Machine}

theorem inserted_step (m : Machine) (a : Action) : m.inserted ⊆ (m.step a).inserted := by
  intro e he
  cases a with
  | insertEvent r =>
    simp only [Machine.step, Machine.insertEvent]
    split_ifs
    · exact he
    · exact List.mem_cons_of_mem _ he
  | answer k io =>
    simp only [Machine.step]
    split
    · next p _ =>
      obtain ⟨app, rounds, -, heq, -⟩ := m.answer_spec k io p
      rw [heq]
      exact he
    · exact he
  | read k batchSize now =>
    simp only [Machine.step, Machine.read]
    split
    · split_ifs <;> exact he
    · exact he
  | openRound =>
    simp only [Machine.step]
    split_ifs <;> exact he
  | write k now =>
    simp only [Machine.step]
    split <;> exact he
  | _ => exact he

/-- The cursor is moved only by a write, to the batch of a round that was acknowledged. -/
theorem advanced_step {a : Action} {p : Posted} (hp : p ∈ (m.step a).advanced) :
    p ∈ m.advanced ∨ ∃ k now parsed, a = .write k now ∧
      m.rounds[k]? = some (.acknowledged p parsed) := by
  cases a with
  | write k now =>
    simp only [Machine.step] at hp
    split at hp
    · next q parsed hk =>
      rcases List.mem_cons.mp hp with rfl | hp
      · exact Or.inr ⟨k, now, parsed, rfl, hk⟩
      · exact Or.inl hp
    · exact Or.inl hp
  | answer k io =>
    simp only [Machine.step] at hp
    split at hp
    · next q _ =>
      obtain ⟨app, rounds, -, heq, -⟩ := m.answer_spec k io q
      rw [heq] at hp
      exact Or.inl hp
    · exact Or.inl hp
  | read k batchSize now =>
    simp only [Machine.step, Machine.read] at hp
    split at hp
    · split_ifs at hp <;> exact Or.inl hp
    · exact Or.inl hp
  | openRound =>
    simp only [Machine.step] at hp
    split_ifs at hp <;> exact Or.inl hp
  | _ => exact Or.inl hp

/-- Where the rounds of a state come from. -/
theorem rounds_step {a : Action} {r : Round} (hr : r ∈ (m.step a).rounds) :
    r ∈ m.rounds ∨ (∃ cursor, r = .opened cursor) ∨
      (∃ cursor limit, r = .posted ⟨cursor, m.storage.readUnsent cursor limit, m.deleted⟩) ∨
      ∃ k io p parsed, a = .answer k io ∧ m.rounds[k]? = some (.posted p) ∧
        (∃ resp, io.answer = some resp ∧ resp.isSuccess ∧ resp.parsed = some parsed) ∧
        r = .acknowledged p parsed := by
  cases a with
  | openRound =>
    simp only [Machine.step] at hr
    split_ifs at hr
    · exact Or.inl hr
    · rcases List.mem_append.mp hr with hr | hr
      · exact Or.inl hr
      · exact Or.inr (Or.inl ⟨_, List.mem_singleton.mp hr⟩)
  | read k batchSize now =>
    simp only [Machine.step, Machine.read] at hr
    split at hr
    · split_ifs at hr
      · exact Or.inl (List.mem_of_mem_eraseIdx hr)
      · exact (List.mem_or_eq_of_mem_set hr).imp_right fun h =>
          Or.inr (Or.inl ⟨_, _, h⟩)
    · exact Or.inl hr
  | answer k io =>
    simp only [Machine.step] at hr
    split at hr
    · next p hk =>
      simp only [Machine.answer] at hr
      split at hr
      · exact Or.inl (List.mem_of_mem_eraseIdx hr)
      · next app parsed hrec =>
        refine (List.mem_or_eq_of_mem_set hr).imp_right fun h => Or.inr (Or.inr ?_)
        exact ⟨k, io, p, parsed, rfl, hk, isSuccess_of_receive hrec, h⟩
    · exact Or.inl hr
  | write k now =>
    simp only [Machine.step] at hr
    split at hr
    · exact Or.inl (List.mem_of_mem_eraseIdx hr)
    · exact Or.inl hr
  | abort k => exact Or.inl (List.mem_of_mem_eraseIdx hr)
  | crash => exact absurd hr List.not_mem_nil
  | _ => exact Or.inl hr

/-- The batch of a round, if it has one yet. -/
def Round.batch? : Round → Option Posted
  | .opened _ => none
  | .posted p => some p
  | .acknowledged p _ => some p

/-- The rows of a batch are events that were given out, under the keys they were given out with. -/
def Keyed (m : Machine) (p : Posted) : Prop :=
  ∀ a ∈ p.pending, (a.1, a.2.idempotencyKey) ∈ m.inserted

/-- What the theorem on keys carries along a run. -/
structure AllKeyed (m : Machine) : Prop where
  accounted : Accounted m
  rounds : ∀ r ∈ m.rounds, ∀ p ∈ r.batch?, Keyed m p
  advanced : ∀ p ∈ m.advanced, Keyed m p

theorem AllKeyed.step (h : AllKeyed m) (a : Action) : AllKeyed (m.step a) := by
  have hmono : ∀ {p}, Keyed m p → Keyed (m.step a) p := fun hp b hb => inserted_step m a (hp b hb)
  refine ⟨h.accounted.step a, fun r hr p hp => ?_, fun p hp => ?_⟩
  · rcases rounds_step hr with hr | ⟨cursor, rfl⟩ | ⟨cursor, limit, rfl⟩ | ⟨k, io, q, parsed, -, hk,
      -, rfl⟩
    · exact hmono (h.rounds r hr p hp)
    · exact absurd hp (by simp [Round.batch?])
    · obtain rfl : _ = p := Option.some.inj hp
      exact hmono fun b hb => (h.accounted.rows b (mem_of_mem_readUnsent hb).1).1
    · exact hmono (h.rounds _ (List.mem_of_getElem? hk) p hp)
  · rcases advanced_step hp with hp | ⟨k, now, parsed, -, hk⟩
    · exact hmono (h.advanced p hp)
    · exact hmono (h.rounds _ (List.mem_of_getElem? hk) p rfl)

end Batches

/-! ### Runs -/

section Runs
variable {noiseList : List String} {now : String} {cfg : Config}

theorem run_append_singleton (m : Machine) (as : List Action) (a : Action) :
    m.run (as ++ [a]) = (m.run as).step a := by
  rw [Machine.run, List.foldl_append]
  rfl

theorem allKeyed_start (noiseList : List String) (now : String) (cfg : Config) :
    AllKeyed (Machine.start noiseList now cfg) :=
  ⟨accounted_start noiseList now cfg, by simp [Machine.start], by simp [Machine.start]⟩

theorem allKeyed_run (as : List Action) : AllKeyed ((Machine.start noiseList now cfg).run as) :=
  @Runs.invariant_run _ _ Machine.step _ AllKeyed (allKeyed_start noiseList now cfg)
    (fun _ a h => h.step a) as

theorem accounted_run (as : List Action) :
    Accounted ((Machine.start noiseList now cfg).run as) := (allKeyed_run as).accounted

end Runs

end StarStats.Client.SyncMachine
