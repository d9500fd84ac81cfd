import StarStats.Client.Store
import StarStats.Client.ConfigFile

/-! # The sync worker

One round of the worker: read the cursor and the events above it, post them as a batch, and after a
2xx answer whose body parses move the cursor to the highest id of the batch.

`fromStr` is `serde_json::from_str` for events, which reads what the parser has stored. -/

namespace StarStats.Client.Sync

open StarStats.Core.Events StarStats.Core.Wire
open StarStats.Client.Store StarStats.Client.ConfigFile

/-- What the server answers. -/
structure IngestResponse where
  batchId : String
  accepted : ℕ
  duplicate : ℕ
  rejected : ℕ
  deriving DecidableEq

/-- What the tray shows of the synchronisation. -/
structure SyncStats where
  lastAttemptAt : Option String
  lastSuccessAt : Option String
  lastError : Option String
  batchesSent : ℕ
  eventsAccepted : ℕ
  eventsDuplicate : ℕ
  eventsRejected : ℕ
  deriving DecidableEq

/-- Before the first round. -/
def SyncStats.default : SyncStats := ⟨none, none, none, 0, 0, 0, 0⟩

/-- What the worker shares with the rest of the client; the configuration is that on disk. -/
structure AppState where
  storage : Storage
  config : Config
  stats : SyncStats
  authLost : Bool

/-! ### The batch -/

/-- An unknown source reads as `other`. -/
def parseSource (s : String) : LogSource :=
  match s with
  | "live" => .live
  | "ptu" => .ptu
  | "eptu" => .eptu
  | "hotfix" => .hotfix
  | "tech" => .tech
  | _ => .other

/-- One stored event for the wire, without metadata. -/
def envelopeOf (fromStr : String → Option GameEvent) (r : EventRow) : EventEnvelope :=
  ⟨r.idempotencyKey, r.rawLine, fromStr r.payloadJson, parseSource r.logSource, r.sourceOffset,
    none⟩

/-- A payload that cannot be read back is sent without an event. -/
def buildBatch (fromStr : String → Option GameEvent) (batchId claimedHandle : String)
    (events : List (ℕ × EventRow)) : IngestBatch :=
  ⟨currentSchemaVersion, batchId, none, claimedHandle, events.map fun a => envelopeOf fromStr a.2⟩

/-- The highest id of a batch. -/
def highestId (cursor : ℤ) (pending : List (ℕ × EventRow)) : ℤ :=
  ((pending.map fun a => (a.1 : ℤ)).max?).getD cursor

/-! ### The answer -/

/-- An answer: its status as a number and as text, its body, and what the body parses to. -/
structure Response where
  status : ℕ
  statusText : String
  body : String
  parsed : Option IngestResponse
  deriving DecidableEq

/-- `is_success`: any of the 2xx. -/
def Response.isSuccess (r : Response) : Bool := 200 ≤ r.status && r.status < 300

/-- Is the token rejected? -/
def Response.isDenied (r : Response) : Bool := r.status = 401 || r.status = 403

/-- What a round meets: the answer, unless sending fails, and whether the configuration could not be
loaded or saved. -/
structure RoundIo where
  answer : Option Response
  configFails : Bool
  now : String

/-- The round from the answer to its body. -/
def receive (c : AppState) (io : RoundIo) : AppState × Except String IngestResponse :=
  match io.answer with
  | none => (c, .error "POST /v1/ingest")
  | some resp =>
    if resp.isDenied then
      ({ c with
          config := if io.configFails then c.config else c.config.clearDeviceToken
          authLost := true },
        .error ("auth lost: ingest returned " ++ resp.statusText))
    else if !resp.isSuccess then
      (c, .error ("ingest failed: " ++ resp.statusText ++ " " ++ resp.body))
    else
      match resp.parsed with
      | none => (c, .error "parse ingest response")
      | some parsed => (c, .ok parsed)

/-- A round that has something to send is noted. -/
def attempted (c : AppState) (now : String) : AppState :=
  { c with stats := { c.stats with lastAttemptAt := some now } }

/-- The end of a round that was answered. -/
def finish (c : AppState) (highest : ℤ) (parsed : IngestResponse) (now : String) : AppState :=
  { c with
    storage := c.storage.writeSyncCursor highest
    stats :=
      { c.stats with
        lastSuccessAt := some now
        lastError := none
        batchesSent := c.stats.batchesSent + 1
        eventsAccepted := c.stats.eventsAccepted + parsed.accepted
        eventsDuplicate := c.stats.eventsDuplicate + parsed.duplicate
        eventsRejected := c.stats.eventsRejected + parsed.rejected } }

/-- What the loop of the worker does with an error. -/
def failed (c : AppState) (error : String) : AppState :=
  { c with stats := { c.stats with lastError := some error } }

/-- One round with nothing in between, the error given back. -/
def drainOnce (fromStr : String → Option GameEvent) (batchId claimedHandle : String)
    (batchSize : ℕ) (send : IngestBatch → RoundIo) (c : AppState) : AppState × Except String Unit :=
  let cursor := c.storage.readSyncCursor
  let pending := c.storage.readUnsent cursor batchSize
  if pending = [] then (c, .ok ())
  else
    let io := send (buildBatch fromStr batchId claimedHandle pending)
    match receive (attempted c io.now) io with
    | (c, .error e) => (c, .error e)
    | (c, .ok parsed) => (finish c (highestId cursor pending) parsed io.now, .ok ())

/-! ### What a round does -/

theorem receive_denied {c : AppState} {io : RoundIo} {resp : Response}
    (hans : io.answer = some resp) (hden : resp.isDenied) :
    receive c io =
      ({ c with
          config := if io.configFails then c.config else c.config.clearDeviceToken
          authLost := true },
        .error ("auth lost: ingest returned " ++ resp.statusText)) := by
  simp only [receive, hans, hden, if_true]

theorem receive_refused {c : AppState} {io : RoundIo} {resp : Response}
    (hans : io.answer = some resp) (hden : ¬ resp.isDenied) (hsucc : ¬ resp.isSuccess) :
    receive c io = (c, .error ("ingest failed: " ++ resp.statusText ++ " " ++ resp.body)) := by
  simp [receive, hans, hden, hsucc]

theorem receive_success {c : AppState} {io : RoundIo} {resp : Response}
    (hans : io.answer = some resp) (hden : ¬ resp.isDenied) (hsucc : resp.isSuccess) :
    receive c io = (c, resp.parsed.elim (.error "parse ingest response") .ok) := by
  cases hp : resp.parsed <;> simp [receive, hans, hden, hsucc, hp]

theorem storage_receive (c : AppState) (io : RoundIo) : (receive c io).1.storage = c.storage := by
  cases hans : io.answer with
  | none => simp [receive, hans]
  | some resp =>
    by_cases hden : resp.isDenied
    · rw [receive_denied hans hden]
    · by_cases hsucc : resp.isSuccess
      · rw [receive_success hans hden hsucc]
      · rw [receive_refused hans hden hsucc]

theorem isSuccess_of_receive {c c' : AppState} {io : RoundIo} {parsed : IngestResponse}
    (h : receive c io = (c', .ok parsed)) :
    ∃ resp, io.answer = some resp ∧ resp.isSuccess ∧ resp.parsed = some parsed := by
  cases hans : io.answer with
  | none => simp [receive, hans] at h
  | some resp =>
    by_cases hden : resp.isDenied
    · simp [receive_denied hans hden] at h
    · by_cases hsucc : resp.isSuccess
      · rw [receive_success hans hden hsucc, Prod.mk.injEq] at h
        refine ⟨resp, rfl, hsucc, ?_⟩
        cases hp : resp.parsed with
        | none => simp [hp] at h
        | some parsed' => simpa [hp] using h.2
      · simp [receive_refused hans hden hsucc] at h

/-! ### What is read -/

section Read
variable {st : Storage} {cursor : ℤ} {limit : ℕ}

theorem mem_of_mem_readUnsent {a : ℕ × EventRow} (h : a ∈ st.readUnsent cursor limit) :
    a ∈ st.events.rows ∧ cursor < a.1 := by
  have hmem := List.mem_filter.mp (List.mem_of_mem_take h)
  exact ⟨hmem.1, of_decide_eq_true hmem.2⟩

/-- Rows are read in the order of their ids, none left out. -/
theorem mem_readUnsent_or_above {a : ℕ × EventRow} (ha : a ∈ st.events.rows) (hc : cursor < a.1) :
    a ∈ st.readUnsent cursor limit ∨ ∀ b ∈ st.readUnsent cursor limit, b.1 < a.1 := by
  have hmem : a ∈ st.events.rows.filter fun r => cursor < r.1 :=
    List.mem_filter.mpr ⟨ha, decide_eq_true hc⟩
  have hasc := st.events.ascending.filter fun r => cursor < r.1
  rw [← List.take_append_drop limit (st.events.rows.filter _)] at hmem hasc
  obtain ⟨-, -, hlt⟩ := List.pairwise_append.mp hasc
  rcases List.mem_append.mp hmem with h | h
  · exact Or.inl h
  · exact Or.inr fun b hb => hlt b hb a h

theorem readUnsent_ne_nil {a : ℕ × EventRow} (ha : a ∈ st.events.rows) (hc : cursor < a.1)
    (hlimit : 1 ≤ limit) : st.readUnsent cursor limit ≠ [] := by
  have hmem : a ∈ st.events.rows.filter fun r => cursor < r.1 :=
    List.mem_filter.mpr ⟨ha, decide_eq_true hc⟩
  intro hnil
  rcases List.take_eq_nil_iff.mp hnil with h | h
  · omega
  · exact absurd (h ▸ hmem) List.not_mem_nil

theorem highestId_spec {pending : List (ℕ × EventRow)} (h : pending ≠ []) :
    (∃ a ∈ pending, highestId cursor pending = a.1) ∧
      ∀ a ∈ pending, (a.1 : ℤ) ≤ highestId cursor pending := by
  unfold highestId
  cases hmax : (pending.map fun a => (a.1 : ℤ)).max? with
  | none => exact absurd (List.map_eq_nil_iff.mp (List.max?_eq_none_iff.mp hmax)) h
  | some n =>
    obtain ⟨hmem, hle⟩ := List.max?_eq_some_iff.mp hmax
    obtain ⟨a, ha, rfl⟩ := List.mem_map.mp hmem
    exact ⟨⟨a, ha, rfl⟩, fun b hb => hle b.1 (List.mem_map_of_mem hb)⟩

end Read

end StarStats.Client.Sync
