import StarStats.Core.Validators
import StarStats.Server.Auth
import StarStats.Server.Repo

/-! # The ingest handler

A batch passes three gates of its own, its version, its handle and whether the handle is the
sender's. Then its envelopes are stored one by one, after those without metadata were given it. The
answer counts what was stored, what was there and what failed; and all of it is a 200.

No envelope is validated on the way, so what is stored is valid exactly for batches that are so when
they arrive (`gate_iff`). -/

namespace StarStats.Server.Ingest

open StarStats.Lib.Text StarStats.Lib.Json StarStats.Lib.Tables
open StarStats.Core.Metadata StarStats.Core.Wire StarStats.Core.Validators
open StarStats.Server.Auth StarStats.Server.Repo

/-- What a batch comes to. -/
structure IngestResponse where
  batchId : String
  accepted : ℕ
  duplicate : ℕ
  rejected : ℕ
  deriving DecidableEq

/-- The body of an error. -/
structure ApiErrorBody where
  error : String
  detail : Option String
  deriving DecidableEq

inductive Reply where
  | error (status : ℕ) (body : ApiErrorBody)
  | ok (response : IngestResponse)
  deriving DecidableEq

/-- What is logged of a batch. -/
structure AuditEntry where
  actorSub : Option String
  actorHandle : Option String
  action : String
  payload : Value

/-- What the handler works on: the events and the audit log. -/
structure ServerState where
  events : Events
  audit : List AuditEntry

/-- `eq_ignore_ascii_case` -/
def eqIgnoreAsciiCase (s t : String) : Bool := s.toList.map Char.toLower = t.toList.map Char.toLower

/-! ### The gates of a batch -/

/-- The refusal of a batch, if it is refused. -/
def refusal (user : AuthenticatedUser) (batch : IngestBatch) : Option Reply :=
  if batch.schemaVersion < 1 ∨ currentSchemaVersion < batch.schemaVersion then
    some (.error 400 ⟨"unsupported_schema_version", some ("got " ++ toString batch.schemaVersion ++
      ", server speaks 1..=" ++ toString currentSchemaVersion)⟩)
  else if trim batch.claimedHandle = "" then some (.error 400 ⟨"missing_claimed_handle", none⟩)
  else if !eqIgnoreAsciiCase batch.claimedHandle user.preferredUsername then
    some (.error 403
      ⟨"handle_mismatch", some "claimed_handle does not match authenticated identity"⟩)
  else none

/-! ### The envelopes -/

/-- Metadata for an envelope that has an event but none. -/
def backfill (claimedHandle : String) (env : EventEnvelope) : EventEnvelope :=
  match env.metadata, env.event with
  | none, some event => { env with metadata := some (stamp event (some claimedHandle)) }
  | _, _ => env

theorem idempotencyKey_backfill (claimedHandle : String) (env : EventEnvelope) :
    (backfill claimedHandle env).idempotencyKey = env.idempotencyKey := by
  rcases env with ⟨key, raw, _ | event, source, offset, _ | m⟩ <;> rfl

/-- The events so far, and the counts. -/
structure Tally where
  events : Events
  accepted : ℕ
  duplicate : ℕ
  rejected : ℕ

/-- Store one envelope. -/
def ingestOne (rfc3339 : String → Option ℤ) (claimedHandle : String) (fault : Bool) (t : Tally)
    (env : EventEnvelope) : Tally :=
  match insertEvent fault t.events (fromEnvelope rfc3339 env claimedHandle) with
  | (events, some .inserted) => { t with events := events, accepted := t.accepted + 1 }
  | (events, some .duplicate) => { t with events := events, duplicate := t.duplicate + 1 }
  | (events, none) => { t with events := events, rejected := t.rejected + 1 }

/-- Store the envelopes; `fault i` is whether the insert of the `i`-th one fails. -/
def ingestAll (rfc3339 : String → Option ℤ) (claimedHandle : String) (fault : ℕ → Bool) :
    ℕ → Tally → List EventEnvelope → Tally
  | _, t, [] => t
  | i, t, env :: envs =>
    ingestAll rfc3339 claimedHandle fault (i + 1) (ingestOne rfc3339 claimedHandle (fault i) t env)
      envs

/-- `null` where there is no text. -/
def optStr : Option String → Value
  | some s => .str s
  | none => .null

/-- The entry of a batch, with its counts. -/
def auditEntry (user : AuthenticatedUser) (batch : IngestBatch) (t : Tally) : AuditEntry where
  actorSub := some user.sub
  actorHandle := some user.preferredUsername
  action := "ingest.batch_processed"
  payload := .obj
    [("batch_id", .str batch.batchId), ("claimed_handle", .str batch.claimedHandle),
      ("game_build", optStr batch.gameBuild), ("device_id", optStr user.deviceId),
      ("total", .int batch.events.length), ("accepted", .int t.accepted),
      ("duplicate", .int t.duplicate), ("rejected", .int t.rejected)]

/-- The batch with the metadata that older clients leave out. -/
def backfilled (batch : IngestBatch) : List EventEnvelope :=
  batch.events.map (backfill batch.claimedHandle)

/-- The envelopes of a batch, stored. -/
def tally (rfc3339 : String → Option ℤ) (fault : ℕ → Bool) (events : Events) (batch : IngestBatch) :
    Tally :=
  ingestAll rfc3339 batch.claimedHandle fault 0 ⟨events, 0, 0, 0⟩ (backfilled batch)

/-- The handler; an audit entry that cannot be appended is dropped. -/
def handle (rfc3339 : String → Option ℤ) (fault : ℕ → Bool) (auditFails : Bool) (srv : ServerState)
    (user : AuthenticatedUser) (batch : IngestBatch) : ServerState × Reply :=
  match refusal user batch with
  | some reply => (srv, reply)
  | none =>
    let t := tally rfc3339 fault srv.events batch
    (⟨t.events, if auditFails then srv.audit else srv.audit ++ [auditEntry user batch t]⟩,
      .ok ⟨batch.batchId, t.accepted, t.duplicate, t.rejected⟩)

/-! ### What is stored -/

section Stored
variable {rfc3339 : String → Option ℤ} {claimedHandle : String} {fault : ℕ → Bool}

theorem ingestOne_of_fault (t : Tally) (env : EventEnvelope) :
    ingestOne rfc3339 claimedHandle true t env = { t with rejected := t.rejected + 1 } := rfl

theorem ingestOne_of_not_fault (t : Tally) (env : EventEnvelope) :
    (ingestOne rfc3339 claimedHandle false t env).events =
        t.events.insert (fromEnvelope rfc3339 env claimedHandle) ∧
      (ingestOne rfc3339 claimedHandle false t env).rejected = t.rejected := by
  have hfst := insertEvent_fst t.events (fromEnvelope rfc3339 env claimedHandle)
  unfold ingestOne
  by_cases h : (fromEnvelope rfc3339 env claimedHandle).key ∈ t.events.keys
  · simpa [insertEvent, h] using hfst
  · simp [insertEvent, h]

theorem ingestOne_of_mem {t : Tally} {env : EventEnvelope}
    (h : (fromEnvelope rfc3339 env claimedHandle).key ∈ t.events.keys) :
    ingestOne rfc3339 claimedHandle false t env = { t with duplicate := t.duplicate + 1 } := by
  simp [ingestOne, insertEvent, h]

theorem ingestOne_of_not_mem {t : Tally} {env : EventEnvelope}
    (h : (fromEnvelope rfc3339 env claimedHandle).key ∉ t.events.keys) :
    ingestOne rfc3339 claimedHandle false t env =
      { t with
        events := t.events.insert (fromEnvelope rfc3339 env claimedHandle)
        accepted := t.accepted + 1 } := by
  simp [ingestOne, insertEvent, h]

/-- What is stored anew is counted as accepted, and what was there as a duplicate. -/
theorem accepted_ingestOne (fault : Bool) (t : Tally) (env : EventEnvelope) :
    (ingestOne rfc3339 claimedHandle fault t env).accepted = t.accepted +
      if (insertEvent fault t.events (fromEnvelope rfc3339 env claimedHandle)).2 = some .inserted then 1
      else 0 := by
  unfold ingestOne
  rcases insertEvent fault t.events (fromEnvelope rfc3339 env claimedHandle) with ⟨events, _ | _ | _⟩ <;> rfl

theorem duplicate_ingestOne (fault : Bool) (t : Tally) (env : EventEnvelope) :
    (ingestOne rfc3339 claimedHandle fault t env).duplicate = t.duplicate +
      if (insertEvent fault t.events (fromEnvelope rfc3339 env claimedHandle)).2 = some .duplicate then 1
      else 0 := by
  unfold ingestOne
  rcases insertEvent fault t.events (fromEnvelope rfc3339 env claimedHandle) with ⟨events, _ | _ | _⟩ <;> rfl

theorem ingestAll_append : ∀ (i : ℕ) (t : Tally) (envs envs' : List EventEnvelope),
    ingestAll rfc3339 claimedHandle fault i t (envs ++ envs') =
      ingestAll rfc3339 claimedHandle fault (i + envs.length)
        (ingestAll rfc3339 claimedHandle fault i t envs) envs'
  | _, _, [], _ => rfl
  | i, t, env :: envs, envs' => by
    rw [List.cons_append, ingestAll, ingestAll_append (i + 1), ingestAll, List.length_cons,
      Nat.add_assoc, Nat.add_comm 1]

theorem mem_contents_insert {events : Events} {e s : StoredEvent}
    (h : s ∈ (events.insert e).contents) : s ∈ events.contents ∨ s = e := by
  obtain ⟨a, ha, rfl⟩ := Table.mem_contents.mp h
  rcases Table.mem_rows_insert.mp ha with ha | ⟨-, rfl⟩
  · exact Or.inl (Table.mem_contents.mpr ⟨a, ha, rfl⟩)
  · exact Or.inr rfl

/-- What is stored was there before, or comes from an envelope whose insert did not fail. -/
theorem mem_contents_ingestAll {s : StoredEvent} : ∀ {i : ℕ} {t : Tally} {envs : List EventEnvelope},
    s ∈ (ingestAll rfc3339 claimedHandle fault i t envs).events.contents →
      s ∈ t.events.contents ∨ ∃ before env after, envs = before ++ env :: after ∧
        fault (i + before.length) = false ∧ s = fromEnvelope rfc3339 env claimedHandle
  | _, _, [], h => Or.inl h
  | i, t, env :: envs, h => by
    rw [ingestAll] at h
    rcases mem_contents_ingestAll h with h | ⟨before, env', after, rfl, hf, rfl⟩
    · cases hf : fault i with
      | true =>
        rw [hf, ingestOne_of_fault] at h
        exact Or.inl h
      | false =>
        rw [hf, (ingestOne_of_not_fault t env).1] at h
        exact (mem_contents_insert h).imp_right fun he => ⟨[], env, envs, rfl, hf, he⟩
    · refine Or.inr ⟨env :: before, env', after, rfl, ?_, rfl⟩
      rwa [List.length_cons, Nat.add_comm before.length, ← Nat.add_assoc]

/-- The keys only grow, and those of the envelopes whose insert does not fail are there. -/
theorem mem_keys_ingestAll : ∀ {i : ℕ} {t : Tally} {envs : List EventEnvelope} {k : String × String},
    k ∈ (ingestAll rfc3339 claimedHandle fault i t envs).events.keys ↔ k ∈ t.events.keys ∨
      ∃ before env after, envs = before ++ env :: after ∧ fault (i + before.length) = false ∧
        k = (claimedHandle, env.idempotencyKey)
  | _, _, [], _ => by simp [ingestAll]
  | i, t, env :: envs, k => by
    have hstep : k ∈ (ingestOne rfc3339 claimedHandle (fault i) t env).events.keys ↔
        k ∈ t.events.keys ∨ (fault i = false ∧ k = (claimedHandle, env.idempotencyKey)) := by
      cases hf : fault i with
      | true => simp [ingestOne_of_fault]
      | false =>
        rw [(ingestOne_of_not_fault t env).1, Table.mem_keys_insert]
        simp [fromEnvelope, StoredEvent.key]
    rw [ingestAll, mem_keys_ingestAll, hstep, or_assoc]
    refine or_congr_right ⟨?_, ?_⟩
    · rintro (⟨hf, hk⟩ | ⟨before, env', after, rfl, hf, hk⟩)
      · exact ⟨[], env, envs, rfl, hf, hk⟩
      · refine ⟨env :: before, env', after, rfl, ?_, hk⟩
        rwa [List.length_cons, Nat.add_comm before.length, ← Nat.add_assoc]
    · rintro ⟨before, env', after, heq, hf, hk⟩
      cases before with
      | nil =>
        obtain ⟨rfl, rfl⟩ := List.cons.inj heq
        exact Or.inl ⟨hf, hk⟩
      | cons b before =>
        obtain ⟨rfl, rfl⟩ := List.cons.inj heq
        refine Or.inr ⟨before, env', after, rfl, ?_, hk⟩
        rwa [List.length_cons, Nat.add_comm before.length, ← Nat.add_assoc] at hf

end Stored

section Handled
variable {rfc3339 : String → Option ℤ} {fault : ℕ → Bool} {auditFails : Bool} {srv : ServerState}
  {user : AuthenticatedUser} {batch : IngestBatch}

theorem mem_keys_handle {k : String × String} (h : k ∈ srv.events.keys) :
    k ∈ (handle rfc3339 fault auditFails srv user batch).1.events.keys := by
  cases hr : refusal user batch with
  | some reply => simpa only [handle, hr] using h
  | none =>
    simp only [handle, hr]
    exact mem_keys_ingestAll.mpr (Or.inl h)

theorem refusal_of_handle {r : IngestResponse}
    (h : (handle rfc3339 fault auditFails srv user batch).2 = .ok r) :
    refusal user batch = none := by
  cases hr : refusal user batch with
  | none => rfl
  | some reply =>
    simp only [handle, hr] at h
    unfold refusal at hr
    split_ifs at hr <;> simp_all

/-- An envelope of an accepted batch is stored, unless its insert fails. -/
theorem stored_handle (h : refusal user batch = none) {before after : List EventEnvelope}
    {env : EventEnvelope} (hb : batch.events = before ++ env :: after)
    (hf : fault before.length = false) : (batch.claimedHandle, env.idempotencyKey) ∈
      (handle rfc3339 fault auditFails srv user batch).1.events.keys := by
  simp only [handle, h]
  refine mem_keys_ingestAll.mpr (Or.inr ⟨before.map (backfill batch.claimedHandle),
    backfill batch.claimedHandle env, after.map (backfill batch.claimedHandle), ?_, ?_, ?_⟩)
  · simp [backfilled, hb]
  · rwa [Nat.zero_add, List.length_map]
  · rw [idempotencyKey_backfill]

end Handled

/-! ### Validation -/

/-- What is given to an envelope is valid, so it does not matter whether validation comes before. -/
theorem validateEvent_backfill (claimedHandle : String) (env : EventEnvelope) :
    validateEvent (backfill claimedHandle env) = validateEvent env := by
  rcases env with ⟨key, raw, _ | event, source, offset, _ | m⟩
  · rfl
  · rfl
  · simp only [backfill, validateEvent, validateMetadata_stamp]
  · rfl

section Gate
variable (rfc3339 : String → Option ℤ) (fault : ℕ → Bool) (auditFails : Bool) (srv : ServerState)
  (user : AuthenticatedUser) (batch : IngestBatch)

/-- The counts and the events before an envelope of the batch. -/
def tallyBefore (before : List EventEnvelope) : Tally :=
  ingestAll rfc3339 batch.claimedHandle fault 0 ⟨srv.events, 0, 0, 0⟩ before

/-- What is stored anew is valid, and an invalid envelope is counted as rejected and changes nothing
else. -/
def GateHolds : Prop :=
  (∀ s ∈ (handle rfc3339 fault auditFails srv user batch).1.events.contents,
    s ∈ srv.events.contents ∨ ∃ env ∈ backfilled batch, validateEvent env = .ok () ∧
      s = fromEnvelope rfc3339 env batch.claimedHandle) ∧
  ∀ before env after, backfilled batch = before ++ env :: after → validateEvent env ≠ .ok () →
    ingestOne rfc3339 batch.claimedHandle (fault before.length)
        (tallyBefore rfc3339 fault srv batch before) env =
      { tallyBefore rfc3339 fault srv batch before with
        rejected := (tallyBefore rfc3339 fault srv batch before).rejected + 1 }

/-- Every envelope is valid as it was sent, or its insert fails. -/
def ValidOrFails : Prop :=
  ∀ before env after, batch.events = before ++ env :: after →
    validateEvent env = .ok () ∨ fault before.length = true

theorem validOrFails_iff : ValidOrFails fault batch ↔ ∀ before env after,
    backfilled batch = before ++ env :: after →
      validateEvent env = .ok () ∨ fault before.length = true := by
  constructor
  · intro h before env after heq
    obtain ⟨before', rest, heq', rfl, hrest⟩ := List.map_eq_append_iff.mp heq
    obtain ⟨env', after', rfl, rfl, rfl⟩ := List.map_eq_cons_iff.mp hrest
    rw [validateEvent_backfill, List.length_map]
    exact h before' env' after' heq'
  · intro h before env after heq
    have := h (before.map (backfill batch.claimedHandle)) (backfill batch.claimedHandle env)
      (after.map (backfill batch.claimedHandle)) (by simp [backfilled, heq])
    rwa [validateEvent_backfill, List.length_map] at this

variable {rfc3339 fault auditFails srv user batch}

theorem GateHolds.validOrFails (h : GateHolds rfc3339 fault auditFails srv user batch) :
    ValidOrFails fault batch := by
  refine (validOrFails_iff fault batch).mpr fun before env after heq => ?_
  by_cases hvalid : validateEvent env = .ok ()
  · exact Or.inl hvalid
  · right
    by_contra hf
    have hcount := congrArg Tally.rejected (h.2 before env after heq hvalid)
    rw [Bool.eq_false_iff.mpr hf, (ingestOne_of_not_fault _ _).2] at hcount
    simp at hcount

/-- **The gate holds of an accepted batch exactly if its envelopes are valid when they arrive**, or
are not stored for another reason. -/
theorem gate_iff (h : refusal user batch = none) :
    GateHolds rfc3339 fault auditFails srv user batch ↔ ValidOrFails fault batch := by
  refine ⟨GateHolds.validOrFails, fun hvalid => ?_⟩
  have hcond := (validOrFails_iff fault batch).mp hvalid
  refine ⟨fun s hs => ?_, fun before env after heq hinvalid => ?_⟩
  · simp only [handle, h] at hs
    refine (mem_contents_ingestAll hs).imp_right ?_
    rintro ⟨before, env, after, heq, hf, rfl⟩
    have hok := (hcond before env after heq).resolve_right (by simpa using hf)
    exact ⟨env, heq ▸ List.mem_append_right _ List.mem_cons_self, hok, rfl⟩
  · rw [(hcond before env after heq).resolve_left hinvalid, ingestOne_of_fault]

end Gate

/-! ### One envelope -/

def pilot : AuthenticatedUser := ⟨"1", "pilot", .user, none⟩

/-- A batch of one notification with a timestamp. -/
def notificationBatch (timestamp : String) : IngestBatch :=
  ⟨2, "b", none, "pilot",
    [⟨"k", "", some (.hudNotification ⟨timestamp, "", 1, none⟩), .live, 0, none⟩]⟩

theorem gateHolds_notification :
    GateHolds (fun _ => none) (fun _ => false) false ⟨Table.empty, []⟩ pilot
      (notificationBatch "2026-05-02T21:14:23Z") := by
  refine (gate_iff (by decide +kernel)).mpr fun before env after heq => Or.inl ?_
  have hmem : env ∈ (notificationBatch "2026-05-02T21:14:23Z").events :=
    heq ▸ List.mem_append_right before List.mem_cons_self
  rw [List.mem_singleton.mp hmem]
  decide +kernel

/-- A notification without a timestamp is stored. -/
theorem not_gateHolds_blank :
    refusal pilot (notificationBatch "") = none ∧
      ¬ GateHolds (fun _ => none) (fun _ => false) false ⟨Table.empty, []⟩ pilot
        (notificationBatch "") := by
  refine ⟨by decide +kernel, fun h => ?_⟩
  rcases h.validOrFails [] _ [] rfl with hvalid | hf
  · exact absurd hvalid (by decide +kernel)
  · exact absurd hf (by decide)

end StarStats.Server.Ingest
