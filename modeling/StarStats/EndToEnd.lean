import StarStats.Client.SyncRuns
import StarStats.Lib.Runs
import StarStats.Server.Ingest

/-! # From the client's store to the server's

The machine of the worker and the ingest handler in one world. A batch that a round has posted is
handled by the server, which may fail to insert any of its events, and the answer reaches the round
or is lost; the server serves others as well.

The worker moves its cursor after any 2xx, while an event that the server failed to insert is only
counted in its answer. `noneLost_run_iff` says in which runs no event is lost that way. -/

namespace StarStats.EndToEnd

open StarStats.Lib.Tables StarStats.Lib.Json StarStats.Lib.Runs
open StarStats.Core.Events StarStats.Core.Wire
open StarStats.Client.Store StarStats.Client.Store.Storage
open StarStats.Client.ConfigFile StarStats.Client.Sync StarStats.Client.SyncMachine
open StarStats.Client.SyncRuns
open StarStats.Server.Auth StarStats.Server.Repo StarStats.Server.Ingest

/-- What lies outside: how stored events are read back and timestamps are read, who the client is. -/
structure Setting where
  fromStr : String → Option GameEvent
  rfc3339 : String → Option ℤ
  claimedHandle : String
  user : AuthenticatedUser

/-- The client, the server, and the keys of the events whose insert has failed. -/
structure World where
  client : Machine
  server : ServerState
  failed : List (String × String)

/-- A fresh client before a server as it stands. -/
def World.start (noiseList : List String) (now : String) (cfg : Config) (server : ServerState) :
    World :=
  ⟨Machine.start noiseList now cfg, server, []⟩

/-- How the server fares with a batch: which inserts fail, whether the audit entry fails, and whether
the answer arrives. -/
structure Serving where
  batchId : String
  fault : ℕ → Bool
  auditFails : Bool
  arrives : Bool
  configFails : Bool
  now : String

/-- What can happen to client and server. -/
inductive Action where
  /-- Anything of the client but an answer that a round goes on with. -/
  | client (a : Client.SyncMachine.Action)
  /-- The server handles the batch of round `k`. -/
  | serve (k : ℕ) (how : Serving)
  /-- The server handles another batch. -/
  | other (user : AuthenticatedUser) (batch : IngestBatch) (fault : ℕ → Bool) (auditFails : Bool)

/-! ### Steps -/

/-- The text of an error. -/
def errorText (body : ApiErrorBody) : String :=
  (Value.obj (("error", .str body.error) ::
    (match body.detail with
    | some detail => [("detail", .str detail)]
    | none => []))).render

/-- An answer of the handler as the client gets it. -/
def received : Reply → Response
  | .ok r => ⟨200, "200 OK", "", some ⟨r.batchId, r.accepted, r.duplicate, r.rejected⟩⟩
  | .error status body => ⟨status,
      if status = 403 then "403 Forbidden" else "400 Bad Request", errorText body, none⟩

/-- Is it an answer that only the handler gives? -/
def isHandled : Client.SyncMachine.Action → Bool
  | .answer _ io => io.answer.any fun resp => resp.isSuccess && resp.parsed.isSome
  | _ => false

section Step
variable (x : Setting)

/-- The batch as it is posted. -/
def batchOf (batchId : String) (p : Posted) : IngestBatch :=
  buildBatch x.fromStr batchId x.claimedHandle p.pending

/-- The keys of the rows of a batch whose insert fails. -/
def failedKeys (fault : ℕ → Bool) (p : Posted) : List (String × String) :=
  (p.pending.zipIdx.filter fun a => fault a.2).map fun a => (x.claimedHandle, a.1.2.idempotencyKey)

/-- What the server makes of the batch. -/
def Serving.handled (how : Serving) (server : ServerState) (p : Posted) : ServerState × Reply :=
  handle x.rfc3339 how.fault how.auditFails server x.user (batchOf x how.batchId p)

/-- What the round gets to see of it. -/
def Serving.io (how : Serving) (server : ServerState) (p : Posted) : RoundIo where
  answer := if how.arrives then some (received (how.handled x server p).2) else none
  configFails := how.configFails
  now := how.now

/-- The server handles a batch, and the round goes on with its answer. -/
def World.serve (w : World) (k : ℕ) (how : Serving) (p : Posted) : World where
  client := w.client.answer k (how.io x w.server p) p
  server := (how.handled x w.server p).1
  failed := failedKeys x how.fault p ++ w.failed

def World.step (w : World) : Action → World
  | .client a => if isHandled a then w else { w with client := w.client.step a }
  | .serve k how =>
    match w.client.rounds[k]? with
    | some (.posted p) => w.serve x k how p
    | _ => w
  | .other user batch fault auditFails =>
    { w with server := (handle x.rfc3339 fault auditFails w.server user batch).1 }

def World.run (w : World) (as : List Action) : World := as.foldl (World.step x) w

end Step

/-! ### Statement -/

section Statement
variable (x : Setting)

/-- Is the event on the server? -/
def World.Stored (w : World) (key : String) : Prop := (x.claimedHandle, key) ∈ w.server.events.keys

/-- The event was deleted before it could be read: no batch that moved the cursor has it, and it was
gone when one was read that passes it. -/
def DeletedUnread (m : Machine) (i : ℕ) : Prop :=
  (∀ p ∈ m.advanced, i ∉ p.ids) ∧ ∃ p ∈ m.advanced, i ∈ p.gone ∧ (i : ℤ) ≤ p.highest

/-- Every event at or below the cursor is on the server, unless it was deleted before it could be
read. -/
def NoneLost (w : World) : Prop :=
  ∀ e ∈ w.client.inserted, (e.1 : ℤ) ≤ w.client.storage.readSyncCursor →
    w.Stored x e.2 ∨ DeletedUnread w.client e.1

/-- When the cursor is moved, the events of the batch whose insert has failed are on the server by
other ways. -/
def Recovered (w : World) : Action → Prop
  | .client (.write k _) => ∀ p parsed, w.client.rounds[k]? = some (.acknowledged p parsed) →
      ∀ a ∈ p.pending, (x.claimedHandle, a.2.idempotencyKey) ∈ w.failed →
        w.Stored x a.2.idempotencyKey
  | _ => True

end Statement

/-! ### Steps, seen from the client -/

section Step
variable {x : Setting} {w : World}

theorem step_client {a : Client.SyncMachine.Action} (h : isHandled a = false) :
    w.step x (.client a) = { w with client := w.client.step a } := by
  simp [World.step, h]

theorem step_client_of_handled {a : Client.SyncMachine.Action} (h : isHandled a = true) :
    w.step x (.client a) = w := by
  simp [World.step, h]

theorem step_serve {k : ℕ} {how : Serving} {p : Posted}
    (h : w.client.rounds[k]? = some (.posted p)) : w.step x (.serve k how) = w.serve x k how p := by
  simp only [World.step, h]

theorem step_serve_of_ne {k : ℕ} {how : Serving}
    (h : ∀ p, w.client.rounds[k]? ≠ some (.posted p)) : w.step x (.serve k how) = w := by
  rw [World.step]
  split
  · next p hk => exact absurd hk (h p)
  · rfl

theorem client_serve {k : ℕ} {how : Serving} {p : Posted}
    (h : w.client.rounds[k]? = some (.posted p)) :
    (w.serve x k how p).client = w.client.step (.answer k (how.io x w.server p)) := by
  simp only [World.serve, Machine.step, h]

/-- An action of the world: the client takes a step or none, and the server handles a batch or
none. -/
theorem step_cases (x : Setting) (w : World) (act : Action) :
    w.step x act = w ∨
      (∃ a, act = .client a ∧ isHandled a = false ∧
        w.step x act = { w with client := w.client.step a }) ∨
      (∃ k how p, act = .serve k how ∧ w.client.rounds[k]? = some (.posted p) ∧
        w.step x act = w.serve x k how p) ∨
      ∃ user batch fault auditFails, act = .other user batch fault auditFails ∧
        w.step x act =
          { w with server := (handle x.rfc3339 fault auditFails w.server user batch).1 } := by
  cases act with
  | client a =>
    cases h : isHandled a with
    | true => exact Or.inl (step_client_of_handled h)
    | false => exact Or.inr (Or.inl ⟨a, rfl, h, step_client h⟩)
  | serve k how =>
    by_cases h : ∃ p, w.client.rounds[k]? = some (.posted p)
    · obtain ⟨p, hp⟩ := h
      exact Or.inr (Or.inr (Or.inl ⟨k, how, p, rfl, hp, step_serve hp⟩))
    · exact Or.inl (step_serve_of_ne fun p hp => h ⟨p, hp⟩)
  | other user batch fault auditFails =>
    exact Or.inr (Or.inr (Or.inr ⟨user, batch, fault, auditFails, rfl, rfl⟩))

theorem server_serve (x : Setting) (w : World) (k : ℕ) (how : Serving) (p : Posted) :
    (w.serve x k how p).server =
      (handle x.rfc3339 how.fault how.auditFails w.server x.user (batchOf x how.batchId p)).1 := by
  simp only [World.serve, Serving.handled]

theorem stored_step {key : String} (h : w.Stored x key) (act : Action) :
    (w.step x act).Stored x key := by
  unfold World.Stored at h ⊢
  rcases step_cases x w act with heq | ⟨a, -, -, heq⟩ | ⟨k, how, p, -, -, heq⟩ |
    ⟨user, batch, fault, auditFails, -, heq⟩ <;> rw [heq]
  · exact h
  · exact h
  · rw [server_serve]
    exact mem_keys_handle h
  · exact mem_keys_handle h

theorem client_step (x : Setting) (w : World) (act : Action) :
    (w.step x act).client = w.client ∨ ∃ a, (w.step x act).client = w.client.step a := by
  rcases step_cases x w act with heq | ⟨a, -, -, heq⟩ | ⟨k, how, p, -, hk, heq⟩ |
    ⟨user, batch, fault, auditFails, -, heq⟩ <;> rw [heq]
  · exact Or.inl rfl
  · exact Or.inr ⟨a, rfl⟩
  · exact Or.inr ⟨_, client_serve hk⟩
  · exact Or.inl rfl

theorem advanced_world_step {act : Action} {p : Posted} (hp : p ∈ (w.step x act).client.advanced) :
    p ∈ w.client.advanced ∨ ∃ k now parsed, act = .client (.write k now) ∧
      w.client.rounds[k]? = some (.acknowledged p parsed) := by
  rcases step_cases x w act with heq | ⟨a, rfl, -, heq⟩ | ⟨k, how, q, -, hk, heq⟩ |
    ⟨user, batch, fault, auditFails, -, heq⟩ <;> rw [heq] at hp
  · exact Or.inl hp
  · refine (advanced_step hp).imp_right ?_
    rintro ⟨k, now, parsed, rfl, hk⟩
    exact ⟨k, now, parsed, rfl, hk⟩
  · rw [client_serve hk] at hp
    refine (advanced_step hp).imp_right ?_
    rintro ⟨k', now, parsed, h, -⟩
    cases h
  · exact Or.inl hp

/-- Only the handler answers a round so that it goes on, and only after it has accepted the batch. -/
theorem acknowledged_world_step {act : Action} {p : Posted} {parsed : Client.Sync.IngestResponse}
    (hr : Round.acknowledged p parsed ∈ (w.step x act).client.rounds) :
    Round.acknowledged p parsed ∈ w.client.rounds ∨ ∃ k how, act = .serve k how ∧
      w.client.rounds[k]? = some (.posted p) ∧
      refusal x.user (batchOf x how.batchId p) = none := by
  rcases step_cases x w act with heq | ⟨a, rfl, hh, heq⟩ | ⟨k, how, q, rfl, hk, heq⟩ |
    ⟨user, batch, fault, auditFails, -, heq⟩ <;> rw [heq] at hr
  · exact Or.inl hr
  · rcases rounds_step hr with hr | ⟨_, h⟩ | ⟨_, _, h⟩ | ⟨k, io, q, parsed', rfl, -, hresp, -⟩
    · exact Or.inl hr
    · cases h
    · cases h
    · obtain ⟨resp, hans, hsucc, hparsed⟩ := hresp
      simp [isHandled, hans, hsucc, hparsed] at hh
  · rw [client_serve hk] at hr
    rcases rounds_step hr with hr | ⟨_, h⟩ | ⟨_, _, h⟩ | ⟨k', io, q', parsed', ha, hk', hresp, hq⟩
    · exact Or.inl hr
    · cases h
    · cases h
    · obtain ⟨rfl, rfl⟩ := Client.SyncMachine.Action.answer.inj ha
      obtain ⟨rfl, -⟩ := Round.acknowledged.inj hq
      obtain rfl := Round.posted.inj (Option.some.inj (hk.symm.trans hk'))
      obtain ⟨resp, hans, -, hparsed⟩ := hresp
      refine Or.inr ⟨k, how, rfl, hk, ?_⟩
      simp only [Serving.io] at hans
      split_ifs at hans
      obtain rfl := Option.some.inj hans
      cases hreply : (how.handled x w.server q).2 with
      | error status body => simp [hreply, received] at hparsed
      | ok r => exact refusal_of_handle hreply
  · exact Or.inl hr

theorem step_write {k : ℕ} {now : String} {p : Posted} {parsed : Client.Sync.IngestResponse}
    (hk : w.client.rounds[k]? = some (.acknowledged p parsed)) :
    w.step x (.client (.write k now)) = { w with client := w.client.write k now p parsed } := by
  rw [step_client rfl]
  simp only [Machine.step, hk]

theorem failed_step {key : String × String} (h : key ∈ w.failed) (act : Action) :
    key ∈ (w.step x act).failed := by
  rcases step_cases x w act with heq | ⟨a, -, -, heq⟩ | ⟨k, how, p, -, -, heq⟩ |
    ⟨user, batch, fault, auditFails, -, heq⟩ <;> rw [heq]
  · exact h
  · exact h
  · exact List.mem_append_right _ h
  · exact h

/-- A row of an accepted batch is stored, or its insert has failed. -/
theorem stored_serve {k : ℕ} {how : Serving} {p : Posted}
    (hacc : refusal x.user (batchOf x how.batchId p) = none) {a : ℕ × EventRow}
    (ha : a ∈ p.pending) :
    (w.serve x k how p).Stored x a.2.idempotencyKey ∨
      (x.claimedHandle, a.2.idempotencyKey) ∈ (w.serve x k how p).failed := by
  obtain ⟨before, after, heq⟩ := List.append_of_mem ha
  have hev : (batchOf x how.batchId p).events =
      (before.map fun b => envelopeOf x.fromStr b.2) ++
        envelopeOf x.fromStr a.2 :: after.map fun b => envelopeOf x.fromStr b.2 := by
    simp [batchOf, buildBatch, heq]
  by_cases hf : how.fault before.length = true
  · right
    have hmem : (a, before.length) ∈ p.pending.zipIdx.filter fun b => how.fault b.2 := by
      refine List.mem_filter.mpr ⟨List.mem_zipIdx_iff_getElem?.mpr ?_, hf⟩
      simp [heq]
    exact List.mem_append_left _ (List.mem_map.mpr ⟨_, hmem, rfl⟩)
  · left
    unfold World.Stored
    rw [server_serve]
    exact stored_handle hacc hev (by simpa using hf)

end Step

/-! ### The invariant of a run -/

/-- The client's part is a run of the worker's machine, and a row of an acknowledged batch is on the
server unless its insert has failed. -/
structure Inv (noiseList : List String) (now : String) (cfg : Config) (x : Setting) (w : World) :
    Prop where
  reach : ∃ as, w.client = (Machine.start noiseList now cfg).run as
  served : ∀ p parsed, Round.acknowledged p parsed ∈ w.client.rounds → ∀ a ∈ p.pending,
    w.Stored x a.2.idempotencyKey ∨ (x.claimedHandle, a.2.idempotencyKey) ∈ w.failed

/-- Every row of a batch that moved the cursor is on the server. -/
def AllStored (x : Setting) (w : World) : Prop :=
  ∀ p ∈ w.client.advanced, ∀ a ∈ p.pending, w.Stored x a.2.idempotencyKey

section Inv
variable {noiseList : List String} {now : String} {cfg : Config} {x : Setting} {w : World}

theorem inv_start (noiseList : List String) (now : String) (cfg : Config) (x : Setting)
    (server : ServerState) : Inv noiseList now cfg x (World.start noiseList now cfg server) where
  reach := ⟨[], rfl⟩
  served _ _ hr := absurd hr List.not_mem_nil

theorem Inv.step (h : Inv noiseList now cfg x w) (act : Action) :
    Inv noiseList now cfg x (w.step x act) := by
  refine ⟨?_, fun p parsed hr a ha => ?_⟩
  · obtain ⟨as, has⟩ := h.reach
    rcases client_step x w act with heq | ⟨b, heq⟩
    · exact ⟨as, heq.trans has⟩
    · exact ⟨as ++ [b], by rw [heq, has, run_append_singleton]⟩
  · rcases acknowledged_world_step hr with hr | ⟨k, how, rfl, hk, hacc⟩
    · exact (h.served p parsed hr a ha).imp (fun hs => stored_step hs act)
        fun hf => failed_step hf act
    · rw [step_serve hk]
      exact stored_serve hacc ha

theorem Inv.allKeyed (h : Inv noiseList now cfg x w) : AllKeyed w.client := by
  obtain ⟨as, has⟩ := h.reach
  rw [has]
  exact allKeyed_run as

/-- The rows of the cursor's batches being on the server, no event is lost. -/
theorem Inv.noneLost (h : Inv noiseList now cfg x w) (hall : AllStored x w) : NoneLost x w := by
  intro e he hc
  obtain ⟨as, has⟩ := h.reach
  obtain ⟨p, hp, hpass⟩ := passes_of_le as (has ▸ he) (has ▸ hc)
  rw [← has] at hp
  by_cases hsent : ∃ q ∈ w.client.advanced, e.1 ∈ q.ids
  · left
    obtain ⟨q, hq, hid⟩ := hsent
    obtain ⟨a, ha, hae⟩ := List.mem_map.mp hid
    have hkeyed := h.allKeyed.advanced q hq a ha
    have hkey : (a.1, a.2.idempotencyKey) = e :=
      h.allKeyed.accounted.unique _ hkeyed e he hae
    rw [← hkey]
    exact hall q hq a ha
  · right
    have hnot : ∀ q ∈ w.client.advanced, e.1 ∉ q.ids := fun q hq hid => hsent ⟨q, hq, hid⟩
    exact ⟨hnot, p, hp, hpass.resolve_left (hnot p hp)⟩

/-- If no event is lost by a step, the batch of its cursor is on the server. -/
theorem Inv.allStored_of_noneLost (h : Inv noiseList now cfg x w) (hall : AllStored x w)
    {act : Action} (hnone : NoneLost x (w.step x act)) : AllStored x (w.step x act) := by
  intro p hp a ha
  rcases advanced_world_step hp with hold | ⟨k, now', parsed, rfl, hk⟩
  · exact stored_step (hall p hold a ha) act
  have hround := List.mem_of_getElem? hk
  have hkeyed : (a.1, a.2.idempotencyKey) ∈ w.client.inserted :=
    h.allKeyed.rounds _ hround p rfl a ha
  have hne : p.pending ≠ [] := List.ne_nil_of_mem ha
  have hle : (a.1 : ℤ) ≤ p.highest := (highestId_spec hne).2 a ha
  rw [step_write hk] at hp hnone ⊢
  rcases hnone _ hkeyed (hle.trans (le_max_left _ 0)) with hs | ⟨hnot, -⟩
  · exact hs
  · exact absurd (List.mem_map_of_mem ha) (hnot p hp)

/-- **One step**: the rows stay on the server exactly if those that had failed have been recovered. -/
theorem Inv.allStored_step_iff (h : Inv noiseList now cfg x w) (hall : AllStored x w)
    (act : Action) : AllStored x (w.step x act) ↔ Recovered x w act := by
  constructor
  · intro hstep
    cases act with
    | client a =>
      cases a with
      | write k now' =>
        intro p parsed hk a ha _
        rw [step_write hk] at hstep
        exact hstep p List.mem_cons_self a ha
      | _ => trivial
    | _ => trivial
  · intro hrec p hp a ha
    rcases advanced_world_step hp with hold | ⟨k, now', parsed, rfl, hk⟩
    · exact stored_step (hall p hold a ha) act
    · refine stored_step ?_ _
      rcases h.served p parsed (List.mem_of_getElem? hk) a ha with hs | hf
      · exact hs
      · exact hrec p parsed hk a ha hf

end Inv

/-- **No event is lost in a run exactly if, whenever the cursor is moved, what had failed of its batch
has been stored by then.** -/
theorem noneLost_run_iff (x : Setting) (noiseList : List String) (now : String) (cfg : Config)
    (server : ServerState) (as : List Action) :
    (∀ n, NoneLost x ((World.start noiseList now cfg server).run x (as.take n))) ↔
      ∀ n act, as[n]? = some act →
        Recovered x ((World.start noiseList now cfg server).run x (as.take n)) act := by
  have hstart := inv_start noiseList now cfg x server
  have hgood : AllStored x (World.start noiseList now cfg server) :=
    fun p hp => absurd hp List.not_mem_nil
  refine Iff.trans (forall_take_congr hstart (fun _ act h => h.step act) hgood
    (fun _ h hall => h.noneLost hall) (fun _ _ h hall => h.allStored_of_noneLost hall) as) ?_
  exact forall_take_iff hstart (fun _ act h => h.step act) hgood
    (fun _ act h hall => h.allStored_step_iff hall act) as

/-! ### A failed insert -/

/-- One notification, stored on the client as `notified`. -/
def notification : GameEvent := .hudNotification ⟨"2026-05-02T21:14:23Z", "Hi", 1, none⟩

def notified : EventRow := ⟨"k", "hud_notification", "2026-05-02T21:14:23Z", "Hi", "{}", "live", 0⟩

def pilotSetting : Setting where
  fromStr := fun s => if s = "{}" then some notification else none
  rfc3339 := fun _ => none
  claimedHandle := "pilot"
  user := pilot

/-- The round of a batch whose only insert fails. -/
def failedInsert : List Action :=
  [.client (.insertEvent notified), .client .openRound, .client (.read 0 200 "now"),
    .serve 0 ⟨"b", fun _ => true, false, true, false, "now"⟩, .client (.write 0 "now")]

def afterFailedInsert : World :=
  (World.start [] "now" ⟨⟨true, none, none, none, 60, 200⟩, [], none⟩ ⟨Table.empty, []⟩).run
    pilotSetting failedInsert

/-- The cursor is at the only event, which the server has not got. -/
theorem not_noneLost_failedInsert : ¬ NoneLost pilotSetting afterFailedInsert := by
  intro h
  have hins : afterFailedInsert.client.inserted = [(1, "k")] := by decide +kernel
  have hcursor : afterFailedInsert.client.storage.readSyncCursor = 1 := by decide +kernel
  have hids : afterFailedInsert.client.advanced.map Posted.ids = [[1]] := by decide +kernel
  have hkeys : afterFailedInsert.server.events.keys = [] := by decide +kernel
  rcases h (1, "k") (hins ▸ List.mem_cons_self) hcursor.ge with hs | ⟨hnot, -⟩
  · unfold World.Stored at hs
    rw [hkeys] at hs
    exact absurd hs List.not_mem_nil
  · obtain ⟨p, hp, hpids⟩ := List.mem_map.mp (hids ▸ List.mem_cons_self : [1] ∈ _)
    exact hnot p hp (hpids ▸ List.mem_cons_self)

end StarStats.EndToEnd
