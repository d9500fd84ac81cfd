import StarStats.Lib.Runs
import StarStats.Server.Ingest
import StarStats.Server.Queries

/-! # The events of an owner

The gate of a batch compares its handle with that of the token without regard to case; what is stored,
and what the owner reads, goes by the exact text. Of a run of batches every accepted event is on the
pages of the owner and in the summary, and no key is accepted twice, exactly if every batch of the owner
is sent under the handle as the token spells it, or stores nothing (`allOwned_iff`). -/

namespace StarStats.Server.OwnEvents

open StarStats.Lib.Tables StarStats.Lib.Runs StarStats.Core.Wire
open StarStats.Server.Auth StarStats.Server.Repo StarStats.Server.Ingest StarStats.Server.Queries

/-! ### Runs of batches -/

/-- A batch, and what fails on the way. -/
structure Sending where
  fault : ℕ → Bool
  auditFails : Bool
  user : AuthenticatedUser
  batch : IngestBatch

variable (rfc3339 : String → Option ℤ)

def serve (srv : ServerState) (a : Sending) : ServerState :=
  (handle rfc3339 a.fault a.auditFails srv a.user a.batch).1

def run (srv : ServerState) (as : List Sending) : ServerState := as.foldl (serve rfc3339) srv

/-- The events when the `i`-th envelope of a batch is stored. -/
def eventsBefore (srv : ServerState) (a : Sending) (i : ℕ) : Events :=
  (tallyBefore rfc3339 a.fault srv a.batch ((backfilled a.batch).take i)).events

/-- What the store says to an envelope of a batch. -/
def outcome (srv : ServerState) (a : Sending) (i : ℕ) (env : EventEnvelope) : Option InsertOutcome :=
  (insertEvent (a.fault i) (eventsBefore rfc3339 srv a i)
    (fromEnvelope rfc3339 env a.batch.claimedHandle)).2

/-- The envelope at a place of a batch that is not refused. -/
def Holds (a : Sending) (i : ℕ) (env : EventEnvelope) : Prop :=
  refusal a.user a.batch = none ∧ (backfilled a.batch)[i]? = some env

/-- The envelope is counted as accepted. -/
def Accepted (srv : ServerState) (a : Sending) (i : ℕ) (env : EventEnvelope) : Prop :=
  Holds a i env ∧ outcome rfc3339 srv a i env = some .inserted

/-! ### What the owner reads -/

/-- The rows of the table; `hiddenAt` is when the owner has hidden one. -/
def eventRows (hiddenAt : ℕ → Option ℤ) (events : Events) : List EventRow :=
  events.rows.map fun r => ⟨r.1, r.2, hiddenAt r.1⟩

/-- Whatever the limit, the unfiltered pages have the row. -/
def InPages (rows : List EventRow) (owner : String) (row : EventRow) : Prop :=
  ∀ user p, user.preferredUsername = owner → p.Unfiltered →
    row.dto ∈ followBack rows user p (rows.length + 1) none

/-- How many events of a type a summary counts. -/
def typeCount (byType : List (String × ℕ)) (t : String) : ℕ :=
  ((byType.filter fun g => g.1 = t).map (·.2)).sum

/-- The summary counts the row: without it the total, and the count of its type, are one less. -/
def InSummary (rows : List EventRow) (owner : String) (row : EventRow) : Prop :=
  ∀ user, user.preferredUsername = owner →
    (summary rows user).total = (summary (rows.filter (·.seq ≠ row.seq)) user).total + 1 ∧
    typeCount (summary rows user).byType row.event.eventType =
      typeCount (summary (rows.filter (·.seq ≠ row.seq)) user).byType row.event.eventType + 1

/-- **Every accepted event is the owner's**, and what the owner had accepted before, however the
handle was written, is a duplicate. -/
structure AllOwned (srv : ServerState) (as : List Sending) (hiddenAt : ℕ → Option ℤ)
    (owner : String) : Prop where
  shown : ∀ n a i env, as[n]? = some a → a.user.preferredUsername = owner →
    Accepted rfc3339 (run rfc3339 srv (as.take n)) a i env →
      ∃ row ∈ eventRows hiddenAt (run rfc3339 srv as).events,
        row.event = fromEnvelope rfc3339 env a.batch.claimedHandle ∧
        InPages (eventRows hiddenAt (run rfc3339 srv as).events) owner row ∧
        InSummary (eventRows hiddenAt (run rfc3339 srv as).events) owner row
  known : ∀ m b j env' n a i env, as[m]? = some b → b.user.preferredUsername = owner →
    Accepted rfc3339 (run rfc3339 srv (as.take m)) b j env' →
    as[n]? = some a → a.user.preferredUsername = owner → Holds a i env → m < n ∨ m = n ∧ j < i →
    env.idempotencyKey = env'.idempotencyKey → a.fault i = false →
      outcome rfc3339 (run rfc3339 srv (as.take n)) a i env = some .duplicate

/-- The owner sends the batch under the handle as it is, or it stores nothing: all inserts fail, or are
of keys that are there. -/
def Spelled (srv : ServerState) (owner : String) (a : Sending) : Prop :=
  a.user.preferredUsername = owner → refusal a.user a.batch = none →
    a.batch.claimedHandle = owner ∨ ∀ i env, (backfilled a.batch)[i]? = some env →
      a.fault i = true ∨ (a.batch.claimedHandle, env.idempotencyKey) ∈ srv.events.keys

variable {rfc3339} {srv : ServerState} {a : Sending} {as : List Sending} {i : ℕ}
  {env : EventEnvelope} {hiddenAt : ℕ → Option ℤ} {owner : String}

/-! ### The store along a batch -/

theorem key_fromEnvelope : (fromEnvelope rfc3339 env owner).key = (owner, env.idempotencyKey) := rfl

theorem outcome_inserted : outcome rfc3339 srv a i env = some .inserted ↔ a.fault i = false ∧
    (a.batch.claimedHandle, env.idempotencyKey) ∉ (eventsBefore rfc3339 srv a i).keys := by
  unfold outcome insertEvent
  rw [key_fromEnvelope]
  by_cases hfault : a.fault i = true
  · simp [hfault]
  · by_cases hkey : (a.batch.claimedHandle, env.idempotencyKey) ∈ (eventsBefore rfc3339 srv a i).keys
    · simp [hfault, hkey]
    · simp [hfault, hkey]

theorem outcome_duplicate (hfault : a.fault i = false)
    (hkey : (a.batch.claimedHandle, env.idempotencyKey) ∈ (eventsBefore rfc3339 srv a i).keys) :
    outcome rfc3339 srv a i env = some .duplicate := by
  unfold outcome insertEvent
  rw [key_fromEnvelope]
  simp [hfault, hkey]

theorem mem_rows_ingestAll {claimedHandle : String} {fault : ℕ → Bool} {x : ℕ × StoredEvent} :
    ∀ {i : ℕ} {t : Tally} {envs : List EventEnvelope}, x ∈ t.events.rows →
      x ∈ (ingestAll rfc3339 claimedHandle fault i t envs).events.rows
  | _, _, [], h => h
  | i, t, env :: envs, h => by
    have hone : x ∈ (ingestOne rfc3339 claimedHandle (fault i) t env).events.rows := by
      cases hf : fault i with
      | true => exact h
      | false =>
        rw [(ingestOne_of_not_fault t env).1]
        exact Table.mem_rows_insert_of_mem h
    rw [ingestAll]
    exact mem_rows_ingestAll hone

theorem tallyBefore_append (before after : List EventEnvelope) :
    tallyBefore rfc3339 a.fault srv a.batch (before ++ after) =
      ingestAll rfc3339 a.batch.claimedHandle a.fault before.length
        (tallyBefore rfc3339 a.fault srv a.batch before) after := by
  unfold tallyBefore
  rw [ingestAll_append, Nat.zero_add]

theorem mem_rows_eventsBefore {x : ℕ × StoredEvent} {j : ℕ} (hij : i ≤ j)
    (hx : x ∈ (eventsBefore rfc3339 srv a i).rows) : x ∈ (eventsBefore rfc3339 srv a j).rows := by
  have hsplit : (backfilled a.batch).take j =
      (backfilled a.batch).take i ++ ((backfilled a.batch).take j).drop i := by
    have hcut := List.take_append_drop i ((backfilled a.batch).take j)
    rw [List.take_take, Nat.min_eq_left hij] at hcut
    exact hcut.symm
  unfold eventsBefore
  rw [hsplit, tallyBefore_append]
  exact mem_rows_ingestAll hx

theorem mem_keys_eventsBefore {k : String × String} (hk : k ∈ srv.events.keys) :
    k ∈ (eventsBefore rfc3339 srv a i).keys :=
  mem_keys_ingestAll.mpr (Or.inl hk)

theorem eventsBefore_zero : eventsBefore rfc3339 srv a 0 = srv.events := rfl

theorem serve_events (h : refusal a.user a.batch = none) :
    (serve rfc3339 srv a).events = eventsBefore rfc3339 srv a (backfilled a.batch).length := by
  unfold serve handle eventsBefore
  rw [h, List.take_length]
  rfl

theorem serve_of_refusal {reply : Reply} (h : refusal a.user a.batch = some reply) :
    serve rfc3339 srv a = srv := by
  unfold serve handle
  rw [h]

theorem mem_rows_serve {x : ℕ × StoredEvent} (hx : x ∈ srv.events.rows) :
    x ∈ (serve rfc3339 srv a).events.rows := by
  cases h : refusal a.user a.batch with
  | some reply => rwa [serve_of_refusal h]
  | none =>
    rw [serve_events h]
    exact mem_rows_eventsBefore (Nat.zero_le _) hx

theorem mem_rows_take {x : ℕ × StoredEvent} {n m : ℕ} (hnm : n ≤ m)
    (hx : x ∈ (run rfc3339 srv (as.take n)).events.rows) :
    x ∈ (run rfc3339 srv (as.take m)).events.rows := by
  refine @invariant_take_from _ _ (serve rfc3339) srv (fun st => x ∈ st.events.rows)
    (fun _ _ => mem_rows_serve) as n m hnm hx

theorem take_succ_backfilled (henv : (backfilled a.batch)[i]? = some env) :
    (backfilled a.batch).take (i + 1) = (backfilled a.batch).take i ++ [env] ∧
      ((backfilled a.batch).take i).length = i := by
  obtain ⟨hi, rfl⟩ := List.getElem?_eq_some_iff.mp henv
  refine ⟨List.take_succ_eq_append_getElem hi, ?_⟩
  rw [List.length_take]
  omega

theorem tallyBefore_succ (henv : (backfilled a.batch)[i]? = some env) :
    tallyBefore rfc3339 a.fault srv a.batch ((backfilled a.batch).take (i + 1)) =
      ingestOne rfc3339 a.batch.claimedHandle (a.fault i)
        (tallyBefore rfc3339 a.fault srv a.batch ((backfilled a.batch).take i)) env := by
  obtain ⟨htake, hlen⟩ := take_succ_backfilled henv
  rw [htake, tallyBefore_append, hlen]
  rfl

/-- The answer counts the envelopes by what the store said to them. -/
theorem count_tally (n : ℕ) (hn : n ≤ (backfilled a.batch).length) :
    (tallyBefore rfc3339 a.fault srv a.batch ((backfilled a.batch).take n)).accepted =
        ((backfilled a.batch).take n).zipIdx.countP
          (fun e => outcome rfc3339 srv a e.2 e.1 = some .inserted) ∧
      (tallyBefore rfc3339 a.fault srv a.batch ((backfilled a.batch).take n)).duplicate =
        ((backfilled a.batch).take n).zipIdx.countP
          (fun e => outcome rfc3339 srv a e.2 e.1 = some .duplicate) := by
  induction n with
  | zero => exact ⟨rfl, rfl⟩
  | succ n ih =>
    obtain ⟨haccepted, hduplicate⟩ := ih (by omega)
    have henv : (backfilled a.batch)[n]? = some ((backfilled a.batch)[n]) :=
      List.getElem?_eq_getElem (by omega)
    obtain ⟨htake, hlen⟩ := take_succ_backfilled henv
    have hout : outcome rfc3339 srv a n (backfilled a.batch)[n] = (insertEvent (a.fault n)
        (tallyBefore rfc3339 a.fault srv a.batch ((backfilled a.batch).take n)).events
        (fromEnvelope rfc3339 (backfilled a.batch)[n] a.batch.claimedHandle)).2 := rfl
    rw [tallyBefore_succ henv, accepted_ingestOne, duplicate_ingestOne, htake, List.zipIdx_append, hlen,
      List.countP_append, List.countP_append, ← haccepted, ← hduplicate, ← hout]
    simp [List.countP_singleton]

theorem Accepted.row (h : Accepted rfc3339 srv a i env) :
    ∃ id, (id, fromEnvelope rfc3339 env a.batch.claimedHandle) ∈
      (eventsBefore rfc3339 srv a (i + 1)).rows := by
  obtain ⟨⟨hrefusal, henv⟩, hout⟩ := h
  obtain ⟨hfault, hkey⟩ := outcome_inserted.mp hout
  refine ⟨(eventsBefore rfc3339 srv a i).seq + 1, ?_⟩
  unfold eventsBefore
  rw [tallyBefore_succ henv, hfault, (ingestOne_of_not_fault _ _).1]
  exact Table.mem_rows_insert.mpr (Or.inr ⟨hkey, rfl⟩)

theorem le_length (henv : Holds a i env) : i + 1 ≤ (backfilled a.batch).length :=
  (List.getElem?_eq_some_iff.mp henv.2).1

/-- The rows of a later place: further on in the same batch, or in a later one. -/
theorem Accepted.row_later {b : Sending} {m j n : ℕ} {env' : EventEnvelope}
    (h : Accepted rfc3339 (run rfc3339 srv (as.take m)) b j env') (hm : as[m]? = some b)
    (hn : as[n]? = some a) (horder : m < n ∨ m = n ∧ j < i) :
    ∃ id, (id, fromEnvelope rfc3339 env' b.batch.claimedHandle) ∈
      (eventsBefore rfc3339 (run rfc3339 srv (as.take n)) a i).rows := by
  obtain ⟨id, hid⟩ := h.row
  refine ⟨id, ?_⟩
  rcases horder with hlt | ⟨rfl, hlt⟩
  · refine mem_rows_eventsBefore (Nat.zero_le i) ?_
    rw [eventsBefore_zero]
    refine mem_rows_take (show m + 1 ≤ n from hlt) ?_
    have hnext : run rfc3339 srv (as.take (m + 1)) = serve rfc3339 (run rfc3339 srv (as.take m)) b :=
      run_take_succ hm
    rw [hnext, serve_events h.1.1]
    exact mem_rows_eventsBefore (le_length h.1) hid
  · obtain rfl := Option.some.inj (hm.symm.trans hn)
    exact mem_rows_eventsBefore (show j + 1 ≤ i from hlt) hid

theorem Accepted.row_end {n : ℕ} (h : Accepted rfc3339 (run rfc3339 srv (as.take n)) a i env)
    (hn : as[n]? = some a) : ∃ id, (id, fromEnvelope rfc3339 env a.batch.claimedHandle) ∈
      (run rfc3339 srv as).events.rows := by
  obtain ⟨id, hid⟩ := h.row
  have hlen : n + 1 ≤ as.length := (List.getElem?_eq_some_iff.mp hn).1
  have hnext : run rfc3339 srv (as.take (n + 1)) = serve rfc3339 (run rfc3339 srv (as.take n)) a :=
    run_take_succ hn
  have hmem : (id, fromEnvelope rfc3339 env a.batch.claimedHandle) ∈
      (run rfc3339 srv (as.take (n + 1))).events.rows := by
    rw [hnext, serve_events h.1.1]
    exact mem_rows_eventsBefore (le_length h.1) hid
  have hend := mem_rows_take hlen hmem
  rw [List.take_length] at hend
  exact ⟨id, hend⟩

/-- Of a key that is not there and can be stored, the first envelope is accepted. -/
theorem exists_accepted (hrefusal : refusal a.user a.batch = none)
    (henv : (backfilled a.batch)[i]? = some env) (hfault : a.fault i = false)
    (hkey : (a.batch.claimedHandle, env.idempotencyKey) ∉ srv.events.keys) :
    ∃ j env', Accepted rfc3339 srv a j env' := by
  classical
  have hex : ∃ j, ∃ env', (backfilled a.batch)[j]? = some env' ∧ a.fault j = false ∧
      env'.idempotencyKey = env.idempotencyKey := ⟨i, env, henv, hfault, rfl⟩
  obtain ⟨env', henv', hfault', hsame⟩ := Nat.find_spec hex
  refine ⟨Nat.find hex, env', ⟨hrefusal, henv'⟩, outcome_inserted.mpr ⟨hfault', fun hmem => ?_⟩⟩
  rcases mem_keys_ingestAll.mp hmem with hstart | ⟨before, e, after, heq, hf, hk⟩
  · rw [hsame] at hstart
    exact hkey hstart
  · have hlen : before.length < Nat.find hex := by
      have hall := congrArg List.length heq
      rw [List.length_take, List.length_append, List.length_cons] at hall
      omega
    have hat : (backfilled a.batch)[before.length]? = some e := by
      have hget : ((backfilled a.batch).take (Nat.find hex))[before.length]? = some e := by
        rw [heq]
        simp
      rwa [List.getElem?_take_of_lt hlen] at hget
    rw [Nat.zero_add] at hf
    have hkeys : e.idempotencyKey = env.idempotencyKey := by
      rw [← hsame]
      exact (congrArg Prod.snd hk).symm
    exact Nat.find_min hex hlen ⟨e, hat, hf, hkeys⟩

/-! ### Pages and summary -/

theorem ascending_eventRows (events : Events) :
    (eventRows hiddenAt events).Pairwise fun a b => a.seq < b.seq :=
  List.pairwise_map.mpr events.ascending

theorem mem_eventRows {events : Events} {id : ℕ} {e : StoredEvent} (h : (id, e) ∈ events.rows) :
    (⟨id, e, hiddenAt id⟩ : EventRow) ∈ eventRows hiddenAt events :=
  List.mem_map_of_mem h

section Rows
variable {rows : List EventRow} {row : EventRow}

theorem mem_matching {user : AuthenticatedUser} {p : ListParams} (hp : p.Unfiltered) :
    row ∈ matching rows user p ↔ row ∈ rows ∧ row.event.claimedHandle = user.preferredUsername := by
  unfold matching
  rw [(perm_sortBy newest _).mem_iff, List.mem_filter]
  simp [EventFilters.keeps, ListParams.filters, hp.eventType, hp.since, hp.until_]

theorem inPages_of_mem (h : rows.Pairwise fun a b => a.seq < b.seq) (hrow : row ∈ rows)
    (howner : row.event.claimedHandle = owner) : InPages rows owner row := by
  intro user p huser hp
  rw [followBack_eq h hp.uncursored (Nat.lt_succ_self _)]
  exact List.mem_map_of_mem ((mem_matching hp).mpr ⟨hrow, howner.trans huser.symm⟩)

theorem InPages.claimedHandle (hpages : InPages rows owner row)
    (h : rows.Pairwise fun a b => a.seq < b.seq) (hrow : row ∈ rows) :
    row.event.claimedHandle = owner := by
  have hmem := hpages ⟨"", owner, .user, none⟩ ⟨none, none, none, none, none, none, 1⟩ rfl
    ⟨rfl, rfl, rfl, rfl, rfl, rfl⟩
  rw [followBack_eq h ⟨rfl, rfl, rfl, by simp⟩ (Nat.lt_succ_self _)] at hmem
  obtain ⟨r, hr, hdto⟩ := List.mem_map.mp hmem
  obtain ⟨hrows, hclaimed⟩ := (mem_matching ⟨rfl, rfl, rfl, rfl, rfl, rfl⟩).mp hr
  have hseq : r.seq = row.seq := congrArg EventDto.seq hdto
  have hnodup : (rows.map (·.seq)).Nodup := List.pairwise_map.mpr (h.imp fun hlt => Nat.ne_of_lt hlt)
  rwa [List.inj_on_of_nodup_map hnodup hrows hrow hseq] at hclaimed

theorem typeCount_summary {user : AuthenticatedUser} (t : String) :
    typeCount (summary rows user).byType t = ((rows.filter fun r =>
      r.event.claimedHandle = user.preferredUsername).filter fun r => r.event.eventType = t).length := by
  have hcount := filter_countByType (fun s => decide (s = t))
    (rows.filter fun r => r.event.claimedHandle = user.preferredUsername)
  show typeCount (countByType _) t = _
  unfold typeCount
  rw [hcount, sum_countByType]

theorem inSummary_of_mem (h : rows.Pairwise fun a b => a.seq < b.seq) (hrow : row ∈ rows)
    (howner : row.event.claimedHandle = owner) : InSummary rows owner row := by
  obtain ⟨before, after, rfl⟩ := List.append_of_mem hrow
  have hsides := List.pairwise_append.mp h
  have hbefore : before.filter (·.seq ≠ row.seq) = before := by
    refine List.filter_eq_self.mpr fun r hr => ?_
    have hlt := hsides.2.2 r hr row List.mem_cons_self
    simpa using Nat.ne_of_lt hlt
  have hafter : after.filter (·.seq ≠ row.seq) = after := by
    refine List.filter_eq_self.mpr fun r hr => ?_
    have hlt := (List.pairwise_cons.mp hsides.2.1).1 r hr
    simpa using Nat.ne_of_gt hlt
  have hwithout : (before ++ row :: after).filter (·.seq ≠ row.seq) = before ++ after := by
    rw [List.filter_append, List.filter_cons_of_neg (by simp), hbefore, hafter]
  intro user huser
  have hmine : row.event.claimedHandle = user.preferredUsername := howner.trans huser.symm
  rw [hwithout]
  constructor
  · show (List.filter _ (before ++ row :: after)).length = (List.filter _ (before ++ after)).length + 1
    simp only [List.filter_append, List.length_append]
    rw [List.filter_cons_of_pos (by simpa using hmine), List.length_cons]
    omega
  · rw [typeCount_summary, typeCount_summary]
    simp only [List.filter_append, List.length_append]
    rw [List.filter_cons_of_pos (by simpa using hmine), List.filter_cons_of_pos (by simp),
      List.length_cons]
    omega

end Rows

/-! ### The condition -/

theorem Spelled.claimedHandle (h : Spelled srv owner a) (howner : a.user.preferredUsername = owner)
    (hacc : Accepted rfc3339 srv a i env) : a.batch.claimedHandle = owner := by
  rcases h howner hacc.1.1 with heq | hall
  · exact heq
  · obtain ⟨hfault, hkey⟩ := outcome_inserted.mp hacc.2
    rcases hall i env hacc.1.2 with hf | hk
    · rw [hfault] at hf
      cases hf
    · exact absurd (mem_keys_eventsBefore hk) hkey

/-- **Every accepted event is the owner's exactly if each batch of the owner is sent under the handle
of the token, byte for byte, or stores nothing.** -/
theorem allOwned_iff : AllOwned rfc3339 srv as hiddenAt owner ↔
    ∀ n a, as[n]? = some a → Spelled (run rfc3339 srv (as.take n)) owner a := by
  have hasc := @ascending_eventRows hiddenAt (run rfc3339 srv as).events
  constructor
  · intro hall n a hn howner hrefusal
    by_contra hcon
    push Not at hcon
    obtain ⟨hspell, i, env, henv, hfault, hkey⟩ := hcon
    obtain ⟨j, env', hacc⟩ := exists_accepted hrefusal henv
      (Bool.eq_false_iff.mpr hfault) hkey
    obtain ⟨row, hrow, hevent, hpages, -⟩ := hall.shown n a j env' hn howner hacc
    have hclaimed := hpages.claimedHandle hasc hrow
    rw [hevent] at hclaimed
    exact hspell hclaimed
  · intro hcond
    constructor
    · intro n a i env hn howner hacc
      obtain ⟨id, hid⟩ := hacc.row_end hn
      have hclaimed := (hcond n a hn).claimedHandle howner hacc
      have hrow := @mem_eventRows hiddenAt _ _ _ hid
      exact ⟨_, hrow, rfl, inPages_of_mem hasc hrow hclaimed, inSummary_of_mem hasc hrow hclaimed⟩
    · intro m b j env' n a i env hm hb hacc hn ha hholds horder hsame hfault
      have hearlier := (hcond m b hm).claimedHandle hb hacc
      obtain ⟨id, hid⟩ := hacc.row_later hm hn horder
      refine outcome_duplicate hfault ?_
      rcases hcond n a hn ha hholds.1 with heq | hstored
      · rw [heq, hsame, ← hearlier]
        exact Table.mem_keys.mpr ⟨_, hid, rfl⟩
      · rcases hstored i env hholds.2 with hf | hk
        · rw [hfault] at hf
          cases hf
        · exact mem_keys_eventsBefore hk

/-! ### A handle in lower case -/

/-- A batch of one line, sent under `alice` with a token of `Alice`. -/
def lowerCase : Sending where
  fault _ := false
  auditFails := false
  user := ⟨"1", "Alice", .user, none⟩
  batch := ⟨2, "b", none, "alice", [⟨"k", "", none, .live, 0, none⟩]⟩

/-- The line is accepted, and is not the owner's. -/
theorem not_allOwned_lowerCase :
    Accepted (fun _ => none) ⟨Table.empty, []⟩ lowerCase 0 ⟨"k", "", none, .live, 0, none⟩ ∧
      ¬ AllOwned (fun _ => none) ⟨Table.empty, []⟩ [lowerCase] (fun _ => none) "Alice" := by
  have hacc : Accepted (fun _ => none) ⟨Table.empty, []⟩ lowerCase 0
      ⟨"k", "", none, .live, 0, none⟩ := ⟨⟨by decide +kernel, rfl⟩, by decide +kernel⟩
  refine ⟨hacc, fun h => ?_⟩
  obtain ⟨row, hrow, hevent, hpages, -⟩ := h.shown 0 lowerCase 0 _ rfl rfl hacc
  have hclaimed := hpages.claimedHandle (ascending_eventRows _) hrow
  rw [hevent] at hclaimed
  exact absurd hclaimed (by decide)

end StarStats.Server.OwnEvents
