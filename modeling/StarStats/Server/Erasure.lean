import StarStats.Server.Accounts
import StarStats.Server.OwnEvents

/-! # The erasure of an account's events

Events outlive the account that sent them: when it is deleted, all rows under its handle, in whatever
case, are put under one pseudonym, without the line and the payload. The same key may have been
accepted under several spellings of the handle; then the unique index of handle and key refuses the
update, and nothing is deleted at all. It goes through, and erases all, exactly if no key is stored
under two spellings (`erases_iff`). -/

namespace StarStats.Server.Erasure

open StarStats.Lib.Text StarStats.Lib.Json StarStats.Lib.Tables
open StarStats.Server.Repo StarStats.Server.Ingest StarStats.Server.Accounts

/-- The accounts, and what the ingest handler works on. -/
structure World where
  users : Users
  srv : ServerState

/-! ### Sign-ups and batches -/

/-- What happens before the account is deleted. -/
inductive Step where
  | signUp (u : User)
  | ingest (a : OwnEvents.Sending)

/-- A sign-up; the handle is checked without the space around it, and kept with it. -/
def signUp (users : Users) (u : User) : Users :=
  if validateHandle (trim u.claimedHandle) ∧ findById users u.id = none then users.insert u else users

def World.step (rfc3339 : String → Option ℤ) (st : World) : Step → World
  | .signUp u => { st with users := signUp st.users u }
  | .ingest a => { st with srv := OwnEvents.serve rfc3339 st.srv a }

/-- Neither account nor event. -/
def World.start : World := ⟨Table.empty, ⟨Table.empty, []⟩⟩

def World.run (rfc3339 : String → Option ℤ) (steps : List Step) : World :=
  steps.foldl (World.step rfc3339) World.start

/-! ### Deletion -/

/-- The name that is put in the place of a handle, with a fresh id. -/
def pseudonymOf (uuid : String) : String := "deleted-" ++ uuid

/-- What is left of an event. -/
def tombstone (pseudonym : String) (e : StoredEvent) : StoredEvent :=
  { e with claimedHandle := pseudonym, rawLine := "", payload := .obj [] }

/-- `UPDATE events ... WHERE lower(claimed_handle) = lower(handle)`. -/
def pseudonymise (events : Events) (pseudonym handle : String) : Option Events :=
  events.rewrite fun e => if lower e.claimedHandle = lower handle then tombstone pseudonym e else e

/-- One transaction; `none` is an error, after which everything is as it was. -/
def deleteUser (uuid : String) (st : World) (userId : String) : Option World :=
  match findById st.users userId with
  | none => some { st with users := st.users.deleteWhere (·.id = userId) }
  | some u =>
    (pseudonymise st.srv.events (pseudonymOf uuid) u.claimedHandle).map fun events =>
      ⟨st.users.deleteWhere (·.id = userId), { st.srv with events := events }⟩

/-! ### Statement -/

/-- The id of a pseudonym is one that no name has. -/
structure Fresh (st : World) (pseudonym : String) : Prop where
  events : ∀ e ∈ st.srv.events.contents, lower e.claimedHandle ≠ lower pseudonym
  users : ∀ u ∈ st.users.contents, lower u.claimedHandle ≠ lower pseudonym

/-- **The account is gone, and its handle is erased from the events**; there are as many as before, and the
accounts and events of others are as they were. -/
structure Erased (pseudonym : String) (u : User) (st st' : World) : Prop where
  user : findById st'.users u.id = none
  accounts : ∀ id v, v.id ≠ u.id → ((id, v) ∈ st'.users.rows ↔ (id, v) ∈ st.users.rows)
  gone : ∀ e ∈ st'.srv.events.contents, lower e.claimedHandle ≠ lower u.claimedHandle
  emptied : ∀ id e, (id, e) ∈ st.srv.events.rows → lower e.claimedHandle = lower u.claimedHandle →
    ∃ e', (id, e') ∈ st'.srv.events.rows ∧ e'.claimedHandle = pseudonym ∧ e'.rawLine = "" ∧
      e'.payload = .obj []
  count : st'.srv.events.rows.length = st.srv.events.rows.length
  others : ∀ id e, lower e.claimedHandle ≠ lower u.claimedHandle → lower e.claimedHandle ≠ lower pseudonym →
    ((id, e) ∈ st'.srv.events.rows ↔ (id, e) ∈ st.srv.events.rows)

/-- No key is stored under two spellings of a handle. -/
def OneSpelling (events : Events) (handle : String) : Prop :=
  ∀ e ∈ events.contents, ∀ e' ∈ events.contents, lower e.claimedHandle = lower handle →
    lower e'.claimedHandle = lower handle → e.idempotencyKey = e'.idempotencyKey →
      e.claimedHandle = e'.claimedHandle

/-! ### Proof -/

section Proof
variable {events events' : Events} {pseudonym handle : String}

theorem mem_contents {x : ℕ × StoredEvent} (h : x ∈ events.rows) : x.2 ∈ events.contents :=
  Table.mem_contents.mpr ⟨x, h, rfl⟩

/-- The update is refused exactly if a key is stored under two spellings. -/
theorem exists_pseudonymise
    (hfresh : ∀ e ∈ events.contents, lower e.claimedHandle ≠ lower pseudonym) :
    (∃ events', pseudonymise events pseudonym handle = some events') ↔ OneSpelling events handle := by
  refine Table.exists_rewrite.trans ⟨fun hinj e he e' he' hmine hmine' hkey => ?_,
    fun hone a ha b hb hkey => ?_⟩
  · obtain ⟨a, ha, rfl⟩ := Table.mem_contents.mp he
    obtain ⟨b, hb, rfl⟩ := Table.mem_contents.mp he'
    have hab := hinj a ha b hb (by rw [if_pos hmine, if_pos hmine']; exact congrArg (pseudonym, ·) hkey)
    rw [hab]
  · by_cases hmine : lower a.2.claimedHandle = lower handle
    · by_cases hmine' : lower b.2.claimedHandle = lower handle
      · rw [if_pos hmine, if_pos hmine'] at hkey
        have hsame : a.2.idempotencyKey = b.2.idempotencyKey := congrArg Prod.snd hkey
        have hspelled := hone _ (mem_contents ha) _ (mem_contents hb) hmine hmine' hsame
        exact Table.eq_of_key_eq ha hb (Prod.ext hspelled hsame)
      · rw [if_pos hmine, if_neg hmine'] at hkey
        have hname : pseudonym = b.2.claimedHandle := congrArg Prod.fst hkey
        exact absurd (congrArg lower hname.symm) (hfresh _ (mem_contents hb))
    · by_cases hmine' : lower b.2.claimedHandle = lower handle
      · rw [if_neg hmine, if_pos hmine'] at hkey
        have hname : a.2.claimedHandle = pseudonym := congrArg Prod.fst hkey
        exact absurd (congrArg lower hname) (hfresh _ (mem_contents ha))
      · rw [if_neg hmine, if_neg hmine'] at hkey
        exact Table.eq_of_key_eq ha hb hkey

theorem mem_pseudonymise (h : pseudonymise events pseudonym handle = some events') {id : ℕ}
    {e : StoredEvent} : (id, e) ∈ events'.rows ↔ ∃ e₀, (id, e₀) ∈ events.rows ∧
      e = if lower e₀.claimedHandle = lower handle then tombstone pseudonym e₀ else e₀ := by
  rw [Table.rows_rewrite h]
  constructor
  · intro hmem
    obtain ⟨x, hx, heq⟩ := List.mem_map.mp hmem
    obtain ⟨rfl, rfl⟩ := Prod.mk.inj heq
    exact ⟨x.2, hx, rfl⟩
  · rintro ⟨e₀, he₀, rfl⟩
    exact List.mem_map.mpr ⟨(id, e₀), he₀, rfl⟩

end Proof

section Delete
variable {uuid : String} {st st' : World} {u : User}

theorem findById_delete (users : Users) (id : String) :
    findById (users.deleteWhere (·.id = id)) id = none := by
  unfold findById
  refine List.find?_eq_none.mpr fun v hv => ?_
  have hkept := (Table.mem_contents_deleteWhere.mp hv).2
  simpa using hkept

theorem mem_deleteWhere_of_ne {users : Users} {id : ℕ} {v : User} {userId : String} (h : v.id ≠ userId) :
    (id, v) ∈ (users.deleteWhere (·.id = userId)).rows ↔ (id, v) ∈ users.rows := by
  refine List.mem_filter.trans ⟨And.left, fun hv => ⟨hv, ?_⟩⟩
  simpa using h

/-- What a deletion does when the update goes through. -/
theorem erased_deleteUser (hu : findById st.users u.id = some u)
    (hfresh : Fresh st (pseudonymOf uuid)) {events : Events}
    (h : pseudonymise st.srv.events (pseudonymOf uuid) u.claimedHandle = some events) :
    Erased (pseudonymOf uuid) u st
      ⟨st.users.deleteWhere (·.id = u.id), { st.srv with events := events }⟩ := by
  have hmem : u ∈ st.users.contents := List.mem_of_find?_eq_some hu
  have hname := hfresh.users u hmem
  refine ⟨findById_delete st.users u.id, fun id v hother => ?_, fun e he => ?_, fun id e he hmine => ?_, ?_,
    fun id e hother hreal => ?_⟩
  · exact mem_deleteWhere_of_ne hother
  · obtain ⟨⟨id, e'⟩, hrow, rfl⟩ := Table.mem_contents.mp he
    obtain ⟨e₀, -, heq⟩ := (mem_pseudonymise h).mp hrow
    show lower e'.claimedHandle ≠ _
    rw [heq]
    split_ifs with hmine
    · exact hname.symm
    · exact hmine
  · exact ⟨tombstone (pseudonymOf uuid) e, (mem_pseudonymise h).mpr ⟨e, he, (if_pos hmine).symm⟩,
      rfl, rfl, rfl⟩
  · show events.rows.length = _
    rw [Table.rows_rewrite h, List.length_map]
  · refine (mem_pseudonymise h).trans ⟨?_, fun he => ⟨e, he, (if_neg hother).symm⟩⟩
    rintro ⟨e₀, he₀, heq⟩
    by_cases hmine : lower e₀.claimedHandle = lower u.claimedHandle
    · rw [if_pos hmine] at heq
      rw [heq] at hreal
      exact absurd rfl hreal
    · rw [if_neg hmine] at heq
      rwa [heq]

/-- **A deletion goes through and erases the handle exactly if no key is stored under two spellings of
it.** -/
theorem erases_iff (hu : findById st.users u.id = some u) (hfresh : Fresh st (pseudonymOf uuid)) :
    (∃ st', deleteUser uuid st u.id = some st' ∧ Erased (pseudonymOf uuid) u st st') ↔
      OneSpelling st.srv.events u.claimedHandle := by
  rw [← exists_pseudonymise hfresh.events]
  have hdelete : deleteUser uuid st u.id =
      (pseudonymise st.srv.events (pseudonymOf uuid) u.claimedHandle).map fun events =>
        ⟨st.users.deleteWhere (·.id = u.id), { st.srv with events := events }⟩ := by
    unfold deleteUser
    rw [hu]
  rw [hdelete]
  constructor
  · rintro ⟨st', hsome, -⟩
    obtain ⟨events, hevents, -⟩ := Option.map_eq_some_iff.mp hsome
    exact ⟨events, hevents⟩
  · rintro ⟨events, hevents⟩
    rw [hevents]
    exact ⟨_, rfl, erased_deleteUser hu hfresh hevents⟩

end Delete

/-! ### One line, twice -/

def alice : User := ⟨"1", "Alice", none, none⟩

/-- One line, under a spelling of the handle. -/
def sendAs (spelling : String) : OwnEvents.Sending :=
  { OwnEvents.lowerCase with batch := { OwnEvents.lowerCase.batch with claimedHandle := spelling } }

def sentOnce : World := World.run (fun _ => none) [.signUp alice, .ingest (sendAs "alice")]

theorem erased_sentOnce : ∃ st', deleteUser "0" sentOnce "1" = some st' ∧
    Erased "deleted-0" alice sentOnce st' :=
  (@erases_iff "0" sentOnce alice rfl ⟨by decide +kernel, by decide +kernel⟩).mpr
    (by unfold OneSpelling; decide +kernel)

def sentTwice : World :=
  World.run (fun _ => none) [.signUp alice, .ingest (sendAs "Alice"), .ingest (sendAs "alice")]

/-- The line is accepted under both spellings, and the account cannot be deleted. -/
theorem not_deleted_sentTwice : findById sentTwice.users "1" = some alice ∧
    Fresh sentTwice "deleted-0" ∧ deleteUser "0" sentTwice "1" = none := by
  refine ⟨rfl, ⟨by decide +kernel, by decide +kernel⟩, ?_⟩
  have hnone : (deleteUser "0" sentTwice "1").isNone = true := by decide +kernel
  exact Option.isNone_iff_eq_none.mp hnone

end StarStats.Server.Erasure
