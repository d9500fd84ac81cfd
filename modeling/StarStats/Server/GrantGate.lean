import StarStats.Server.Audit
import StarStats.Server.Revocation

/-! # The gate for rapid grants

A grant writes a row `share.granted` to the audit log, and before a grant the gate asks the log for the
rows `share.created` of the caller. No such row is ever written (`notCreated_serve`), so the gate lets
every grant through, however many there were. -/

namespace StarStats.Server.GrantGate

open StarStats.Lib.Json StarStats.Lib.Tables StarStats.Lib.Runs
open StarStats.Server.Auth StarStats.Server.Accounts StarStats.Server.Sharing StarStats.Server.Audit

/-! ### Reading the log -/

/-- The conditions of the query over the log. -/
structure AuditFilters where
  actorHandle : Option String
  action : Option String
  since : Option ℤ
  until_ : Option ℤ
  limit : ℤ
  offset : ℤ

/-- `LIKE`: `%` stands for any text, `_` for any character, and what follows a backslash for itself. -/
def like : List Char → List Char → Bool
  | [], s => s.isEmpty
  | '%' :: p, s => s.tails.any (like p)
  | '_' :: p, s => s.tail?.any (like p)
  | '\\' :: c :: p, s => s.head? = some c && like p s.tail
  | c :: p, s => s.head? = some c && like p s.tail

/-- `ILIKE` -/
def ilike (pattern s : String) : Bool := like (lower pattern) (lower s)

/-- The `WHERE` of the query. -/
def AuditFilters.selects (f : AuditFilters) (r : AuditRow) : Bool :=
  f.actorHandle.all (fun h => r.actorHandle.any (ilike ("%" ++ h ++ "%"))) &&
    f.action.all (r.action = ·) && f.since.all (· ≤ r.occurredAt) && f.until_.all (r.occurredAt ≤ ·)

/-- The latest rows that the filters select; those of the log stand by number. -/
def list (rows : List AuditRow) (f : AuditFilters) : List AuditRow :=
  ((rows.reverse.filter f.selects).drop (max f.offset 0).toNat).take (min (max f.limit 1) 500).toNat

/-! ### Granting with the gate -/

/-- `RAPID_GRANT_WINDOW_HOURS`, in seconds. -/
def rapidGrantWindow : ℤ := 24 * 3600

/-- The query of the gate, with the action it counts. -/
def rapidGrantFilters (auth : AuthenticatedUser) (now : ℤ) : AuditFilters where
  actorHandle := some auth.preferredUsername
  action := some "share.created"
  since := some (now - rapidGrantWindow)
  until_ := none
  limit := (rapidGrantThreshold : ℤ) + 1
  offset := 0

/-- The stores that a grant works on, and the log. -/
structure Site where
  stores : Stores
  log : Log

/-- A grant, what becomes of its row in the log, and whether that is mirrored. -/
structure Request where
  env : Env
  auth : AuthenticatedUser
  req : ShareRequest
  outcome : Outcome
  mirrored : Bool

/-- What a grant leaves in the log. -/
def grantedEntry (r : Request) (recipient : String) : AuditEntry where
  actorSub := some r.auth.sub
  actorHandle := some r.auth.preferredUsername
  action := "share.granted"
  payload := .obj [("recipient_handle", .str recipient),
    ("expires_at", r.req.expiresAt.elim .null fun t => .str (r.env.rfc3339 t)),
    ("has_note", .bool (noteOwned r.req.note).isSome),
    ("scope_kind", (scopeOwned r.req.scope).elim .null fun s => .str s.kind)]

/-- What a refusal leaves there. -/
def signalEntry (r : Request) (observed : ℕ) : AuditEntry where
  actorSub := some r.auth.sub
  actorHandle := some r.auth.preferredUsername
  action := "share.signal_rapid_grant"
  payload := .obj [("window_hours", .int 24), ("threshold", .int rapidGrantThreshold),
    ("observed_count", .int observed)]

/-- The answer of a gate that is shut. -/
def rateLimited : Reply := err 429 "rate_limited_rapid_grant"

/-- What is written to the log beside an answer. -/
def entryOf (r : Request) (observed : ℕ) : Reply → Option AuditEntry
  | .granted recipient => some (grantedEntry r recipient)
  | reply => if reply = rateLimited then some (signalEntry r observed) else none

section Serve
variable (digest : Hash → String → Hash) (readBack : Value → Value)

/-- How many rows the gate finds. -/
def observed (s : Site) (r : Request) : ℕ :=
  (list s.log.table (rapidGrantFilters r.auth r.env.now)).length

/-- The answer. -/
def reply (s : Site) (r : Request) : Reply :=
  (addShare s.stores { r.env with recentGrants := observed s r } r.auth r.req).2

/-- `add_share`, with what it reads of the log and writes to it. -/
def serve (s : Site) (r : Request) : Site where
  stores := (addShare s.stores { r.env with recentGrants := observed s r } r.auth r.req).1
  log :=
    match entryOf r (observed s r) (reply s r) with
    | some entry => append digest readBack s.log ⟨entry, r.env.now, r.outcome, r.mirrored⟩
    | none => s.log

/-- Nothing is in the log at first. -/
def state (stores : Stores) (rs : List Request) (n : ℕ) : Site :=
  (rs.take n).foldl (serve digest readBack) ⟨stores, .empty⟩

/-- The request passes what is checked before the gate. -/
def ReachesGate (s : Site) (r : Request) : Prop :=
  ∀ check ∈ (grantChecks s.stores r.env r.auth r.req).take 4, check = none

/-- The grant of this number was the same account's, in the day before, and was answered 200. -/
def grantedBefore (stores : Stores) (rs : List Request) (r : Request) (m : ℕ) : Bool :=
  rs[m]?.any fun earlier => earlier.auth.sub = r.auth.sub &&
    r.env.now - rapidGrantWindow ≤ earlier.env.now && earlier.env.now ≤ r.env.now &&
    (reply (state digest readBack stores rs m) earlier).status = 200

/-- How many grants of the account were answered 200 in the day before. -/
def ownGrants (stores : Stores) (rs : List Request) (r : Request) (n : ℕ) : ℕ :=
  (List.range n).countP (grantedBefore digest readBack stores rs r)

/-- **The gate refuses a grant exactly if the account was granted fifteen in the day before.** -/
def CountsGrants (stores : Stores) (rs : List Request) : Prop :=
  ∀ n r, rs[n]? = some r → ReachesGate (state digest readBack stores rs n) r →
    (reply (state digest readBack stores rs n) r = rateLimited ↔
      rapidGrantThreshold ≤ ownGrants digest readBack stores rs r n)

/-- No account asks for a sixteenth grant within a day. -/
def NoRapidGrants (stores : Stores) (rs : List Request) : Prop :=
  ∀ n r, rs[n]? = some r → ReachesGate (state digest readBack stores rs n) r →
    ownGrants digest readBack stores rs r n < rapidGrantThreshold

end Serve

/-! ### What the log holds -/

section Log
variable {digest : Hash → String → Hash} {readBack : Value → Value} {s : Site} {r : Request}

/-- No row is one that the gate counts. -/
def NotCreated (log : Log) : Prop := ∀ row ∈ log.table, row.action ≠ "share.created"

theorem notCreated_append {log : Log} {c : Audit.Call} (h : NotCreated log)
    (hentry : c.entry.action ≠ "share.created") : NotCreated (append digest readBack log c) := by
  intro row hrow
  by_cases hc : Commits digest log c
  · rw [table_of_commits hc] at hrow
    rcases List.mem_append.mp hrow with hold | hnew
    · exact h row hold
    · obtain rfl := List.mem_singleton.mp hnew
      exact hentry
  · have htable : (append digest readBack log c).table = log.table :=
      congrArg (List.map _) (append_of_not_commits hc).1
    rw [htable] at hrow
    exact h row hrow

theorem notCreated_serve (s : Site) (r : Request) (h : NotCreated s.log) :
    NotCreated (serve digest readBack s r).log := by
  unfold serve
  cases hentry : entryOf r (observed s r) (reply s r) with
  | none => exact h
  | some entry =>
    refine notCreated_append h ?_
    have hkind : entry.action = "share.granted" ∨ entry.action = "share.signal_rapid_grant" := by
      unfold entryOf at hentry
      split at hentry
      · obtain rfl := Option.some.inj hentry
        exact Or.inl rfl
      · split_ifs at hentry
        obtain rfl := Option.some.inj hentry
        exact Or.inr rfl
    rcases hkind with hkind | hkind
    · rw [hkind]
      decide
    · rw [hkind]
      decide

theorem notCreated_state (stores : Stores) (rs : List Request) (n : ℕ) :
    NotCreated (state digest readBack stores rs n).log :=
  @invariant_run Site Request (serve digest readBack) ⟨stores, .empty⟩ (fun s => NotCreated s.log)
    (fun _ hrow => absurd hrow List.not_mem_nil) notCreated_serve (rs.take n)

theorem observed_eq_zero (h : NotCreated s.log) : observed s r = 0 := by
  have hnone : s.log.table.reverse.filter (rapidGrantFilters r.auth r.env.now).selects = [] := by
    refine List.filter_eq_nil_iff.mpr fun row hrow hselects => ?_
    have haction := h row (List.mem_reverse.mp hrow)
    simp only [AuditFilters.selects, rapidGrantFilters, Option.all_some, Bool.and_eq_true,
      decide_eq_true_eq] at hselects
    exact haction hselects.1.1.2
  unfold observed list
  rw [hnone]
  simp

theorem ne_of_status {answer : Reply} (h : answer.status ≠ 429) : answer ≠ rateLimited := by
  rintro rfl
  exact h rfl

theorem refuse_ne {c : Prop} [Decidable c] {answer : Reply} (h : answer.status ≠ 429) :
    refuse c answer ≠ some rateLimited := by
  intro heq
  exact ne_of_status h (mem_refuse heq).symm

theorem check_ne {st : Stores} {env : Env} {auth : AuthenticatedUser} {req : ShareRequest}
    (hfew : env.recentGrants < rapidGrantThreshold) {check : Option Reply}
    (hcheck : check ∈ grantChecks st env auth req) : check ≠ some rateLimited := by
  simp only [grantChecks, List.mem_cons, List.not_mem_nil, or_false] at hcheck
  rcases hcheck with h | h | h | h | h | h | h | h | h
  all_goals rw [h]
  case inl =>
    unfold requireRsiVerified
    split_ifs
    · decide
    · decide
    · split
      · exact refuse_ne (by decide)
      · decide
  case inr.inl =>
    unfold sharesPaused
    split_ifs
    · decide
    · split
      · refine refuse_ne ?_
        show (403 : ℕ) ≠ 429
        decide
      · decide
  case inr.inr.inr.inr.inl =>
    intro hgate
    have hpasses : checkRapidGrant env = none := refuse_eq_none.mpr fun h => by omega
    rw [hpasses] at hgate
    cases hgate
  case inr.inr.inr.inr.inr.inr.inr.inl =>
    unfold scopeRefusal
    split
    · intro hscope
      refine ne_of_status ?_ (Option.some.inj hscope)
      show (400 : ℕ) ≠ 429
      decide
    · decide
  all_goals exact refuse_ne (by decide)

/-- A grant is not refused by a gate that finds few rows. -/
theorem addShare_ne {st : Stores} {env : Env} {auth : AuthenticatedUser} {req : ShareRequest}
    (hfew : env.recentGrants < rapidGrantThreshold) : (addShare st env auth req).2 ≠ rateLimited := by
  have hgrantee : ∀ answer, grantee st env auth req = .error answer → answer ≠ rateLimited := by
    intro answer herror
    unfold grantee at herror
    cases hchecks : (grantChecks st env auth req).findSome? id with
    | some refusal =>
      rw [hchecks] at herror
      obtain rfl := Except.error.inj herror
      obtain ⟨check, hcheck, hsome⟩ := List.exists_of_findSome?_eq_some hchecks
      rintro rfl
      exact check_ne hfew hcheck hsome
    | none =>
      refine ne_of_status ?_
      rw [hchecks] at herror
      simp only at herror
      split at herror
      · obtain rfl := Except.error.inj herror
        decide
      · split_ifs at herror
        · obtain rfl := Except.error.inj herror
          decide
        · obtain rfl := Except.error.inj herror
          decide
  unfold addShare
  cases h : grantee st env auth req with
  | error answer => exact hgrantee answer h
  | ok u => exact nofun

/-- **The gate refuses no grant, so it counts the grants exactly if nobody asks for a sixteenth within a
day.** -/
theorem countsGrants_iff {stores : Stores} {rs : List Request} :
    CountsGrants digest readBack stores rs ↔ NoRapidGrants digest readBack stores rs := by
  have hnever : ∀ n r, reply (state digest readBack stores rs n) r ≠ rateLimited := by
    intro n r
    refine addShare_ne ?_
    show observed (state digest readBack stores rs n) r < rapidGrantThreshold
    rw [observed_eq_zero (notCreated_state stores rs n)]
    decide
  constructor
  · intro hcounts n r hr hgate
    by_contra hmany
    exact hnever n r ((hcounts n r hr hgate).mpr (Nat.not_lt.mp hmany))
  · intro hrare n r hr hgate
    have hfew := hrare n r hr hgate
    exact iff_of_false (hnever n r) (by omega)

end Log

/-! ### Sixteen grants -/

/-- A hash after the other. -/
def digest (prev : Hash) (_ : String) : Hash := prev + 1

def grantFriendAt (now : ℤ) : Request :=
  ⟨calm now, owner, ⟨"Friend", none, none, none⟩, .committed, false⟩

/-- The owner shares with the friend, again and again. -/
def sixteen : List Request := List.replicate 16 (grantFriendAt 3600)

/-- The sixteenth is granted as the others are. -/
theorem not_countsGrants_sixteen : ¬ CountsGrants digest id ⟨pair, ∅, Table.empty, []⟩ sixteen := by
  intro h
  have hgate : ReachesGate (state digest id ⟨pair, ∅, Table.empty, []⟩ sixteen 15)
      (grantFriendAt 3600) := by
    unfold ReachesGate
    decide +kernel
  have hgranted : (reply (state digest id ⟨pair, ∅, Table.empty, []⟩ sixteen 15)
      (grantFriendAt 3600)).status = 200 := by decide +kernel
  have hmany : rapidGrantThreshold ≤
      ownGrants digest id ⟨pair, ∅, Table.empty, []⟩ sixteen (grantFriendAt 3600) 15 := by decide +kernel
  have hlimited := (h 15 _ rfl hgate).mpr hmany
  rw [hlimited] at hgranted
  cases hgranted

end StarStats.Server.GrantGate
