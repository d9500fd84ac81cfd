import StarStats.Lib.Text
import StarStats.Lib.Threads
import StarStats.Server.Auth

/-! # The last administrator

An administrator grants roles and revokes them, and none revokes their own `admin` role. The caller is
checked once, before the handler begins, and their own role may be gone when the handler writes: so two
who revoke each other leave nobody (`not_neverWithoutAdmin`). Where whoever takes an `admin` role away
still has one, one is always left (`neverWithoutAdmin_of_callersAreAdmins`). -/

namespace StarStats.Server.StaffRoles

open StarStats.Lib.Text StarStats.Lib.Threads StarStats.Server.Auth

inductive StaffRole where
  | moderator
  | admin
  deriving DecidableEq

namespace StaffRole

/-- The role as it is stored. -/
def asStr : StaffRole → String
  | moderator => "moderator"
  | admin => "admin"

/-- Any other text is no role. -/
def fromStr (s : String) : Option StaffRole :=
  if s = "moderator" then some moderator else if s = "admin" then some admin else none

end StaffRole

/-- `REASON_MAX_LEN` -/
def reasonMaxLen : ℕ := 280

/-- A row of `staff_roles`. A revoked row is stamped and stays. -/
structure StaffRoleGrant (υ : Type) where
  userId : υ
  role : StaffRole
  grantedByUserId : Option υ
  reason : Option String
  revokedAt : Option ℤ
  revokedByUserId : Option υ
  deriving DecidableEq

/-- What the log says of a role change. A revocation has no `reason`, and that of a grant may be `null`. -/
structure AuditEntry (υ : Type) where
  actorSub : String
  actorHandle : String
  action : String
  targetUserId : υ
  role : String
  reason : Option (Option String)
  deriving DecidableEq

/-- The grants and what is logged of them. -/
structure Store (υ : Type) where
  staffRoles : List (StaffRoleGrant υ)
  auditLog : List (AuditEntry υ)

/-- The clock, whether the statement of a step fails, and whether the target is among the users. -/
structure Env where
  now : ℤ
  fault : Bool
  found : Bool

structure Rejection where
  status : ℕ
  error : String
  detail : Option String
  deriving DecidableEq

/-- A refusal without a detail. -/
def errResponse (status : ℕ) (error : String) : Rejection := ⟨status, error, none⟩

/-- A request comes with what the extractor makes of its token. -/
inductive Request where
  | grantRole (bearer : Except Rejection AuthenticatedUser) (id role : String) (reason : Option String)
  | revokeRole (bearer : Except Rejection AuthenticatedUser) (id role : String)

/-- What a handler has of its caller and its target when it writes. -/
structure Call (υ : Type) where
  actor : AuthenticatedUser
  actorId : Option υ
  targetId : υ
  role : StaffRole
  deriving DecidableEq

/-- Where a request is. -/
inductive Place (υ : Type) where
  | asked
  /-- The caller is an administrator. -/
  | admitted (actor : AuthenticatedUser)
  /-- The request has passed its checks, and the target is there. -/
  | found (call : Call υ)
  | written (call : Call υ) (changed : Bool)
  | audited (call : Call υ) (changed : Bool)
  | done (changed : Bool) (staffRoles : List String)
  | refused (r : Rejection)
  deriving DecidableEq

section Handlers
variable {υ : Type} [DecidableEq υ] (parseStr : String → Option υ) (env : Env) (st : Store υ)

/-- `user_id = $1 AND role = $2 AND revoked_at IS NULL` -/
def StaffRoleGrant.isActive (userId : υ) (role : StaffRole) (g : StaffRoleGrant υ) : Bool :=
  g.userId = userId && g.role = role && g.revokedAt.isNone

/-- The roles not revoked. -/
def listActiveForUser (userId : υ) : List StaffRole :=
  (st.staffRoles.filter fun g => g.userId = userId && g.revokedAt.isNone).map (·.role)

/-- Administrators inherit what moderators may. -/
def has (set : List StaffRole) : StaffRole → Bool
  | .admin => .admin ∈ set
  | .moderator => .moderator ∈ set || .admin ∈ set

/-- The set as texts, in their order. -/
def asStrings (set : List StaffRole) : List String :=
  ([.admin, .moderator].filter (· ∈ set)).map StaffRole.asStr

/-- `ON CONFLICT … DO NOTHING` leaves an active row as it is. -/
def grant (userId : υ) (role : StaffRole) (grantedBy : Option υ) (reason : Option String) :
    Store υ × Bool :=
  if st.staffRoles.any (·.isActive userId role) then (st, false)
  else ({ st with staffRoles := st.staffRoles ++ [⟨userId, role, grantedBy, reason, none, none⟩] }, true)

/-- Every active row of the user and the role. -/
def revoke (userId : υ) (role : StaffRole) (revokedBy : Option υ) : Store υ × Bool :=
  ({ st with
      staffRoles := st.staffRoles.map fun g =>
        if g.isActive userId role then { g with revokedAt := some env.now, revokedByUserId := revokedBy }
        else g },
    st.staffRoles.any (·.isActive userId role))

/-- `RequireAdmin` -/
def requireAdmin (bearer : Except Rejection AuthenticatedUser) : Except Rejection AuthenticatedUser :=
  match bearer with
  | .error e => .error e
  | .ok user =>
    match parseStr user.sub with
    | none => .error (errResponse 403 "invalid token sub")
    | some userId =>
      if env.fault then .error (errResponse 500 "server misconfigured")
      else if has (listActiveForUser st userId) .admin then .ok user
      else .error ⟨403, "forbidden", some "admin role required"⟩

/-- The caller is checked. -/
def admitCaller (bearer : Except Rejection AuthenticatedUser) : Store υ × Place υ :=
  match requireAdmin parseStr env st bearer with
  | .error r => (st, .refused r)
  | .ok actor => (st, .admitted actor)

/-- What a grant checks of its path and its body, and that the target is there. -/
def grantTarget (actor : AuthenticatedUser) (id role : String) (reason : Option String) : Place υ :=
  match parseStr id, StaffRole.fromStr role with
  | none, _ => .refused (errResponse 404 "user_not_found")
  | some _, none => .refused (errResponse 400 "invalid_role")
  | some targetId, some role =>
    if reason.any (reasonMaxLen < ·.length) then .refused (errResponse 400 "reason_too_long")
    else if env.fault then .refused (errResponse 500 "internal")
    else if !env.found then .refused (errResponse 404 "user_not_found")
    else
      match parseStr actor.sub with
      | none => .refused (errResponse 500 "bad_subject")
      | some actorId => .found ⟨actor, some actorId, targetId, role⟩

/-- What a revocation checks of its path, and that the target is there. None revokes their own `admin`
role. -/
def revokeTarget (actor : AuthenticatedUser) (id role : String) : Place υ :=
  match parseStr id, StaffRole.fromStr role with
  | none, _ => .refused (errResponse 404 "user_not_found")
  | some _, none => .refused (errResponse 400 "invalid_role")
  | some targetId, some role =>
    if parseStr actor.sub = some targetId ∧ role = .admin then
      .refused (errResponse 400 "cannot_revoke_own_admin")
    else if env.fault then .refused (errResponse 500 "internal")
    else if !env.found then .refused (errResponse 404 "user_not_found")
    else .found ⟨actor, parseStr actor.sub, targetId, role⟩

/-- The reason that is stored: trimmed, and none that is empty. -/
def reasonStr (reason : Option String) : Option String := (reason.map trim).filter (· ≠ "")

/-- A change is appended to the log; a failure there is no failure of the request. -/
def audit (action : String) (reason : Option (Option String)) (call : Call υ) (changed : Bool) : Store υ :=
  if changed && !env.fault then
    { st with
      auditLog := st.auditLog ++
        [⟨call.actor.sub, call.actor.preferredUsername, action, call.targetId, call.role.asStr, reason⟩] }
  else st

/-- The roles that the target has now. -/
def answer (call : Call υ) (changed : Bool) : Place υ :=
  if env.fault then .refused (errResponse 500 "staff_store_error")
  else .done changed (asStrings (listActiveForUser st call.targetId))

/-- The handler of a grant, in its steps. -/
def grantRole (bearer : Except Rejection AuthenticatedUser) (id role : String) (reason : Option String) :
    Place υ → Store υ × Place υ
  | .asked => admitCaller parseStr env st bearer
  | .admitted actor => (st, grantTarget parseStr env actor id role reason)
  | .found call =>
    if env.fault then (st, .refused (errResponse 500 "staff_store_error"))
    else
      let (st, changed) := grant st call.targetId call.role call.actorId (reasonStr reason)
      (st, .written call changed)
  | .written call changed =>
    (audit env st "staff.grant" (some (reasonStr reason)) call changed, .audited call changed)
  | .audited call changed => (st, answer env st call changed)
  | place => (st, place)

/-- The handler of a revocation, in its steps. -/
def revokeRole (bearer : Except Rejection AuthenticatedUser) (id role : String) :
    Place υ → Store υ × Place υ
  | .asked => admitCaller parseStr env st bearer
  | .admitted actor => (st, revokeTarget parseStr env actor id role)
  | .found call =>
    if env.fault then (st, .refused (errResponse 500 "staff_store_error"))
    else
      let (st, changed) := revoke env st call.targetId call.role call.actorId
      (st, .written call changed)
  | .written call changed => (audit env st "staff.revoke" none call changed, .audited call changed)
  | .audited call changed => (st, answer env st call changed)
  | place => (st, place)

/-- The request does one step. -/
def stepOf : Request → Place υ → Store υ × Place υ
  | .grantRole bearer id role reason => grantRole parseStr env st bearer id role reason
  | .revokeRole bearer id role => revokeRole parseStr env st bearer id role

end Handlers

/-- The user has an active `admin` role. -/
def IsAdmin {υ : Type} (st : Store υ) (userId : υ) : Prop :=
  ∃ g ∈ st.staffRoles, g.userId = userId ∧ g.role = .admin ∧ g.revokedAt = none

section Machine
variable {υ ι : Type} [DecidableEq υ] [DecidableEq ι] (parseStr : String → Option υ)
  (requests : ι → Request) (st : Store υ) (as : List (ι × Env))

/-- A request takes its next step. -/
def step (i : ι) (env : Env) (st : Store υ) (place : Place υ) : Store υ × Place υ :=
  stepOf parseStr env st (requests i) place

/-- The state after the first turns. -/
def state (n : ℕ) : Shared ι (Store υ) (Place υ) :=
  after (step parseStr requests) ⟨st, fun _ => .asked⟩ as n

/-- **In every state somebody has an active `admin` role.** -/
def NeverWithoutAdmin : Prop := ∀ n, ∃ userId, IsAdmin (state parseStr requests st as n).store userId

/-- In this turn a revocation takes the `admin` role of its target away. -/
def TakesAway (n : ℕ) (call : Call υ) : Prop :=
  ∃ i env bearer id role, as[n]? = some (i, env) ∧ env.fault = false ∧
    requests i = .revokeRole bearer id role ∧
    (state parseStr requests st as n).place i = .found call ∧ call.role = .admin ∧
    IsAdmin (state parseStr requests st as n).store call.targetId

/-- Whoever takes an `admin` role away still has one when the handler writes. -/
def CallersAreAdmins : Prop :=
  ∀ n call, TakesAway parseStr requests st as n call →
    ∃ userId, call.actorId = some userId ∧ IsAdmin (state parseStr requests st as n).store userId

end Machine

section Writes
variable {υ : Type} {parseStr : String → Option υ} {env : Env} {st : Store υ} {userId targetId : υ}
  {role : StaffRole}

theorem staffRoles_audit {action : String} {reason : Option (Option String)} {call : Call υ}
    {changed : Bool} : (audit env st action reason call changed).staffRoles = st.staffRoles := by
  unfold audit
  split_ifs <;> rfl

variable [DecidableEq υ]

theorem isAdmin_grant {grantedBy : Option υ} {reason : Option String} (h : IsAdmin st userId) :
    IsAdmin (grant st targetId role grantedBy reason).1 userId := by
  obtain ⟨g, hg, hadmin⟩ := h
  unfold grant
  split_ifs
  · exact ⟨g, hg, hadmin⟩
  · exact ⟨g, List.mem_append_left _ hg, hadmin⟩

theorem isAdmin_revoke {revokedBy : Option υ} (h : IsAdmin st userId)
    (hother : ¬ (targetId = userId ∧ role = .admin)) :
    IsAdmin (revoke env st targetId role revokedBy).1 userId := by
  obtain ⟨g, hg, huser, hrole, hactive⟩ := h
  have hinactive : g.isActive targetId role = false := by
    by_contra hno
    have hmatches : g.userId = targetId ∧ g.role = role := by
      simp only [StaffRoleGrant.isActive, Bool.not_eq_false, Bool.and_eq_true, decide_eq_true_eq] at hno
      exact hno.1
    exact hother ⟨hmatches.1.symm.trans huser, hmatches.2.symm.trans hrole⟩
  refine ⟨g, List.mem_map.mpr ⟨g, hg, ?_⟩, huser, hrole, hactive⟩
  rw [hinactive]
  rfl

theorem admitCaller_store {bearer : Except Rejection AuthenticatedUser} :
    (admitCaller parseStr env st bearer).1 = st := by
  unfold admitCaller
  split <;> rfl

theorem admitCaller_ne_found {bearer : Except Rejection AuthenticatedUser} {call : Call υ} :
    (admitCaller parseStr env st bearer).2 ≠ .found call := by
  unfold admitCaller
  split <;> simp

/-- A revocation that passes its checks is not that of the caller's own `admin` role. -/
theorem revokeTarget_eq_found {actor : AuthenticatedUser} {id text : String} {call : Call υ}
    (h : revokeTarget parseStr env actor id text = .found call) (hadmin : call.role = .admin) :
    call.actorId ≠ some call.targetId := by
  unfold revokeTarget at h
  split at h
  · cases h
  · cases h
  · split_ifs at h with hown
    cases h
    intro hself
    exact hown ⟨hself, hadmin⟩

end Writes

/-- A revocation takes the `admin` role of the target away, in a step from here. -/
def Takes {υ : Type} (r : Request) (env : Env) (place : Place υ) (call : Call υ) : Prop :=
  (∃ bearer id role, r = .revokeRole bearer id role) ∧ env.fault = false ∧ place = .found call ∧
    call.role = .admin

/-- No revocation is on its way to the caller's own `admin` role. -/
def Guarded {υ : Type} (r : Request) (place : Place υ) : Prop :=
  ∀ call, (∃ bearer id role, r = .revokeRole bearer id role) → place = .found call → call.role = .admin →
    call.actorId ≠ some call.targetId

section Steps
variable {υ ι : Type} [DecidableEq υ] {parseStr : String → Option υ} {requests : ι → Request}
  {st : Store υ} {as : List (ι × Env)} {env : Env} {place : Place υ} {userId : υ} {i : ι}

/-- Who is an administrator stays one, or a revocation takes the role away. -/
theorem isAdmin_step (h : IsAdmin st userId) :
    IsAdmin (step parseStr requests i env st place).1 userId ∨
      ∃ call, Takes (requests i) env place call ∧ call.targetId = userId := by
  unfold step stepOf
  cases hr : requests i with
  | grantRole bearer id role reason =>
    refine Or.inl ?_
    cases place with
    | asked =>
      show IsAdmin (admitCaller parseStr env st bearer).1 userId
      rw [admitCaller_store]
      exact h
    | found call =>
      show IsAdmin (grantRole parseStr env st bearer id role reason (.found call)).1 userId
      unfold grantRole
      split_ifs
      · exact h
      · exact isAdmin_grant h
    | written call changed =>
      obtain ⟨g, hg, hadmin⟩ := h
      refine ⟨g, ?_, hadmin⟩
      show g ∈ (audit env st "staff.grant" (some (reasonStr reason)) call changed).staffRoles
      rw [staffRoles_audit]
      exact hg
    | admitted actor => exact h
    | audited call changed => exact h
    | done changed roles => exact h
    | refused e => exact h
  | revokeRole bearer id role =>
    cases place with
    | asked =>
      refine Or.inl ?_
      show IsAdmin (admitCaller parseStr env st bearer).1 userId
      rw [admitCaller_store]
      exact h
    | found call =>
      by_cases htakes : env.fault = false ∧ call.role = .admin ∧ call.targetId = userId
      · exact Or.inr ⟨call, ⟨⟨bearer, id, role, rfl⟩, htakes.1, rfl, htakes.2.1⟩, htakes.2.2⟩
      · refine Or.inl ?_
        show IsAdmin (revokeRole parseStr env st bearer id role (.found call)).1 userId
        unfold revokeRole
        split_ifs with hfault
        · exact h
        · have hwrites : env.fault = false := by simpa using hfault
          exact isAdmin_revoke h fun hown => htakes ⟨hwrites, hown.2, hown.1⟩
    | written call changed =>
      obtain ⟨g, hg, hadmin⟩ := h
      refine Or.inl ⟨g, ?_, hadmin⟩
      show g ∈ (audit env st "staff.revoke" none call changed).staffRoles
      rw [staffRoles_audit]
      exact hg
    | admitted actor => exact Or.inl h
    | audited call changed => exact Or.inl h
    | done changed roles => exact Or.inl h
    | refused e => exact Or.inl h

/-- A request goes by the guard before it writes. -/
theorem guarded_step (h : Guarded (requests i) place) :
    Guarded (requests i) (step parseStr requests i env st place).2 := by
  rintro call ⟨bearer, id, role, hr⟩ hfound hadmin
  unfold step stepOf at hfound
  rw [hr] at hfound
  cases place with
  | asked => exact absurd hfound admitCaller_ne_found
  | admitted actor => exact revokeTarget_eq_found hfound hadmin
  | found call' =>
    have hplace : (revokeRole parseStr env st bearer id role (.found call')).2 = .found call := hfound
    unfold revokeRole at hplace
    split_ifs at hplace
  | written call' changed => cases hfound
  | audited call' changed =>
    have hplace : answer env st call' changed = .found call := hfound
    unfold answer at hplace
    split_ifs at hplace
  | done changed roles => cases hfound
  | refused e => cases hfound

variable [DecidableEq ι]

/-- In every state every request keeps to the guard. -/
theorem guarded_state (as : List (ι × Env)) (n : ℕ) (i : ι) :
    Guarded (requests i) ((state parseStr requests st as n).place i) := by
  have hstart : True ∧ ∀ i, Guarded (requests i) (Place.asked : Place υ) := by
    refine ⟨trivial, fun i call _ hfound => ?_⟩
    cases hfound
  exact (@placed_after ι (Store υ) (Place υ) Env _ (step parseStr requests) ⟨st, fun _ => .asked⟩
    (fun _ => True) (fun i _ place => Guarded (requests i) place)
    (fun i env st place _ hguarded => ⟨trivial, guarded_step hguarded⟩)
    (fun i env st place j place' _ _ _ hguarded => hguarded) hstart as n).2 i

/-- **Where whoever takes an `admin` role away still has one, somebody has one in every state.** -/
theorem neverWithoutAdmin_of_callersAreAdmins {parseStr : String → Option υ} {requests : ι → Request}
    {st : Store υ} {as : List (ι × Env)} (hstart : ∃ userId, IsAdmin st userId)
    (hcallers : CallersAreAdmins parseStr requests st as) :
    NeverWithoutAdmin parseStr requests st as := by
  intro n
  induction n with
  | zero => exact hstart
  | succ n ih =>
    obtain ⟨userId, hadmin⟩ := ih
    rcases after_succ_cases (step parseStr requests) ⟨st, fun _ => .asked⟩ as n with
      hsame | ⟨i, env, ha, hturn⟩
    · refine ⟨userId, ?_⟩
      unfold state
      rw [hsame]
      exact hadmin
    · have hstore : (state parseStr requests st as (n + 1)).store =
          (step parseStr requests i env (state parseStr requests st as n).store
            ((state parseStr requests st as n).place i)).1 := congrArg Shared.store hturn
      rw [hstore]
      rcases isAdmin_step hadmin with hstays | ⟨call, htakes, htarget⟩
      · exact ⟨userId, hstays⟩
      · obtain ⟨⟨bearer, id, role, hr⟩, hfault, hfound, hrole⟩ := htakes
        -- The role that goes is the target's; the caller is another, and stays.
        obtain ⟨callerId, hcaller, hstill⟩ := hcallers n call
          ⟨i, env, bearer, id, role, ha, hfault, hr, hfound, hrole, htarget ▸ hadmin⟩
        refine ⟨callerId, ?_⟩
        rcases isAdmin_step hstill with hstays | ⟨call', ⟨-, -, hfound', -⟩, htarget'⟩
        · exact hstays
        · have hcall : call = call' := Place.found.inj (hfound.symm.trans hfound')
          have hguard := guarded_state as n i call ⟨bearer, id, role, hr⟩ hfound hrole
          exact absurd (by rw [hcaller, hcall, htarget']) hguard

end Steps

/-! ### Two administrators -/

def anna : String := "00000000-0000-4000-8000-00000000000a"

def bob : String := "00000000-0000-4000-8000-00000000000b"

/-- A user with a token of theirs. -/
def bearer (sub : String) : Except Rejection AuthenticatedUser := .ok ⟨sub, "handle", .user, none⟩

def admins : Store String :=
  ⟨[⟨anna, .admin, none, none, none, none⟩, ⟨bob, .admin, none, none, none, none⟩], []⟩

/-- Nothing fails, and the target is there. -/
def calm : Env := ⟨0, false, true⟩

/-- Each revokes the other's role. -/
def eachOther : Bool → Request
  | true => .revokeRole (bearer anna) bob "admin"
  | false => .revokeRole (bearer bob) anna "admin"

/-- Both are checked before either writes. -/
def bothChecked : List (Bool × Env) :=
  [(true, calm), (false, calm), (true, calm), (false, calm), (true, calm), (false, calm)]

/-- One request after the other: the second is refused. -/
def inTurns : List (Bool × Env) := List.replicate 5 (true, calm) ++ List.replicate 5 (false, calm)

/-- The request is about to write. -/
def Place.isFound {υ : Type} : Place υ → Bool
  | .found _ => true
  | _ => false

/-- After both have written nobody has the role. -/
theorem not_neverWithoutAdmin :
    (∃ userId, IsAdmin admins userId) ∧ ¬ NeverWithoutAdmin some eachOther admins bothChecked := by
  refine ⟨⟨anna, _, List.mem_cons_self, rfl, rfl, rfl⟩, fun h => ?_⟩
  obtain ⟨userId, g, hg, -, hrole, hactive⟩ := h 6
  have hrevoked : ∀ g ∈ (state some eachOther admins bothChecked 6).store.staffRoles,
      g.revokedAt ≠ none := by decide +kernel
  exact hrevoked g hg hactive

/-- Whoever comes first is an administrator when they write. -/
theorem neverWithoutAdmin_inTurns : NeverWithoutAdmin some eachOther admins inTurns := by
  refine neverWithoutAdmin_of_callersAreAdmins ⟨anna, _, List.mem_cons_self, rfl, rfl, rfl⟩ ?_
  rintro n call ⟨i, env, token, id, role, ha, -, -, hfound, -⟩
  have hlen : n < inTurns.length := (List.getElem?_eq_some_iff.mp ha).1
  have hlater : ∀ n < inTurns.length, n ≠ 2 → ∀ a ∈ inTurns[n]?,
      ((state some eachOther admins inTurns n).place a.1).isFound = false := by decide +kernel
  by_cases hsecond : n = 2
  · subst hsecond
    cases ha
    have hcall : (state some eachOther admins inTurns 2).place true =
        .found ⟨⟨anna, "handle", .user, none⟩, some anna, bob, .admin⟩ := by decide +kernel
    rw [hcall] at hfound
    cases hfound
    refine ⟨anna, rfl, ?_⟩
    unfold IsAdmin
    decide +kernel
  · have hno := hlater n hlen hsecond (i, env) ha
    rw [hfound] at hno
    cases hno

end StarStats.Server.StaffRoles
