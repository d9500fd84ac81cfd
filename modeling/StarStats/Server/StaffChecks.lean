import StarStats.Server.OrgChecks
import StarStats.Server.StaffRoutes
import StarStats.Server.SubmissionChecks

/-! # What the routes of the staff turn away

A page is turned away by its checks, and so is a change that is written at once. The cleanup of an
organisation, a change of roles and one of the settings may fail after they have written: then nothing has
changed only where there was nothing to change. -/

namespace StarStats.Server.Routes

open StarStats.Lib.Text StarStats.Lib.Tables
open StarStats.Server.Auth StarStats.Server.Accounts
open StarStats.Server.Credentials (Account)
open StarStats.Server.NewSubmissions (parseStatus)
open StarStats.Server.SmtpConfig (SmtpConfigRequest)
open StarStats.Server.StaffRoles (StaffRole)
open StarStats.Server.Submissions (SubmissionStatus)

section Conditions
variable (s : Stores) (env : StaffEnv) (auth : AuthenticatedUser)

/-- The organisation cannot be looked up, or is not there. -/
def NoOrg (slug : String) : Prop :=
  env.routes.site.world.fails .findBySlug = true ∨ Orgs.findBySlug s.site.orgs slug = none

/-- The cleanup of an organisation leaves all relations. -/
def RelationsStay (slug : String) : Prop :=
  env.routes.site.world.share.spicedb = false ∨
    RolesStay s env.routes (·.1 = slug) ∧ (RoleFails env.routes ∨
      env.routes.site.world.fails .deleteShares = true ∨ ∀ t ∈ s.site.rel.shareWithOrg, t.2 ≠ slug)

/-- The submission cannot be changed, is not there, or may not change from the status it has. -/
def NoTransition (id : String) (legalPriors : List SubmissionStatus) : Prop :=
  env.fails .transition = true ∨ ∀ row, s.submissions.find? (·.id = id) = some row →
    ∀ prior, parseStatus row.status = some prior → prior ∉ legalPriors

/-- The user whose roles are to change is not there. -/
def NoTarget (id : String) : Prop :=
  env.routes.isUuid id = false ∨ env.fails .findById = true ∨ findById s.site.users id = none

/-- The settings cannot be written, or are as they were and cannot be read again. -/
def SettingsStay (req : SmtpConfigRequest) : Prop :=
  env.fails .putSmtp = true ∨
    ∀ row, SmtpConfig.put env.given s.smtp.row (SmtpConfig.merge req) env.nonce = some row →
      row = s.smtp.row ∧ (env.fails .getSmtp = true ∨ SmtpConfig.get env.given row = none)

/-- There is nowhere to send a test mail. -/
def NoRecipient (account : Account) (toAddress : Option String) : Prop :=
  (∃ address, trimmed toAddress = some address ∧
    (contains address "@" = false ∨ 320 < address.utf8ByteSize)) ∨
  trimmed toAddress = none ∧ account.emailVerifiedAt = none

/-- Why a request of the staff is turned away although the caller has the role. -/
def StaffTurnedAway : StaffRequest → Prop
  | .listOrgs _ _ _ => env.fails .listAll = true
  | .getOrg slug => NoOrg s env slug
  | .deleteOrg slug => NoOrg s env slug ∨ env.routes.site.world.fails .deleteOrg = true ∧
      ∀ org, Orgs.findBySlug s.site.orgs slug = some org → RelationsStay s env org.slug
  | .listReferenceCategories => env.fails .categorySummaries = true
  | .listReferenceEntries category _ _ _ => ReferenceCategory.parse category = none ∨
      env.fails .listCategory = true
  | .listAudit _ => env.fails (.listAudit none) = true
  | .getOverview => env.fails .activeShareCounts = true ∨ env.fails .topActiveGranters = true ∨
      ∃ action ∈ ["share.created", "share.revoked", "share.viewed"],
        env.fails (.listAudit (some action)) = true
  | .getScopeHistogram => env.fails .scopeHistogram = true
  | .getReports status _ _ => reportFilter status = none ∨ env.fails .listReports = true
  | .resolveReport id outcome note => env.routes.isUuid id = false ∨ parseOutcome outcome = none ∨
      (trimmed note).any (resolutionNoteMaxLen < ·.length) = true ∨ env.fails .resolve = true ∨
      ∀ r ∈ s.reports, r.id = id → r.status ≠ .opened
  | .getUserSharingContext handle => trim handle = "" ∨ env.fails .listByOwner = true ∨
      env.fails .listByRecipient = true ∨ env.fails .listReports = true
  | .accept id => BadIds env.routes auth id ∨ NoTransition s env id [.review, .flagged, .accepted]
  | .rejectSubmission id reason => BadIds env.routes auth id ∨ trim reason = "" ∨
      rejectReasonMaxLen < (trim reason).utf8ByteSize ∨
      NoTransition s env id [.review, .flagged, .rejected]
  | .dismissFlag id => BadIds env.routes auth id ∨ NoTransition s env id [.flagged, .review]
  | .queue status _ _ => parseQueueFilter status = none ∨ env.fails .listAdminQueue = true
  | .listUsers q limit offset => env.fails .listUsers = true ∨
      ∃ row ∈ (listUsers s q limit offset).items, env.fails (.rolesOf row.1.id) = true
  | .getUser id => env.routes.isUuid id = false ∨ env.fails .findById = true ∨
      ∀ row, (userRows s).find? (·.1.id = id) = some row → env.fails (.rolesOf row.1.id) = true
  | .grantRole id role reason => NoTarget s env id ∨ StaffRole.fromStr role = none ∨
      reason.any (StaffRoles.reasonMaxLen < ·.length) = true ∨ env.routes.isUuid auth.sub = false ∨
      env.fails .changeRole = true ∨
      env.fails .rolesAfter = true ∧ ∀ r, StaffRole.fromStr role = some r → r ∈ s.staffRoles id
  | .revokeRole id role => NoTarget s env id ∨ StaffRole.fromStr role = none ∨
      auth.sub = id ∧ StaffRole.fromStr role = some .admin ∨ env.fails .changeRole = true ∨
      env.fails .rolesAfter = true ∧ ∀ r, StaffRole.fromStr role = some r → r ∉ s.staffRoles id
  | .getSmtp => env.fails .getSmtp = true ∨ SmtpConfig.get env.given s.smtp.row = none
  | .putSmtp req => (SmtpConfig.validate req).isSome = true ∨ env.routes.isUuid auth.sub = false ∨
      SettingsStay s env req
  | .testSmtp toAddress => env.routes.isUuid auth.sub = false ∨ env.fails .findById = true ∨
      ∀ account, s.logins.accounts.findById auth.sub = some account →
        NoRecipient account toAddress ∨ env.sendError.isSome = true

end Conditions

section Handlers
variable {s : Stores} {env : StaffEnv} {auth : AuthenticatedUser}

/-! ### Organisations -/

theorem turned_findOrg_bind {α : Type} {slug : String} {f : Orgs.Org → Except Rejection α} :
    Turned (findOrg s env slug >>= f) ↔ env.routes.site.world.fails .findBySlug = true ∨
      ∀ org, Orgs.findBySlug s.site.orgs slug = some org → Turned (f org) := by
  unfold findOrg
  simp only [bind_assoc, turned_check_bind, turned_ofOption_bind]

theorem turned_getOrgAdmin {slug : String} : Turned (getOrgAdmin s env slug) ↔ NoOrg s env slug := by
  unfold getOrgAdmin NoOrg
  rw [turned_findOrg_bind]
  simp only [turned_pure, forall_some_iff, or_false]

theorem findOrg_cases (s : Stores) (env : StaffEnv) (slug : String) :
    (∃ e, findOrg s env slug = .error e) ∧ NoOrg s env slug ∨
      ∃ org, findOrg s env slug = .ok org ∧ ¬ NoOrg s env slug ∧
        Orgs.findBySlug s.site.orgs slug = some org := by
  unfold findOrg NoOrg
  cases env.routes.site.world.fails .findBySlug with
  | true => exact Or.inl ⟨⟨_, rfl⟩, Or.inl rfl⟩
  | false =>
    cases h : Orgs.findBySlug s.site.orgs slug with
    | none => exact Or.inl ⟨⟨_, rfl⟩, Or.inr rfl⟩
    | some org => exact Or.inr ⟨org, rfl, by simp, rfl⟩

theorem relationsWithout_eq_iff {slug : String} :
    relationsWithout s env slug = s.site.rel ↔ RelationsStay s env slug := by
  have hstay := @deleteAllOrgRelationships_eq_iff s env.routes slug
  unfold relationsWithout RelationsStay
  cases env.routes.site.world.share.spicedb <;> simp [hstay]

theorem unchanged_relations_iff {rel : Spicedb.Relations} :
    Unchanged s { s with site.rel := rel } ↔ rel = s.site.rel := by
  constructor
  · exact fun h => congrArg (·.site.rel) (h.others s.site.orgs)
  · rintro rfl
    exact .refl s

theorem turnsAway_deleteOrgAdmin {slug : String} : TurnsAway s (deleteOrgAdmin s env auth slug) ↔
    NoOrg s env slug ∨ env.routes.site.world.fails .deleteOrg = true ∧
      ∀ org, Orgs.findBySlug s.site.orgs slug = some org → RelationsStay s env org.slug := by
  unfold deleteOrgAdmin
  rcases findOrg_cases s env slug with ⟨⟨e, he⟩, hno⟩ | ⟨org, horg, hthere, hfind⟩
  · rw [he]
    exact iff_of_true ⟨.refl s, turned_error.mpr trivial⟩ (Or.inl hno)
  · rw [horg]
    simp only [hfind, Option.some.injEq, forall_eq', hthere, false_or]
    cases env.routes.site.world.fails .deleteOrg with
    | true =>
      -- what is left of the relations is let go
      simp only [if_true, true_and, ← relationsWithout_eq_iff, ← unchanged_relations_iff]
      exact ⟨fun h => h.unchanged, fun h => ⟨h, turned_reject.mpr trivial⟩⟩
    | false => exact iff_of_false (fun h => turned_ok.mp h.turned) (fun h => Bool.noConfusion h.1)

/-! ### Reports -/

theorem turned_checkPath_bind {α : Type} {id : String} {f : Unit → Except Rejection α} :
    Turned (checkPath env id >>= f) ↔ env.routes.isUuid id = false ∨ Turned (f ()) := by
  unfold checkPath
  cases env.routes.isUuid id with
  | true => simp
  | false => exact iff_of_true (turned_error.mpr trivial) (Or.inl rfl)

theorem turned_resolveReport {id outcome : String} {note : Option String} :
    Turned (resolveReport s env auth id outcome note) ↔
      env.routes.isUuid id = false ∨ parseOutcome outcome = none ∨
      (trimmed note).any (resolutionNoteMaxLen < ·.length) = true ∨ env.fails .resolve = true ∨
      ∀ r ∈ s.reports, r.id = id → r.status ≠ .opened := by
  have hall : (s.reports.all (·.id ≠ id) = true ∨
      s.reports.find? (fun r => r.id = id && r.status = .opened) = none) ↔
        ∀ r ∈ s.reports, r.id = id → r.status ≠ .opened := by
    simp only [List.all_eq_true, decide_eq_true_eq, List.find?_eq_none, Bool.and_eq_true, not_and]
    exact ⟨fun h r hr hid => h.elim (fun h => absurd hid (h r hr)) fun h => h r hr hid, Or.inr⟩
  unfold resolveReport
  simp only [turned_checkPath_bind, turned_ofOption_bind, turned_check_bind, turned_pure, forall_some_iff,
    or_false, hall]

/-! ### Submissions -/

theorem turned_adminTransition_bind {α : Type} {id : String} {target : SubmissionStatus}
    {reason : Option String} {legalPriors : List SubmissionStatus}
    {f : Stores × Submissions.SubmissionTransition → Except Rejection α} (hf : ∀ x, ¬ Turned (f x)) :
    Turned (adminTransition s env id target reason legalPriors >>= f) ↔
      NoTransition s env id legalPriors := by
  unfold adminTransition NoTransition
  simp only [bind_assoc, turned_check_bind, turned_ofOption_bind, decide_eq_true_eq]
  refine or_congr_right (forall₂_congr fun row _ => forall₂_congr fun prior _ => ?_)
  refine or_iff_left fun h => ?_
  by_cases hsame : prior = target
  · rw [if_pos hsame] at h
    exact hf _ h
  · rw [if_neg hsame] at h
    exact hf _ h

theorem turned_moderate {action id : String} {target : SubmissionStatus} {reason : Option String}
    {legalPriors : List SubmissionStatus} :
    Turned (moderate s env auth action id target reason legalPriors) ↔ NoTransition s env id legalPriors :=
  turned_adminTransition_bind fun _ => turned_pure.mp

/-! ### Users -/

theorem turned_listUsersAdmin {q : Option String} {limit offset : Option ℤ} :
    Turned (listUsersAdmin s env q limit offset) ↔ env.fails .listUsers = true ∨
      ∃ row ∈ (listUsers s q limit offset).items, env.fails (.rolesOf row.1.id) = true := by
  unfold listUsersAdmin
  simp only [turned_check_bind, turned_pure, or_false, List.any_eq_true]

theorem turned_getUserAdmin {id : String} : Turned (getUserAdmin s env id) ↔
    env.routes.isUuid id = false ∨ env.fails .findById = true ∨
      ∀ row, (userRows s).find? (·.1.id = id) = some row → env.fails (.rolesOf row.1.id) = true := by
  unfold getUserAdmin
  simp only [turned_check_bind, turned_ofOption_bind, turned_pure, or_false, Bool.not_eq_true']

theorem setRoles_unchanged_iff {id action : String} {payload : Lib.Json.Value} {roles : List StaffRole} :
    Unchanged s (setRoles s env auth id action payload roles).1 ↔ roles = s.staffRoles id := by
  unfold setRoles
  by_cases h : roles = s.staffRoles id
  · simpa [h] using Unchanged.refl s
  · refine iff_of_false (fun hsame => h ?_) h
    have hroles := congrArg (·.staffRoles id) (hsame.others s.site.orgs)
    simp only [h, ne_eq, not_false_eq_true, decide_true, if_true, staffAudited] at hroles
    split_ifs at hroles <;> simpa using hroles

theorem turnsAway_setRoles {id action : String} {payload : Lib.Json.Value} {roles : List StaffRole} :
    TurnsAway s (setRoles s env auth id action payload roles) ↔
      env.fails .rolesAfter = true ∧ roles = s.staffRoles id := by
  have hunchanged := @setRoles_unchanged_iff s env auth id action payload roles
  constructor
  · intro h
    refine ⟨?_, hunchanged.mp h.unchanged⟩
    have hturned := h.turned
    unfold setRoles at hturned
    cases hfails : env.fails .rolesAfter with
    | true => rfl
    | false => simp [hfails] at hturned
  · rintro ⟨hfails, hroles⟩
    refine ⟨hunchanged.mpr hroles, ?_⟩
    unfold setRoles
    simp [hfails]

theorem turned_grantTarget {id role : String} {reason : Option String} :
    Turned (grantTarget s env auth id role reason) ↔
      NoTarget s env id ∨ StaffRole.fromStr role = none ∨
      reason.any (StaffRoles.reasonMaxLen < ·.length) = true ∨ env.routes.isUuid auth.sub = false ∨
      env.fails .changeRole = true := by
  unfold grantTarget NoTarget
  simp only [turned_check_bind, turned_ofOption_bind, turned_pure, or_false, Bool.not_eq_true',
    forall_some_iff, Option.isNone_iff_eq_none]
  tauto

theorem turned_revokeTarget {id role : String} :
    Turned (revokeTarget s env auth id role) ↔
      NoTarget s env id ∨ StaffRole.fromStr role = none ∨
      auth.sub = id ∧ StaffRole.fromStr role = some .admin ∨ env.fails .changeRole = true := by
  unfold revokeTarget NoTarget
  simp only [turned_check_bind, turned_ofOption_bind, turned_pure, or_false, Bool.not_eq_true',
    Bool.and_eq_true, decide_eq_true_eq, Option.isNone_iff_eq_none]
  cases StaffRole.fromStr role with
  | none => simp
  | some r =>
    simp only [Option.some.injEq, forall_eq', reduceCtorEq, false_or]
    tauto

theorem roleOf_grantTarget {id role : String} {reason : Option String} {r : StaffRole}
    (h : grantTarget s env auth id role reason = .ok r) : StaffRole.fromStr role = some r := by
  obtain ⟨_, -, h⟩ := bind_eq_ok h
  obtain ⟨r', hr', h⟩ := bind_eq_ok h
  obtain ⟨_, -, h⟩ := bind_eq_ok h
  obtain ⟨_, -, h⟩ := bind_eq_ok h
  obtain ⟨_, -, h⟩ := bind_eq_ok h
  obtain ⟨_, -, h⟩ := bind_eq_ok h
  obtain ⟨_, -, h⟩ := bind_eq_ok h
  rw [← Except.ok.inj h]
  exact ofOption_eq_ok hr'

theorem roleOf_revokeTarget {id role : String} {r : StaffRole}
    (h : revokeTarget s env auth id role = .ok r) : StaffRole.fromStr role = some r := by
  obtain ⟨_, -, h⟩ := bind_eq_ok h
  obtain ⟨r', hr', h⟩ := bind_eq_ok h
  obtain ⟨_, -, h⟩ := bind_eq_ok h
  obtain ⟨_, -, h⟩ := bind_eq_ok h
  obtain ⟨_, -, h⟩ := bind_eq_ok h
  obtain ⟨_, -, h⟩ := bind_eq_ok h
  rw [← Except.ok.inj h]
  exact ofOption_eq_ok hr'

theorem turnsAway_grantRole {id role : String} {reason : Option String} :
    TurnsAway s (grantRole s env auth id role reason) ↔
      NoTarget s env id ∨ StaffRole.fromStr role = none ∨
      reason.any (StaffRoles.reasonMaxLen < ·.length) = true ∨ env.routes.isUuid auth.sub = false ∨
      env.fails .changeRole = true ∨
      env.fails .rolesAfter = true ∧ ∀ r, StaffRole.fromStr role = some r → r ∈ s.staffRoles id := by
  have hchecks := @turned_grantTarget s env auth id role reason
  simp only [← or_assoc] at hchecks ⊢
  rw [← hchecks]
  unfold grantRole
  cases htarget : grantTarget s env auth id role reason with
  | error e => exact iff_of_true ⟨.refl s, turned_error.mpr trivial⟩ (Or.inl (turned_error.mpr trivial))
  | ok r =>
    have hrole : StaffRole.fromStr role = some r := roleOf_grantTarget htarget
    have hsame : (if r ∈ s.staffRoles id then s.staffRoles id else s.staffRoles id ++ [r]) =
        s.staffRoles id ↔ r ∈ s.staffRoles id := by
      by_cases h : r ∈ s.staffRoles id <;> simp [h]
    simp only [turnsAway_setRoles, hsame, hrole, Option.some.injEq, forall_eq', turned_ok, false_or]

theorem turnsAway_revokeRole {id role : String} :
    TurnsAway s (revokeRole s env auth id role) ↔
      NoTarget s env id ∨ StaffRole.fromStr role = none ∨
      auth.sub = id ∧ StaffRole.fromStr role = some .admin ∨ env.fails .changeRole = true ∨
      env.fails .rolesAfter = true ∧ ∀ r, StaffRole.fromStr role = some r → r ∉ s.staffRoles id := by
  have hchecks := @turned_revokeTarget s env auth id role
  simp only [← or_assoc] at hchecks ⊢
  rw [← hchecks]
  unfold revokeRole
  cases htarget : revokeTarget s env auth id role with
  | error e => exact iff_of_true ⟨.refl s, turned_error.mpr trivial⟩ (Or.inl (turned_error.mpr trivial))
  | ok r =>
    have hrole : StaffRole.fromStr role = some r := roleOf_revokeTarget htarget
    have hsame : (s.staffRoles id).filter (· ≠ r) = s.staffRoles id ↔ r ∉ s.staffRoles id := by
      rw [List.filter_eq_self]
      simp only [decide_eq_true_eq]
      exact ⟨fun h hr => h r hr rfl, fun h a ha hsame => h (hsame ▸ ha)⟩
    simp only [turnsAway_setRoles, hsame, hrole, Option.some.injEq, forall_eq', turned_ok, false_or]

/-! ### Mail -/

theorem unchanged_smtp_iff {smtp : SmtpConfig.Site} :
    Unchanged s { s with smtp := smtp } ↔ smtp = s.smtp := by
  constructor
  · exact fun h => congrArg (·.smtp) (h.others s.site.orgs)
  · rintro rfl
    exact .refl s

theorem turnsAway_getSmtp : TurnsAway s (getSmtp s env) ↔
    env.fails .getSmtp = true ∨ SmtpConfig.get env.given s.smtp.row = none := by
  unfold getSmtp SmtpConfig.getSmtp
  cases env.fails .getSmtp with
  | true => exact iff_of_true ⟨.refl s, turned_rejectWith.mpr trivial⟩ (Or.inl rfl)
  | false =>
    cases SmtpConfig.get env.given s.smtp.row with
    | none => exact iff_of_true ⟨.refl s, turned_rejectWith.mpr trivial⟩ (Or.inr rfl)
    | some rec => exact iff_of_false (fun h => turned_ok.mp h.turned) (by simp)

/-- Once the settings are written, they are read again, and put in force. -/
theorem turnsAway_written {req : SmtpConfigRequest} {row : SmtpConfig.Row} :
    (let reread := smtpTurn env auth req (env.fails .getSmtp) ({ s.smtp with row := row }, .written)
      let x := smtpTurn env auth req false reread
      TurnsAway s ({ s with smtp := x.1 }, ofSmtp x.2)) ↔
      row = s.smtp.row ∧ (env.fails .getSmtp = true ∨ SmtpConfig.get env.given row = none) := by
  have hsame : ({ s.smtp with row := row } : SmtpConfig.Site) = s.smtp ↔ row = s.smtp.row :=
    ⟨fun h => congrArg (·.row) h, fun h => h ▸ rfl⟩
  have hinternal : TurnsAway s ({ s with smtp := { s.smtp with row := row } }, ofSmtp SmtpConfig.internal) ↔
      row = s.smtp.row :=
    ⟨fun h => hsame.mp (unchanged_smtp_iff.mp h.unchanged),
      fun h => ⟨unchanged_smtp_iff.mpr (hsame.mpr h), turned_rejectWith.mpr trivial⟩⟩
  cases hreread : env.fails .getSmtp with
  | true =>
    simpa [smtpTurn, SmtpConfig.putSmtp, SmtpConfig.internal] using hinternal
  | false =>
    cases hget : SmtpConfig.get env.given row with
    | none => simpa [smtpTurn, SmtpConfig.putSmtp, SmtpConfig.internal, hget] using hinternal
    | some rec =>
      refine iff_of_false (fun h => ?_) (by simp)
      simp only [smtpTurn, SmtpConfig.putSmtp, hget] at h
      exact turned_ok.mp h.turned

/-- The checks of the settings only find errors. -/
theorem error_of_validate {req : SmtpConfigRequest} {r : SmtpConfig.Response}
    (h : SmtpConfig.validate req = some r) : ∃ status code detail, r = .error status code detail := by
  unfold SmtpConfig.validate SmtpConfig.invalid at h
  split_ifs at h <;> exact ⟨_, _, _, (Option.some.inj h).symm⟩

/-- A request that is refused at once stays refused. -/
theorem smtpTurn_answered {req : SmtpConfigRequest} {fault : Bool} {smtp : SmtpConfig.Site}
    {r : SmtpConfig.Response} : smtpTurn env auth req fault (smtp, .answered r) = (smtp, .answered r) := rfl

theorem turned_ofSmtp_error {status : ℕ} {code : String} {detail : Option String} :
    Turned (ofSmtp (.answered (.error status code detail))) :=
  turned_rejectWith.mpr trivial

theorem turnsAway_putSmtp {req : SmtpConfigRequest} : TurnsAway s (putSmtp s env auth req) ↔
    (SmtpConfig.validate req).isSome = true ∨ env.routes.isUuid auth.sub = false ∨
      SettingsStay s env req := by
  have huuid : env.given.isUuid auth.sub = env.routes.isUuid auth.sub := rfl
  unfold putSmtp SettingsStay
  cases hvalid : SmtpConfig.validate req with
  | some r =>
    obtain ⟨status, code, detail, rfl⟩ := error_of_validate hvalid
    have hturn : ∀ fault, smtpTurn env auth req fault (s.smtp, .asked) =
        (s.smtp, .answered (.error status code detail)) := fun fault => by
      simp [smtpTurn, SmtpConfig.putSmtp, hvalid]
    simp only [hturn, smtpTurn_answered]
    exact iff_of_true ⟨.refl s, turned_ofSmtp_error⟩ (Or.inl rfl)
  | none =>
    cases hsub : env.routes.isUuid auth.sub with
    | false =>
      have hturn : ∀ fault, smtpTurn env auth req fault (s.smtp, .asked) =
          (s.smtp, .answered (.error 500 "bad_subject" none)) := fun fault => by
        simp [smtpTurn, SmtpConfig.putSmtp, hvalid, huuid, hsub]
      simp only [hturn, smtpTurn_answered]
      exact iff_of_true ⟨.refl s, turned_ofSmtp_error⟩ (Or.inr (Or.inl trivial))
    | true =>
      simp only [Option.isSome_none, Bool.false_eq_true, Bool.true_eq_false, false_or]
      cases hwrite : env.fails .putSmtp with
      | true =>
        have hturn : smtpTurn env auth req true (s.smtp, .asked) = (s.smtp, SmtpConfig.internal) := by
          simp [smtpTurn, SmtpConfig.putSmtp, hvalid, huuid, hsub]
        simp only [hturn, SmtpConfig.internal, smtpTurn_answered]
        exact iff_of_true ⟨.refl s, turned_ofSmtp_error⟩ (Or.inl trivial)
      | false =>
        cases hput : SmtpConfig.put env.given s.smtp.row (SmtpConfig.merge req) env.nonce with
        | none =>
          have hturn : smtpTurn env auth req false (s.smtp, .asked) = (s.smtp, SmtpConfig.internal) := by
            simp [smtpTurn, SmtpConfig.putSmtp, hvalid, huuid, hsub, hput]
          simp only [hturn, SmtpConfig.internal, smtpTurn_answered]
          exact iff_of_true ⟨.refl s, turned_ofSmtp_error⟩ (Or.inr (by simp))
        | some row =>
          have hturn : smtpTurn env auth req false (s.smtp, .asked) =
              ({ s.smtp with row := row }, .written) := by
            simp [smtpTurn, SmtpConfig.putSmtp, hvalid, huuid, hsub, hput]
          simp only [hturn, Bool.false_eq_true, Option.some.injEq, forall_eq', false_or]
          exact turnsAway_written

theorem turned_recipientOf_bind {α : Type} {account : Account} {toAddress : Option String}
    {f : String → Except Rejection α} {p : Prop} (hf : ∀ address, Turned (f address) ↔ p) :
    Turned (recipientOf account toAddress >>= f) ↔ NoRecipient account toAddress ∨ p := by
  unfold recipientOf NoRecipient
  cases trimmed toAddress with
  | some address =>
    have hbad : (!contains address "@" || decide (320 < address.utf8ByteSize)) = true ↔
        contains address "@" = false ∨ 320 < address.utf8ByteSize := by simp
    simp only [Option.some.injEq, exists_eq_left', reduceCtorEq, false_and, or_false, ← hbad]
    by_cases h : (!contains address "@" || decide (320 < address.utf8ByteSize)) = true
    · simp only [h, if_true]
      exact iff_of_true (turned_error.mpr trivial) (Or.inl trivial)
    · simp only [h]
      simpa using hf address
  | none =>
    by_cases h : account.emailVerifiedAt = none
    · simp only [h, if_true]
      exact iff_of_true (turned_error.mpr trivial) (Or.inl (Or.inr ⟨trivial, trivial⟩))
    · simp only [h, if_false]
      simpa using hf account.email

theorem turned_sendTestEmail (recipient : String) :
    Turned (sendTestEmail s env recipient) ↔ env.sendError.isSome = true := by
  unfold sendTestEmail
  cases env.sendError <;> simp

theorem turned_testSmtp {toAddress : Option String} : Turned (testSmtp s env auth toAddress) ↔
    env.routes.isUuid auth.sub = false ∨ env.fails .findById = true ∨
      ∀ account, s.logins.accounts.findById auth.sub = some account →
        NoRecipient account toAddress ∨ env.sendError.isSome = true := by
  unfold testSmtp
  simp only [turned_check_bind, turned_ofOption_bind, turned_recipientOf_bind turned_sendTestEmail,
    Bool.not_eq_true']

/-! ### Pages -/

theorem turned_listOrgsAdmin {q : Option String} {limit offset : Option ℤ} :
    Turned (listOrgsAdmin s env q limit offset) ↔ env.fails .listAll = true := by
  unfold listOrgsAdmin
  simp only [turned_check_bind, turned_pure, or_false]

theorem turned_listReferenceCategories :
    Turned (listReferenceCategories s env) ↔ env.fails .categorySummaries = true := by
  unfold listReferenceCategories
  simp only [turned_check_bind, turned_pure, or_false]

theorem turned_listReferenceEntries {category : String} {q : Option String} {limit offset : Option ℕ} :
    Turned (listReferenceEntries s env category q limit offset) ↔
      ReferenceCategory.parse category = none ∨ env.fails .listCategory = true := by
  unfold listReferenceEntries
  simp only [turned_check_bind, turned_ofOption_bind, turned_pure, or_false, forall_some_iff]

theorem turned_listAudit {params : AuditListParams} :
    Turned (listAudit s env params) ↔ env.fails (.listAudit none) = true := by
  unfold listAudit
  simp only [turned_check_bind, turned_pure, or_false]

theorem turned_getOverview : Turned (getOverview s env) ↔
    env.fails .activeShareCounts = true ∨ env.fails .topActiveGranters = true ∨
      ∃ action ∈ ["share.created", "share.revoked", "share.viewed"],
        env.fails (.listAudit (some action)) = true := by
  unfold getOverview
  simp only [turned_check_bind, turned_pure, or_false, List.mem_cons, List.not_mem_nil, exists_eq_or_imp,
    exists_eq_left]

theorem turned_getScopeHistogram :
    Turned (getScopeHistogram s env) ↔ env.fails .scopeHistogram = true := by
  unfold getScopeHistogram
  simp only [turned_check_bind, turned_pure, or_false]

theorem turned_getReports {status : Option String} {limit offset : Option ℤ} :
    Turned (getReports s env status limit offset) ↔
      reportFilter status = none ∨ env.fails .listReports = true := by
  unfold getReports
  simp only [turned_check_bind, turned_ofOption_bind, turned_pure, or_false, forall_some_iff]

theorem turned_getUserSharingContext {handle : String} :
    Turned (getUserSharingContext s env handle) ↔ trim handle = "" ∨ env.fails .listByOwner = true ∨
      env.fails .listByRecipient = true ∨ env.fails .listReports = true := by
  unfold getUserSharingContext
  simp only [turned_check_bind, turned_pure, or_false, decide_eq_true_eq]

theorem turned_queue {status : Option String} {limit offset : ℕ} :
    Turned (queue s env auth status limit offset) ↔
      parseQueueFilter status = none ∨ env.fails .listAdminQueue = true := by
  unfold queue
  simp only [turned_check_bind, turned_ofOption_bind, turned_pure, or_false, forall_some_iff]

theorem turned_accept {id : String} : Turned (accept s env auth id) ↔
    BadIds env.routes auth id ∨ NoTransition s env id [.review, .flagged, .accepted] := by
  unfold accept
  simp only [turned_checkIds_bind, turned_moderate]

theorem turned_rejectSubmission {id reason : String} : Turned (rejectSubmission s env auth id reason) ↔
    BadIds env.routes auth id ∨ trim reason = "" ∨ rejectReasonMaxLen < (trim reason).utf8ByteSize ∨
      NoTransition s env id [.review, .flagged, .rejected] := by
  unfold rejectSubmission
  simp only [turned_checkIds_bind, turned_check_bind, turned_moderate, decide_eq_true_eq]

theorem turned_dismissFlag {id : String} : Turned (dismissFlag s env auth id) ↔
    BadIds env.routes auth id ∨ NoTransition s env id [.flagged, .review] := by
  unfold dismissFlag
  simp only [turned_checkIds_bind, turned_moderate]

/-! ### All requests -/

/-- A request of the staff, once the caller has the role. -/
theorem turnsAway_staffHandler {req : StaffRequest} :
    TurnsAway s (staffHandler s env auth req) ↔ StaffTurnedAway s env auth req := by
  cases req with
  | listOrgs q limit offset => rw [staffHandler, turnsAway_handled, turned_listOrgsAdmin, StaffTurnedAway]
  | getOrg slug => rw [staffHandler, turnsAway_handled, turned_getOrgAdmin, StaffTurnedAway]
  | deleteOrg slug => rw [staffHandler, turnsAway_deleteOrgAdmin, StaffTurnedAway]
  | listReferenceCategories =>
    rw [staffHandler, turnsAway_handled, turned_listReferenceCategories, StaffTurnedAway]
  | listReferenceEntries category q limit offset =>
    rw [staffHandler, turnsAway_handled, turned_listReferenceEntries, StaffTurnedAway]
  | listAudit params => rw [staffHandler, turnsAway_handled, turned_listAudit, StaffTurnedAway]
  | getOverview => rw [staffHandler, turnsAway_handled, turned_getOverview, StaffTurnedAway]
  | getScopeHistogram => rw [staffHandler, turnsAway_handled, turned_getScopeHistogram, StaffTurnedAway]
  | getReports status limit offset => rw [staffHandler, turnsAway_handled, turned_getReports, StaffTurnedAway]
  | resolveReport id outcome note =>
    rw [staffHandler, turnsAway_handled, turned_resolveReport, StaffTurnedAway]
  | getUserSharingContext handle =>
    rw [staffHandler, turnsAway_handled, turned_getUserSharingContext, StaffTurnedAway]
  | accept id => rw [staffHandler, turnsAway_handled, turned_accept, StaffTurnedAway]
  | rejectSubmission id reason =>
    rw [staffHandler, turnsAway_handled, turned_rejectSubmission, StaffTurnedAway]
  | dismissFlag id => rw [staffHandler, turnsAway_handled, turned_dismissFlag, StaffTurnedAway]
  | queue status limit offset => rw [staffHandler, turnsAway_handled, turned_queue, StaffTurnedAway]
  | listUsers q limit offset =>
    rw [staffHandler, turnsAway_handled, turned_listUsersAdmin, StaffTurnedAway]
  | getUser id => rw [staffHandler, turnsAway_handled, turned_getUserAdmin, StaffTurnedAway]
  | grantRole id role reason => rw [staffHandler, turnsAway_grantRole, StaffTurnedAway]
  | revokeRole id role => rw [staffHandler, turnsAway_revokeRole, StaffTurnedAway]
  | getSmtp => rw [staffHandler, turnsAway_getSmtp, StaffTurnedAway]
  | putSmtp req => rw [staffHandler, turnsAway_putSmtp, StaffTurnedAway]
  | testSmtp toAddress => rw [staffHandler, turnsAway_handled, turned_testSmtp, StaffTurnedAway]

end Handlers

end StarStats.Server.Routes
