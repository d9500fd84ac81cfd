import StarStats.Server.RecordChecks
import StarStats.Server.SubmissionChecks

/-! # Requests that any token may make

The requests to the handlers that do not ask for a kind of token, what they are answered with, and when they
are turned away. -/

namespace StarStats.Server.Routes

open StarStats.Lib.Text StarStats.Lib.Tables
open StarStats.Client.Hangar (HangarPushRequest maxShipsPerPush)
open StarStats.Server.Auth StarStats.Server.Accounts
open StarStats.Server.NewSubmissions (parseStatus)
open StarStats.Server.Orgs (validateSlug slugify slugCandidates findBySlug parseRole)
open StarStats.Tray.Review (ParserSubmission)

/-- A request that any token may make, with what its handler reads of it. -/
inductive OpenRequest where
  | record (req : OwnRecord.Request)
  | changePassword (currentPassword newPassword : String)
  | resendVerification
  | getMe
  | emailChangeStart (newEmail : String)
  | createOrg (name : String)
  | listOrgs
  | getOrg (slug : String)
  | deleteOrg (slug : String)
  | addMember (slug handle role : String)
  | removeMember (slug handle : String)
  | reportShare (body : ShareReports.ReportShareRequest)
  | checkout (req : Donate.CheckoutRequest)
  | supporterMe
  | hangarPush (body : HangarPushRequest)
  | hangarMe
  | profileRefresh
  | profileMe
  | orgsRefresh
  | orgsMe
  | listSubmissions (status : Option String) (mine : Bool) (limit offset : ℕ)
  | createSubmission (req : CreateSubmissionRequest)
  | submissionDetail (id : String)
  | voteSubmission (id : String) (vote : Bool)
  | flagSubmission (id : String) (reason : Option String)
  | withdrawSubmission (id : String)
  | submitShapes (batch : List (ParserSubmission Char))

section Serve
variable (s : Stores) (env : Env) (auth : AuthenticatedUser)

/-- What the handler of a request does once it has the user. -/
def openHandler : OpenRequest → Stores × Reply
  | .record req => record s env auth req
  | .changePassword currentPassword newPassword =>
    handled s (changePassword s env auth currentPassword newPassword)
  | .resendVerification => handled s (resendVerification s env auth)
  | .getMe => handled s (getMe s env auth)
  | .emailChangeStart newEmail => handled s (emailChangeStart s env auth newEmail)
  | .createOrg name => inWorld s (Orgs.createOrg s.site.world env.site.world auth name)
  | .listOrgs => handled s (listOrgs s env auth)
  | .getOrg slug => handled s (getOrg s env auth slug)
  | .deleteOrg slug => inWorld s (Orgs.deleteOrg s.site.world env.site.world auth slug)
  | .addMember slug handle role =>
    inWorld s (Orgs.addMember s.site.world env.site.world auth slug handle role)
  | .removeMember slug handle =>
    inWorld s (Orgs.removeMember s.site.world env.site.world auth slug handle)
  | .reportShare body => reportShare s env auth body
  | .checkout req => checkout s env auth req
  | .supporterMe => handled s (supporterMe s env auth)
  | .hangarPush body => handled s (hangarPush s env auth body)
  | .hangarMe => handled s (hangarMe s env auth)
  | .profileRefresh => handled s (profileRefresh s env auth)
  | .profileMe => handled s (profileMe s env auth)
  | .orgsRefresh => handled s (orgsRefresh s env auth)
  | .orgsMe => handled s (orgsMe s env auth)
  | .listSubmissions status mine limit offset =>
    handled s (listSubmissions s env auth status mine limit offset)
  | .createSubmission req => createSubmission s env auth req
  | .submissionDetail id => handled s (submissionDetail s env auth id)
  | .voteSubmission id vote => voteSubmission s env auth id vote
  | .flagSubmission id reason => flagSubmission s env auth id reason
  | .withdrawSubmission id => withdrawSubmission s env auth id
  | .submitShapes batch => submitShapes s env batch

end Serve

/-! ### What is turned away -/

section Conditions
variable (s : Stores) (env : Env) (auth : AuthenticatedUser)

/-- Why a request is turned away whoever may make it. -/
def OpenTurnedAway : OpenRequest → Prop
  | .record req => RecordTurnedAway auth s.site env.site req
  | .changePassword currentPassword newPassword => ∀ user account, Resolves s env auth user account →
      env.verifyPassword currentPassword account.passwordHash = false ∨
        newPassword.utf8ByteSize < minPasswordLen ∨ env.hashPassword newPassword = none ∨
        env.fails .updatePassword = true
  | .resendVerification => ∀ user account, Resolves s env auth user account →
      account.emailVerifiedAt.isSome = true ∨ env.fails .setVerificationToken = true ∨
        FirstAddress.setVerificationToken ⟨env.now, false⟩ s.logins user.id env.token = none
  | .getMe => ∀ user account, ¬ Resolves s env auth user account
  | .emailChangeStart newEmail =>
      EmailChange.addressOf env.casing newEmail = "" ∨
        contains (EmailChange.addressOf env.casing newEmail) "@" = false ∨
        env.isUuid auth.sub = false ∨
        env.fails .findByEmail = false ∧ (∃ other, s.logins.accounts.findByEmail env.casing
          (EmailChange.addressOf env.casing newEmail) = some other ∧ other.id ≠ auth.sub) ∨
        env.fails .setPendingEmail = true
  | .createOrg name => trim name = "" ∨ slugify (trim name) = "" ∨ env.isUuid auth.sub = false ∨
      env.site.world.fails .create = true ∨
      (∀ slug ∈ slugCandidates (slugify (trim name)), slug ∈ s.site.orgs.keys) ∨
      findById s.site.users auth.sub = none ∨
      (env.site.world.share.spicedb = false ∨ env.site.world.fails .writeRole = true) ∧
        env.site.world.fails .rollback = false ∧
        ∀ o ∈ s.site.orgs.contents, o.id ≠ env.site.world.uuid
  | .listOrgs => env.isUuid auth.sub = false ∨ env.fails .listForOwner = true
  | .getOrg slug => validateSlug slug = false ∨ env.site.world.share.spicedb = false ∨
      env.site.world.fails .findBySlug = true ∨ ∀ org, findBySlug s.site.orgs slug = some org →
        env.fails .checkView = true ∨ s.site.rel.orgView org.slug auth.preferredUsername = false ∨
          env.fails .listMembers = true
  | .deleteOrg slug => validateSlug slug = false ∨
      OrgTurnedAway s env (s.site.rel.manageOrg · auth.preferredUsername) slug ∨
      env.site.world.fails .deleteOrg = true ∧ ∀ org, findBySlug s.site.orgs slug = some org →
        RolesStay s env (·.1 = org.slug) ∧ (RoleFails env ∨
          env.site.world.fails .deleteShares = true ∨ ∀ t ∈ s.site.rel.shareWithOrg, t.2 ≠ org.slug)
  | .addMember slug handle role => validateSlug slug = false ∨ validateHandle (trim handle) = false ∨
      parseRole role = none ∨ env.site.world.share.fails .findByHandle = true ∨
      findByHandle s.site.users (trim handle) = none ∨
      OrgTurnedAway s env (s.site.rel.manageMembers · auth.preferredUsername) slug ∨
      env.site.world.fails .writeRole = true
  | .removeMember slug handle => validateSlug slug = false ∨ validateHandle handle = false ∨
      OrgTurnedAway s env (s.site.rel.manageMembers · auth.preferredUsername) slug ∨
      RoleFails env ∧ ∀ org, findBySlug s.site.orgs slug = some org →
        RolesStay s env fun t => t.1 = org.slug ∧ t.2.2 = handle
  | .reportShare body => ∀ row,
      ShareReports.created ⟨s.site.world.stores, s.reports⟩ env.reports auth body ≠ .ok row
  | .checkout req => CheckoutTurnedAway s env auth req
  | .supporterMe => env.isUuid auth.sub = false ∨ env.fails .supporter = true
  | .hangarPush body => body.schemaVersion ≠ 1 ∨ maxShipsPerPush < body.ships.length ∨
      (validateShips body.ships).isSome = true ∨ env.isUuid auth.sub = false ∨
      env.fails .putSnapshot = true ∨ findById s.site.users auth.sub = none
  | .hangarMe => NoSnapshot env auth s.hangars
  | .profileRefresh => RefreshTurnedAway s env auth s.profiles env.rsiProfile
  | .profileMe => NoSnapshot env auth s.profiles
  | .orgsRefresh => RefreshTurnedAway s env auth s.rsiOrgs env.rsiOrgs
  | .orgsMe => NoSnapshot env auth s.rsiOrgs
  | .listSubmissions status _ _ _ => env.isUuid auth.sub = false ∨
      status.any (fun s => (parseStatus s).isNone) = true ∨ env.fails .listSubmissions = true
  | .createSubmission req => ∀ new, newSubmission env auth req = .ok new →
      ¬ NewSubmissions.Accepted (database s) env.create new
  | .submissionDetail id => BadIds env auth id ∨ NotReread s env auth id
  | .voteSubmission id vote => BadIds env auth id ∨ env.fails .vote = true ∨
      vote = true ∧ (id, auth.sub) ∉ s.votes ∧ refersToRows s auth id = false ∨
      ((id, auth.sub) ∈ s.votes ↔ vote = true) ∧ NotReread s env auth id
  | .flagSubmission id reason => BadIds env auth id ∨
      (reasonOwned reason).any (fun r => flagReasonMaxLen < r.utf8ByteSize) = true ∨
      env.fails .flag = true ∨
      (s.submissions.find? (·.id = id)).bind (fun r => parseStatus r.status) = none ∨
      hasFlagged s auth id = false ∧ findById s.site.users auth.sub = none ∨
      hasFlagged s auth id = true ∧ NotReread s env auth id
  | .withdrawSubmission id => BadIds env auth id ∨ env.fails .withdraw = true ∨
      ∀ row, s.submissions.find? (·.id = id) = some row →
        row.submitterId ≠ auth.sub ∨ parseStatus row.status ≠ some .review
  | .submitShapes batch => (ParserSubmissions.refusal ParserSubmissions.payloadBytes batch).isSome = true ∨
      FailsWithout env s.shapes s.shapes 0 batch

end Conditions

section Handlers
variable {s : Stores} {env : Env} {auth : AuthenticatedUser}

/-- The handler of a request that any token may make. -/
theorem turnsAway_openHandler {req : OpenRequest} :
    TurnsAway s (openHandler s env auth req) ↔ OpenTurnedAway s env auth req := by
  cases req with
  | record req => exact turnsAway_record
  | changePassword currentPassword newPassword => exact turnsAway_handled.trans turned_changePassword
  | resendVerification => exact turnsAway_handled.trans turned_resendVerification
  | getMe => exact turnsAway_handled.trans turned_getMe
  | emailChangeStart newEmail => exact turnsAway_handled.trans turned_emailChangeStart
  | createOrg name => exact turnsAway_createOrg
  | listOrgs => exact turnsAway_handled.trans turned_listOrgs
  | getOrg slug => exact turnsAway_handled.trans turned_getOrg
  | deleteOrg slug => exact turnsAway_deleteOrg
  | addMember slug handle role => exact turnsAway_addMember
  | removeMember slug handle => exact turnsAway_removeMember
  | reportShare body => exact turnsAway_reportShare
  | checkout req => exact turnsAway_checkout
  | supporterMe => exact turnsAway_handled.trans turned_supporterMe
  | hangarPush body => exact turnsAway_handled.trans turned_hangarPush
  | hangarMe => exact turnsAway_handled.trans turned_snapshotMe
  | profileRefresh => exact turnsAway_handled.trans turned_refresh
  | profileMe => exact turnsAway_handled.trans turned_snapshotMe
  | orgsRefresh => exact turnsAway_handled.trans (turned_refresh.trans refreshTurnedAway_map)
  | orgsMe => exact turnsAway_handled.trans turned_snapshotMe
  | listSubmissions status mine limit offset => exact turnsAway_handled.trans turned_listSubmissions
  | createSubmission req => exact turnsAway_createSubmission
  | submissionDetail id => exact turnsAway_handled.trans turned_submissionDetail
  | voteSubmission id vote => exact turnsAway_voteSubmission
  | flagSubmission id reason => exact turnsAway_flagSubmission
  | withdrawSubmission id => exact turnsAway_withdrawSubmission
  | submitShapes batch => exact turnsAway_submitShapes

end Handlers

end StarStats.Server.Routes
