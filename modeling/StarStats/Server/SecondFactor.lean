import StarStats.Server.Ingest
import StarStats.Server.StaffRoles

/-! # Tokens and gates

An account with a second factor gets a token of the kind `loginInterim` for the right password. The
extractor lets every kind of token through; a handler that wants the whole login has to ask for it
itself. -/

namespace StarStats.Server.SecondFactor

open StarStats.Server.Auth StarStats.Server.Ingest
open StarStats.Server.StaffRoles (StaffRole has)

/-! ### Tokens -/

/-- What a token says of its holder. -/
structure Claims where
  sub : String
  preferredUsername : String
  tokenType : TokenType
  deviceId : Option String
  deriving DecidableEq

/-- Why a request is turned away before its handler does anything. -/
inductive Refusal where
  | missingToken
  | invalidToken (reason : String)
  | userTokenRequired
  | interimTokenRequired
  | invalidSub
  | serverMisconfigured
  | forbidden (role : String)
  deriving DecidableEq

/-- The holder of a token, as handlers see it. -/
def Claims.user (c : Claims) : AuthenticatedUser := ⟨c.sub, c.preferredUsername, c.tokenType, c.deviceId⟩

/-- The extractor, given the claims of a token that verifies. -/
def fromRequestParts (isDeviceActive : String → Bool) : Option Claims →
    Except Refusal AuthenticatedUser
  | none => .error .missingToken
  | some c =>
    if c.tokenType = .device then
      match c.deviceId with
      | none => .error (.invalidToken "device token without device_id claim")
      | some id =>
        if isDeviceActive id then .ok c.user else .error (.invalidToken "device revoked")
    else .ok c.user

/-! ### Endpoints -/

/-- The endpoints that take a token, by the module of their handler. -/
inductive Endpoint where
  | authChangePassword | authResendVerification | authDeleteAccount | authGetMe
  | authEmailChangeStart
  | deviceStart | deviceList | deviceRevoke
  | hangarPush | hangarMe
  | ingestHandle
  | orgCreateOrg | orgListOrgs | orgGetOrg | orgDeleteOrg | orgAddMember | orgRemoveMember
  | parserSubmissionsSubmit
  | preferencesGet | preferencesPut
  | queryListEvents | queryTimeline | querySummary | queryHideEvent | queryUnhideEvent
  | queryMetricsEventTypes | queryIngestHistory | queryMetricsSessions | queryLocationCurrent
  | queryLocationTrace | queryLocationBreakdown | queryStatsCombat | queryStatsTravel
  | queryStatsLoadout | queryStatsStability | queryCommerceRecent
  | revolutCheckout
  | rsiOrgRefresh | rsiOrgMe
  | rsiProfileRefresh | rsiProfileMe
  | rsiVerifyStart | rsiVerifyVerify
  | sharingSetVisibility | sharingGetVisibility | sharingAddShare | sharingDeleteShare
  | sharingListShares | sharingListSharedWithMe | sharingShareWithOrg | sharingUnshareWithOrg
  | sharingFriendSummary | sharingFriendTimeline | sharingReportShare | sharingPreviewSummary
  | sharingPreviewTimeline
  | submissionList | submissionCreate | submissionDetail | submissionVote | submissionFlag
  | submissionWithdraw
  | supporterGetMe
  | totpSetup | totpConfirm | totpDisable | totpRegenerateRecovery | totpVerifyLogin
  | adminListOrgs | adminGetOrg | adminDeleteOrg | adminListReferenceCategories
  | adminListReferenceEntries | adminListAudit | adminSharingOverview | adminScopeHistogram
  | adminReports | adminResolveReport | adminUserSharingContext | adminAcceptSubmission
  | adminRejectSubmission | adminDismissFlag | adminSubmissionQueue | adminListUsers | adminGetUser
  | adminGrantRole | adminRevokeRole | adminGetSmtp | adminPutSmtp | adminTestSmtp
  deriving DecidableEq

/-- What a handler asks of a token before anything else. -/
inductive Gate where
  | anyToken
  | userToken
  | interimToken
  | staff (role : StaffRole)
  deriving DecidableEq

/-- What the handler of an endpoint asks first; all that ask nothing are left to the last line. -/
def Endpoint.gate : Endpoint → Gate
  | .deviceStart | .deviceList | .deviceRevoke | .preferencesGet | .preferencesPut
  | .rsiVerifyStart | .rsiVerifyVerify | .totpSetup | .totpConfirm | .totpDisable
  | .totpRegenerateRecovery => .userToken
  | .totpVerifyLogin => .interimToken
  | .adminListOrgs | .adminGetOrg | .adminListReferenceCategories | .adminListReferenceEntries
  | .adminListAudit | .adminSharingOverview | .adminScopeHistogram | .adminReports
  | .adminResolveReport | .adminUserSharingContext | .adminAcceptSubmission
  | .adminRejectSubmission | .adminDismissFlag | .adminSubmissionQueue | .adminListUsers
  | .adminGetUser => .staff .moderator
  | .adminDeleteOrg | .adminGrantRole | .adminRevokeRole | .adminGetSmtp | .adminPutSmtp
  | .adminTestSmtp => .staff .admin
  | _ => .anyToken

/-- The refusal of a user by a gate, if there is one; roles may not be there to be read. -/
def Gate.refuses (isUuid : String → Bool) (roles : Option (List StaffRole)) (user : AuthenticatedUser) :
    Gate → Option Refusal
  | .anyToken => none
  | .userToken => if user.tokenType = .user then none else some .userTokenRequired
  | .interimToken => if user.tokenType = .loginInterim then none else some .interimTokenRequired
  | .staff role =>
    if !isUuid user.sub then some .invalidSub
    else
      match roles with
      | none => some .serverMisconfigured
      | some roles => if has roles role then none else some (.forbidden role.asStr)

/-- The claims that a login gets for the password alone. -/
def interimClaims (sub preferredUsername : String) : Claims :=
  ⟨sub, preferredUsername, .loginInterim, none⟩

/-- The gate of the staff looks at the account alone. -/
theorem staff_refuses_iff {isUuid : String → Bool} {roles : Option (List StaffRole)}
    {user : AuthenticatedUser} {role : StaffRole} : (∃ r, (Gate.staff role).refuses isUuid roles user = some r) ↔
      isUuid user.sub = false ∨ ∀ rs, roles = some rs → has rs role = false := by
  cases hsub : isUuid user.sub with
  | false => simp [Gate.refuses, hsub]
  | true =>
    cases roles with
    | none => simp [Gate.refuses, hsub]
    | some rs => by_cases h : has rs role = true <;> simp [Gate.refuses, hsub, h]

end StarStats.Server.SecondFactor
