import StarStats.Server.OrgChecks

/-! # Records that stay as they are

The handlers of a record and its shares. A read of another's record may take back a share that has
expired, whatever it answers. -/

namespace StarStats.Server.Routes

open StarStats.Lib.Text StarStats.Lib.Tables
open StarStats.Server.Auth StarStats.Server.Accounts
open StarStats.Server.Ingest (eqIgnoreAsciiCase)
open StarStats.Server.Orgs (World validateSlug findBySlug)
open StarStats.Server.OwnRecord (Site SiteEnv)
open StarStats.Server.Sharing (ShareScope grantee requireRsiVerified checkView checkViewWithExpiry findMeta
  scopeOf parseScopeParam scopeAllowsAggregates scopeAllowsTimeline)

section Conditions
variable (auth : AuthenticatedUser)

/-- The share is seen to have expired, and something of it is taken back. -/
structure Revokes (st : Sharing.Stores) (env : Sharing.Env) (owner viewer : String) : Prop where
  view : checkView st env owner viewer = some true
  read : env.fails .findExpiry = false
  expired : ∃ e, (findMeta st.metadata owner viewer).bind (·.expiresAt) = some e ∧ e ≤ env.now
  taken : env.fails .deleteShare = false ∧ (owner, viewer) ∈ st.relations ∨ env.fails .deleteMeta = false

/-- A read of another's record takes nothing back, and finds nothing to show. -/
def ReadTurnedAway (st : Sharing.Stores) (env : Sharing.Env) (viewer handle : String)
    (allows : ShareScope → Bool) : Prop :=
  env.spicedb = false ∨
    ¬ Revokes st env handle viewer ∧
      ((scopeOf st env handle viewer).any (!allows ·) = true ∨
        (checkViewWithExpiry st env handle viewer).2 ≠ some true ∨ env.fails .query = true)

/-- Why a request of the record is turned away. -/
def RecordTurnedAway (site : Site) (env : SiteEnv) : OwnRecord.Request → Prop
  | .deleteAccount confirmHandle => ∀ u, env.world.share.isUuid auth.sub = true →
      env.world.share.fails .findById = false → findById site.users auth.sub = some u →
      eqIgnoreAsciiCase confirmHandle u.claimedHandle = false ∨ env.world.fails .audit = true ∨
        env.world.fails .deleteUser = true ∨
        Erasure.pseudonymise site.srv.events (Erasure.pseudonymOf env.world.uuid) u.claimedHandle = none
  | .ingest batch => (Ingest.refusal auth batch).isSome = true
  | .listEvents p => (p.eventType.any fun t => !Queries.isValidEventType t) = true ∨
      (p.beforeSeq.isSome && p.afterSeq.isSome) = true ∨ env.fails .query = true
  | .timeline days => Queries.resolveTimelineDays days = none ∨ env.fails .query = true
  | .summary | .readRows _ => env.fails .query = true
  | .hideEvent _ | .unhideEvent _ => env.fails .hide = true
  | .setVisibility _ => (requireRsiVerified site.world.stores env.world.share auth).isSome = true ∨
      env.world.share.spicedb = false ∨ env.world.fails .publicView = true
  | .getVisibility => env.world.share.spicedb = false ∨ env.fails .checkPublic = true
  | .addShare req => ∀ u, grantee site.world.stores env.world.share auth req ≠ .ok u
  | .deleteShare recipientHandle => validateHandle (trim recipientHandle) = false ∨
      env.world.share.spicedb = false ∨ env.world.share.fails .deleteShare = true
  | .listShares => env.world.share.spicedb = false ∨ env.fails .listShares = true
  | .listSharedWithMe => env.world.share.spicedb = false ∨ env.fails .listSharedWithMe = true
  | .shareWithOrg orgSlug => (requireRsiVerified site.world.stores env.world.share auth).isSome = true ∨
      validateSlug (trim orgSlug) = false ∨ env.world.fails .findBySlug = true ∨
      findBySlug site.orgs (trim orgSlug) = none ∨ env.world.share.spicedb = false ∨
      env.world.fails .shareWithOrg = true
  | .unshareWithOrg slug => validateSlug (trim slug) = false ∨ env.world.share.spicedb = false ∨
      env.world.fails .shareWithOrg = true
  | .previewSummary scope => ∀ scope', parseScopeParam env.fromStr scope = .ok scope' →
      scope'.any (!scopeAllowsAggregates ·) = false ∧ env.world.share.fails .query = true
  | .previewTimeline days scope => ∀ scope', parseScopeParam env.fromStr scope = .ok scope' →
      Queries.resolveTimelineDays days = none ∨
        scope'.any (!scopeAllowsTimeline ·) = false ∧ env.world.share.fails .query = true
  | .friendSummary handle => validateHandle handle = false ∨
      ReadTurnedAway site.world.stores (OwnRecord.viewEnv site env auth handle) auth.preferredUsername handle
        scopeAllowsAggregates
  | .friendTimeline handle days => validateHandle handle = false ∨
      Queries.resolveTimelineDays days = none ∨
      ReadTurnedAway site.world.stores (OwnRecord.viewEnv site env auth handle) auth.preferredUsername handle
        scopeAllowsTimeline

end Conditions

section Handlers
variable {s : Stores} {env : Env} {auth : AuthenticatedUser}

section Record
variable {site : Site} {a : OwnRecord.Answer} {reply : Sharing.Reply} {st : Sharing.Stores}

@[simp] theorem turned_ofAnswer_error {status : ℕ} {code : String} :
    Turned (ofAnswer (.error status code)) ↔ True := turned_reject

@[simp] theorem turned_ofAnswer_queryFailed : Turned (ofAnswer .queryFailed) ↔ True := turned_reject

@[simp] theorem turned_ofAnswer_directory {a : Orgs.Answer} :
    Turned (ofAnswer (.directory a)) ↔ Turned (ofDirectory a) := Iff.rfl

@[simp] theorem turned_ofDirectory_error {status : ℕ} {code : String} :
    Turned (ofDirectory (.error status code)) ↔ True := turned_reject

/-- Only an error of a handler of shares turns the request away. -/
theorem turned_share_of_status (h : reply.status ≠ 200) : Turned (ofDirectory (.share reply)) := by
  cases reply with
  | error | notFound => exact turned_error.mpr trivial
  | granted | revoked | summary | timeline => exact absurd rfl h

@[simp] theorem turned_share_err {status : ℕ} {code : String} :
    Turned (ofDirectory (.share (Sharing.err status code))) ↔ True := turned_error

@[simp] theorem turned_share_notFound : Turned (ofDirectory (.share .notFound)) ↔ True := turned_error

/-- The handler of a request of the record answers with an error, and leaves the stores. -/
theorem turnsAway_record_iff {req : OwnRecord.Request} : TurnsAway s (record s env auth req) ↔
    Turned (ofAnswer (OwnRecord.handler s.site env.site auth req).2) ∧
      Unchanged s { s with site := (OwnRecord.handler s.site env.site auth req).1 } := by
  unfold record
  rcases OwnRecord.handler s.site env.site auth req with ⟨site, answer⟩
  cases answer with
  | directory a =>
    cases a with
    | accountDeleted => exact iff_of_false (fun h => turned_ok.mp h.turned) fun h => turned_ok.mp h.1
    | _ => exact ⟨fun h => ⟨h.turned, h.unchanged⟩, fun h => ⟨h.2, h.1⟩⟩
  | _ => exact ⟨fun h => ⟨h.turned, h.unchanged⟩, fun h => ⟨h.2, h.1⟩⟩

/-! Requests that only read leave the stores. -/

theorem turned_listEvents {p : Queries.ListParams} :
    Turned (ofAnswer (OwnRecord.listEvents s.site env.site auth p)) ↔
      (p.eventType.any fun t => !Queries.isValidEventType t) = true ∨
      (p.beforeSeq.isSome && p.afterSeq.isSome) = true ∨ env.site.fails .query = true := by
  unfold OwnRecord.listEvents Queries.listEvents
  cases (p.eventType.any fun t => !Queries.isValidEventType t) with
  | true => simp
  | false =>
    cases (p.beforeSeq.isSome && p.afterSeq.isSome) with
    | true => simp
    | false => cases env.site.fails .query <;> simp [ofAnswer]

theorem turned_timeline {days : Option ℕ} : Turned (ofAnswer (OwnRecord.timeline s.site env.site auth days)) ↔
    Queries.resolveTimelineDays days = none ∨ env.site.fails .query = true := by
  unfold OwnRecord.timeline
  cases Queries.resolveTimelineDays days with
  | none => simp
  | some days => cases env.site.fails .query <;> simp [ofAnswer]

theorem turned_summary : Turned (ofAnswer (OwnRecord.summary s.site env.site auth)) ↔
    env.site.fails .query = true := by
  unfold OwnRecord.summary
  cases env.site.fails .query <;> simp [ofAnswer]

theorem turned_readRows {keep : Queries.EventRow → Bool} :
    Turned (ofAnswer (OwnRecord.readRows s.site env.site auth keep)) ↔ env.site.fails .query = true := by
  unfold OwnRecord.readRows
  cases env.site.fails .query <;> simp [ofAnswer]

theorem turned_getVisibility : Turned (ofAnswer (OwnRecord.getVisibility s.site env.site auth)) ↔
    env.site.world.share.spicedb = false ∨ env.site.fails .checkPublic = true := by
  unfold OwnRecord.getVisibility
  cases env.site.world.share.spicedb <;> cases env.site.fails .checkPublic <;> simp [ofAnswer]

theorem turned_listShares : Turned (ofAnswer (OwnRecord.listShares s.site env.site auth)) ↔
    env.site.world.share.spicedb = false ∨ env.site.fails .listShares = true := by
  unfold OwnRecord.listShares
  cases env.site.world.share.spicedb <;> cases env.site.fails .listShares <;> simp [ofAnswer]

theorem turned_listSharedWithMe : Turned (ofAnswer (OwnRecord.listSharedWithMe s.site env.site auth)) ↔
    env.site.world.share.spicedb = false ∨ env.site.fails .listSharedWithMe = true := by
  unfold OwnRecord.listSharedWithMe
  cases env.site.world.share.spicedb <;> cases env.site.fails .listSharedWithMe <;> simp [ofAnswer]

theorem turned_renderOr404 {check : Option Bool} :
    Turned (ofDirectory (.share (Sharing.renderOr404 check reply))) ↔
      check ≠ some true ∨ Turned (ofDirectory (.share reply)) := by
  cases check with
  | none => simp [Sharing.renderOr404]
  | some seen => cases seen <;> simp [Sharing.renderOr404]

theorem turned_renderSummaryScoped {env : Sharing.Env} {handle : String} {scope : Option ShareScope} :
    Turned (ofDirectory (.share (Sharing.renderSummaryScoped st env handle scope))) ↔
      env.fails .query = true := by
  unfold Sharing.renderSummaryScoped
  cases env.fails .query with
  | true => simp
  | false => exact iff_of_false turned_ok.mp Bool.false_ne_true

theorem turned_renderTimelineScoped {env : Sharing.Env} {handle : String} {days : ℕ}
    {scope : Option ShareScope} :
    Turned (ofDirectory (.share (Sharing.renderTimelineScoped st env handle days scope))) ↔
      env.fails .query = true := by
  unfold Sharing.renderTimelineScoped
  cases env.fails .query with
  | true => simp
  | false => exact iff_of_false turned_ok.mp Bool.false_ne_true

theorem parseScopeParam_eq_error {fromStr : String → Option ShareScope} {raw : Option String}
    (h : parseScopeParam fromStr raw = .error reply) : reply = Sharing.err 400 "invalid_scope" := by
  unfold parseScopeParam at h
  cases raw with
  | none => cases h
  | some text =>
    simp only at h
    split_ifs at h
    cases hscope : fromStr (trim text) with
    | none =>
      rw [hscope] at h
      exact (Except.error.inj h).symm
    | some scope =>
      rw [hscope] at h
      cases h

theorem turned_previewSummary {scope : Option String} :
    Turned (ofDirectory (.share (Sharing.previewSummary env.site.fromStr s.site.world.stores
        env.site.world.share auth scope))) ↔
      ∀ scope', parseScopeParam env.site.fromStr scope = .ok scope' →
        scope'.any (!scopeAllowsAggregates ·) = false ∧ env.site.world.share.fails .query = true := by
  unfold Sharing.previewSummary
  cases hparse : parseScopeParam env.site.fromStr scope with
  | error reply =>
    obtain rfl := parseScopeParam_eq_error hparse
    exact iff_of_true (turned_share_err.mpr trivial) nofun
  | ok scope' =>
    simp only [Except.ok.injEq, forall_eq']
    cases scope'.any (!scopeAllowsAggregates ·) with
    | true => exact iff_of_false turned_ok.mp (by simp)
    | false => simp [turned_renderSummaryScoped]

theorem turned_previewTimeline {days : Option ℕ} {scope : Option String} :
    Turned (ofDirectory (.share (Sharing.previewTimeline env.site.fromStr s.site.world.stores
        env.site.world.share auth days scope))) ↔
      ∀ scope', parseScopeParam env.site.fromStr scope = .ok scope' →
        Queries.resolveTimelineDays days = none ∨
          scope'.any (!scopeAllowsTimeline ·) = false ∧ env.site.world.share.fails .query = true := by
  unfold Sharing.previewTimeline
  cases hparse : parseScopeParam env.site.fromStr scope with
  | error reply =>
    obtain rfl := parseScopeParam_eq_error hparse
    exact iff_of_true (turned_share_err.mpr trivial) nofun
  | ok scope' =>
    simp only [Except.ok.injEq, forall_eq']
    cases Queries.resolveTimelineDays days with
    | none => simp
    | some days =>
      cases scope'.any (!scopeAllowsTimeline ·) with
      | true => exact iff_of_false turned_ok.mp (by simp)
      | false => simp [turned_renderTimelineScoped]

/-! Requests that write. -/

theorem unchanged_set_iff {w : World} : Unchanged s { s with site := s.site.set w } ↔
    w.stores.relations = s.site.relations ∧ w.stores.metadata = s.site.metadata ∧ w.rel = s.site.rel :=
  (@unchanged_setWorld_iff s { w with orgs := s.site.orgs }).trans (and_iff_right rfl)

/-- What a handler of the record makes of a request, with its answer, turns the request away. -/
def RecordTurns (s : Stores) (r : Site × OwnRecord.Answer) : Prop :=
  Turned (ofAnswer r.2) ∧ Unchanged s { s with site := r.1 }

theorem recordTurns_read : RecordTurns s (s.site, a) ↔ Turned (ofAnswer a) := and_iff_left (.refl s)

theorem recordTurns_deleteAccount {confirmHandle : String} :
    RecordTurns s (OwnRecord.deleteAccount s.site env.site auth confirmHandle) ↔
      RecordTurnedAway auth s.site env.site (.deleteAccount confirmHandle) := by
  unfold OwnRecord.deleteAccount RecordTurnedAway
  cases env.site.world.share.isUuid auth.sub with
  | false => simp [recordTurns_read]
  | true =>
  cases env.site.world.share.fails .findById with
  | true => simp [recordTurns_read]
  | false =>
  cases findById s.site.users auth.sub with
  | none => simp [recordTurns_read]
  | some u =>
  simp only [Bool.not_true, Bool.false_eq_true, if_false, forall_true_left, Option.some.injEq, forall_eq']
  cases eqIgnoreAsciiCase confirmHandle u.claimedHandle with
  | false => simp [recordTurns_read]
  | true =>
  cases env.site.world.fails .audit with
  | true => simp [recordTurns_read]
  | false =>
  cases env.site.world.fails .deleteUser with
  | true => simp [recordTurns_read]
  | false =>
  cases Erasure.pseudonymise s.site.srv.events (Erasure.pseudonymOf env.site.world.uuid) u.claimedHandle with
  | none => simp [recordTurns_read]
  | some events => exact iff_of_false (fun h => turned_ok.mp h.1) (by simp)

theorem ingest_refusal_eq_error {batch : Core.Wire.IngestBatch} {reply : Ingest.Reply}
    (h : Ingest.refusal auth batch = some reply) : ∃ status body, reply = .error status body := by
  unfold Ingest.refusal at h
  split_ifs at h
  all_goals exact ⟨_, _, (Option.some.inj h).symm⟩

theorem recordTurns_ingest {batch : Core.Wire.IngestBatch} :
    RecordTurns s (OwnRecord.ingest s.site env.site auth batch) ↔
      (Ingest.refusal auth batch).isSome = true := by
  unfold OwnRecord.ingest Ingest.handle
  cases hrefusal : Ingest.refusal auth batch with
  | some reply =>
    obtain ⟨status, body, rfl⟩ := ingest_refusal_eq_error hrefusal
    exact iff_of_true ⟨turned_error.mpr trivial, .refl s⟩ rfl
  | none => exact iff_of_false (fun h => turned_ok.mp h.1) Bool.false_ne_true

theorem recordTurns_toggleHidden {seq : ℤ} {hide : Bool} :
    RecordTurns s (OwnRecord.toggleHidden s.site env.site auth seq hide) ↔ env.site.fails .hide = true := by
  unfold OwnRecord.toggleHidden
  cases env.site.fails .hide with
  | true => simp [recordTurns_read]
  | false => exact iff_of_false (fun h => turned_ok.mp h.1) Bool.false_ne_true

theorem turned_requireRsiVerified
    (h : requireRsiVerified s.site.world.stores env.site.world.share auth = some reply) :
    Turned (ofDirectory (.share reply)) := by
  -- It is the first check of any grant.
  have hchecks := @Sharing.grantChecks_ne s.site.world.stores env.site.world.share auth ⟨"", none, none, none⟩
  exact turned_share_of_status (hchecks _ List.mem_cons_self _ h)

theorem recordTurns_setVisibility {isPublic : Bool} :
    RecordTurns s (s.site.did (Directory.setVisibility s.site.world env.site.world auth isPublic)) ↔
      (requireRsiVerified s.site.world.stores env.site.world.share auth).isSome = true ∨
        env.site.world.share.spicedb = false ∨ env.site.world.fails .publicView = true := by
  unfold Directory.setVisibility
  cases hverified : requireRsiVerified s.site.world.stores env.site.world.share auth with
  | some reply => exact iff_of_true ⟨turned_requireRsiVerified hverified, .refl s⟩ (Or.inl rfl)
  | none =>
    cases env.site.world.share.spicedb with
    | false => exact iff_of_true ⟨turned_reject.mpr trivial, .refl s⟩ (by simp)
    | true =>
      cases env.site.world.fails .publicView with
      | true => exact iff_of_true ⟨turned_reject.mpr trivial, .refl s⟩ (by simp)
      | false => exact iff_of_false (fun h => turned_ok.mp h.1) (by simp)

theorem recordTurns_shareWithOrg {orgSlug : String} :
    RecordTurns s (s.site.did (Directory.shareWithOrg s.site.world env.site.world auth orgSlug)) ↔
      (requireRsiVerified s.site.world.stores env.site.world.share auth).isSome = true ∨
        validateSlug (trim orgSlug) = false ∨ env.site.world.fails .findBySlug = true ∨
        findBySlug s.site.orgs (trim orgSlug) = none ∨ env.site.world.share.spicedb = false ∨
        env.site.world.fails .shareWithOrg = true := by
  have horgs : s.site.world.orgs = s.site.orgs := rfl
  unfold Directory.shareWithOrg
  rw [horgs]
  cases hverified : requireRsiVerified s.site.world.stores env.site.world.share auth with
  | some reply => exact iff_of_true ⟨turned_requireRsiVerified hverified, .refl s⟩ (Or.inl rfl)
  | none =>
  cases validateSlug (trim orgSlug) with
  | false => exact iff_of_true ⟨turned_reject.mpr trivial, .refl s⟩ (by simp)
  | true =>
  cases env.site.world.fails .findBySlug with
  | true => exact iff_of_true ⟨turned_reject.mpr trivial, .refl s⟩ (by simp)
  | false =>
  cases findBySlug s.site.orgs (trim orgSlug) with
  | none => exact iff_of_true ⟨turned_reject.mpr trivial, .refl s⟩ (by simp)
  | some org =>
  cases env.site.world.share.spicedb with
  | false => exact iff_of_true ⟨turned_reject.mpr trivial, .refl s⟩ (by simp)
  | true =>
  cases env.site.world.fails .shareWithOrg with
  | true => exact iff_of_true ⟨turned_reject.mpr trivial, .refl s⟩ (by simp)
  | false => exact iff_of_false (fun h => turned_ok.mp h.1) (by simp)

theorem recordTurns_unshareWithOrg {slug : String} :
    RecordTurns s (s.site.did (Directory.unshareWithOrg s.site.world env.site.world auth slug)) ↔
      validateSlug (trim slug) = false ∨ env.site.world.share.spicedb = false ∨
        env.site.world.fails .shareWithOrg = true := by
  unfold Directory.unshareWithOrg
  cases validateSlug (trim slug) with
  | false => exact iff_of_true ⟨turned_reject.mpr trivial, .refl s⟩ (by simp)
  | true =>
  cases env.site.world.share.spicedb with
  | false => exact iff_of_true ⟨turned_reject.mpr trivial, .refl s⟩ (by simp)
  | true =>
  cases env.site.world.fails .shareWithOrg with
  | true => exact iff_of_true ⟨turned_reject.mpr trivial, .refl s⟩ (by simp)
  | false => exact iff_of_false (fun h => turned_ok.mp h.1) (by simp)

theorem recordTurns_addShare {req : Sharing.ShareRequest} :
    RecordTurns s (s.site.shared (Sharing.addShare s.site.world.stores env.site.world.share auth req)) ↔
      ∀ u, grantee s.site.world.stores env.site.world.share auth req ≠ .ok u := by
  unfold Sharing.addShare
  cases hgrantee : grantee s.site.world.stores env.site.world.share auth req with
  | error reply => exact iff_of_true ⟨turned_share_of_status (Sharing.grantee_error hgrantee), .refl s⟩ nofun
  | ok u => exact iff_of_false (fun h => turned_ok.mp h.1) fun h => h u rfl

theorem recordTurns_deleteShare {recipientHandle : String} :
    RecordTurns s (s.site.shared (Sharing.deleteShare s.site.world.stores env.site.world.share auth
        recipientHandle)) ↔
      validateHandle (trim recipientHandle) = false ∨ env.site.world.share.spicedb = false ∨
        env.site.world.share.fails .deleteShare = true := by
  unfold Sharing.deleteShare
  cases validateHandle (trim recipientHandle) with
  | false => exact iff_of_true ⟨turned_error.mpr trivial, .refl s⟩ (by simp)
  | true =>
  cases env.site.world.share.spicedb with
  | false => exact iff_of_true ⟨turned_error.mpr trivial, .refl s⟩ (by simp)
  | true =>
  cases env.site.world.share.fails .deleteShare with
  | true => exact iff_of_true ⟨turned_error.mpr trivial, .refl s⟩ (by simp)
  | false => exact iff_of_false (fun h => turned_ok.mp h.1) (by simp)

theorem lazyRevoke_eq_iff {env : Sharing.Env} {owner viewer : String} {m : Sharing.ShareMeta}
    (hmeta : findMeta st.metadata owner viewer = some m) : Sharing.lazyRevoke st env owner viewer = st ↔
      ¬ (env.fails .deleteShare = false ∧ (owner, viewer) ∈ st.relations ∨
        env.fails .deleteMeta = false) := by
  have hdelete : Sharing.deleteMeta st.metadata owner viewer ≠ st.metadata := by
    intro h
    have hgone : findMeta (Sharing.deleteMeta st.metadata owner viewer) owner viewer = none := by
      rw [Sharing.findMeta_deleteMeta, if_pos rfl]
    rw [h, hmeta] at hgone
    cases hgone
  have hiff : Sharing.lazyRevoke st env owner viewer = st ↔
      (Sharing.lazyRevoke st env owner viewer).relations = st.relations ∧
        (Sharing.lazyRevoke st env owner viewer).metadata = st.metadata := by
    refine ⟨fun h => ⟨congrArg (·.relations) h, congrArg (·.metadata) h⟩, fun h => ?_⟩
    have hrest : Sharing.lazyRevoke st env owner viewer =
        { st with
          relations := (Sharing.lazyRevoke st env owner viewer).relations
          metadata := (Sharing.lazyRevoke st env owner viewer).metadata } := rfl
    rw [hrest, h.1, h.2]
  rw [hiff]
  unfold Sharing.lazyRevoke
  cases env.fails .deleteShare <;> cases env.fails .deleteMeta <;> simp [hdelete, Finset.erase_eq_self]

/-- An expired share goes with its metadata or its relation, as far as the calls succeed. -/
theorem checkViewWithExpiry_fst_eq_iff {env : Sharing.Env} {owner viewer : String} :
    (checkViewWithExpiry st env owner viewer).1 = st ↔ ¬ Revokes st env owner viewer := by
  unfold checkViewWithExpiry
  cases hview : checkView st env owner viewer with
  | none => exact iff_of_true rfl fun h => by cases hview.symm.trans h.view
  | some seen =>
  cases seen with
  | false => exact iff_of_true rfl fun h => by cases hview.symm.trans h.view
  | true =>
  cases hfails : env.fails .findExpiry with
  | true => exact iff_of_true rfl fun h => by cases hfails.symm.trans h.read
  | false =>
  cases hexpires : (findMeta st.metadata owner viewer).bind (·.expiresAt) with
  | none =>
    refine iff_of_true rfl fun h => ?_
    obtain ⟨e, he, -⟩ := h.expired
    cases hexpires.symm.trans he
  | some expiresAt =>
    simp only [Bool.false_eq_true, if_false]
    by_cases hnow : env.now < expiresAt
    · rw [if_pos hnow]
      refine iff_of_true rfl fun h => ?_
      obtain ⟨e, he, hexpired⟩ := h.expired
      obtain rfl := Option.some.inj (hexpires.symm.trans he)
      omega
    · rw [if_neg hnow]
      obtain ⟨m, hmeta, -⟩ := Option.bind_eq_some_iff.mp hexpires
      rw [lazyRevoke_eq_iff hmeta]
      exact not_congr ⟨fun h => ⟨hview, hfails, ⟨expiresAt, hexpires, not_lt.mp hnow⟩, h⟩, fun h => h.taken⟩

/-- The check of a share leaves accounts and events. -/
theorem checkViewWithExpiry_rest (st : Sharing.Stores) (env : Sharing.Env) (owner viewer : String) :
    (checkViewWithExpiry st env owner viewer).1 =
      { st with
        relations := (checkViewWithExpiry st env owner viewer).1.relations
        metadata := (checkViewWithExpiry st env owner viewer).1.metadata } := by
  unfold checkViewWithExpiry
  cases checkView st env owner viewer with
  | none => rfl
  | some seen =>
    cases seen with
    | false => rfl
    | true =>
      simp only
      cases env.fails .findExpiry with
      | true => rfl
      | false =>
        cases (findMeta st.metadata owner viewer).bind (·.expiresAt) with
        | none => rfl
        | some expiresAt =>
          simp only [Bool.false_eq_true, if_false]
          split_ifs <;> rfl

theorem unchanged_shared_iff (hrest : st = { s.site.world.stores with
      relations := st.relations
      metadata := st.metadata }) :
    Unchanged s { s with site := s.site.set { s.site.world with stores := st } } ↔
      st = s.site.world.stores := by
  rw [unchanged_set_iff]
  constructor
  · rintro ⟨hrelations, hmetadata, -⟩
    rw [hrest]
    simp only at hrelations hmetadata
    rw [hrelations, hmetadata]
    rfl
  · rintro rfl
    exact ⟨rfl, rfl, rfl⟩

theorem recordTurns_friendRead {env : Sharing.Env} {handle : String} {allows : ShareScope → Bool}
    {render : Sharing.Stores → Option ShareScope → Sharing.Reply}
    (hrender : ∀ st scope, Turned (ofDirectory (.share (render st scope))) ↔ env.fails .query = true) :
    RecordTurns s (s.site.shared (Sharing.friendRead s.site.world.stores env auth handle allows render)) ↔
      ReadTurnedAway s.site.world.stores env auth.preferredUsername handle allows := by
  unfold Sharing.friendRead ReadTurnedAway
  cases env.spicedb with
  | false => exact iff_of_true ⟨turned_error.mpr trivial, .refl s⟩ (Or.inl rfl)
  | true =>
    simp only [Bool.not_true, Bool.true_eq_false, Bool.false_eq_true, if_false, false_or]
    rw [← checkViewWithExpiry_fst_eq_iff]
    have hrest := checkViewWithExpiry_rest s.site.world.stores env handle auth.preferredUsername
    generalize checkViewWithExpiry s.site.world.stores env handle auth.preferredUsername = r at hrest ⊢
    obtain ⟨st, check⟩ := r
    have hchanged : Unchanged s { s with site := s.site.set { s.site.world with stores := st } } ↔
        st = s.site.world.stores := unchanged_shared_iff hrest
    have hturns : ∀ reply, RecordTurns s (s.site.shared (st, reply)) ↔
        st = s.site.world.stores ∧ Turned (ofDirectory (.share reply)) := fun _ =>
      and_comm.trans (and_congr_left' hchanged)
    rw [apply_ite (RecordTurns s <| s.site.shared ·), hturns, hturns, turned_renderOr404, hrender]
    by_cases hst : st = s.site.world.stores
    · subst hst
      by_cases hscope : (scopeOf s.site.world.stores env handle auth.preferredUsername).any (!allows ·) = true
      · simp [hscope]
      · simp [hscope]
    · simp [hst]

theorem recordTurns_friendSummary {handle : String} :
    RecordTurns s (s.site.shared (Sharing.friendSummary s.site.world.stores
        (OwnRecord.viewEnv s.site env.site auth handle) auth handle)) ↔
      validateHandle handle = false ∨
        ReadTurnedAway s.site.world.stores (OwnRecord.viewEnv s.site env.site auth handle)
          auth.preferredUsername handle scopeAllowsAggregates := by
  unfold Sharing.friendSummary
  cases validateHandle handle with
  | false => exact iff_of_true ⟨turned_error.mpr trivial, .refl s⟩ (Or.inl rfl)
  | true =>
    simp only [Bool.not_true, Bool.true_eq_false, Bool.false_eq_true, if_false, false_or]
    exact recordTurns_friendRead fun _ _ => turned_renderSummaryScoped

theorem recordTurns_friendTimeline {handle : String} {days : Option ℕ} :
    RecordTurns s (s.site.shared (Sharing.friendTimeline s.site.world.stores
        (OwnRecord.viewEnv s.site env.site auth handle) auth handle days)) ↔
      validateHandle handle = false ∨ Queries.resolveTimelineDays days = none ∨
        ReadTurnedAway s.site.world.stores (OwnRecord.viewEnv s.site env.site auth handle)
          auth.preferredUsername handle scopeAllowsTimeline := by
  unfold Sharing.friendTimeline
  cases validateHandle handle with
  | false => exact iff_of_true ⟨turned_error.mpr trivial, .refl s⟩ (Or.inl rfl)
  | true =>
    simp only [Bool.not_true, Bool.true_eq_false, Bool.false_eq_true, if_false, false_or]
    cases Queries.resolveTimelineDays days with
    | none => exact iff_of_true ⟨turned_error.mpr trivial, .refl s⟩ (Or.inl rfl)
    | some days =>
      simp only [reduceCtorEq, false_or]
      exact recordTurns_friendRead fun _ _ => turned_renderTimelineScoped

theorem turnsAway_record {req : OwnRecord.Request} :
    TurnsAway s (record s env auth req) ↔ RecordTurnedAway auth s.site env.site req := by
  rw [turnsAway_record_iff]
  cases req with
  | deleteAccount confirmHandle => exact recordTurns_deleteAccount
  | ingest batch => exact recordTurns_ingest
  | listEvents p => exact recordTurns_read.trans turned_listEvents
  | timeline days => exact recordTurns_read.trans turned_timeline
  | summary => exact recordTurns_read.trans turned_summary
  | readRows keep => exact recordTurns_read.trans turned_readRows
  | hideEvent seq => exact recordTurns_toggleHidden
  | unhideEvent seq => exact recordTurns_toggleHidden
  | setVisibility isPublic => exact recordTurns_setVisibility
  | getVisibility => exact recordTurns_read.trans turned_getVisibility
  | addShare req => exact recordTurns_addShare
  | deleteShare recipientHandle => exact recordTurns_deleteShare
  | listShares => exact recordTurns_read.trans turned_listShares
  | listSharedWithMe => exact recordTurns_read.trans turned_listSharedWithMe
  | shareWithOrg orgSlug => exact recordTurns_shareWithOrg
  | unshareWithOrg slug => exact recordTurns_unshareWithOrg
  | previewSummary scope => exact recordTurns_read.trans turned_previewSummary
  | previewTimeline days scope => exact recordTurns_read.trans turned_previewTimeline
  | friendSummary handle => exact recordTurns_friendSummary
  | friendTimeline handle days => exact recordTurns_friendTimeline

end Record

end Handlers

end StarStats.Server.Routes
