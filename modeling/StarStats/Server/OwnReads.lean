import StarStats.Server.OwnRecord

/-! # What a request is answered from

The answer to a request is made from the accounts, and from what lies under the handle of its record: in two
stores that have that in common it is the same (`answer_handler`). A read of a record that nothing opens
to the reader is answered without it (`friendRead_closed`). -/

namespace StarStats.Server.OwnRecord

open StarStats.Lib.Text StarStats.Lib.Tables StarStats.Core.Wire
open StarStats.Server.Auth StarStats.Server.Accounts StarStats.Server.Ingest StarStats.Server.Repo
open StarStats.Server.Queries StarStats.Server.Sharing StarStats.Server.Spicedb StarStats.Server.Orgs
open StarStats.Server.SecondFactor (Claims)

/-- All but the data of the records is the same. -/
structure SameRest (s s' : Site) : Prop where
  users : s'.users = s.users
  devices : s'.devices = s.devices
  tokens : s'.tokens = s.tokens
  orgs : s'.orgs = s.orgs
  owners : s'.rel.owners = s.rel.owners
  roles : s'.rel.roles = s.rel.roles

variable {keep : String → Bool} {s s' : Site} {env : SiteEnv} {auth : AuthenticatedUser} {handle : String}

theorem SameRest.authenticate (h : SameRest s s') (c : Claims) :
    OwnRecord.authenticate s' c = OwnRecord.authenticate s c := by
  unfold OwnRecord.authenticate Site.isDeviceActive
  rw [h.tokens, h.devices]

theorem SameData.symm (h : SameData keep s s') : SameData keep s' s :=
  ⟨h.events.symm, fun x hx => (h.shares.publicView x hx).symm,
    fun x v hx => (h.shares.relations x v hx).symm, fun x v hx => (h.shares.metadata x v hx).symm,
    fun x slug hx => (h.shares.shareWithOrg x slug hx).symm⟩

theorem On.self (h : On keep handle) : keep handle = true := h handle rfl

/-! ### Reads of events -/

/-- A query for rows of kept handles finds the same. -/
theorem SameData.filter_rows (h : SameData keep s s') {p : EventRow → Bool}
    (hp : ∀ r, p r = true → keep r.event.claimedHandle = true) : s'.rows.filter p = s.rows.filter p := by
  have hkept : ∀ l : List EventRow, l.filter p = (l.filter (keep ·.event.claimedHandle)).filter p := by
    intro l
    rw [List.filter_filter]
    refine List.filter_congr fun r _ => ?_
    by_cases hr : p r = true
    · rw [hr, hp r hr]
      rfl
    · rw [Bool.not_eq_true] at hr
      rw [hr]
      rfl
  rw [hkept, ← h.events, ← hkept]

theorem SameData.filter_handle (h : SameData keep s s') (hkeep : keep handle = true)
    {p : EventRow → Bool} (hp : ∀ r, p r = true → r.event.claimedHandle = handle) :
    s'.rows.filter p = s.rows.filter p :=
  h.filter_rows fun r hr => hp r hr ▸ hkeep

theorem listEvents_same (h : SameData keep s s') (hon : On keep auth.preferredUsername) (p : ListParams) :
    listEvents s' env auth p = listEvents s env auth p := by
  have hrows : s'.rows.filter (p.filters.keeps auth.preferredUsername) =
      s.rows.filter (p.filters.keeps auth.preferredUsername) := by
    refine h.filter_handle hon.self fun r hr => ?_
    simp only [EventFilters.keeps, Bool.and_eq_true, decide_eq_true_eq] at hr
    exact hr.1.1.1
  unfold listEvents Queries.listEvents listFiltered
  rw [hrows]

theorem timeline_same (h : SameData keep s s') (hon : On keep auth.preferredUsername) (days : Option ℕ) :
    timeline s' env auth days = timeline s env auth days := by
  have hrows : ∀ n : ℕ, timelineForHandle s'.rows auth.preferredUsername env.now n =
      timelineForHandle s.rows auth.preferredUsername env.now n := by
    intro n
    unfold timelineForHandle
    rw [h.filter_handle hon.self fun r hr => by simpa using (Bool.and_eq_true_iff.mp hr).1]
  unfold timeline
  simp only [hrows]

theorem summary_same (h : SameData keep s s') (hon : On keep auth.preferredUsername) :
    summary s' env auth = summary s env auth := by
  unfold summary Queries.summary summaryForHandle
  rw [h.filter_handle hon.self fun r hr => by simpa using hr]

theorem readRows_same (h : SameData keep s s') (hon : On keep auth.preferredUsername)
    (p : EventRow → Bool) : readRows s' env auth p = readRows s env auth p := by
  unfold readRows
  rw [h.filter_handle hon.self fun r hr => by simpa using (Bool.and_eq_true_iff.mp hr).1]

theorem shared_handle {r : EventRow} (h : shared handle r = true) : r.event.claimedHandle = handle := by
  unfold shared at h
  simpa using (Bool.and_eq_true_iff.mp h).1

theorem renderSummaryScoped_same {st st' : Stores} {e : Env}
    (h : ∀ p : EventRow → Bool, (∀ r, p r = true → r.event.claimedHandle = handle) →
      st'.events.filter p = st.events.filter p) (scope : Option ShareScope) :
    renderSummaryScoped st' e handle scope = renderSummaryScoped st e handle scope := by
  unfold renderSummaryScoped summaryForHandleShared
  rw [h (shared handle) fun r hr => shared_handle hr]

theorem renderTimelineScoped_same {st st' : Stores} {e : Env}
    (h : ∀ p : EventRow → Bool, (∀ r, p r = true → r.event.claimedHandle = handle) →
      st'.events.filter p = st.events.filter p) (days : ℕ) (scope : Option ShareScope) :
    renderTimelineScoped st' e handle days scope = renderTimelineScoped st e handle days scope := by
  have hrows : ∀ allow deny : Option (List String),
      timelineSharedFiltered st'.events handle e.now days allow deny =
        timelineSharedFiltered st.events handle e.now days allow deny := by
    intro allow deny
    unfold timelineSharedFiltered timelineShared
    split
    · rw [h _ fun r hr => shared_handle (Bool.and_eq_true_iff.mp hr).1]
    · rw [h _ fun r hr => ?_]
      simp only [Bool.and_eq_true] at hr
      exact shared_handle hr.1.1.1
  unfold renderTimelineScoped
  rw [hrows]

theorem toggleHidden_same (h : SameData keep s s') (hon : On keep auth.preferredUsername) (seq : ℤ)
    (hide : Bool) : (toggleHidden s' env auth seq hide).2 = (toggleHidden s env auth seq hide).2 := by
  have hfind : ∀ t : Site, (setEventHidden t env.now auth.preferredUsername seq hide).2 =
      (t.rows.filter fun r => r.event.claimedHandle = auth.preferredUsername && (r.seq : ℤ) = seq &&
        r.hiddenAt.isNone == hide).head?.isSome := by
    intro t
    rw [List.head?_filter]
    unfold setEventHidden
    split <;> rename_i heq <;> rw [heq] <;> rfl
  have hsame := h.filter_handle (p := fun r => r.event.claimedHandle = auth.preferredUsername &&
    (r.seq : ℤ) = seq && r.hiddenAt.isNone == hide) hon.self fun r hr => by
      simp only [Bool.and_eq_true, decide_eq_true_eq] at hr
      exact hr.1.1
  unfold toggleHidden
  split_ifs
  · rfl
  · show Answer.changed _ = Answer.changed _
    rw [hfind, hfind, hsame]

/-! ### The counts of a batch -/

/-- Two tallies with the same counts, over tables that have the same keys under a handle. -/
structure SameTally (claimedHandle : String) (t t' : Tally) : Prop where
  keys : ∀ k, (claimedHandle, k) ∈ t'.events.keys ↔ (claimedHandle, k) ∈ t.events.keys
  accepted : t'.accepted = t.accepted
  duplicate : t'.duplicate = t.duplicate
  rejected : t'.rejected = t.rejected

section Batch
variable {rfc3339 : String → Option ℤ} {claimedHandle : String}

theorem SameTally.ingestOne {t t' : Tally} (h : SameTally claimedHandle t t') (fault : Bool)
    (env : EventEnvelope) : SameTally claimedHandle
      (Ingest.ingestOne rfc3339 claimedHandle fault t env)
      (Ingest.ingestOne rfc3339 claimedHandle fault t' env) := by
  have hkey : (fromEnvelope rfc3339 env claimedHandle).key ∈ t'.events.keys ↔
      (fromEnvelope rfc3339 env claimedHandle).key ∈ t.events.keys := h.keys env.idempotencyKey
  cases fault with
  | true => exact ⟨h.keys, h.accepted, h.duplicate, congrArg (· + 1) h.rejected⟩
  | false =>
    by_cases hmem : (fromEnvelope rfc3339 env claimedHandle).key ∈ t.events.keys
    · rw [ingestOne_of_mem hmem, ingestOne_of_mem (hkey.mpr hmem)]
      exact ⟨h.keys, h.accepted, congrArg (· + 1) h.duplicate, h.rejected⟩
    · rw [ingestOne_of_not_mem hmem, ingestOne_of_not_mem fun hmem' => hmem (hkey.mp hmem')]
      refine ⟨fun k => ?_, congrArg (· + 1) h.accepted, h.duplicate, h.rejected⟩
      rw [Table.mem_keys_insert, Table.mem_keys_insert, h.keys]

/-- The counts depend on the keys under the handle of the batch. -/
theorem SameTally.ingestAll {fault : ℕ → Bool} : ∀ {t t' : Tally} (_ : SameTally claimedHandle t t')
    (i : ℕ) (envs : List EventEnvelope), SameTally claimedHandle
      (Ingest.ingestAll rfc3339 claimedHandle fault i t envs)
      (Ingest.ingestAll rfc3339 claimedHandle fault i t' envs)
  | _, _, h, _, [] => h
  | _, _, h, i, env :: envs => (h.ingestOne (fault i) env).ingestAll (i + 1) envs

end Batch

theorem SameData.mem_keys (h : SameData keep s s') (hkeep : keep handle = true) (k : String) :
    (handle, k) ∈ s'.srv.events.keys ↔ (handle, k) ∈ s.srv.events.keys := by
  have hrows : ∀ t : Site, (handle, k) ∈ t.srv.events.keys ↔
      ∃ r ∈ t.rows.filter (keep ·.event.claimedHandle), r.event.key = (handle, k) := by
    intro t
    rw [Table.mem_keys]
    constructor
    · rintro ⟨x, hx, hkey⟩
      have hname : x.2.claimedHandle = handle := congrArg Prod.fst hkey
      exact ⟨_, List.mem_filter.mpr ⟨List.mem_map_of_mem hx, by simp [hname, hkeep]⟩, hkey⟩
    · rintro ⟨r, hr, hkey⟩
      obtain ⟨x, hx, rfl⟩ := List.mem_map.mp (List.mem_filter.mp hr).1
      exact ⟨x, hx, hkey⟩
  rw [hrows, hrows, h.events]

theorem ingest_same (h : SameData keep s s') (hon : On keep auth.preferredUsername) (batch : IngestBatch) :
    (ingest s' env auth batch).2 = (ingest s env auth batch).2 := by
  cases hrefusal : refusal auth batch with
  | some reply => simp only [ingest, Ingest.handle, hrefusal]
  | none =>
    have hkeep := hon batch.claimedHandle (lower_of_refusal hrefusal)
    have hstart : SameTally batch.claimedHandle ⟨s.srv.events, 0, 0, 0⟩ ⟨s'.srv.events, 0, 0, 0⟩ :=
      ⟨h.mem_keys hkeep, rfl, rfl, rfl⟩
    have hend := @SameTally.ingestAll env.parseRfc3339 batch.claimedHandle env.insertFails _ _ hstart 0
      (backfilled batch)
    simp only [ingest, Ingest.handle, hrefusal, tally, hend.accepted, hend.duplicate, hend.rejected]

/-! ### Reads of shares -/

theorem listShares_same (h : SameData keep s s') (hon : On keep auth.preferredUsername) :
    listShares s' env auth = listShares s env auth := by
  have hentries : ∀ t t' : Site, SameData keep t t' →
      ((t.relations.filter (·.1 = auth.preferredUsername)).image fun r => shareEntry t env r.1 r.2) ⊆
        (t'.relations.filter (·.1 = auth.preferredUsername)).image fun r => shareEntry t' env r.1 r.2 := by
    intro t t' hsame e he
    obtain ⟨⟨owner, recipient⟩, hr, rfl⟩ := Finset.mem_image.mp he
    obtain ⟨hmem, howner⟩ := Finset.mem_filter.mp hr
    have hkeep : keep owner = true := hon owner (congrArg lower howner)
    refine Finset.mem_image.mpr ⟨(owner, recipient),
      Finset.mem_filter.mpr ⟨(hsame.shares.relations owner recipient hkeep).mp hmem, howner⟩, ?_⟩
    have hmeta : findMeta t.metadata owner recipient = findMeta t'.metadata owner recipient :=
      hsame.shares.metadata owner recipient hkeep
    simp only [shareEntry, hmeta]
  have hslugs : ∀ t t' : Site, SameData keep t t' →
      ((t.rel.shareWithOrg.filter (·.1 = auth.preferredUsername)).image (·.2)) ⊆
        (t'.rel.shareWithOrg.filter (·.1 = auth.preferredUsername)).image (·.2) := by
    intro t t' hsame slug hslug
    obtain ⟨⟨owner, slug⟩, hr, rfl⟩ := Finset.mem_image.mp hslug
    obtain ⟨hmem, howner⟩ := Finset.mem_filter.mp hr
    have hkeep : keep owner = true := hon owner (congrArg lower howner)
    exact Finset.mem_image.mpr ⟨(owner, slug),
      Finset.mem_filter.mpr ⟨(hsame.shares.shareWithOrg owner slug hkeep).mp hmem, howner⟩, rfl⟩
  unfold listShares
  rw [(hentries s' s h.symm).antisymm (hentries s s' h), (hslugs s' s h.symm).antisymm (hslugs s s' h)]

theorem getVisibility_same (h : SameData keep s s') (hon : On keep auth.preferredUsername) :
    getVisibility s' env auth = getVisibility s env auth := by
  have hpublic : decide (auth.preferredUsername ∈ s'.rel.publicView) =
      decide (auth.preferredUsername ∈ s.rel.publicView) :=
    decide_eq_decide.mpr (h.shares.publicView auth.preferredUsername hon.self).symm
  unfold getVisibility
  rw [hpublic]

section Friend
variable {st st' : Stores} {e : Env} {viewer : String}

/-- The check of a view is about the share of the two handles. -/
theorem checkViewWithExpiry_same (hrel : (handle, viewer) ∈ st'.relations ↔ (handle, viewer) ∈ st.relations)
    (hmeta : findMeta st'.metadata handle viewer = findMeta st.metadata handle viewer) :
    (checkViewWithExpiry st' e handle viewer).2 = (checkViewWithExpiry st e handle viewer).2 ∧
      findMeta (checkViewWithExpiry st' e handle viewer).1.metadata handle viewer =
        findMeta (checkViewWithExpiry st e handle viewer).1.metadata handle viewer := by
  have hview : checkView st' e handle viewer = checkView st e handle viewer := by
    unfold checkView
    rw [decide_eq_decide.mpr hrel]
  have hrevoked : findMeta (lazyRevoke st' e handle viewer).metadata handle viewer =
      findMeta (lazyRevoke st e handle viewer).metadata handle viewer := by
    unfold lazyRevoke
    simp only
    split_ifs
    · exact hmeta
    · rw [findMeta_deleteMeta, findMeta_deleteMeta, if_pos rfl, if_pos rfl]
  unfold checkViewWithExpiry
  rw [hview, hmeta]
  split
  · exact ⟨rfl, hmeta⟩
  · exact ⟨rfl, hmeta⟩
  · split_ifs
    · exact ⟨rfl, hmeta⟩
    · split
      · exact ⟨rfl, hmeta⟩
      · split_ifs
        · exact ⟨rfl, hmeta⟩
        · exact ⟨rfl, hrevoked⟩

theorem events_checkViewWithExpiry : (checkViewWithExpiry st e handle viewer).1.events = st.events := by
  unfold checkViewWithExpiry
  split
  · rfl
  · rfl
  · split_ifs
    · rfl
    · split
      · rfl
      · split_ifs <;> rfl

theorem friendRead_same
    (hrel : (handle, auth.preferredUsername) ∈ st'.relations ↔
      (handle, auth.preferredUsername) ∈ st.relations)
    (hmeta : findMeta st'.metadata handle auth.preferredUsername =
      findMeta st.metadata handle auth.preferredUsername)
    (allows : ShareScope → Bool) {render : Stores → Option ShareScope → Sharing.Reply}
    (hrender : ∀ t t' scope, t.events = st.events → t'.events = st'.events →
      render t' scope = render t scope) :
    (friendRead st' e auth handle allows render).2 = (friendRead st e auth handle allows render).2 := by
  obtain ⟨hcheck, hfound⟩ := checkViewWithExpiry_same (e := e) hrel hmeta
  have hscope : scopeOf (checkViewWithExpiry st' e handle auth.preferredUsername).1 e handle
      auth.preferredUsername = scopeOf (checkViewWithExpiry st e handle auth.preferredUsername).1 e
      handle auth.preferredUsername := by
    unfold scopeOf
    rw [hfound]
  unfold friendRead
  simp only
  rw [hcheck, hscope, hrender (checkViewWithExpiry st e handle auth.preferredUsername).1
    (checkViewWithExpiry st' e handle auth.preferredUsername).1 _ events_checkViewWithExpiry
    events_checkViewWithExpiry]
  split_ifs <;> rfl

/-- **A record that nothing opens to the reader** is not read, and is left alone. -/
theorem friendRead_closed (hrel : (handle, auth.preferredUsername) ∉ st.relations)
    (hmeta : findMeta st.metadata handle auth.preferredUsername = none) (hother : e.otherAccess = false)
    (allows : ShareScope → Bool) (render : Stores → Option ShareScope → Sharing.Reply) :
    friendRead st e auth handle allows render =
      (st, if !e.spicedb || e.fails .checkPermission then err 503 "spicedb_unavailable"
        else .notFound) := by
  have hscope : scopeOf st e handle auth.preferredUsername = none := by
    unfold scopeOf
    rw [hmeta]
    split_ifs <;> rfl
  unfold friendRead checkViewWithExpiry checkView
  cases hspice : e.spicedb with
  | false => rfl
  | true =>
    cases hfails : e.fails .checkPermission with
    | true => simp [hscope, renderOr404]
    | false => simp [hscope, renderOr404, hrel, hother]

end Friend

/-! ### Answers -/

/-- Nothing of the records that are left out is open to the viewer. -/
structure Closed (keep : String → Bool) (s : Site) (viewer : String) : Prop where
  relations : ∀ h, keep h = false → (h, viewer) ∉ s.relations
  metadata : ∀ h, keep h = false → findMeta s.metadata h viewer = none
  otherView : ∀ h, keep h = false → s.rel.otherView h viewer = false

theorem listSharedWithMe_same (h : SameData keep s s') (hclosed : Closed keep s auth.preferredUsername)
    (hclosed' : Closed keep s' auth.preferredUsername) :
    listSharedWithMe s' env auth = listSharedWithMe s env auth := by
  have hentries : ∀ t t' : Site, SameData keep t t' → Closed keep t auth.preferredUsername →
      ((t.relations.filter (·.2 = auth.preferredUsername)).image fun r =>
          sharedWithMeEntry t env r.1 r.2) ⊆
        (t'.relations.filter (·.2 = auth.preferredUsername)).image fun r =>
          sharedWithMeEntry t' env r.1 r.2 := by
    intro t t' hsame hclosed e he
    obtain ⟨⟨owner, recipient⟩, hr, rfl⟩ := Finset.mem_image.mp he
    obtain ⟨hmem, hrecipient⟩ := Finset.mem_filter.mp hr
    have hme : recipient = auth.preferredUsername := hrecipient
    subst hme
    have hkeep : keep owner = true := by
      by_contra hno
      exact hclosed.relations owner (Bool.not_eq_true _ ▸ hno) hmem
    refine Finset.mem_image.mpr ⟨(owner, auth.preferredUsername),
      Finset.mem_filter.mpr ⟨(hsame.shares.relations owner _ hkeep).mp hmem, rfl⟩, ?_⟩
    have hmeta : findMeta t.metadata owner auth.preferredUsername =
        findMeta t'.metadata owner auth.preferredUsername := hsame.shares.metadata owner _ hkeep
    simp only [sharedWithMeEntry, hmeta]
  unfold listSharedWithMe
  rw [(hentries s' s h.symm hclosed').antisymm (hentries s s' h hclosed)]

theorem previewSummary_same (h : SameData keep s s') (hon : On keep auth.preferredUsername)
    {fromStr : String → Option ShareScope} {e : Env} (scope : Option String) :
    previewSummary fromStr s'.world.stores e auth scope =
      previewSummary fromStr s.world.stores e auth scope := by
  have hrender := fun scope => @renderSummaryScoped_same auth.preferredUsername s.world.stores
    s'.world.stores e (fun _ hp => h.filter_handle hon.self hp) scope
  unfold previewSummary
  simp only [hrender]

theorem previewTimeline_same (h : SameData keep s s') (hon : On keep auth.preferredUsername)
    {fromStr : String → Option ShareScope} {e : Env} (days : Option ℕ) (scope : Option String) :
    previewTimeline fromStr s'.world.stores e auth days scope =
      previewTimeline fromStr s.world.stores e auth days scope := by
  have hrender := fun days scope => @renderTimelineScoped_same auth.preferredUsername s.world.stores
    s'.world.stores e (fun _ hp => h.filter_handle hon.self hp) days scope
  unfold previewTimeline
  simp only [hrender]

/-! ### Answers that are made from the accounts -/

section Accounts
variable {w w' : World} {st st' : Stores} {e : Env} {worldEnv : WorldEnv}

theorem requireRsiVerified_same (h : st'.users = st.users) :
    requireRsiVerified st' e auth = requireRsiVerified st e auth := by
  unfold requireRsiVerified
  rw [h]

theorem addShare_same (h : st'.users = st.users) (req : ShareRequest) :
    (addShare st' e auth req).2 = (addShare st e auth req).2 := by
  have hgrantee : grantee st' e auth req = grantee st e auth req := by
    unfold grantee grantChecks sharesPaused
    rw [requireRsiVerified_same h, h]
  unfold addShare
  rw [hgrantee]
  cases grantee st e auth req <;> rfl

theorem deleteShare_same (recipientHandle : String) :
    (deleteShare st' e auth recipientHandle).2 = (deleteShare st e auth recipientHandle).2 := by
  unfold deleteShare
  split_ifs <;> rfl

theorem setVisibility_same (h : w'.stores.users = w.stores.users) (isPublic : Bool) :
    (Directory.setVisibility w' worldEnv auth isPublic).2 =
      (Directory.setVisibility w worldEnv auth isPublic).2 := by
  unfold Directory.setVisibility
  rw [requireRsiVerified_same h]
  cases requireRsiVerified w.stores worldEnv.share auth with
  | some reply => rfl
  | none =>
    simp only
    split_ifs <;> rfl

theorem shareWithOrg_same (h : w'.stores.users = w.stores.users) (horgs : w'.orgs = w.orgs)
    (orgSlug : String) : (Directory.shareWithOrg w' worldEnv auth orgSlug).2 =
      (Directory.shareWithOrg w worldEnv auth orgSlug).2 := by
  unfold Directory.shareWithOrg
  rw [requireRsiVerified_same h, horgs]
  cases requireRsiVerified w.stores worldEnv.share auth with
  | some reply => rfl
  | none =>
    cases findBySlug w.orgs (trim orgSlug) with
    | none =>
      simp only
      split_ifs <;> rfl
    | some org =>
      simp only
      split_ifs <;> rfl

theorem unshareWithOrg_same (slug : String) : (Directory.unshareWithOrg w' worldEnv auth slug).2 =
    (Directory.unshareWithOrg w worldEnv auth slug).2 := by
  unfold Directory.unshareWithOrg
  split_ifs <;> rfl

end Accounts

/-- The name that a deletion draws is none that an account or an event has. -/
def Site.Unused (s : Site) (env : SiteEnv) : Prop :=
  Erasure.Fresh ⟨s.users, s.srv⟩ (Erasure.pseudonymOf env.world.uuid)

/-- The events under a kept handle, in whatever case. -/
theorem SameData.oneSpelling (h : SameData keep s s') (hon : On keep handle) :
    Erasure.OneSpelling s'.srv.events handle ↔ Erasure.OneSpelling s.srv.events handle := by
  have hsub : ∀ t t' : Site, SameData keep t t' → ∀ e ∈ t.srv.events.contents,
      lower e.claimedHandle = lower handle → e ∈ t'.srv.events.contents := by
    intro t t' hsame e he hname
    obtain ⟨x, hx, rfl⟩ := Table.mem_contents.mp he
    have hrow : (⟨x.1, x.2, t.hiddenAt x.1⟩ : EventRow) ∈ t.rows.filter (keep ·.event.claimedHandle) :=
      List.mem_filter.mpr ⟨List.mem_map_of_mem hx, hon _ hname⟩
    rw [hsame.events] at hrow
    obtain ⟨y, hy, hrow'⟩ := List.mem_map.mp (List.mem_filter.mp hrow).1
    have hevent : y.2 = x.2 := congrArg EventRow.event hrow'
    exact Table.mem_contents.mpr ⟨y, hy, hevent⟩
  constructor
  · intro hone e he e' he' hname hname'
    exact hone e (hsub s s' h e he hname) e' (hsub s s' h e' he' hname') hname hname'
  · intro hone e he e' he' hname hname'
    exact hone e (hsub s' s h.symm e he hname) e' (hsub s' s h.symm e' he' hname') hname hname'

theorem deleteAccount_same (hdata : SameData keep s s') (husers : s'.users = s.users)
    (hon : ∀ u, findById s.users auth.sub = some u → On keep u.claimedHandle)
    (hunused : s.Unused env) (hunused' : s'.Unused env) (confirmHandle : String) :
    (deleteAccount s' env auth confirmHandle).2 = (deleteAccount s env auth confirmHandle).2 := by
  unfold deleteAccount
  rw [husers]
  cases hfind : findById s.users auth.sub with
  | none =>
    simp only
    split_ifs <;> rfl
  | some u =>
    have hone := hdata.oneSpelling (hon u hfind)
    have hsome := @Erasure.exists_pseudonymise _ _ u.claimedHandle hunused.events
    have hsome' := @Erasure.exists_pseudonymise _ _ u.claimedHandle hunused'.events
    simp only
    split_ifs
    · rfl
    · rfl
    · rfl
    · rfl
    · rfl
    · cases hp : Erasure.pseudonymise s.srv.events (Erasure.pseudonymOf env.world.uuid)
        u.claimedHandle with
      | none =>
        have hp' : Erasure.pseudonymise s'.srv.events (Erasure.pseudonymOf env.world.uuid)
            u.claimedHandle = none := by
          by_contra hno
          obtain ⟨events, hevents⟩ := hsome.mpr (hone.mp (hsome'.mp (Option.ne_none_iff_exists'.mp hno)))
          rw [hp] at hevents
          cases hevents
        rw [hp']
      | some events =>
        obtain ⟨events', hp'⟩ := hsome'.mpr (hone.mpr (hsome.mp ⟨events, hp⟩))
        rw [hp']

/-! ### Any request -/

/-- The request asks for records of others that are left out. -/
def Request.Asks (keep : String → Bool) : Request → Prop
  | .friendSummary handle | .friendTimeline handle _ => keep handle = false
  | .listSharedWithMe => True
  | _ => False

/-- A read of another's record depends on that record, or on nothing where it is closed. -/
theorem friend_same (hrest : SameRest s s') (hdata : SameData keep s s')
    (hclosed : keep handle = false → Closed keep s auth.preferredUsername ∧
      Closed keep s' auth.preferredUsername)
    (allows : ShareScope → Bool) {render : Stores → Option ShareScope → Sharing.Reply}
    (hrender : keep handle = true → ∀ t t' scope, t.events = s.rows → t'.events = s'.rows →
      render t' scope = render t scope) :
    (friendRead s'.world.stores (viewEnv s' env auth handle) auth handle allows render).2 =
      (friendRead s.world.stores (viewEnv s env auth handle) auth handle allows render).2 := by
  cases hkeep : keep handle with
  | true =>
    have henv : viewEnv s' env auth handle = viewEnv s env auth handle := by
      have hother : s'.rel.otherView handle auth.preferredUsername =
          s.rel.otherView handle auth.preferredUsername := by
        have hpublic : handle ∈ s.rel.publicView ↔ handle ∈ s'.rel.publicView :=
          hdata.shares.publicView handle hkeep
        have horg : ∀ slug, (handle, slug) ∈ s.rel.shareWithOrg ↔ (handle, slug) ∈ s'.rel.shareWithOrg :=
          fun slug => hdata.shares.shareWithOrg handle slug hkeep
        rw [Bool.eq_iff_iff, Relations.otherView_iff, Relations.otherView_iff, hrest.owners,
          hrest.roles, hpublic]
        simp only [horg]
      unfold viewEnv
      rw [hother]
    rw [henv]
    exact friendRead_same (hdata.shares.relations handle _ hkeep).symm
      (hdata.shares.metadata handle _ hkeep).symm allows (hrender hkeep)
  | false =>
    obtain ⟨hc, hc'⟩ := hclosed hkeep
    have hread := @friendRead_closed auth handle s.world.stores (viewEnv s env auth handle)
      (hc.relations handle hkeep) (hc.metadata handle hkeep) (hc.otherView handle hkeep) allows render
    have hread' := @friendRead_closed auth handle s'.world.stores (viewEnv s' env auth handle)
      (hc'.relations handle hkeep) (hc'.metadata handle hkeep) (hc'.otherView handle hkeep) allows render
    exact (congrArg Prod.snd hread').trans (congrArg Prod.snd hread).symm

/-- **A request is answered from the data of the handles that are kept**: those of its own record and of
the account that it may delete, and of others that it asks for, unless nothing of them is open to it. -/
theorem answer_handler {req : Request} (hrest : SameRest s s') (hdata : SameData keep s s')
    (hon : On keep auth.preferredUsername)
    (hdelete : ∀ confirmHandle, req = .deleteAccount confirmHandle →
      (∀ u, findById s.users auth.sub = some u → On keep u.claimedHandle) ∧ s.Unused env ∧
        s'.Unused env)
    (hasks : req.Asks keep → Closed keep s auth.preferredUsername ∧
      Closed keep s' auth.preferredUsername) :
    (handler s' env auth req).2 = (handler s env auth req).2 := by
  have husers : s'.world.stores.users = s.world.stores.users := hrest.users
  cases req with
  | deleteAccount confirmHandle =>
    obtain ⟨hown, hunused, hunused'⟩ := hdelete confirmHandle rfl
    exact deleteAccount_same hdata hrest.users hown hunused hunused' confirmHandle
  | ingest batch => exact ingest_same hdata hon batch
  | listEvents p => exact listEvents_same hdata hon p
  | timeline days => exact timeline_same hdata hon days
  | summary => exact summary_same hdata hon
  | readRows p => exact readRows_same hdata hon p
  | hideEvent seq => exact toggleHidden_same hdata hon seq true
  | unhideEvent seq => exact toggleHidden_same hdata hon seq false
  | setVisibility isPublic => exact congrArg Answer.directory (setVisibility_same husers isPublic)
  | getVisibility => exact getVisibility_same hdata hon
  | addShare req => exact congrArg (Answer.directory ∘ .share) (addShare_same husers req)
  | deleteShare recipientHandle =>
    exact congrArg (Answer.directory ∘ .share) (deleteShare_same recipientHandle)
  | listShares => exact listShares_same hdata hon
  | listSharedWithMe =>
    obtain ⟨hclosed, hclosed'⟩ := hasks trivial
    exact listSharedWithMe_same hdata hclosed hclosed'
  | shareWithOrg orgSlug =>
    exact congrArg Answer.directory (shareWithOrg_same husers hrest.orgs orgSlug)
  | unshareWithOrg slug => exact congrArg Answer.directory (unshareWithOrg_same slug)
  | previewSummary scope =>
    exact congrArg (Answer.directory ∘ .share) (previewSummary_same hdata hon scope)
  | previewTimeline days scope =>
    exact congrArg (Answer.directory ∘ .share) (previewTimeline_same hdata hon days scope)
  | friendSummary handle =>
    refine congrArg (Answer.directory ∘ .share) ?_
    unfold friendSummary
    split_ifs
    · rfl
    · refine friend_same hrest hdata hasks _ fun hkeep t t' scope ht ht' => ?_
      refine renderSummaryScoped_same (fun p hp => ?_) scope
      rw [ht, ht']
      exact hdata.filter_handle hkeep hp
  | friendTimeline handle days =>
    refine congrArg (Answer.directory ∘ .share) ?_
    unfold friendTimeline
    split_ifs
    · rfl
    · cases resolveTimelineDays days with
      | none => rfl
      | some days =>
        refine friend_same hrest hdata hasks _ fun hkeep t t' scope ht ht' => ?_
        refine renderTimelineScoped_same (fun p hp => ?_) _ scope
        rw [ht, ht']
        exact hdata.filter_handle hkeep hp

end StarStats.Server.OwnRecord
