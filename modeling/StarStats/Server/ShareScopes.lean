import StarStats.Server.Revocation

/-! # Scopes

What a friend sees of a share with a scope, against what the scope leaves out, and against what its
preview showed.

The timeline keeps to the window of the scope, the summary does not: it tells nothing of what the scope
excludes exactly if there is no window, no summary or nothing to be seen (`nonInterference_iff`). The
preview takes the scope as it is sent, the grant drops a full one with its lists and window: the preview
shows what the friend will see exactly if these make no difference (`previewShows_iff`). -/

namespace StarStats.Server.Sharing

open StarStats.Lib.Text StarStats.Lib.Json StarStats.Lib.Tables
open StarStats.Core.Metadata StarStats.Core.Wire
open StarStats.Server.Auth StarStats.Server.Ingest StarStats.Server.Accounts StarStats.Server.Repo
open StarStats.Server.Queries

/-! ### A share that is in force -/

/-- The owner shares with the viewer, under a scope and until an instant. -/
structure Shared (st : Stores) (owner viewer : String) (scope : Option ShareScope)
    (expiresAt : Option ℤ) : Prop where
  relation : (owner, viewer) ∈ st.relations
  row : ∃ m, findMeta st.metadata owner viewer = some m ∧ m.expiresAt = expiresAt ∧
    m.scope = scope.map ShareScope.toValue
  valid : ∀ s ∈ scope, validateScope s = .ok ()

/-- **A grant is a share with the scope that was asked for**, but for a full one. -/
theorem shared_addShare {st : Stores} {env : Env} {auth : AuthenticatedUser} {req : ShareRequest}
    {viewer : String} (h : (addShare st env auth req).2 = .granted viewer)
    (hupsert : env.fails .upsert = false) :
    Shared (addShare st env auth req).1 auth.preferredUsername viewer (scopeOwned req.scope)
      req.expiresAt := by
  rcases addShare_cases st env auth req with ⟨reply, heq, hne⟩ | ⟨u, hu, heq⟩
  · rw [heq] at h
    exact absurd (congrArg Reply.status h) hne
  · rw [heq] at h ⊢
    obtain rfl := Reply.granted.inj h
    have hmeta : (writeGrant st env auth.preferredUsername u.claimedHandle req).metadata =
        upsertMeta st.metadata (grantMeta auth.preferredUsername u.claimedHandle req) := by
      simp [writeGrant, hupsert]
    have hkey : (grantMeta auth.preferredUsername u.claimedHandle req).key =
        (lower auth.preferredUsername, lower u.claimedHandle) := rfl
    obtain ⟨m, hm, hexp, -, hscope⟩ := @findMeta_upsertMeta_self st.metadata _ _ _ hkey
    refine ⟨Finset.mem_insert_self _ _, ⟨m, by rw [hmeta, hm], hexp, hscope⟩, fun s hs => ?_⟩
    exact (grantee_eq_ok hu).2.2.2.1 s (Option.filter_eq_some_iff.mp hs).1

theorem Shared.withEvents {st : Stores} {owner viewer : String} {scope : Option ShareScope}
    {expiresAt : Option ℤ} (h : Shared st owner viewer scope expiresAt) (evs : List EventRow) :
    Shared { st with events := evs } owner viewer scope expiresAt := ⟨h.relation, h.row, h.valid⟩

/-- Nothing fails when the owner's record is asked for. -/
structure Calm (env : Env) (owner : String) : Prop where
  spicedb : env.spicedb = true
  calm : ∀ c, env.fails c = false
  valid : validateHandle owner = true

/-- The share has not ended. -/
def InForce (env : Env) (expiresAt : Option ℤ) : Prop := ∀ t ∈ expiresAt, env.now < t

section Read
variable {st : Stores} {env : Env} {auth : AuthenticatedUser} {owner : String}
  {scope : Option ShareScope} {expiresAt : Option ℤ}

theorem checkView_shared (h : Shared st owner auth.preferredUsername scope expiresAt)
    (henv : Calm env owner) : checkView st env owner auth.preferredUsername = some true := by
  simp [checkView, henv.calm, h.relation]

theorem friendRead_shared (h : Shared st owner auth.preferredUsername scope expiresAt)
    (henv : Calm env owner) (htime : InForce env expiresAt) (allows : ShareScope → Bool)
    (render : Stores → Option ShareScope → Reply) :
    friendRead st env auth owner allows render =
      (st, if scope.any (!allows ·) then .notFound else render st scope) := by
  obtain ⟨m, hm, hexp, hscope⟩ := h.row
  have hcheck : checkViewWithExpiry st env owner auth.preferredUsername = (st, some true) := by
    unfold checkViewWithExpiry
    rw [checkView_shared h henv, hm, Option.bind_some, hexp]
    simp only [henv.calm, Bool.false_eq_true, if_false]
    cases expiresAt with
    | none => rfl
    | some t => exact if_pos (htime t rfl)
  have hstored : scopeOf st env owner auth.preferredUsername = scope := by
    unfold scopeOf
    rw [henv.calm, hm, Option.bind_some, hscope]
    cases scope with
    | none => rfl
    | some s =>
      refine scopeFromValue_toValue fun w hw => ?_
      have hle := (windowDays_le (h.valid s rfl) w hw).2
      unfold scopeMaxWindowDays at hle
      omega
  unfold friendRead
  rw [henv.spicedb, hcheck]
  simp only [Bool.not_true, Bool.false_eq_true, if_false, hstored, renderOr404]
  split_ifs <;> rfl

/-- A share that has ended is not served. -/
theorem friendRead_ended (h : Shared st owner auth.preferredUsername scope expiresAt)
    (henv : Calm env owner) (htime : ¬ InForce env expiresAt) (allows : ShareScope → Bool)
    (render : Stores → Option ShareScope → Reply) :
    (friendRead st env auth owner allows render).2 = .notFound := by
  obtain ⟨m, hm, hexp, -⟩ := h.row
  have hcheck : (checkViewWithExpiry st env owner auth.preferredUsername).2 = some false := by
    unfold checkViewWithExpiry
    rw [checkView_shared h henv, hm, Option.bind_some, hexp]
    simp only [henv.calm, Bool.false_eq_true, if_false]
    cases expiresAt with
    | none => exact absurd nofun htime
    | some t =>
      have hlate : ¬ env.now < t := fun hlt => htime fun t' ht' => Option.some.inj ht' ▸ hlt
      simp only [hlate, if_false]
  unfold friendRead
  rw [henv.spicedb]
  simp only [Bool.not_true, Bool.false_eq_true, if_false, hcheck, renderOr404]
  split_ifs <;> rfl

theorem friendSummary_shared (h : Shared st owner auth.preferredUsername scope expiresAt)
    (henv : Calm env owner) (htime : InForce env expiresAt) : (friendSummary st env auth owner).2 =
      if scope.any (!scopeAllowsAggregates ·) then .notFound
      else renderSummaryScoped st env owner scope := by
  unfold friendSummary
  rw [henv.valid, friendRead_shared h henv htime]
  rfl

theorem friendSummary_ended (h : Shared st owner auth.preferredUsername scope expiresAt)
    (henv : Calm env owner) (htime : ¬ InForce env expiresAt) :
    (friendSummary st env auth owner).2 = .notFound := by
  unfold friendSummary
  rw [henv.valid]
  simp only [Bool.not_true, Bool.false_eq_true, if_false]
  exact friendRead_ended h henv htime _ _

theorem friendTimeline_shared (h : Shared st owner auth.preferredUsername scope expiresAt)
    (henv : Calm env owner) (htime : InForce env expiresAt) (days : Option ℕ) :
    (friendTimeline st env auth owner days).2 =
      match resolveTimelineDays days with
      | none => err 400 "invalid_days"
      | some days =>
        if scope.any (!scopeAllowsTimeline ·) then .notFound
        else renderTimelineScoped st env owner (clampDays days scope) scope := by
  unfold friendTimeline
  rw [henv.valid]
  cases resolveTimelineDays days with
  | none => rfl
  | some d =>
    simp only [friendRead_shared h henv htime]
    rfl

theorem friendTimeline_ended (h : Shared st owner auth.preferredUsername scope expiresAt)
    (henv : Calm env owner) (htime : ¬ InForce env expiresAt) (days : Option ℕ) :
    (friendTimeline st env auth owner days).2 =
      (resolveTimelineDays days).elim (err 400 "invalid_days") fun _ => .notFound := by
  unfold friendTimeline
  rw [henv.valid]
  cases resolveTimelineDays days with
  | none => rfl
  | some d =>
    simp only [Bool.not_true, Bool.false_eq_true, if_false]
    exact friendRead_ended h henv htime _ _

end Read

/-! ### What is counted -/

theorem timelineSharedFiltered_eq (rows : List EventRow) (handle : String) (now : ℤ) (days : ℕ)
    (scope : Option ShareScope) :
    timelineSharedFiltered rows handle now days (scope.bind (·.allowEventTypes))
        (scope.bind (·.denyEventTypes)) =
      countByDay (rows.filter fun r => shared handle r && within now days r &&
        scope.all (·.passes r.event.eventType)) := by
  rcases scope with _ | ⟨kind, tabs, window, _ | allow, _ | deny⟩ <;>
    simp [timelineSharedFiltered, timelineShared, ShareScope.passes, Bool.and_assoc]

theorem applyEventTypeFilter_countByType (rows : List EventRow) (s : ShareScope) :
    applyEventTypeFilter (countByType rows) (some s) =
      ((rows.filter fun r => s.passes r.event.eventType).length,
        countByType (rows.filter fun r => s.passes r.event.eventType)) := by
  have hfilter := filter_countByType s.passes rows
  unfold applyEventTypeFilter
  simp only [Option.all_some, hfilter, sum_countByType]

/-- The summary that is rendered under a scope. -/
theorem renderSummaryScoped_eq {st : Stores} {env : Env} {handle : String}
    (hquery : env.fails .query = false) (scope : Option ShareScope) :
    renderSummaryScoped st env handle scope =
      .summary ⟨handle,
        (st.events.filter fun r => shared handle r && scope.all (·.passes r.event.eventType)).length,
        countByType (st.events.filter fun r =>
          shared handle r && scope.all (·.passes r.event.eventType))⟩ := by
  have hif : ∀ {x y : Reply}, (if env.fails .query then x else y) = y := by simp [hquery]
  unfold renderSummaryScoped
  rw [hif]
  cases scope with
  | none => simp [summaryForHandleShared]
  | some s =>
    simp only [summaryForHandleShared, Option.isSome_some, if_true, applyEventTypeFilter_countByType,
      List.filter_filter, Option.all_some, Bool.and_comm]

theorem renderTimelineScoped_eq {st : Stores} {env : Env} {handle : String}
    (hquery : env.fails .query = false) (days : ℕ) (scope : Option ShareScope) :
    renderTimelineScoped st env handle days scope =
      .timeline ⟨days, buildTimelineBuckets (countByDay (st.events.filter fun r =>
        shared handle r && within env.now days r && scope.all (·.passes r.event.eventType)))
        env.now days⟩ := by
  unfold renderTimelineScoped
  rw [timelineSharedFiltered_eq]
  simp [hquery]

/-! ### Noninterference -/

/-- Does the scope show an event? It leaves out what is hidden, the types it does not let pass and what
is older than its window. -/
def visible (scope : Option ShareScope) (now : ℤ) (r : EventRow) : Bool :=
  r.hiddenAt.isNone && scope.all fun s => s.passes r.event.eventType &&
    s.windowDays.all fun (w : ℕ) => !r.event.eventTimestamp.any fun ts => ts < now - w * usPerDay

/-- The owner's events differ in what the scope leaves out only. -/
def SameVisible (scope : Option ShareScope) (now : ℤ) (owner : String) (evs evs' : List EventRow) :
    Prop :=
  (evs.filter fun r => r.event.claimedHandle = owner && visible scope now r) =
    evs'.filter fun r => r.event.claimedHandle = owner && visible scope now r

/-- **The answers to the viewer tell nothing of what the scope excludes.** -/
def NonInterference (st : Stores) (env : Env) (auth : AuthenticatedUser) (owner : String)
    (scope : Option ShareScope) : Prop :=
  ∀ evs evs', SameVisible scope env.now owner evs evs' →
    (friendSummary { st with events := evs } env auth owner).2 =
        (friendSummary { st with events := evs' } env auth owner).2 ∧
      ∀ days, (friendTimeline { st with events := evs } env auth owner days).2 =
        (friendTimeline { st with events := evs' } env auth owner days).2

theorem filter_congr_of_imp {α : Type} {l l' : List α} {p q : α → Bool}
    (h : l.filter q = l'.filter q) (himp : ∀ a, p a = true → q a = true) :
    l.filter p = l'.filter p := by
  have hboth : ∀ m : List α, (m.filter q).filter p = m.filter p := by
    intro m
    rw [List.filter_filter]
    refine List.filter_congr fun a _ => ?_
    by_cases hp : p a = true
    · rw [hp, himp a hp, Bool.and_true]
    · simp [hp]
  rw [← hboth l, ← hboth l', h]

theorem clampDays_le {days w : ℕ} {s : ShareScope} (h : s.windowDays = some w) :
    clampDays days (some s) ≤ w := by
  simp [clampDays, h]

/-- The timeline counts visible events only. -/
theorem visible_of_timeline {scope : Option ShareScope} {now : ℤ} {owner : String} {days : ℕ}
    {r : EventRow} (h : (shared owner r && within now (clampDays days scope) r &&
      scope.all (·.passes r.event.eventType)) = true) :
    (decide (r.event.claimedHandle = owner) && visible scope now r) = true := by
  simp only [Bool.and_eq_true, shared, decide_eq_true_eq] at h ⊢
  obtain ⟨⟨⟨howner, hhidden⟩, hwithin⟩, hpasses⟩ := h
  refine ⟨howner, ?_⟩
  unfold visible
  rw [hhidden, Bool.true_and]
  cases scope with
  | none => rfl
  | some s =>
    simp only [Option.all_some] at hpasses ⊢
    rw [hpasses, Bool.true_and]
    cases hw : s.windowDays with
    | none => rfl
    | some w =>
      have hle : clampDays days (some s) ≤ w := clampDays_le hw
      unfold within at hwithin
      cases hts : r.event.eventTimestamp with
      | none => rfl
      | some ts =>
        rw [hts] at hwithin
        simp only [Option.any_some, decide_eq_true_eq, Option.all_some, Bool.not_eq_true',
          decide_eq_false_iff_not, not_lt] at hwithin ⊢
        have hday : ((clampDays days (some s) : ℕ) : ℤ) * usPerDay ≤ w * usPerDay := by
          have hnonneg : 0 ≤ usPerDay := by decide
          exact Int.mul_le_mul_of_nonneg_right (by omega) hnonneg
        omega

section Summary
variable {scope : Option ShareScope} {now : ℤ} {owner : String} {evs evs' : List EventRow}

/-- The summary counts visible events only, if the scope has no window. -/
theorem filter_summary (h : SameVisible scope now owner evs evs')
    (hcond : ∀ s ∈ scope, s.windowDays = none ∨ ∀ t, s.passes t = false) :
    (evs.filter fun r => shared owner r && scope.all (·.passes r.event.eventType)) =
      evs'.filter fun r => shared owner r && scope.all (·.passes r.event.eventType) := by
  refine filter_congr_of_imp h fun r hr => ?_
  simp only [shared, Bool.and_eq_true, decide_eq_true_eq] at hr ⊢
  obtain ⟨⟨howner, hhidden⟩, hpasses⟩ := hr
  refine ⟨howner, ?_⟩
  unfold visible
  rw [hhidden, Bool.true_and]
  cases scope with
  | none => rfl
  | some s =>
    simp only [Option.all_some] at hpasses ⊢
    rcases hcond s rfl with hw | hnone
    · rw [hpasses, hw]
      rfl
    · rw [hnone] at hpasses
      cases hpasses

end Summary

/-- An event of some type at an instant. -/
def eventAt (owner eventType : String) (ts : ℤ) : EventRow where
  seq := 1
  event := ⟨"k", owner, eventType, some ts, .live, 0, "", .null, none⟩
  hiddenAt := none

/-- An event before the window is left out by the scope. -/
theorem sameVisible_eventAt {s : ShareScope} {w : ℕ} (hw : s.windowDays = some w) (now : ℤ)
    (owner t : String) : SameVisible (some s) now owner []
      [eventAt owner t (now - w * usPerDay - 1)] := by
  have hold : visible (some s) now (eventAt owner t (now - w * usPerDay - 1)) = false := by
    have hlt : now - w * usPerDay - 1 < now - w * usPerDay := by omega
    unfold visible eventAt
    simp only [hw, Option.all_some, Option.any_some, decide_eq_true hlt, Bool.not_true, Bool.and_false]
  unfold SameVisible
  simp [hold]

section NonInterference
variable {st : Stores} {env : Env} {auth : AuthenticatedUser} {owner : String}
  {scope : Option ShareScope} {expiresAt : Option ℤ}

/-- **The answers tell nothing of what the scope excludes exactly if it has no window**, or lets no
summary through, or no event type at all; or if the share has ended. -/
theorem nonInterference_iff (h : Shared st owner auth.preferredUsername scope expiresAt)
    (henv : Calm env owner) : NonInterference st env auth owner scope ↔ ¬ InForce env expiresAt ∨
      ∀ s ∈ scope, s.windowDays = none ∨ scopeAllowsAggregates s = false ∨
        ∀ t, s.passes t = false := by
  have hquery := henv.calm .query
  by_cases htime : InForce env expiresAt
  · rw [or_iff_right (not_not_intro htime)]
    constructor
    · intro hni s hs
      obtain rfl := Option.mem_def.mp hs
      by_contra hcond
      obtain ⟨hwindow, hallows, hpasses⟩ := not_or.mp hcond |>.imp_right not_or.mp
      obtain ⟨w, hw⟩ := Option.ne_none_iff_exists'.mp hwindow
      obtain ⟨t, ht⟩ := not_forall.mp hpasses
      have hsame := (hni _ _ (sameVisible_eventAt hw env.now owner t)).1
      rw [friendSummary_shared (h.withEvents _) henv htime,
        friendSummary_shared (h.withEvents _) henv htime, if_neg (by simpa using hallows),
        if_neg (by simpa using hallows), renderSummaryScoped_eq hquery,
        renderSummaryScoped_eq hquery] at hsame
      have htotal := congrArg PublicSummaryResponse.total (Reply.summary.inj hsame)
      simp [eventAt, shared, ht] at htotal
    · intro hcond evs evs' hsame
      refine ⟨?_, fun days => ?_⟩
      · rw [friendSummary_shared (h.withEvents _) henv htime,
          friendSummary_shared (h.withEvents _) henv htime]
        by_cases hallows : scope.any (!scopeAllowsAggregates ·) = true
        · rw [if_pos hallows, if_pos hallows]
        · rw [if_neg hallows, if_neg hallows, renderSummaryScoped_eq hquery,
            renderSummaryScoped_eq hquery]
          have hfilter := filter_summary hsame fun s hs => by
            refine (hcond s hs).imp_right fun hor => hor.resolve_left fun hfalse => hallows ?_
            rw [Option.mem_def.mp hs, Option.any_some, hfalse]
            rfl
          simp only [hfilter]
      · rw [friendTimeline_shared (h.withEvents _) henv htime,
          friendTimeline_shared (h.withEvents _) henv htime]
        cases resolveTimelineDays days with
        | none => rfl
        | some d =>
          have hfilter := filter_congr_of_imp hsame fun r hr =>
            @visible_of_timeline scope env.now owner d r hr
          simp only [renderTimelineScoped_eq hquery, hfilter]
  · refine iff_of_true (fun evs evs' _ => ⟨?_, fun days => ?_⟩) (Or.inl htime)
    · rw [friendSummary_ended (h.withEvents _) henv htime,
        friendSummary_ended (h.withEvents _) henv htime]
    · rw [friendTimeline_ended (h.withEvents _) henv htime,
        friendTimeline_ended (h.withEvents _) henv htime]

end NonInterference

/-- A share of summaries only. -/
def aggregatesOf (windowDays : Option ℕ) : ShareScope := ⟨"aggregates", none, windowDays, none, none⟩

/-- What the friend is granted. -/
def sharedUnder (scope : Option ShareScope) : Stores :=
  (addShare (fresh pair []) (calm 0) owner ⟨"Friend", none, none, scope⟩).1

theorem calm_owner (now : ℤ) : Calm (calm now) "Owner" := ⟨rfl, fun _ => rfl, by decide⟩

theorem shared_aggregates :
    Shared (sharedUnder (some (aggregatesOf none))) "Owner" "Friend" (some (aggregatesOf none)) none :=
  shared_addShare (by decide) rfl

theorem nonInterference_aggregates :
    NonInterference (sharedUnder (some (aggregatesOf none))) (calm 0) friend "Owner"
      (some (aggregatesOf none)) :=
  (nonInterference_iff shared_aggregates (calm_owner 0)).mpr (Or.inr fun _ hs =>
    Or.inl (Option.some.inj hs ▸ rfl))

/-- The summary of a week counts an older event. -/
theorem not_nonInterference_week :
    (addShare (fresh pair []) (calm 0) owner ⟨"Friend", none, none, some (aggregatesOf (some 7))⟩).2 =
        .granted "Friend" ∧
      ¬ NonInterference (sharedUnder (some (aggregatesOf (some 7)))) (calm 0) friend "Owner"
        (some (aggregatesOf (some 7))) := by
  refine ⟨by decide +kernel, fun h => ?_⟩
  have hsame := sameVisible_eventAt (s := aggregatesOf (some 7)) rfl 0 "Owner" "actor_death"
  exact absurd (h _ _ hsame).1 (by decide +kernel)

/-! ### Previews -/

/-- **The preview shows what the friend will see.** What it counts is what the friend is answered, and
where the friend gets nothing it is empty. -/
def PreviewShows (fromStr : String → Option ShareScope) (st : Stores) (env : Env)
    (auth viewer : AuthenticatedUser) (raw : Option String) : Prop :=
  ∀ evs : List EventRow,
    (∀ body, previewSummary fromStr { st with events := evs } env auth raw = .summary body →
      body.total ≠ 0 → ∃ body',
        (friendSummary { st with events := evs } env viewer auth.preferredUsername).2 =
          .summary body' ∧ body'.total = body.total ∧ body'.byType = body.byType) ∧
    (∀ days body, previewTimeline fromStr { st with events := evs } env auth days raw =
        .timeline body → (∃ b ∈ body.buckets, b.2 ≠ 0) → ∃ body',
      (friendTimeline { st with events := evs } env viewer auth.preferredUsername days).2 =
        .timeline body' ∧ body'.buckets = body.buckets) ∧
    ((friendSummary { st with events := evs } env viewer auth.preferredUsername).2 = .notFound →
      ∀ body, previewSummary fromStr { st with events := evs } env auth raw = .summary body →
        body.total = 0 ∧ body.byType = []) ∧
    ∀ days, (friendTimeline { st with events := evs } env viewer auth.preferredUsername days).2 =
        .notFound →
      ∀ body, previewTimeline fromStr { st with events := evs } env auth days raw = .timeline body →
        body.buckets = []

/-- The scope lets everything through. -/
def Clear (s : ShareScope) : Prop := s.windowDays = none ∧ ∀ t, s.passes t = true

section Preview
variable {fromStr : String → Option ShareScope} {st : Stores} {env : Env}
  {auth viewer : AuthenticatedUser} {raw : Option String} {scope : Option ShareScope}
  {expiresAt : Option ℤ}

theorem previewSummary_eq (hparse : parseScopeParam fromStr raw = .ok scope) :
    previewSummary fromStr st env auth raw =
      if scope.any (!scopeAllowsAggregates ·) then .summary ⟨auth.preferredUsername, 0, []⟩
      else renderSummaryScoped st env auth.preferredUsername scope := by
  unfold previewSummary
  rw [hparse]

theorem previewTimeline_eq (hparse : parseScopeParam fromStr raw = .ok scope) (days : Option ℕ) :
    previewTimeline fromStr st env auth days raw =
      match resolveTimelineDays days with
      | none => err 400 "invalid_days"
      | some days =>
        if scope.any (!scopeAllowsTimeline ·) then .timeline ⟨clampDays days scope, []⟩
        else renderTimelineScoped st env auth.preferredUsername (clampDays days scope) scope := by
  unfold previewTimeline
  cases resolveTimelineDays days <;> simp only [hparse]

theorem scopeOwned_full {s : ShareScope} (h : s.kind = "full") : scopeOwned (some s) = none := by
  simp [scopeOwned, h]

theorem scopeOwned_of_ne {scope : Option ShareScope} (h : ∀ s ∈ scope, s.kind ≠ "full") :
    scopeOwned scope = scope := by
  cases scope with
  | none => rfl
  | some s => simpa [scopeOwned] using h s rfl

/-- Where no type passes, a summary is empty. -/
theorem render_of_not_passes {s : ShareScope} {handle : String} (hquery : env.fails .query = false)
    (h : ∀ t, s.passes t = false) :
    renderSummaryScoped st env handle (some s) = .summary ⟨handle, 0, []⟩ ∧
      ∀ days body, renderTimelineScoped st env handle days (some s) = .timeline body →
        ∀ b ∈ body.buckets, b.2 = 0 := by
  constructor
  · rw [renderSummaryScoped_eq hquery]
    simp [h, countByType, groupCount, sortBy]
  · intro days body hbody b hb
    rw [renderTimelineScoped_eq hquery] at hbody
    obtain rfl := Reply.timeline.inj hbody
    have hnone : countByDay (st.events.filter fun r => shared handle r && within env.now days r &&
        (some s).all (·.passes r.event.eventType)) = [] := by
      simp [h, countByDay, groupCount, sortBy]
    rw [hnone] at hb
    obtain ⟨i, -, rfl⟩ := List.mem_map.mp hb
    rfl

/-- A clear scope renders as none. -/
theorem render_of_clear {s : ShareScope} {handle : String} (hquery : env.fails .query = false)
    (h : Clear s) : renderSummaryScoped st env handle (some s) = renderSummaryScoped st env handle none ∧
      ∀ days, renderTimelineScoped st env handle (clampDays days (some s)) (some s) =
        renderTimelineScoped st env handle (clampDays days none) none := by
  constructor
  · rw [renderSummaryScoped_eq hquery, renderSummaryScoped_eq hquery]
    simp [h.2]
  · intro days
    have hdays : clampDays days (some s) = clampDays days none := by
      simp [clampDays, h.1]
    rw [renderTimelineScoped_eq hquery, renderTimelineScoped_eq hquery, hdays]
    simp [h.2]

/-- The preview and the friend's answer are rendered alike, but for a kind that is not shown. -/
theorem previewShows_of_render {scope' : Option ShareScope}
    (h : Shared st auth.preferredUsername viewer.preferredUsername scope' expiresAt)
    (henv : Calm env auth.preferredUsername) (htime : InForce env expiresAt)
    (hparse : parseScopeParam fromStr raw = .ok scope)
    (haggregates : scope'.any (!scopeAllowsAggregates ·) = scope.any (!scopeAllowsAggregates ·))
    (htimeline : scope'.any (!scopeAllowsTimeline ·) = scope.any (!scopeAllowsTimeline ·))
    (hsummary : ∀ evs, renderSummaryScoped { st with events := evs } env auth.preferredUsername scope =
      renderSummaryScoped { st with events := evs } env auth.preferredUsername scope')
    (hbuckets : ∀ evs days,
      renderTimelineScoped { st with events := evs } env auth.preferredUsername
          (clampDays days scope) scope =
        renderTimelineScoped { st with events := evs } env auth.preferredUsername
          (clampDays days scope') scope') : PreviewShows fromStr st env auth viewer raw := by
  have hquery := henv.calm .query
  intro evs
  rw [previewSummary_eq hparse, friendSummary_shared (h.withEvents evs) henv htime, haggregates,
    hsummary evs]
  refine ⟨fun body hbody hne => ?_, fun days body hbody hne => ?_, fun hnot body hbody => ?_,
    fun days hnot body hbody => ?_⟩
  · split_ifs at hbody with hk
    · exact absurd (congrArg PublicSummaryResponse.total (Reply.summary.inj hbody)).symm hne
    · exact ⟨body, by rw [if_neg hk, hbody], rfl, rfl⟩
  · rw [previewTimeline_eq hparse] at hbody
    rw [friendTimeline_shared (h.withEvents evs) henv htime]
    cases hd : resolveTimelineDays days with
    | none => simp [hd, err] at hbody
    | some d =>
      simp only [hd, htimeline, hbuckets evs d] at hbody ⊢
      split_ifs at hbody with hk
      · obtain rfl := Reply.timeline.inj hbody
        obtain ⟨b, hb, -⟩ := hne
        exact absurd hb List.not_mem_nil
      · exact ⟨body, by rw [if_neg hk, hbody], rfl⟩
  · split_ifs at hnot hbody with hk
    · obtain rfl := Reply.summary.inj hbody
      exact ⟨rfl, rfl⟩
    · rw [renderSummaryScoped_eq hquery] at hnot
      cases hnot
  · rw [previewTimeline_eq hparse] at hbody
    rw [friendTimeline_shared (h.withEvents evs) henv htime] at hnot
    cases hd : resolveTimelineDays days with
    | none => simp [hd, err] at hnot
    | some d =>
      simp only [hd, htimeline] at hbody hnot
      split_ifs at hbody hnot with hk
      · obtain rfl := Reply.timeline.inj hbody
        rfl
      · rw [renderTimelineScoped_eq hquery] at hnot
        cases hnot

theorem allows_full {s : ShareScope} (h : s.kind = "full") :
    scopeAllowsAggregates s = true ∧ scopeAllowsTimeline s = true := by
  simp [scopeAllowsAggregates, scopeAllowsTimeline, h]

/-- Where nothing is shown in the preview, there is nothing to compare. -/
theorem previewShows_of_not_passes {s : ShareScope}
    (h : Shared st auth.preferredUsername viewer.preferredUsername none expiresAt)
    (henv : Calm env auth.preferredUsername) (htime : InForce env expiresAt)
    (hparse : parseScopeParam fromStr raw = .ok (some s)) (hfull : s.kind = "full")
    (hpasses : ∀ t, s.passes t = false) : PreviewShows fromStr st env auth viewer raw := by
  have hquery := henv.calm .query
  obtain ⟨hagg, htl⟩ := allows_full hfull
  have hkind : ((some s).any (!scopeAllowsAggregates ·)) = false ∧
      (some s).any (!scopeAllowsTimeline ·) = false := by
    simp [hagg, htl]
  intro evs
  obtain ⟨hsummary, hbuckets⟩ :=
    @render_of_not_passes { st with events := evs } env s auth.preferredUsername hquery hpasses
  rw [previewSummary_eq hparse, friendSummary_shared (h.withEvents evs) henv htime, hkind.1,
    if_neg Bool.false_ne_true, hsummary]
  refine ⟨fun body hbody hne => ?_, fun days body hbody hne => ?_, fun hnot => ?_,
    fun days hnot => ?_⟩
  · exact absurd (congrArg PublicSummaryResponse.total (Reply.summary.inj hbody)).symm hne
  · rw [previewTimeline_eq hparse] at hbody
    cases hd : resolveTimelineDays days with
    | none => simp [hd, err] at hbody
    | some d =>
      simp only [hd, hkind.2, Bool.false_eq_true, if_false] at hbody
      obtain ⟨b, hb, hcount⟩ := hne
      exact absurd (hbuckets _ body hbody b hb) hcount
  · rw [Option.any_none, if_neg Bool.false_ne_true, renderSummaryScoped_eq hquery] at hnot
    cases hnot
  · rw [friendTimeline_shared (h.withEvents evs) henv htime] at hnot
    cases hd : resolveTimelineDays days with
    | none => simp [hd, err] at hnot
    | some d =>
      rw [hd] at hnot
      simp only [Option.any_none, Bool.false_eq_true, if_false, renderTimelineScoped_eq hquery] at hnot
      cases hnot

theorem today_mem_buckets {owner t : String} {now : ℤ} {days : ℕ} (h : 0 < days) :
    (dayOf now, 1) ∈ buildTimelineBuckets (countByDay [eventAt owner t now]) now days := by
  have hcount : countByDay [eventAt owner t now] = [(dayOf now, 1)] := by
    simp [countByDay, eventAt, groupCount, sortBy]
  rw [hcount]
  refine List.mem_map.mpr ⟨days - 1, List.mem_range.mpr (by omega), ?_⟩
  have hday : dayOf now - ((days : ℤ) - 1) + ((days - 1 : ℕ) : ℤ) = dayOf now := by omega
  simp [hday]

/-- A full scope that lets some type through shows no less than all. -/
theorem clear_of_previewShows {s : ShareScope}
    (h : Shared st auth.preferredUsername viewer.preferredUsername none expiresAt)
    (henv : Calm env auth.preferredUsername) (htime : InForce env expiresAt)
    (hparse : parseScopeParam fromStr raw = .ok (some s)) (hvalid : validateScope s = .ok ())
    (hfull : s.kind = "full") (hshows : PreviewShows fromStr st env auth viewer raw) {t : String}
    (ht : s.passes t = true) : Clear s := by
  have hquery := henv.calm .query
  obtain ⟨hagg, htl⟩ := allows_full hfull
  constructor
  · by_contra hwindow
    obtain ⟨w, hw⟩ := Option.ne_none_iff_exists'.mp hwindow
    obtain ⟨hpos, hle⟩ := windowDays_le hvalid w hw
    -- The widest timeline, of one event that has just been stored.
    obtain ⟨-, htimeline, -, -⟩ := hshows [eventAt auth.preferredUsername t env.now]
    have hdays : resolveTimelineDays (some 366) = some 366 := by decide
    have hclamp : clampDays 366 (some s) = w := by
      unfold scopeMaxWindowDays at hle
      simp only [clampDays, Option.bind_some, hw]
      omega
    have hpreview := @previewTimeline_eq fromStr
      { st with events := [eventAt auth.preferredUsername t env.now] } env auth raw _ hparse (some 366)
    simp only [hdays, Option.any_some, htl, Bool.not_true, Bool.false_eq_true, if_false, hclamp,
      renderTimelineScoped_eq hquery] at hpreview
    have htoday : (dayOf env.now, 1) ∈ buildTimelineBuckets (countByDay
        ([eventAt auth.preferredUsername t env.now].filter fun r =>
          shared auth.preferredUsername r && within env.now w r &&
            (some s).all (·.passes r.event.eventType))) env.now w := by
      have hwithin : within env.now w (eventAt auth.preferredUsername t env.now) = true := by
        have hnonneg : 0 ≤ (w : ℤ) * usPerDay := Int.mul_nonneg (by omega) (by decide)
        simp only [within, eventAt, Option.any_some, decide_eq_true_eq]
        omega
      rw [List.filter_cons_of_pos (by simpa [shared, eventAt, ht] using hwithin), List.filter_nil]
      exact today_mem_buckets hpos
    obtain ⟨body, hbody, hbuckets⟩ := htimeline (some 366) _ hpreview ⟨_, htoday, Nat.one_ne_zero⟩
    rw [friendTimeline_shared (h.withEvents _) henv htime, hdays] at hbody
    simp only [Option.any_none, Bool.false_eq_true, if_false, renderTimelineScoped_eq hquery] at hbody
    obtain rfl := Reply.timeline.inj hbody
    have hlength := congrArg List.length hbuckets
    simp only [buildTimelineBuckets, List.length_map, List.length_range] at hlength
    unfold scopeMaxWindowDays at hle
    simp only [clampDays, Option.bind_none] at hlength
    omega
  · by_contra hall
    obtain ⟨t', ht'⟩ := not_forall.mp hall
    obtain ⟨hsummary, -, -, -⟩ := hshows
      [eventAt auth.preferredUsername t 0, eventAt auth.preferredUsername t' 0]
    rw [previewSummary_eq hparse, friendSummary_shared (h.withEvents _) henv htime] at hsummary
    simp only [Option.any_some, hagg, Bool.not_true, Option.any_none, Bool.false_eq_true, if_false,
      renderSummaryScoped_eq hquery] at hsummary
    obtain ⟨body, hbody, htotal, -⟩ := hsummary _ rfl (by simp [shared, eventAt, ht])
    obtain rfl := Reply.summary.inj hbody
    simp [shared, eventAt, ht, ht'] at htotal

/-- **The preview shows what the friend will see exactly if a full scope is clear**, or lets nothing
through. -/
theorem previewShows_iff
    (h : Shared st auth.preferredUsername viewer.preferredUsername (scopeOwned scope) expiresAt)
    (henv : Calm env auth.preferredUsername) (htime : InForce env expiresAt)
    (hparse : parseScopeParam fromStr raw = .ok scope)
    (hvalid : ∀ s ∈ scope, validateScope s = .ok ()) :
    PreviewShows fromStr st env auth viewer raw ↔
      ∀ s ∈ scope, s.kind = "full" → Clear s ∨ ∀ t, s.passes t = false := by
  by_cases hfull : ∃ s ∈ scope, s.kind = "full"
  · obtain ⟨s, hs, hkind⟩ := hfull
    obtain rfl := Option.mem_def.mp hs
    rw [scopeOwned_full hkind] at h
    constructor
    · intro hshows s' hs' _
      obtain rfl := Option.some.inj hs'
      by_cases hpasses : ∀ t, s.passes t = false
      · exact Or.inr hpasses
      · obtain ⟨t, ht⟩ := not_forall.mp hpasses
        exact Or.inl (clear_of_previewShows h henv htime hparse (hvalid s rfl) hkind hshows
          (by simpa using ht))
    · intro hcond
      rcases hcond s rfl hkind with hclear | hpasses
      · obtain ⟨hagg, htl⟩ := allows_full hkind
        refine previewShows_of_render h henv htime hparse ?_ ?_ (fun evs => ?_) fun evs days => ?_
        · simp [hagg]
        · simp [htl]
        · exact (render_of_clear (henv.calm .query) hclear).1
        · exact (render_of_clear (henv.calm .query) hclear).2 days
      · exact previewShows_of_not_passes h henv htime hparse hkind hpasses
  · have hnot : ∀ s ∈ scope, s.kind ≠ "full" := fun s hs hkind => hfull ⟨s, hs, hkind⟩
    rw [scopeOwned_of_ne hnot] at h
    refine iff_of_true ?_ fun s hs hkind => absurd hkind (hnot s hs)
    exact previewShows_of_render h henv htime hparse rfl rfl (fun _ => rfl) fun _ _ => rfl

end Preview

/-- A full scope but for deaths. -/
def withoutDeaths : ShareScope := ⟨"full", none, none, none, some ["actor_death"]⟩

theorem inForce_none (env : Env) : InForce env none := by
  intro t ht
  cases ht

theorem shared_week : Shared (sharedUnder (some (aggregatesOf (some 7)))) "Owner" "Friend"
    (scopeOwned (some (aggregatesOf (some 7)))) none :=
  shared_addShare (by decide) rfl

/-- The reading of one JSON text. -/
def readScope (s : ShareScope) (text : String) : Option ShareScope :=
  if text = s.toValue.render then some s else none

theorem previewShows_aggregates :
    PreviewShows (readScope (aggregatesOf (some 7))) (sharedUnder (some (aggregatesOf (some 7))))
      (calm 0) owner friend (some (aggregatesOf (some 7)).toValue.render) :=
  (previewShows_iff shared_week (calm_owner 0)
    (inForce_none _) (by decide +kernel) (by decide +kernel)).mpr fun _ hs hkind =>
      absurd (Option.some.inj hs ▸ hkind) (by decide)

/-- The preview leaves out the deaths that the friend is shown. -/
theorem not_previewShows_full :
    validateScope withoutDeaths = .ok () ∧
      ¬ PreviewShows (readScope withoutDeaths) (sharedUnder (some withoutDeaths)) (calm 0) owner
        friend (some withoutDeaths.toValue.render) := by
  refine ⟨by decide +kernel, fun h => ?_⟩
  obtain ⟨hsummary, -⟩ := h [eventAt "Owner" "actor_death" 0, eventAt "Owner" "join_pu" 0]
  obtain ⟨body, hbody, htotal, -⟩ :=
    hsummary ⟨"Owner", 1, [("join_pu", 1)]⟩ (by decide +kernel) (by decide)
  have htwo : (friendSummary { sharedUnder (some withoutDeaths) with
      events := [eventAt "Owner" "actor_death" 0, eventAt "Owner" "join_pu" 0] } (calm 0) friend
      "Owner").2 = .summary ⟨"Owner", 2, [("actor_death", 1), ("join_pu", 1)]⟩ := by decide +kernel
  obtain rfl := Reply.summary.inj (hbody.symm.trans htwo)
  exact absurd htotal (by decide)

end StarStats.Server.Sharing
