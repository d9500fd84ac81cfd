import StarStats.Lib.TopLists
import StarStats.Server.OwnRecord
import StarStats.Server.ShareScopes

/-! # Timelines

The query of a timeline looks back by as many times twenty-four hours as there are days, the response has a
bucket for each day up to today. The window begins before the first of these days does, so every bucket has
all events of its day (`byDay_timelines`), those of today that are dated ahead of the clock included. -/

namespace StarStats.Server.Timelines

open StarStats.Lib.Tables StarStats.Lib.TopLists
open StarStats.Server.Auth StarStats.Server.Repo StarStats.Server.Queries StarStats.Server.Sharing
open StarStats.Server.OwnRecord

/-- The event is on a day. -/
def onDay (day : ℤ) (r : EventRow) : Bool := r.event.eventTimestamp.any fun ts => dayOf ts = day

/-- The days of the buckets are the last ones, in order and up to today. -/
def LastDays (now : ℤ) (body : PublicTimelineResponse) : Prop :=
  body.buckets.map Prod.fst = (List.range body.days).map fun (i : ℕ) => dayOf now - (body.days - 1) + i

/-- **A bucket for each day, with all events of the day** that are kept. -/
structure ByDay (rows : List EventRow) (keep : EventRow → Bool) (now : ℤ)
    (body : PublicTimelineResponse) : Prop where
  days : LastDays now body
  counts : ∀ b ∈ body.buckets, b.2 = rows.countP fun r => keep r && onDay b.1 r

/-- A bucket for each day, with the events of the day that are not ahead of the clock. -/
structure UpToNow (rows : List EventRow) (keep : EventRow → Bool) (now : ℤ)
    (body : PublicTimelineResponse) : Prop where
  days : LastDays now body
  counts : ∀ b ∈ body.buckets, b.2 = rows.countP fun r =>
    keep r && onDay b.1 r && r.event.eventTimestamp.any (· ≤ now)

/-- The rows of a handle. -/
def owned (handle : String) (r : EventRow) : Bool := r.event.claimedHandle = handle

/-- The rows of a handle that are shown under a scope. -/
def shown (handle : String) (scope : Option ShareScope) (r : EventRow) : Bool :=
  shared handle r && scope.all (·.passes r.event.eventType)

section Windows
variable {rows : List EventRow} {keep : EventRow → Bool} {now day : ℤ} {days : ℕ}

theorem counts_countByDay (rows : List EventRow) :
    Counts (fun day => rows.countP (onDay day)) (countByDay rows) := by
  have hdays : (fun day => rows.countP (onDay day)) =
      occurs (rows.filterMap fun r => r.event.eventTimestamp.map dayOf) := by
    funext day
    rw [occurs_filterMap]
    refine List.countP_congr fun r _ => ?_
    unfold onDay
    cases r.event.eventTimestamp with
    | none => simp
    | some ts => simp
  rw [hdays]
  exact (counts_groupCount _).perm (perm_sortBy _ _)

/-- The window begins before the first day does. -/
theorem within_of_onDay {r : EventRow} (hday : dayOf now - (days - 1) ≤ day) (hr : onDay day r = true) :
    within now days r = true := by
  unfold onDay at hr
  unfold within
  cases hts : r.event.eventTimestamp with
  | none =>
    rw [hts] at hr
    cases hr
  | some ts =>
    rw [hts] at hr
    have hon := of_decide_eq_true hr
    unfold dayOf usPerDay at hday hon
    refine decide_eq_true ?_
    unfold usPerDay
    omega

theorem byDay_of_countByDay (rows : List EventRow) (keep : EventRow → Bool) (now : ℤ) (days : ℕ) :
    ByDay rows keep now ⟨days,
      buildTimelineBuckets (countByDay (rows.filter fun r => keep r && within now days r)) now days⟩ := by
  refine ⟨?_, fun b hb => ?_⟩
  · unfold LastDays buildTimelineBuckets
    rw [List.map_map]
    rfl
  · obtain ⟨i, hi, rfl⟩ := List.mem_map.mp hb
    simp only
    rw [getD_lookup (counts_countByDay _), List.countP_filter]
    refine List.countP_congr fun r _ => ?_
    have hin : onDay (dayOf now - (days - 1) + i) r = true → within now days r = true :=
      within_of_onDay (by omega)
    simp only [Bool.and_eq_true]
    tauto

end Windows

section Responses
variable {s : Site} {env : SiteEnv} {auth : AuthenticatedUser} {asked : Option ℕ} {days : ℕ}
  {st : Stores} {shareEnv : Env}

/-- **The timelines of the owner and of those he shares with have a bucket for each day, with all events of
the day.** -/
theorem byDay_timelines (hdays : resolveTimelineDays asked = some days) (hquery : env.fails .query = false)
    (hshared : shareEnv.fails .query = false) (handle : String) (scope : Option ShareScope) :
    (∃ buckets, OwnRecord.timeline s env auth asked = .timeline ⟨days, buckets⟩ ∧
        ByDay s.rows (owned auth.preferredUsername) env.now ⟨days, buckets⟩) ∧
      ∃ buckets, renderTimelineScoped st shareEnv handle days scope = .timeline ⟨days, buckets⟩ ∧
        ByDay st.events (shown handle scope) shareEnv.now ⟨days, buckets⟩ := by
  constructor
  · refine ⟨_, ?_, byDay_of_countByDay s.rows (owned auth.preferredUsername) env.now days⟩
    unfold OwnRecord.timeline
    rw [hdays]
    simp only [hquery]
    rfl
  · refine ⟨_, ?_, byDay_of_countByDay st.events (shown handle scope) shareEnv.now days⟩
    have hkeep : ∀ r, (shared handle r && within shareEnv.now days r &&
        scope.all (·.passes r.event.eventType)) = (shown handle scope r && within shareEnv.now days r) := by
      intro r
      unfold shown
      rw [Bool.and_right_comm]
    rw [renderTimelineScoped_eq hshared]
    simp only [hkeep]

end Responses

/-! ### An event ahead of the clock -/

/-- Noon of the first day. -/
def noon : ℤ := 43200000000

def login (ts : ℤ) : StoredEvent := ⟨"k", "Jim", "login", some ts, .live, 0, "", .null, none⟩

def jim : AuthenticatedUser := ⟨"1", "Jim", .user, none⟩

def site (ts : ℤ) : Site := { Site.start with srv := ⟨Table.empty.insert (login ts), []⟩ }

/-- Nothing fails, and it is noon. -/
def atNoon : SiteEnv :=
  ⟨⟨⟨noon, true, fun _ => false, fun _ => true, fun _ => "", 0, false⟩, fun _ => false, "0"⟩, fun _ => none,
    fun _ => false, false, fun _ => false, fun _ => none, fun _ => none⟩

theorem byDay_noon :
    (∃ buckets, OwnRecord.timeline (site noon) atNoon jim (some 2) = .timeline ⟨2, buckets⟩ ∧
        ByDay (site noon).rows (owned "Jim") noon ⟨2, buckets⟩) ∧
      ∃ buckets, renderTimelineScoped (site noon).world.stores atNoon.world.share "Jim" 2 none =
          .timeline ⟨2, buckets⟩ ∧
        ByDay (site noon).rows (shown "Jim" none) noon ⟨2, buckets⟩ :=
  @byDay_timelines (site noon) atNoon jim (some 2) 2 (site noon).world.stores atNoon.world.share rfl rfl rfl
    "Jim" none

/-- **An event an hour ahead of the clock is counted today.** -/
theorem not_upToNow_ahead :
    OwnRecord.timeline (site (noon + 3600000000)) atNoon jim (some 1) = .timeline ⟨1, [(0, 1)]⟩ ∧
      ¬ UpToNow (site (noon + 3600000000)).rows (owned "Jim") noon ⟨1, [(0, 1)]⟩ := by
  have hbuckets : buildTimelineBuckets
      (timelineForHandle (site (noon + 3600000000)).rows "Jim" noon 1) noon 1 = [(0, 1)] := by
    decide +kernel
  refine ⟨congrArg (fun buckets => Answer.timeline ⟨1, buckets⟩) hbuckets, fun h => ?_⟩
  have hcount := h.counts (0, 1) (List.mem_singleton_self _)
  revert hcount
  decide +kernel

end StarStats.Server.Timelines
