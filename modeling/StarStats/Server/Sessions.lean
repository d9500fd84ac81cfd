import Mathlib.Algebra.Order.Group.Int
import StarStats.Lib.Islands
import StarStats.Server.Queries

/-! # Play sessions

The sessions of a handle are the islands of its timestamped events: the database marks the events after a
gap, sums the marks, and groups by the sums; the store in memory walks along the events in order. Both give
the same sessions, page by page (`agrees_islands`). -/

namespace StarStats.Server.Sessions

open StarStats.Lib.Islands StarStats.Lib.Tables StarStats.Server.Queries

/-- `SESSION_IDLE_GAP_MINUTES` -/
def sessionIdleGapMinutes : ℤ := 30

/-- The gap in microseconds. -/
def gap : ℤ := sessionIdleGapMinutes * 60 * 1000000

/-- A session, as it is answered. -/
structure InferredSession where
  startAt : ℤ
  endAt : ℤ
  eventCount : ℕ
  deriving DecidableEq

variable (rows : List EventRow) (handle : String) (limit offset : ℕ)

/-- `WHERE claimed_handle = $1 AND event_timestamp IS NOT NULL` -/
def timestamps : List ℤ :=
  (rows.filter fun r => r.event.claimedHandle = handle).filterMap (·.event.eventTimestamp)

/-- `ORDER BY start_at DESC` -/
def newestStart (s : InferredSession) : ℤᵒᵈ := OrderDual.toDual s.startAt

/-! ### In memory -/

/-- The walk along the timestamps in order. The route hands on neither a negative limit nor a negative
offset. -/
def walkSessionsForHandle : List InferredSession :=
  let sessions := walk (fun (s : InferredSession) ts => ts - s.endAt ≤ gap)
    (fun s ts => { s with endAt := ts, eventCount := s.eventCount + 1 }) (fun ts => ⟨ts, ts, 1⟩)
    (sortBy id (timestamps rows handle))
  ((sortBy newestStart sessions).drop offset).take limit

/-! ### In the database -/

/-- `SUM(CASE WHEN prev_ts IS NULL OR event_timestamp - prev_ts > … THEN 1 ELSE 0 END) OVER (ORDER BY
event_timestamp ASC)`: the sum is over all rows up to this one and those with the same timestamp. -/
def sessionId (inOrder : List ℤ) (ts : ℤ) : ℕ :=
  (((lag inOrder).filter (·.1 ≤ ts)).map fun r =>
    if r.2.isNone || r.2.any (fun prev => gap < r.1 - prev) then 1 else 0).sum

/-- `MIN(event_timestamp)`, `MAX(event_timestamp)` and `COUNT(*)` of a group, which is not empty. -/
def aggregate : List ℤ → Option InferredSession
  | [] => none
  | ts :: rest => some ⟨rest.foldl min ts, rest.foldl max ts, rest.length + 1⟩

/-- The query: times in order, grouped by session, newest first. -/
def sessionsForHandle : List InferredSession :=
  let inOrder := sortBy id (timestamps rows handle)
  let sessions := (groupBy (sessionId inOrder) inOrder).filterMap aggregate
  ((sortBy newestStart sessions).drop offset).take limit

/-! ### What the sessions are -/

/-- The session of events in order. -/
def session (island : List ℤ) : InferredSession :=
  ⟨island.headD 0, island.getLastD 0, island.length⟩

/-- The islands have each timestamp as often as there are rows of the handle with it; they are in order and
without a gap within each, and with one between any two; the later come first. -/
structure AreIslands (islands : List (List ℤ)) : Prop where
  all : ∀ ts, islands.flatten.count ts =
    rows.countP fun r => r.event.claimedHandle = handle ∧ r.event.eventTimestamp = some ts
  nonempty : [] ∉ islands
  near : ∀ b ∈ islands, b.IsChain fun s t => s ≤ t ∧ t - s ≤ gap
  apart : islands.Pairwise fun b c => ∀ s ∈ c, ∀ t ∈ b, gap < t - s

/-- **The query and the walk agree**: every page of either is that of the sessions of the islands, and the
pages make up all of them. -/
structure Agrees (islands : List (List ℤ)) : Prop where
  cut : AreIslands rows handle islands
  query : ∀ limit offset, sessionsForHandle rows handle limit offset =
    walkSessionsForHandle rows handle limit offset
  page : ∀ limit offset, sessionsForHandle rows handle limit offset =
    ((islands.map session).drop offset).take limit
  pages : ∀ size n, (List.range n).flatMap (fun i => sessionsForHandle rows handle size (i * size)) =
    (islands.map session).take (n * size)

/-! ### Both ways to the islands -/

/-- Two events of one session. -/
def near (s t : ℤ) : Bool := t - s ≤ gap

/-- The sorted times, cut where the gap is too long. -/
def newestIslands (stamps : List ℤ) : List (List ℤ) := ((sortBy id stamps).splitBy near).reverse

theorem near_mono {s s' t' t : ℤ} (hs : s ≤ s') (_ : s' ≤ t') (ht : t' ≤ t) (h : near s t = true) :
    near s' t' = true := by
  unfold near at *
  rw [decide_eq_true_eq] at *
  omega

theorem near_self (t : ℤ) : near t t = true := by
  unfold near gap sessionIdleGapMinutes
  rw [decide_eq_true_eq]
  omega

theorem sessionId_eq_label (inOrder : List ℤ) (ts : ℤ) : sessionId inOrder ts = label near inOrder ts := by
  have hmark : ∀ r : ℤ × Option ℤ,
      (r.2.isNone || r.2.any (fun prev => gap < r.1 - prev)) = boundary near r := by
    rintro ⟨t, _ | prev⟩
    · rfl
    · have hgap : (gap < t - prev) ↔ ¬ t - prev ≤ gap := Int.not_le.symm
      show (false || decide (gap < t - prev)) = !decide (t - prev ≤ gap)
      rw [Bool.false_or, decide_eq_decide.mpr hgap, decide_not]
  unfold sessionId label
  simp only [hmark]

theorem pairwise_inOrder (stamps : List ℤ) : (sortBy id stamps).Pairwise (· ≤ ·) :=
  pairwise_sortBy id stamps

theorem foldl_min_of_le {t : ℤ} : ∀ {ts : List ℤ}, (∀ s ∈ ts, t ≤ s) → ts.foldl min t = t
  | [], _ => rfl
  | s :: ts, h => by
    rw [List.foldl_cons, min_eq_left (h s (List.mem_cons_self ..))]
    exact foldl_min_of_le fun u hu => h u (List.mem_cons_of_mem _ hu)

theorem foldl_max_of_pairwise : ∀ {t : ℤ} {ts : List ℤ}, (t :: ts).Pairwise (· ≤ ·) →
    ts.foldl max t = ts.getLastD t
  | _, [], _ => rfl
  | t, s :: ts, h => by
    obtain ⟨hfirst, hrest⟩ := List.pairwise_cons.mp h
    rw [List.foldl_cons, max_eq_right (hfirst s (List.mem_cons_self ..)), foldl_max_of_pairwise hrest,
      List.getLastD_cons]

theorem aggregate_of_pairwise {island : List ℤ} (hne : island ≠ []) (h : island.Pairwise (· ≤ ·)) :
    aggregate island = some (session island) := by
  obtain ⟨t, ts, rfl⟩ := List.exists_cons_of_ne_nil hne
  have hmin := foldl_min_of_le (List.pairwise_cons.mp h).1
  have hmax := foldl_max_of_pairwise h
  show some (InferredSession.mk (ts.foldl min t) (ts.foldl max t) (ts.length + 1)) = _
  unfold session
  rw [hmin, hmax, List.getLastD_cons, List.headD_cons, List.length_cons]

/-- The walk makes the sessions of the islands. -/
theorem walk_sessions (stamps : List ℤ) : walk (fun (s : InferredSession) ts => decide (ts - s.endAt ≤ gap))
    (fun s ts => { s with endAt := ts, eventCount := s.eventCount + 1 }) (fun ts => ⟨ts, ts, 1⟩) stamps =
      (stamps.splitBy near).map session := by
  refine @walk_eq ℤ InferredSession near _ _ _ session (fun _ => rfl) (fun b t hb => ?_)
    (fun b p t hp => ?_) stamps
  · obtain ⟨s, b', rfl⟩ := List.exists_cons_of_ne_nil hb
    have hlast : ((s :: b') ++ [t]).getLastD 0 = t := by
      rw [List.getLastD_eq_getLast?, List.getLast?_concat]
      rfl
    unfold session
    rw [hlast, List.length_append]
    rfl
  · have hlast : b.getLastD 0 = p := by
      rw [List.getLastD_eq_getLast?, hp]
      rfl
    unfold session near
    rw [hlast]

theorem pairwise_flatten_splitBy (stamps : List ℤ) {b : List ℤ}
    (hb : b ∈ (sortBy id stamps).splitBy near) : b.Pairwise (· ≤ ·) := by
  have hsorted := pairwise_inOrder stamps
  rw [← List.flatten_splitBy near (sortBy id stamps)] at hsorted
  exact (List.pairwise_flatten.mp hsorted).1 b hb

theorem filterMap_aggregate (stamps : List ℤ) :
    (groupBy (sessionId (sortBy id stamps)) (sortBy id stamps)).filterMap aggregate =
      ((sortBy id stamps).splitBy near).map session := by
  have hlabel : sessionId (sortBy id stamps) = label near (sortBy id stamps) :=
    funext (sessionId_eq_label _)
  rw [hlabel, groupBy_label near_mono near_self (pairwise_inOrder stamps), ← List.filterMap_eq_map]
  refine List.filterMap_congr fun b hb => ?_
  exact aggregate_of_pairwise (List.ne_nil_of_mem_splitBy hb) (pairwise_flatten_splitBy stamps hb)

/-! ### The newest first -/

theorem sortBy_newestStart {sessions : List InferredSession}
    (h : sessions.Pairwise fun s t => s.startAt < t.startAt) :
    sortBy newestStart sessions = sessions.reverse := by
  have hreverse : sessions.reverse.Pairwise fun s t => t.startAt < s.startAt := List.pairwise_reverse.mpr h
  refine List.Perm.eq_of_pairwise ?_ (pairwise_sortBy newestStart sessions)
    (hreverse.imp fun hlt => (OrderDual.toDual_le_toDual.mpr hlt.le : newestStart _ ≤ newestStart _))
    ((perm_sortBy newestStart sessions).trans sessions.reverse_perm.symm)
  intro s t hs ht hst hts
  have hs : s ∈ sessions := (perm_sortBy newestStart sessions).mem_iff.mp hs
  have ht : t ∈ sessions := List.mem_reverse.mp ht
  have hsame : s.startAt = t.startAt :=
    le_antisymm (OrderDual.toDual_le_toDual.mp hts) (OrderDual.toDual_le_toDual.mp hst)
  have hnodup : (sessions.map InferredSession.startAt).Nodup := List.pairwise_map.mpr (h.imp ne_of_lt)
  exact List.inj_on_of_nodup_map hnodup hs ht hsame

theorem head_mem {b : List ℤ} (hb : b ≠ []) : b.headD 0 ∈ b := by
  obtain ⟨t, b', rfl⟩ := List.exists_cons_of_ne_nil hb
  exact List.mem_cons_self ..

theorem pairwise_starts (stamps : List ℤ) : (((sortBy id stamps).splitBy near).map session).Pairwise
    fun s t => s.startAt < t.startAt := by
  refine List.pairwise_map.mpr ?_
  refine (pairwise_splitBy near_mono (pairwise_inOrder stamps)).imp_of_mem fun {b c} hb hc hapart => ?_
  have hfar := hapart _ (head_mem (List.ne_nil_of_mem_splitBy hb)) _
    (head_mem (List.ne_nil_of_mem_splitBy hc))
  unfold near gap sessionIdleGapMinutes at hfar
  rw [decide_eq_false_iff_not] at hfar
  show b.headD 0 < c.headD 0
  omega

/-- The query reads each timestamp as often as there are rows of the handle with it. -/
theorem count_timestamps (ts : ℤ) : (timestamps rows handle).count ts =
    rows.countP fun r => r.event.claimedHandle = handle ∧ r.event.eventTimestamp = some ts := by
  unfold timestamps List.count
  rw [List.countP_filterMap, List.countP_filter]
  refine List.countP_congr fun r _ => ?_
  cases r.event.eventTimestamp with
  | none => simp
  | some t => simp [and_comm]

theorem perm_newestIslands (stamps : List ℤ) : (newestIslands stamps).flatten.Perm stamps := by
  unfold newestIslands
  refine ((List.reverse_perm _).flatten).trans ?_
  rw [List.flatten_splitBy]
  exact perm_sortBy id stamps

theorem areIslands : AreIslands rows handle (newestIslands (timestamps rows handle)) where
  all ts := by
    rw [(perm_newestIslands (timestamps rows handle)).count_eq, count_timestamps]
  nonempty hmem := List.nil_notMem_splitBy _ _ (List.mem_reverse.mp hmem)
  near b hb := by
    have hb := List.mem_reverse.mp hb
    have hsorted := (pairwise_flatten_splitBy _ hb).isChain
    have hnear := List.isChain_of_mem_splitBy hb
    rw [List.isChain_iff_getElem] at *
    exact fun i hi => ⟨hsorted i hi, of_decide_eq_true (hnear i hi)⟩
  apart := by
    refine List.pairwise_reverse.mpr ((pairwise_splitBy near_mono (pairwise_inOrder _)).imp ?_)
    intro b c hapart s hs t ht
    have hfar := hapart s hs t ht
    unfold near at hfar
    rw [decide_eq_false_iff_not] at hfar
    omega

theorem flatMap_pages {α : Type} (l : List α) (size n : ℕ) :
    (List.range n).flatMap (fun i => (l.drop (i * size)).take size) = l.take (n * size) := by
  induction n with
  | zero => simp
  | succ n ih =>
    rw [List.range_succ, List.flatMap_append, ih, List.flatMap_singleton, Nat.succ_mul, List.take_add]

/-- **The window query and the walk along the events agree.** -/
theorem agrees_islands : ∃ islands, Agrees rows handle islands := by
  have hpairwise := pairwise_starts (timestamps rows handle)
  have hwalk : ∀ limit offset, walkSessionsForHandle rows handle limit offset =
      (((newestIslands (timestamps rows handle)).map session).drop offset).take limit := by
    intro limit offset
    unfold walkSessionsForHandle newestIslands
    simp only
    rw [walk_sessions, sortBy_newestStart hpairwise, List.map_reverse]
  have hquery : ∀ limit offset, sessionsForHandle rows handle limit offset =
      (((newestIslands (timestamps rows handle)).map session).drop offset).take limit := by
    intro limit offset
    unfold sessionsForHandle newestIslands
    simp only
    rw [filterMap_aggregate, sortBy_newestStart hpairwise, List.map_reverse]
  refine ⟨newestIslands (timestamps rows handle), areIslands rows handle,
    fun limit offset => (hquery limit offset).trans (hwalk limit offset).symm, hquery, fun size n => ?_⟩
  simp only [hquery]
  exact flatMap_pages _ size n

end StarStats.Server.Sessions
