import StarStats.Client.ReparseTwice

/-! # A re-parse that is cut off

A re-parse is a list of statements on the store, each of them atomic, and no transaction around them
(`reparseOps`). Which statements come next depends on the store that those before have left, so each
phase, and each source of the third, lists its statements when it begins. A re-parse that is cut off
has carried out the first statements only (`interrupted`); one in which a row cannot be deleted carries
out all but that (`runReparseFailing`). -/

namespace StarStats.Client.Interrupted

open StarStats.Lib.Tables
open StarStats.Core.Events StarStats.Core.Crates StarStats.Core.Parser StarStats.Core.ParserDefs
open StarStats.Core.Bursts
open StarStats.Client.Store StarStats.Client.Gamelog StarStats.Client.Ingest
open StarStats.Client.BurstRules StarStats.Client.Reparse StarStats.Client.ReparsePhases
open StarStats.Client.RetroBursts StarStats.Client.ReparseTwice

/-- A statement of a re-parse. -/
inductive StoreOp where
  | updateEventClassification (id : ℕ) (eventType timestamp payloadJson : String)
  | insertEvent (row : EventRow)
  | deleteUnknown (logSource eventName : String)
  | deleteEventById (id : ℕ)

def StoreOp.run (st : Storage) : StoreOp → Storage
  | .updateEventClassification id t ts p => st.updateEventClassification id t ts p
  | .insertEvent row => st.insertEvent row
  | .deleteUnknown source name => st.deleteUnknown source name
  | .deleteEventById id => (st.deleteEventById id).1

/-- The statement, if it is not the deletion of row `d`, which fails. -/
def StoreOp.runFailing (d : ℕ) (st : Storage) (op : StoreOp) : Storage :=
  match op with
  | .deleteEventById id => if id = d then st else op.run st
  | _ => op.run st

section
variable (x : Externals) (rules : List CompiledRemoteRule)

/-- The statement that classifies a row again, if it is classified in another way now. -/
def reclassifyOps (lastZone : Option String) (row : ℕ × EventRow) : List StoreOp :=
  match eventOf x rules row.2 with
  | none => []
  | some newEvent =>
    let e := enrichZone ((zoneSignal newEvent).or lastZone) newEvent
    if e.eventTypeKey ≠ row.2.eventType ∨ e.timestamp ≠ row.2.timestamp ∨
        e.toValue.render ≠ row.2.payloadJson then
      [.updateEventClassification row.1 e.eventTypeKey e.timestamp e.toValue.render]
    else []

/-- The writes of the first phase. -/
def reclassifyAllOps : Option String → List (ℕ × EventRow) → List StoreOp
  | _, [] => []
  | z, a :: rows =>
    reclassifyOps x rules z a ++ reclassifyAllOps (zoneBehind x rules z a.2) rows

/-- The statements that promote a sample, if it is recognised. -/
def promoteOps (sample : UnknownSampleRow) : List StoreOp :=
  match promotion x rules sample with
  | none => []
  | some row => [.insertEvent row, .deleteUnknown sample.logSource sample.eventName]

/-- The statements that put a summary in the place of a burst. -/
def burstOps (source : String) (b : Burst ScanEntry) : List StoreOp :=
  match summaryRow x source b.ruleId b.size b.anchor.rawLine b.anchor.sourceOffset b.anchor.log
      b.last.log with
  | none => []
  | some row => .insertEvent row :: b.members.map fun m => .deleteEventById m.id

/-- The writes of the third phase for one log. -/
def sourceOps (st : Storage) (source : String) : List StoreOp :=
  let parsed := scanEntries x st source
  if parsed.length < 2 then []
  else (burstsOf ScanEntry.log parsed builtinBurstRules).flatMap (burstOps x source)

/-- The statements of the third phase; a source is read when those before it are done. -/
def collapseOps : List String → Storage → List StoreOp
  | [], _ => []
  | source :: sources, st =>
    sourceOps x st source ++ collapseOps sources ((sourceOps x st source).foldl StoreOp.run st)

/-- The statements of the first phase. -/
def firstOps (st : Storage) : List StoreOp := reclassifyAllOps x rules none st.events.rows

/-- The store after the first phase. -/
def afterFirst (st : Storage) : Storage := (firstOps x rules st).foldl StoreOp.run st

/-- The statements of the second phase. -/
def secondOps (st : Storage) : List StoreOp :=
  (afterFirst x rules st).recentUnknowns.flatMap (promoteOps x rules)

/-- The store after the second phase. -/
def afterSecond (st : Storage) : Storage :=
  (secondOps x rules st).foldl StoreOp.run (afterFirst x rules st)

/-- The statements of the third phase. -/
def thirdOps (st : Storage) : List StoreOp :=
  collapseOps x (afterSecond x rules st).distinctLogSources (afterSecond x rules st)

/-- All statements of a re-parse. -/
def reparseOps (st : Storage) : List StoreOp :=
  firstOps x rules st ++ secondOps x rules st ++ thirdOps x rules st

/-- What is left by a re-parse that is cut off after `n` statements. -/
def interrupted (st : Storage) (n : ℕ) : Storage :=
  ((reparseOps x rules st).take n).foldl StoreOp.run st

/-- What is left by a re-parse in which row `d` cannot be deleted. -/
def runReparseFailing (d : ℕ) (st : Storage) : Storage :=
  (afterSecond x rules st).distinctLogSources.foldl
    (fun st source => (sourceOps x st source).foldl (StoreOp.runFailing d) st)
    (afterSecond x rules st)

variable {x rules}

/-! ### The statements are those of the re-parse -/

theorem reclassifyRow_eq (s : Walk) (a : ℕ × EventRow) : (reclassifyRow x rules s a).storage =
      (reclassifyOps x rules s.lastZone a).foldl StoreOp.run s.storage ∧
    (reclassifyRow x rules s a).lastZone = zoneBehind x rules s.lastZone a.2 := by
  unfold reclassifyOps
  cases he : eventOf x rules a.2 with
  | none =>
    rw [reclassifyRow_of_none he, zoneBehind_of_none he]
    exact ⟨rfl, rfl⟩
  | some e =>
    rw [reclassifyRow_of_some he, zoneBehind_of_some he]
    simp only
    split_ifs <;> exact ⟨rfl, rfl⟩

theorem foldl_reclassifyAllOps : ∀ (rows : List (ℕ × EventRow)) (s : Walk),
    (rows.foldl (reclassifyRow x rules) s).storage =
      (reclassifyAllOps x rules s.lastZone rows).foldl StoreOp.run s.storage
  | [], _ => rfl
  | a :: rows, s => by
    have ih := foldl_reclassifyAllOps rows (reclassifyRow x rules s a)
    obtain ⟨hst, hz⟩ := @reclassifyRow_eq x rules s a
    rw [List.foldl_cons, ih, reclassifyAllOps, List.foldl_append, hst, hz]

theorem foldl_promoteOps : ∀ (samples : List UnknownSampleRow) (s : Storage × ReparseStats),
    (samples.foldl (promoteUnknown x rules) s).1 =
      (samples.flatMap (promoteOps x rules)).foldl StoreOp.run s.1
  | [], _ => rfl
  | l :: samples, s => by
    have ih := foldl_promoteOps samples (promoteUnknown x rules s l)
    have hstep : (promoteUnknown x rules s l).1 = (promoteOps x rules l).foldl StoreOp.run s.1 := by
      unfold promoteOps
      cases hl : promotion x rules l with
      | none => rw [promoteUnknown_of_none hl]; rfl
      | some row => rw [promoteUnknown_of_some hl]; rfl
    rw [List.foldl_cons, ih, List.flatMap_cons, List.foldl_append, hstep]

theorem foldl_deletes : ∀ (ids : List ℕ) (s : Storage × ReparseStats),
    (ids.foldl deleteMember s).1 = (ids.map StoreOp.deleteEventById).foldl StoreOp.run s.1
  | [], _ => rfl
  | i :: ids, s => foldl_deletes ids (deleteMember s i)

theorem foldl_burstOps (source : String) : ∀ (bs : List (Burst ScanEntry))
    (s : Storage × ReparseStats), (bs.foldl (collapseBurst x source) s).1 =
      (bs.flatMap (burstOps x source)).foldl StoreOp.run s.1
  | [], _ => rfl
  | b :: bs, s => by
    have ih := foldl_burstOps source bs (collapseBurst x source s b)
    have hstep : (collapseBurst x source s b).1 =
        (burstOps x source b).foldl StoreOp.run s.1 := by
      unfold collapseBurst burstOps
      rw [summaryRow_eq]
      simp only
      rw [foldl_deletes, List.map_map]
      rfl
    rw [List.foldl_cons, ih, List.flatMap_cons, List.foldl_append, hstep]

theorem collapseSource_eq (s : Storage × ReparseStats) (source : String) :
    (collapseSource x s source).1 = (sourceOps x s.1 source).foldl StoreOp.run s.1 := by
  unfold collapseSource sourceOps
  simp only
  split_ifs
  · rfl
  · exact foldl_burstOps source _ s

theorem foldl_collapseOps : ∀ (sources : List String) (s : Storage × ReparseStats),
    (sources.foldl (collapseSource x) s).1 = (collapseOps x sources s.1).foldl StoreOp.run s.1
  | [], _ => rfl
  | source :: sources, s => by
    have ih := foldl_collapseOps sources (collapseSource x s source)
    rw [List.foldl_cons, ih, collapseOps, List.foldl_append, collapseSource_eq]

theorem reclassifyEvents_storage (st : Storage) :
    (reclassifyEvents x rules st).storage = afterFirst x rules st :=
  foldl_reclassifyAllOps st.events.rows ⟨st, none, .zero⟩

theorem promoteUnknowns_fst (st : Storage) :
    (promoteUnknowns x rules ((reclassifyEvents x rules st).storage,
      (reclassifyEvents x rules st).stats)).1 = afterSecond x rules st := by
  rw [promoteUnknowns, foldl_promoteOps, reclassifyEvents_storage]
  rfl

/-- **The statements, one after another, are the re-parse.** -/
theorem foldl_reparseOps (st : Storage) :
    (reparseOps x rules st).foldl StoreOp.run st = (runReparse x rules st).1 := by
  rw [reparseOps, List.foldl_append, List.foldl_append, ← afterFirst, ← afterSecond, runReparse,
    collapseBursts, foldl_collapseOps, promoteUnknowns_fst]
  rfl

end

end StarStats.Client.Interrupted
