import StarStats.Client.BurstRules
import StarStats.Client.Ingest

/-! # Re-parsing the store

The current rules are run over every stored line, in three phases: events are classified again in
place, and deaths get the zone that was last known (`reclassifyEvents`); samples of unknown events
that are now recognised become events (`promoteUnknowns`); runs of stored lines are replaced by
summaries, source after source (`collapseBursts`).

The store is read in pages there; as the rows change in place only, that is one walk over the rows. -/

namespace StarStats.Client.Reparse

open StarStats.Lib.Tables
open StarStats.Core.Events StarStats.Core.Crates StarStats.Core.Parser StarStats.Core.ParserDefs
open StarStats.Core.Bursts
open StarStats.Client.Store StarStats.Client.Gamelog StarStats.Client.BurstRules

/-- What the command reports. -/
structure ReparseStats where
  examined : ℕ
  updated : ℕ
  keptUnmatched : ℕ
  promotedUnknowns : ℕ
  burstsCollapsed : ℕ
  membersSuppressed : ℕ
  deriving DecidableEq

/-- Before the first row. -/
def ReparseStats.zero : ReparseStats := ⟨0, 0, 0, 0, 0, 0⟩

/-- `serialiseEvent` under the name it has in this path. -/
def serialiseForReparse (event : GameEvent) : Option (String × String × String) :=
  serialiseEvent event

/-! ### Phase 1 -/

/-- The zone an event tells. -/
def zoneSignal : GameEvent → Option String
  | .planetTerrainLoad t => some t.planet
  | .locationInventoryRequested l =>
    if l.location ≠ "INVALID_LOCATION_ID" then some l.location else none
  | _ => none

/-- A death without a zone gets the last one. -/
def enrichZone (lastZone : Option String) : GameEvent → GameEvent
  | .playerDeath d => .playerDeath (if d.zone = none then { d with zone := lastZone } else d)
  | .playerIncapacitated i =>
    .playerIncapacitated (if i.zone = none then { i with zone := lastZone } else i)
  | e => e

/-- The walk over the events. -/
structure Walk where
  storage : Storage
  lastZone : Option String
  stats : ReparseStats

/-- A row that no rule recognises stays as it is. -/
def Walk.kept (s : Walk) : Walk :=
  { s with stats := { s.stats with keptUnmatched := s.stats.keptUnmatched + 1 } }

section
variable (x : Externals) (rules : List CompiledRemoteRule)

/-- Classify one event again. A row that nothing is recognised in any more is left alone. -/
def reclassifyRow (s : Walk) (row : ℕ × EventRow) : Walk :=
  let s := { s with stats := { s.stats with examined := s.stats.examined + 1 } }
  match structuralParse x row.2.rawLine with
  | none => s.kept
  | some parsed =>
    match recogniseParsed x rules parsed with
    | none => s.kept
    | some newEvent =>
      let s := { s with lastZone := (zoneSignal newEvent).or s.lastZone }
      match serialiseForReparse (enrichZone s.lastZone newEvent) with
      | none => s.kept
      | some (newType, newTs, newPayload) =>
        if newType ≠ row.2.eventType ∨ newTs ≠ row.2.timestamp ∨ newPayload ≠ row.2.payloadJson then
          { s with
            storage := s.storage.updateEventClassification row.1 newType newTs newPayload
            stats := { s.stats with updated := s.stats.updated + 1 } }
        else s

/-- The first phase, over all rows in the order of their ids. -/
def reclassifyEvents (st : Storage) : Walk :=
  st.events.rows.foldl (reclassifyRow x rules) ⟨st, none, .zero⟩

/-! ### Phase 2 -/

/-- The key of a promoted sample; the offset of its line is not known. -/
def reparseIdempotencyKey (logSource line : String) : String :=
  x.newV5 ("reparse:" ++ (logSource ++ (":" ++ line)))

/-- Make an event of a sample that is recognised by now. -/
def promoteUnknown (s : Storage × ReparseStats) (sample : UnknownSampleRow) :
    Storage × ReparseStats :=
  match structuralParse x sample.sampleLine with
  | none => s
  | some parsed =>
    match recogniseParsed x rules parsed with
    | none => s
    | some newEvent =>
      match serialiseForReparse newEvent with
      | none => s
      | some (newType, newTs, newPayload) =>
        let st := s.1.insertEvent ⟨reparseIdempotencyKey x sample.logSource sample.sampleLine,
          newType, newTs, sample.sampleLine, newPayload, sample.logSource, 0⟩
        -- whether or not the key was free, the sample is done with
        (st.deleteUnknown sample.logSource sample.eventName,
          { s.2 with promotedUnknowns := s.2.promotedUnknowns + 1 })

/-- The second phase, over the samples as the page lists them. -/
def promoteUnknowns (s : Storage × ReparseStats) : Storage × ReparseStats :=
  s.1.recentUnknowns.foldl (promoteUnknown x rules) s

/-! ### Phase 3 -/

/-- A stored line that parses. -/
structure ScanEntry where
  id : ℕ
  rawLine : String
  sourceOffset : ℕ
  log : LogLine
  deriving DecidableEq

/-- Summaries are skipped, and lines that do not parse. -/
def scanEntry (r : BurstScanRow) : Option ScanEntry :=
  if r.eventType ≠ "burst_summary" then
    (structuralParse x r.rawLine).map fun log => ⟨r.id, r.rawLine, r.sourceOffset, log⟩
  else none

/-- The lines of one source that are scanned for bursts. -/
def scanEntries (st : Storage) (source : String) : List ScanEntry :=
  (st.eventsForBurstScan source).filterMap (scanEntry x)

/-- A member of a burst is deleted. -/
def deleteMember (s : Storage × ReparseStats) (id : ℕ) : Storage × ReparseStats :=
  let (st, n) := s.1.deleteEventById id
  (st, { s.2 with membersSuppressed := s.2.membersSuppressed + n })

/-- Put the summary of a burst in place of its members. The key is that of the live tail. -/
def collapseBurst (source : String) (s : Storage × ReparseStats) (b : Burst ScanEntry) :
    Storage × ReparseStats :=
  match summaryRow x source b.ruleId b.size b.anchor.rawLine b.anchor.sourceOffset b.anchor.log
      b.last.log with
  | none => s
  | some row =>
    let s := (b.members.map (·.id)).foldl deleteMember (s.1.insertEvent row, s.2)
    (s.1, { s.2 with burstsCollapsed := s.2.burstsCollapsed + 1 })

/-- The bursts of one log, if it has two rows that can be read. -/
def collapseSource (s : Storage × ReparseStats) (source : String) : Storage × ReparseStats :=
  let parsed := scanEntries x s.1 source
  if parsed.length < 2 then s
  else (burstsOf ScanEntry.log parsed builtinBurstRules).foldl (collapseBurst x source) s

/-- The third phase, one log after the other. -/
def collapseBursts (s : Storage × ReparseStats) : Storage × ReparseStats :=
  s.1.distinctLogSources.foldl (collapseSource x) s

/-- Run the current rules over the whole store. -/
def runReparse (st : Storage) : Storage × ReparseStats :=
  let s := reclassifyEvents x rules st
  collapseBursts x (promoteUnknowns x rules (s.storage, s.stats))

end

end StarStats.Client.Reparse
