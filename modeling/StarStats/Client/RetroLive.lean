import StarStats.Core.BurstOrder
import StarStats.Client.Backfill
import StarStats.Client.RetroBursts

/-! # Collapsing bursts live and in retrospect

A log can be processed in one window, or stored line by line and its bursts collapsed later. The
window holds every line that parses; the store holds those that are recognised, and no trace of the
others. The outcome is the same exactly if the bursts among the one are those among the other
(`collapse_agrees_iff`): the summaries tell where a burst starts and how long it is, the lines left
tell what it takes, and as bursts of one rule lie one after the other, that determines them. -/

namespace StarStats.Client.RetroLive

open StarStats.Lib.Tables
open StarStats.Core.Events StarStats.Core.Crates StarStats.Core.Parser StarStats.Core.ParserDefs
open StarStats.Core.Templates StarStats.Core.Bursts StarStats.Core.BurstOrder
open StarStats.Client.Store StarStats.Client.Gamelog StarStats.Client.Ingest
open StarStats.Client.Reading StarStats.Client.Backfill StarStats.Client.BurstRules
open StarStats.Client.Reparse StarStats.Client.ReparsePhases StarStats.Client.RetroBursts

/-! ### The lines and their bursts -/

/-- A line of a log that parses. -/
structure Placed where
  line : String
  offset : ℕ
  log : LogLine
  deriving DecidableEq

/-- A line of the buffer and where it stands. -/
def Entry.placed (e : Entry) : Placed := ⟨e.line, e.offset, e.log⟩

/-- A stored row's line and where it stands. -/
def ScanEntry.placed (m : ScanEntry) : Placed := ⟨m.rawLine, m.sourceOffset, m.log⟩

section
variable (x : Externals) (rules : List CompiledRemoteRule) (logSource : String)

/-- The lines that parse. -/
def parsedLines (ls : List (String × ℕ)) : List Placed :=
  ls.filterMap fun l => (structuralParse x l.1).map (⟨l.1, l.2, ·⟩)

/-- The lines that are recognised. -/
def recognisedLines (ls : List (String × ℕ)) : List Placed :=
  (parsedLines x ls).filter fun p => (recognise x rules p.line).isSome

/-- The bursts a window shows. -/
def liveRuns (ls : List (String × ℕ)) : List (Burst Placed) :=
  burstsOf Placed.log (parsedLines x ls) builtinBurstRules

/-- The bursts the store shows. -/
def retroRuns (ls : List (String × ℕ)) : List (Burst Placed) :=
  burstsOf Placed.log (recognisedLines x rules ls) builtinBurstRules

/-- The bursts among the lines that parse are those among the lines that are recognised. -/
def SameRuns (ls : List (String × ℕ)) : Prop :=
  ∀ b, b ∈ liveRuns x ls ↔ b ∈ retroRuns x rules ls

/-- The store after one window. -/
def collapsedLive (st : Storage) (ls : List (String × ℕ)) : Storage :=
  (processBuffer x rules builtinBurstRules logSource ls ⟨st, .zero⟩).storage

/-- The store after line upon line. -/
def storedOneByOne (st : Storage) (ls : List (String × ℕ)) : Storage :=
  ls.foldl (fun st l => (ingestOneLine x rules st logSource l.2 l.1).1) st

/-- The store after line upon line, and the third phase of a re-parse. -/
def collapsedLater (st : Storage) (ls : List (String × ℕ)) : Storage :=
  (collapseBursts x (storedOneByOne x rules logSource st ls, .zero)).1

/-- The row of the summary of a burst. -/
def summaryOf (b : Burst Placed) : EventRow :=
  ⟨idempotencyKey x logSource b.anchor.offset (syntheticLine b.anchor.line b.ruleId b.size),
    "burst_summary", b.anchor.log.timestamp, b.anchor.line,
    (summaryEvent b.ruleId b.size b.anchor.log b.last.log).toValue.render, logSource,
    b.anchor.offset⟩

/-- The rows that bursts of recognised and other lines come to: their summaries, and the rows of the
recognised lines that they do not take. -/
def Rows (ls : List (String × ℕ)) (runs : List (Burst Placed)) (r : EventRow) : Prop :=
  (∃ b ∈ runs, r = summaryOf x logSource b) ∨
    ∃ p ∈ recognisedLines x rules ls, (∀ b ∈ runs, p ∉ b.members) ∧
      lineRow x rules logSource p.offset p.line = some r

variable {x rules logSource} {ls : List (String × ℕ)}

theorem mem_parsedLines {p : Placed} :
    p ∈ parsedLines x ls ↔ (p.line, p.offset) ∈ ls ∧ structuralParse x p.line = some p.log := by
  simp only [parsedLines, List.mem_filterMap, Option.map_eq_some_iff]
  constructor
  · rintro ⟨⟨line, offset⟩, hl, log, hlog, rfl⟩
    exact ⟨hl, hlog⟩
  · rintro ⟨hl, hlog⟩
    exact ⟨_, hl, p.log, hlog, rfl⟩

theorem mem_recognisedLines {p : Placed} : p ∈ recognisedLines x rules ls ↔
    p ∈ parsedLines x ls ∧ (recognise x rules p.line).isSome := List.mem_filter

theorem recognisedLines_sublist : (recognisedLines x rules ls).Sublist (parsedLines x ls) :=
  List.filter_sublist

theorem parsedLines_ascending (h : ls.Pairwise fun a b => a.2 < b.2) :
    (parsedLines x ls).Pairwise fun p q => p.offset < q.offset := by
  refine List.Pairwise.filterMap _ ?_ h
  rintro a b hab p hp q hq
  obtain ⟨log, -, rfl⟩ := Option.map_eq_some_iff.mp hp
  obtain ⟨log', -, rfl⟩ := Option.map_eq_some_iff.mp hq
  exact hab

theorem eq_of_offset_eq (h : ls.Pairwise fun a b => a.2 < b.2) {a b : String × ℕ} (ha : a ∈ ls)
    (hb : b ∈ ls) (hab : a.2 = b.2) : a = b := by
  have hnd : (ls.map Prod.snd).Nodup :=
    List.pairwise_map.mpr (h.imp fun hlt => Nat.ne_of_lt hlt)
  exact List.inj_on_of_nodup_map hnd ha hb hab

theorem placed_eq_of_offset_eq (h : ls.Pairwise fun a b => a.2 < b.2) {p q : Placed}
    (hp : p ∈ parsedLines x ls) (hq : q ∈ parsedLines x ls) (hpq : p.offset = q.offset) : p = q := by
  obtain ⟨hp, hlog⟩ := mem_parsedLines.mp hp
  obtain ⟨hq, hlog'⟩ := mem_parsedLines.mp hq
  obtain ⟨line, offset, log⟩ := p
  obtain ⟨line', offset', log'⟩ := q
  obtain ⟨rfl, rfl⟩ := Prod.mk.inj (eq_of_offset_eq h hp hq hpq)
  obtain rfl : log = log' := Option.some.inj (hlog.symm.trans hlog')
  rfl

/-! ### One window -/

theorem map_placed_entries : (entries x ls).map Entry.placed = parsedLines x ls := by
  have : ∀ l : (String × ℕ) × ℕ, ((structuralParse x l.1.1).map fun log =>
      (⟨l.2, l.1.1, l.1.2, log⟩ : Entry)).map Entry.placed =
        (structuralParse x l.1.1).map (⟨l.1.1, l.1.2, ·⟩) := fun l => by
    rw [Option.map_map]; rfl
  rw [entries, List.map_filterMap, parsedLines]
  conv_rhs => rw [← List.zipIdx_map_fst 0 ls, List.filterMap_map]
  exact List.filterMap_congr fun l _ => this l

theorem map_bufferBursts :
    (bufferBursts x builtinBurstRules ls).map (mapItems Entry.placed) = liveRuns x ls := by
  rw [liveRuns, ← map_placed_entries, burstsOf_map]
  rfl

theorem nodup_of_ascending {α : Type} {f : α → ℕ} {l : List α}
    (h : l.Pairwise fun a b => f a < f b) : l.Nodup :=
  List.Nodup.of_map f (List.pairwise_map.mpr (h.imp fun hlt => Nat.ne_of_lt hlt))

/-- The rows of one window are those its bursts come to. -/
theorem row_of_bufferOps_iff (h : ls.Pairwise fun a b => a.2 < b.2) {r : EventRow} :
    r ∈ (bufferOps x builtinBurstRules ls).filterMap (BufferOp.row x rules logSource) ↔
      Rows x rules logSource ls (liveRuns x ls) r := by
  rw [List.mem_filterMap, Rows, ← map_bufferBursts]
  constructor
  · rintro ⟨op, hop, hrow⟩
    cases op with
    | summary b =>
      cases hrow
      exact Or.inl ⟨_, List.mem_map_of_mem (mem_bufferOps_summary.mp hop), rfl⟩
    | line text offset =>
      obtain ⟨i, hi, hfree⟩ := mem_bufferOps_line.mp hop
      have hrec := (lineRow_eq_some hrow).1
      obtain ⟨e, he⟩ := Option.isSome_iff_exists.mp hrec
      obtain ⟨log, hlog, -⟩ := recognise_eq_some.mp he
      have hp : (⟨text, offset, log⟩ : Placed) ∈ parsedLines x ls :=
        mem_parsedLines.mpr ⟨List.mem_of_getElem? hi, hlog⟩
      refine Or.inr ⟨⟨text, offset, log⟩, mem_recognisedLines.mpr ⟨hp, hrec⟩, fun b' hb' hm => ?_,
        hrow⟩
      obtain ⟨b, hb, rfl⟩ := List.mem_map.mp hb'
      obtain ⟨m, hm, hmp⟩ := List.mem_map.mp hm
      have hsrc : m.source = (text, offset) := congrArg (fun p => (p.line, p.offset)) hmp
      have hmi := (mem_entries.mp (source_mem_of_member hb hm)).1
      have hidx : m.bufIdx = i := (List.getElem?_inj (List.getElem?_eq_some_iff.mp hmi).1
        (nodup_of_ascending h)).mp (by rw [hmi, hi, hsrc])
      exact hfree (mem_suppressed.mpr ⟨b, hb, m, hm, hidx⟩)
  · rintro (⟨b', hb', rfl⟩ | ⟨p, hp, hfree, hrow⟩)
    · obtain ⟨b, hb, rfl⟩ := List.mem_map.mp hb'
      exact ⟨.summary b, mem_bufferOps_summary.mpr hb, rfl⟩
    · obtain ⟨hmem, hlog⟩ := mem_parsedLines.mp (mem_recognisedLines.mp hp).1
      obtain ⟨i, hi⟩ := List.mem_iff_getElem?.mp hmem
      refine ⟨.line p.line p.offset, mem_bufferOps_line.mpr ⟨i, hi, fun hs => ?_⟩, hrow⟩
      obtain ⟨b, hb, m, hm, rfl⟩ := mem_suppressed.mp hs
      obtain ⟨hmi, hmlog⟩ := mem_entries.mp (source_mem_of_member hb hm)
      refine hfree _ (List.mem_map_of_mem hb) (List.mem_map.mpr ⟨m, hm, ?_⟩)
      have hsrc : m.source = (p.line, p.offset) := Option.some.inj (hmi.symm.trans hi)
      obtain ⟨hline, hoff⟩ := Prod.mk.inj hsrc
      rw [hline, hlog, Option.some.injEq] at hmlog
      cases p
      simp_all [Entry.placed]

/-! ### Rows and their keys -/

theorem anchor_mem {items : List Placed} {b : Burst Placed}
    (hb : b ∈ burstsOf Placed.log items builtinBurstRules) : b.anchor ∈ items :=
  mem_of_mem_members hb (burstIn_of_mem hb).anchor_mem

section Keys
variable {items : List Placed} (h : ls.Pairwise fun a b => a.2 < b.2)
  (hitems : items.Sublist (parsedLines x ls))
include h hitems

theorem items_ascending : items.Pairwise fun p q => p.offset < q.offset :=
  (parsedLines_ascending h).sublist hitems

theorem items_nodup : items.Nodup := nodup_of_ascending (items_ascending h hitems)

/-- Two bursts with their anchors at one offset are one. -/
theorem eq_of_anchor_offset_eq {b b' : Burst Placed}
    (hb : b ∈ burstsOf Placed.log items builtinBurstRules)
    (hb' : b' ∈ burstsOf Placed.log items builtinBurstRules)
    (ho : b.anchor.offset = b'.anchor.offset) : b = b' := by
  have ha : b.anchor = b'.anchor := placed_eq_of_offset_eq h
    (hitems.subset (anchor_mem hb)) (hitems.subset (anchor_mem hb')) ho
  exact eq_of_mem_members (items_nodup h hitems) hb hb' (burstIn_of_mem hb).anchor_mem
    (ha ▸ (burstIn_of_mem hb').anchor_mem)

theorem summaryOf_key_ne {b : Burst Placed} (hb : b ∈ burstsOf Placed.log items builtinBurstRules)
    {p : Placed} (hp : p ∈ parsedLines x ls) :
    (summaryOf x logSource b).idempotencyKey ≠ idempotencyKey x logSource p.offset p.line := by
  intro hk
  obtain ⟨ho, hl⟩ := idempotencyKey_inj hk
  have := placed_eq_of_offset_eq h (hitems.subset (anchor_mem hb)) hp ho
  rw [← this] at hl
  exact syntheticLine_ne _ _ _ hl

/-- Rows under one key are one row. -/
theorem rows_inj {r r' : EventRow}
    (hr : Rows x rules logSource ls (burstsOf Placed.log items builtinBurstRules) r)
    (hr' : Rows x rules logSource ls (burstsOf Placed.log items builtinBurstRules) r')
    (hk : r.idempotencyKey = r'.idempotencyKey) : r = r' := by
  rcases hr with ⟨b, hb, rfl⟩ | ⟨p, hp, -, hrow⟩ <;>
    rcases hr' with ⟨b', hb', rfl⟩ | ⟨p', hp', -, hrow'⟩
  · rw [eq_of_anchor_offset_eq h hitems hb hb' (idempotencyKey_inj hk).1]
  · exact absurd (hk.trans (lineRow_eq_some hrow').2)
      (summaryOf_key_ne h hitems hb (mem_recognisedLines.mp hp').1)
  · exact absurd (hk.symm.trans (lineRow_eq_some hrow).2)
      (summaryOf_key_ne h hitems hb' (mem_recognisedLines.mp hp).1)
  · rw [(lineRow_eq_some hrow).2, (lineRow_eq_some hrow').2] at hk
    obtain ⟨ho, hl⟩ := idempotencyKey_inj hk
    rw [ho, hl, hrow', Option.some.injEq] at hrow
    exact hrow.symm

end Keys

/-- **The store after one window.** -/
theorem mem_collapsedLive (h : ls.Pairwise fun a b => a.2 < b.2) (noiseList : List String)
    (now : String) {r : EventRow} :
    r ∈ (collapsedLive x rules logSource (.fresh noiseList now) ls).events.contents ↔
      Rows x rules logSource ls (liveRuns x ls) r := by
  have hev : (collapsedLive x rules logSource (.fresh noiseList now) ls).events =
      Table.empty.insertAll ((bufferOps x builtinBurstRules ls).filterMap
        (BufferOp.row x rules logSource)) := events_foldl_run _ _
  rw [hev, Table.mem_contents_insertAll_empty, row_of_bufferOps_iff h]
  intro r hr r' hr'
  rw [row_of_bufferOps_iff h] at hr hr'
  exact rows_inj h (List.Sublist.refl _) hr hr'

/-! ### Line upon line, and a re-parse -/

section Retro
variable (h : ls.Pairwise fun a b => a.2 < b.2)

variable (x rules logSource ls) in
/-- The events that are stored when each line is stored on its own. -/
def storedLines : Events := Table.empty.insertAll (lineRows x rules logSource ls)

theorem events_storedOneByOne : ∀ (ls : List (String × ℕ)) (st : Storage),
    (storedOneByOne x rules logSource st ls).events =
      st.events.insertAll (lineRows x rules logSource ls)
  | [], _ => rfl
  | l :: ls, st => by
    have ih := events_storedOneByOne ls (ingestOneLine x rules st logSource l.2 l.1).1
    rw [events_ingestOneLine, ← Table.insertAll_append] at ih
    refine ih.trans (congrArg _ ?_)
    rw [lineRows, lineRows, List.filterMap_cons]
    cases lineRow x rules logSource l.2 l.1 <;> rfl

theorem exists_of_mem_lineRows {r : EventRow} (hr : r ∈ lineRows x rules logSource ls) :
    ∃ p ∈ recognisedLines x rules ls, lineRow x rules logSource p.offset p.line = some r ∧
      r.rawLine = p.line ∧ r.sourceOffset = p.offset ∧ r.logSource = logSource ∧
      r.eventType ≠ "burst_summary" := by
  obtain ⟨l, hl, hrow⟩ := List.mem_filterMap.mp hr
  obtain ⟨e, he, hre⟩ := Option.map_eq_some_iff.mp hrow
  obtain ⟨log, hlog, -⟩ := recognise_eq_some.mp he
  refine ⟨⟨l.1, l.2, log⟩, mem_recognisedLines.mpr ⟨mem_parsedLines.mpr ⟨hl, hlog⟩, by simp [he]⟩,
    hrow, ?_⟩
  subst hre
  exact ⟨rfl, rfl, rfl, eventTypeKey_ne_burstSummary he⟩

theorem mem_lineRows_of_mem {p : Placed} (hp : p ∈ recognisedLines x rules ls) {r : EventRow}
    (hr : lineRow x rules logSource p.offset p.line = some r) :
    r ∈ lineRows x rules logSource ls :=
  List.mem_filterMap.mpr ⟨_, (mem_parsedLines.mp (mem_recognisedLines.mp hp).1).1, hr⟩

include h in
theorem contents_storedLines :
    (storedLines x rules logSource ls).contents = lineRows x rules logSource ls := by
  refine Table.contents_insertAll ?_
  simp only [Table.empty, Table.keys, List.map_nil, List.nil_append, lineRows]
  refine List.pairwise_map.mpr (List.Pairwise.filterMap _ ?_ h)
  intro a b hab r hr r' hr' hk
  rw [(lineRow_eq_some hr).2, (lineRow_eq_some hr').2] at hk
  have := (idempotencyKey_inj hk).1
  omega

include h in
theorem mem_rows_storedLines {a : ℕ × EventRow}
    (ha : a ∈ (storedLines x rules logSource ls).rows) :
    a.2 ∈ lineRows x rules logSource ls :=
  contents_storedLines h ▸ List.mem_map_of_mem ha

include h in
theorem classified_storedLines (source : String) :
    Classified x rules (storedLines x rules logSource ls) source := fun _ ha _ _ =>
  let ⟨_, _, _, _, _, _, ht⟩ := exists_of_mem_lineRows (mem_rows_storedLines h ha)
  ht

/-- **What is scanned is what was recognised.** -/
theorem map_placed_scanned (h : ls.Pairwise fun a b => a.2 < b.2) :
    (scanned x rules (storedLines x rules logSource ls) logSource).map ScanEntry.placed =
      recognisedLines x rules ls := by
  let placedOf (r : EventRow) : Option Placed :=
    (structuralParse x r.rawLine).map (⟨r.rawLine, r.sourceOffset, ·⟩)
  have hentries : ((storedLines x rules logSource ls).rows.filterMap
      (entryFor x rules logSource)).map ScanEntry.placed =
        (storedLines x rules logSource ls).contents.filterMap placedOf := by
    rw [List.map_filterMap, Table.contents, List.filterMap_map]
    refine List.filterMap_congr fun a ha => ?_
    obtain ⟨p, -, -, -, -, hsrc, ht⟩ := exists_of_mem_lineRows (mem_rows_storedLines h ha)
    rw [entryFor, if_pos ⟨hsrc, fun hbs => absurd hbs ht⟩, Option.map_map]
    rfl
  have hlines : (lineRows x rules logSource ls).filterMap placedOf = recognisedLines x rules ls := by
    rw [lineRows, List.filterMap_filterMap, recognisedLines, parsedLines, List.filter_filterMap]
    refine List.filterMap_congr fun l _ => ?_
    cases hr : recognise x rules l.1 with
    | none =>
      have : lineRow x rules logSource l.2 l.1 = none := by rw [lineRow, rowUnder, hr]; rfl
      rw [this]
      cases structuralParse x l.1 <;> simp [Option.filter, hr]
    | some e =>
      obtain ⟨log, hlog, -⟩ := recognise_eq_some.mp hr
      simp [lineRow, rowUnder, hr, hlog, placedOf, Option.filter]
  rw [scanned, map_sortBy (p := ScanEntry.sourceOffset) (q := Placed.offset) (fun _ => rfl), hentries, contents_storedLines h,
    hlines]
  exact sortBy_eq_self ((items_ascending h recognisedLines_sublist).imp fun hlt => hlt.le)

theorem map_burstsIn (h : ls.Pairwise fun a b => a.2 < b.2) :
    (burstsIn x rules (storedLines x rules logSource ls) logSource).map
      (mapItems ScanEntry.placed) = retroRuns x rules ls := by
  rw [retroRuns, ← map_placed_scanned h, burstsOf_map]
  rfl

include h in
theorem mem_retroBursts_iff {p : String × Burst ScanEntry} :
    p ∈ retroBursts x rules (storedLines x rules logSource ls) ↔
      p.1 = logSource ∧
        p.2 ∈ burstsIn x rules (storedLines x rules logSource ls) logSource := by
  have hsource : ∀ source ∈ logSources (storedLines x rules logSource ls), source = logSource := by
    intro source hs
    obtain ⟨a, ha, rfl⟩ := mem_logSources.mp hs
    obtain ⟨_, _, _, _, _, hsrc, _⟩ := exists_of_mem_lineRows (mem_rows_storedLines h ha)
    exact hsrc
  constructor
  · intro hp
    obtain ⟨source, hs, hp⟩ := List.mem_flatMap.mp hp
    obtain ⟨b, hb, rfl⟩ := List.mem_map.mp hp
    obtain rfl := hsource source hs
    exact ⟨rfl, hb⟩
  · rintro ⟨hsrc, hb⟩
    obtain ⟨a, ha, -, he⟩ := exists_row_of_mem_scanned
      (mem_of_mem_members hb (burstIn_of_mem hb).anchor_mem)
    refine List.mem_flatMap.mpr ⟨logSource, mem_logSources.mpr ⟨a, ha, (entryFor_eq_some he).1⟩, ?_⟩
    exact List.mem_map.mpr ⟨p.2, hb, Prod.ext hsrc.symm rfl⟩

/-- A stored line is taken by a burst exactly if it is a member of one of the runs. -/
theorem mem_memberIds_iff (h : ls.Pairwise fun a b => a.2 < b.2) {a : ℕ × EventRow} {p : Placed}
    (ha : a ∈ (storedLines x rules logSource ls).rows) (hp : p ∈ recognisedLines x rules ls)
    (hrow : lineRow x rules logSource p.offset p.line = some a.2) :
    a.1 ∈ memberIds (retroBursts x rules (storedLines x rules logSource ls)) ↔
      ∃ b ∈ retroRuns x rules ls, p ∈ b.members := by
  rw [← map_burstsIn h, mem_memberIds]
  constructor
  · rintro ⟨q, hq, m, hm, hid⟩
    have hb := ((mem_retroBursts_iff h).mp hq).2
    refine ⟨_, List.mem_map_of_mem hb, List.mem_map.mpr ⟨m, hm, ?_⟩⟩
    obtain ⟨c, hc, hcid, he⟩ := exists_row_of_mem_scanned (mem_of_mem_members hb hm)
    obtain rfl := Table.eq_of_id_eq hc ha (hcid.trans hid)
    obtain ⟨-, hm', hlog⟩ := entryFor_eq_some he
    obtain ⟨e, -, hce⟩ := Option.map_eq_some_iff.mp hrow
    have hplog := (mem_parsedLines.mp (mem_recognisedLines.mp hp).1).2
    rw [← hce] at hm' hlog
    have hpm : m.log = p.log := Option.some.inj (hlog.symm.trans hplog)
    rw [hm', ScanEntry.placed, hpm]
  · rintro ⟨b', hb', hm'⟩
    obtain ⟨b, hb, rfl⟩ := List.mem_map.mp hb'
    obtain ⟨m, hm, rfl⟩ := List.mem_map.mp hm'
    refine ⟨(logSource, b), (mem_retroBursts_iff h).mpr ⟨rfl, hb⟩, m, hm, ?_⟩
    obtain ⟨c, hc, hcid, he⟩ := exists_row_of_mem_scanned (mem_of_mem_members hb hm)
    obtain ⟨q, -, hq, hraw, hoff, -⟩ := exists_of_mem_lineRows (mem_rows_storedLines h hc)
    obtain ⟨-, hm', -⟩ := entryFor_eq_some he
    have hcrow :
        lineRow x rules logSource (ScanEntry.placed m).offset (ScanEntry.placed m).line = some c.2 := by
      rw [hm']
      simp only [ScanEntry.placed, hraw, hoff, hq]
    rw [hrow, Option.some.injEq] at hcrow
    exact hcid.symm.trans (congrArg Prod.fst (Table.eq_of_key_eq hc ha (by rw [hcrow])))

include h in
/-- **The store after line upon line and a re-parse.** -/
theorem mem_collapsedLater (noiseList : List String) (now : String) {r : EventRow} :
    r ∈ (collapsedLater x rules logSource (.fresh noiseList now) ls).events.contents ↔
      Rows x rules logSource ls (retroRuns x rules ls) r := by
  have hst : (storedOneByOne x rules logSource (.fresh noiseList now) ls).events =
      storedLines x rules logSource ls := events_storedOneByOne ls _
  obtain ⟨m, hrun, -⟩ := collapseBursts_spec (x := x)
    (s := (storedOneByOne x rules logSource (.fresh noiseList now) ls, .zero))
    (by simp only [hst]; exact classified_storedLines h)
  simp only [hst] at hrun
  have hcol := @collapsed_sources x rules (storedLines x rules logSource ls) _
    (nodup_logSources (storedLines x rules logSource ls))
  rw [← retroBursts] at hcol
  rw [collapsedLater, hrun, Table.mem_contents]
  generalize (retroBursts x rules (storedLines x rules logSource ls)).foldl (storeBurst x)
    (storedLines x rules logSource ls) = u at hcol
  obtain ⟨news, hfinal, hnews, -⟩ := hcol.rows
  have hrows : ∀ a ∈ u.rows, Rows x rules logSource ls (retroRuns x rules ls) a.2 := by
    intro a ha
    rw [hfinal] at ha
    rcases List.mem_append.mp ha with ha | ha
    · obtain ⟨ha, hfree⟩ := List.mem_filter.mp ha
      obtain ⟨p, hp, hrow, -⟩ := exists_of_mem_lineRows (mem_rows_storedLines h ha)
      refine Or.inr ⟨p, hp, fun b hb hm => ?_, hrow⟩
      exact of_decide_eq_true hfree ((mem_memberIds_iff h ha hp hrow).mpr ⟨b, hb, hm⟩)
    · obtain ⟨-, p, hp, hrow⟩ := hnews a ha
      obtain ⟨hsrc, hb⟩ := (mem_retroBursts_iff h).mp hp
      rw [← map_burstsIn h, hrow, hsrc]
      exact Or.inl ⟨_, List.mem_map_of_mem hb, rfl⟩
  constructor
  · rintro ⟨a, ha, rfl⟩
    exact hrows a ha
  · rintro (⟨b, hb, rfl⟩ | ⟨p, hp, hfree, hrow⟩)
    · have hkey : (summaryOf x logSource b).idempotencyKey ∈ u.keys := by
        rw [hcol.keys, mem_held_iff]
        · rw [← map_burstsIn h] at hb
          obtain ⟨b₀, hb₀, rfl⟩ := List.mem_map.mp hb
          exact Or.inr ⟨(logSource, b₀), (mem_retroBursts_iff h).mpr ⟨rfl, hb₀⟩, rfl⟩
        · -- the keys of the members are keys of lines
          intro q _ hk
          obtain ⟨a, ha, hak⟩ := List.mem_map.mp hk
          obtain ⟨p, hp, hrow, -⟩ := exists_of_mem_lineRows
            (mem_rows_storedLines h (List.mem_of_mem_filter ha))
          exact summaryOf_key_ne h recognisedLines_sublist hb (mem_recognisedLines.mp hp).1
            (hak.symm.trans (lineRow_eq_some hrow).2)
      obtain ⟨a, ha, hak⟩ := Table.mem_keys.mp hkey
      exact ⟨a, ha, rows_inj h recognisedLines_sublist (hrows a ha) (Or.inl ⟨b, hb, rfl⟩) hak⟩
    · have hr := mem_lineRows_of_mem hp hrow
      rw [← contents_storedLines h, Table.mem_contents] at hr
      obtain ⟨a, ha, rfl⟩ := hr
      refine ⟨a, ?_, rfl⟩
      rw [hfinal]
      refine List.mem_append_left _ (List.mem_filter.mpr ⟨ha, decide_eq_true fun hm => ?_⟩)
      obtain ⟨b, hb, hpb⟩ := (mem_memberIds_iff h ha hp hrow).mp hm
      exact hfree b hb hpb

end Retro

/-! ### When the two agree -/

section Agree

/-- A line that a built-in rule takes has the event name of the rule. -/
theorem eventName_of_member {items : List Placed} {b : Burst Placed}
    (hb : b ∈ burstsOf Placed.log items builtinBurstRules) {m : Placed} (hm : m ∈ b.members) :
    ∃ rule ∈ builtinBurstRules, rule.id = b.ruleId ∧
      (lineMatches m.log rule.anchor rule.tags ∨ lineMatches m.log rule.member rule.tags) := by
  obtain ⟨rule, hrule, hid, -, hanchor, hmember⟩ := (burstIn_of_mem hb).matches_rule
  refine ⟨rule, hrule, hid, ?_⟩
  by_cases hma : m = b.anchor
  · exact Or.inl (hma ▸ hanchor)
  · exact Or.inr (hmember m hm hma)

/-- Two bursts that share a line are of one rule, even among different lines. -/
theorem ruleId_eq_of_mem {items items' : List Placed} {b b' : Burst Placed}
    (hb : b ∈ burstsOf Placed.log items builtinBurstRules)
    (hb' : b' ∈ burstsOf Placed.log items' builtinBurstRules) {m : Placed} (hm : m ∈ b.members)
    (hm' : m ∈ b'.members) : b.ruleId = b'.ruleId := by
  obtain ⟨rule, hrule, hid, hmat⟩ := eventName_of_member hb hm
  obtain ⟨rule', hrule', hid', hmat'⟩ := eventName_of_member hb' hm'
  rw [← hid, ← hid', eq_of_lineMatches hrule hrule' hmat hmat']

/-- All of a burst comes behind its anchor. -/
theorem anchor_offset_le {items : List Placed} (hitems : items.Sublist (parsedLines x ls))
    (h : ls.Pairwise fun a b => a.2 < b.2) {b : Burst Placed}
    (hb : b ∈ burstsOf Placed.log items builtinBurstRules) {m : Placed} (hm : m ∈ b.members) :
    b.anchor.offset ≤ m.offset := by
  have hasc := (items_ascending h hitems).sublist (members_sublist hb)
  have hhead := (burstIn_of_mem hb).head_eq
  obtain ⟨tail, htail⟩ := List.head?_eq_some_iff.mp hhead
  rw [htail] at hasc hm
  rcases List.mem_cons.mp hm with rfl | hm
  · exact Nat.le_refl _
  · exact ((List.pairwise_cons.mp hasc).1 m hm).le

/-- Of two bursts of one rule, the one whose anchor is first ends before the other. -/
theorem offset_lt_anchor {items : List Placed} (hitems : items.Sublist (parsedLines x ls))
    (h : ls.Pairwise fun a b => a.2 < b.2) {b b' : Burst Placed}
    (hb : b ∈ burstsOf Placed.log items builtinBurstRules)
    (hb' : b' ∈ burstsOf Placed.log items builtinBurstRules) (hid : b.ruleId = b'.ruleId)
    (hlt : b.anchor.offset < b'.anchor.offset) {m : Placed} (hm : m ∈ b.members) :
    m.offset < b'.anchor.offset := by
  have hasc := items_ascending h hitems
  rcases burstsOf_apart nodup_ruleIds hb hb' hid with rfl | hap | hap
  · omega
  · exact (List.pairwise_append.mp (hasc.sublist hap)).2.2 m hm _ (burstIn_of_mem hb').anchor_mem
  · have := (List.pairwise_append.mp (hasc.sublist hap)).2.2 _ (burstIn_of_mem hb').anchor_mem _
      (burstIn_of_mem hb).anchor_mem
    omega

theorem exists_burst_of_rows {runs : List (Burst Placed)} {r : EventRow}
    (hr : Rows x rules logSource ls runs r) (ht : r.eventType = "burst_summary") :
    ∃ b ∈ runs, r = summaryOf x logSource b := by
  rcases hr with hb | ⟨p, hp, -, hrow⟩
  · exact hb
  · obtain ⟨_, _, _, _, _, _, hne⟩ := exists_of_mem_lineRows (mem_lineRows_of_mem hp hrow)
    exact absurd ht hne

variable (h : ls.Pairwise fun a b => a.2 < b.2)

/-- The same start and length: the summaries of the two bursts are one. -/
def SameStart (b b' : Burst Placed) : Prop :=
  b.ruleId = b'.ruleId ∧ b.size = b'.size ∧ b.anchor = b'.anchor

include h in
theorem sameStart_of_summaryOf_eq {b b' : Burst Placed} (hb : b ∈ liveRuns x ls)
    (hb' : b' ∈ retroRuns x rules ls) (hs : summaryOf x logSource b = summaryOf x logSource b') :
    SameStart b b' := by
  obtain ⟨ho, hl⟩ := idempotencyKey_inj (congrArg EventRow.idempotencyKey hs)
  have ha : b.anchor = b'.anchor := placed_eq_of_offset_eq h (anchor_mem hb)
    (recognisedLines_sublist.subset (anchor_mem hb')) ho
  rw [ha] at hl
  obtain ⟨hr, hn⟩ := syntheticLine_inj hl
  exact ⟨hr, hn, ha⟩

include h in
/-- **Bursts that start alike are alike**, where every burst has one that starts alike among the other
lines, and the window takes every line that the store gives up. -/
theorem eq_of_sameStart
    (hlive : ∀ b ∈ liveRuns x ls, ∃ b' ∈ retroRuns x rules ls, SameStart b b')
    (htaken : ∀ b' ∈ retroRuns x rules ls, ∀ m ∈ b'.members, ∃ c ∈ liveRuns x ls, m ∈ c.members)
    {b b' : Burst Placed} (hb : b ∈ liveRuns x ls) (hb' : b' ∈ retroRuns x rules ls)
    (hs : SameStart b b') : b = b' := by
  obtain ⟨hid, hsize, hanchor⟩ := hs
  have hsub : ∀ m ∈ b'.members, m ∈ b.members := by
    intro m hm
    obtain ⟨c, hc, hmc⟩ := htaken b' hb' m hm
    have hcid : c.ruleId = b.ruleId := (ruleId_eq_of_mem hc hb' hmc hm).trans hid.symm
    obtain ⟨c', hc', hcid', -, hcanchor⟩ := hlive c hc
    have hcm := anchor_offset_le (List.Sublist.refl _) h hc hmc
    have hbm := anchor_offset_le recognisedLines_sublist h hb' hm
    -- a burst that holds `m` starts neither before `b` nor behind it
    rcases Nat.lt_trichotomy c.anchor.offset b.anchor.offset with hlt | heq | hlt
    · have := offset_lt_anchor (List.Sublist.refl _) h hc hb hcid hlt hmc
      rw [hanchor] at this
      omega
    · rwa [eq_of_anchor_offset_eq h (List.Sublist.refl _) hb hc heq.symm]
    · have := offset_lt_anchor recognisedLines_sublist h hb' hc'
        (hid.symm.trans (hcid.symm.trans hcid')) (by rwa [← hanchor, ← hcanchor]) hm
      rw [← hcanchor] at this
      omega
  have hasc := (items_ascending h (List.Sublist.refl _)).sublist (members_sublist hb)
  have hasc' := (items_ascending h recognisedLines_sublist).sublist (members_sublist hb')
  have hlen : b.members.length = b'.members.length := by
    rw [← (burstIn_of_mem hb).size_eq, ← (burstIn_of_mem hb').size_eq, hsize]
  have hmem : b'.members = b.members := by
    refine List.Perm.eq_of_pairwise ?_ hasc' hasc ?_
    · exact fun p q _ _ hpq hqp => by omega
    · exact (List.subperm_of_subset (nodup_of_ascending hasc') hsub).perm_of_length_le hlen.le
  have hlast : b.last = b'.last := by
    have hl := (burstIn_of_mem hb).last_eq
    rw [← hmem, (burstIn_of_mem hb').last_eq] at hl
    exact (Option.some.inj hl).symm
  obtain ⟨ruleId, anchor, last, size, members⟩ := b
  obtain ⟨ruleId', anchor', last', size', members'⟩ := b'
  simp only [Burst.mk.injEq]
  exact ⟨hid, hanchor, hlast, hsize, hmem.symm⟩

include h in
theorem sameRuns_of_rows
    (hall : ∀ r, Rows x rules logSource ls (retroRuns x rules ls) r ↔
      Rows x rules logSource ls (liveRuns x ls) r) : SameRuns x rules ls := by
  have hlive : ∀ b ∈ liveRuns x ls, ∃ b' ∈ retroRuns x rules ls, SameStart b b' := by
    intro b hb
    obtain ⟨b', hb', hs⟩ := exists_burst_of_rows ((hall _).mpr (Or.inl ⟨b, hb, rfl⟩)) rfl
    exact ⟨b', hb', sameStart_of_summaryOf_eq h hb hb' hs⟩
  have hretro : ∀ b' ∈ retroRuns x rules ls, ∃ b ∈ liveRuns x ls, SameStart b b' := by
    intro b' hb'
    obtain ⟨b, hb, hs⟩ := exists_burst_of_rows ((hall _).mp (Or.inl ⟨b', hb', rfl⟩)) rfl
    exact ⟨b, hb, sameStart_of_summaryOf_eq h hb hb' hs.symm⟩
  have htaken : ∀ b' ∈ retroRuns x rules ls, ∀ m ∈ b'.members,
      ∃ c ∈ liveRuns x ls, m ∈ c.members := by
    intro b' hb' m hm
    by_contra hnone
    have hmem := mem_of_mem_members hb' hm
    obtain ⟨r, hr⟩ := exists_lineRow
      (mem_recognisedLines.mp hmem).2
    rcases (hall r).mpr (Or.inr ⟨m, hmem, fun c hc hmc => hnone ⟨c, hc, hmc⟩, hr⟩) with
      ⟨b, -, rfl⟩ | ⟨p, hp, hfree, hrow⟩
    · obtain ⟨_, _, _, _, _, _, hne⟩ := exists_of_mem_lineRows (mem_lineRows_of_mem hmem hr)
      exact hne rfl
    · have hk := (lineRow_eq_some hr).2.symm.trans (lineRow_eq_some hrow).2
      rw [placed_eq_of_offset_eq h (mem_recognisedLines.mp hp).1 (mem_recognisedLines.mp hmem).1
        (idempotencyKey_inj hk).1.symm] at hfree
      exact hfree b' hb' hm
  intro b
  constructor
  · intro hb
    obtain ⟨b', hb', hs⟩ := hlive b hb
    rwa [eq_of_sameStart h hlive htaken hb hb' hs]
  · intro hb'
    obtain ⟨b₀, hb, hs⟩ := hretro b hb'
    rwa [← eq_of_sameStart h hlive htaken hb hb' hs]

variable (x rules logSource ls) in
/-- Both ways leave the same summaries and the same lines. -/
def Agree (noiseList : List String) (now : String) : Prop :=
  ∀ r, r ∈ (collapsedLater x rules logSource (.fresh noiseList now) ls).events.contents ↔
    r ∈ (collapsedLive x rules logSource (.fresh noiseList now) ls).events.contents

include h in
theorem agree_iff (noiseList : List String) (now : String) :
    Agree x rules logSource ls noiseList now ↔ SameRuns x rules ls := by
  simp only [Agree, mem_collapsedLater h, mem_collapsedLive h]
  refine ⟨sameRuns_of_rows h, fun hsame r => ?_⟩
  simp only [Rows, hsame _]

end Agree

/-- **A log that is stored line by line and collapsed later comes to what one window makes of it,
exactly if the bursts among its recognised lines are those among all lines that parse.** -/
theorem collapse_agrees_iff (x : Externals) (rules : List CompiledRemoteRule) (logSource : String)
    (noiseList : List String) (now : String) (file : List UInt8) :
    Agree x rules logSource (replayed file .good 0) noiseList now ↔
      SameRuns x rules (replayed file .good 0) :=
  agree_iff (linesOf_replayed file .good).ordered noiseList now

/-! ### An unknown line between notifications -/

/-- Two notifications, a line of another kind, and a third notification. -/
def interrupted : List (String × ℕ) :=
  [(notifiedLine, 0), ("<2> <SHUDEvent_OnNotification> Added notification \"\" [1].", 58),
    ("<2> <X>", 116), ("<3> <SHUDEvent_OnNotification> Added notification \"\" [1].", 124)]

theorem parsedLines_interrupted : parsedLines .std interrupted =
    [⟨notifiedLine, 0, notifiedLog⟩,
      ⟨"<2> <SHUDEvent_OnNotification> Added notification \"\" [1].", 58,
        { notifiedLog with timestamp := "2" }⟩,
      ⟨"<2> <X>", 116, ⟨"2", none, some "X", "", []⟩⟩,
      ⟨"<3> <SHUDEvent_OnNotification> Added notification \"\" [1].", 124,
        { notifiedLog with timestamp := "3" }⟩] := by
  have h₂ : structuralParse .std "<2> <SHUDEvent_OnNotification> Added notification \"\" [1]." =
      some { notifiedLog with timestamp := "2" } := by decide +kernel
  have hx : structuralParse .std "<2> <X>" = some ⟨"2", none, some "X", "", []⟩ := by decide +kernel
  have h₃ : structuralParse .std "<3> <SHUDEvent_OnNotification> Added notification \"\" [1]." =
      some { notifiedLog with timestamp := "3" } := by decide +kernel
  simp only [parsedLines, interrupted, List.filterMap_cons, List.filterMap_nil,
    structuralParse_notifiedLine, h₂, hx, h₃, Option.map_some]

theorem retroRuns_interrupted : (retroRuns .std [] interrupted).map (·.size) = [3] ∧
    liveRuns .std interrupted = [] := by
  have hn : recogniseParsed .std [] notifiedLog = some notifiedEvent := by
    rw [recogniseParsed, classify_notifiedLog, Option.some_or]
  have h₂ : (recogniseParsed .std [] { notifiedLog with timestamp := "2" }).isSome := by
    decide +kernel
  have hx : recogniseParsed .std [] ⟨"2", none, some "X", "", []⟩ = none := by decide +kernel
  have h₃ : (recogniseParsed .std [] { notifiedLog with timestamp := "3" }).isSome := by
    decide +kernel
  have hrec : ∀ p ∈ parsedLines .std interrupted,
      recognise .std [] p.line = recogniseParsed .std [] p.log := fun p hp => by
    rw [recognise, (mem_parsedLines.mp hp).2, Option.bind_some]
  rw [retroRuns, recognisedLines, List.filter_congr fun p hp => by rw [hrec p hp], liveRuns,
    parsedLines_interrupted]
  simp only [List.filter_cons, hn, h₂, hx, h₃, Option.isSome_some, Option.isSome_none, if_true,
    Bool.false_eq_true, if_false, List.filter_nil]
  decide +kernel

/-- The window shows no burst; the store, which has no trace of the line between them, shows one of
three. -/
theorem not_agree_interrupted : (interrupted.map (·.1)).Nodup ∧
    ¬ Agree .std [] "live" interrupted [] "" := by
  refine ⟨by decide +kernel, ?_⟩
  rw [agree_iff (by decide +kernel)]
  intro hsame
  obtain ⟨hretro, hlive⟩ := retroRuns_interrupted
  obtain ⟨b, hb, -⟩ := List.map_eq_singleton_iff.mp hretro
  have := (hsame b).mpr (by rw [hb]; exact List.mem_singleton_self b)
  rw [hlive] at this
  cases this

end

end StarStats.Client.RetroLive
