import StarStats.Lib.Runs
import StarStats.Client.ReplayRuns
import StarStats.Client.InterruptedRuns

/-! # A line under two keys

A rotated log is stored line by line; rules come and go, what is stored is re-parsed, and the log is
read again. A line is stored under its source, its offset and its text, but a sample of it, when it
comes to be recognised, under its source and its text only, and a summary under what its anchor is
keyed on. So a line can get a second row, beside a promoted sample or what was a summary. No line has
two rows exactly if no command stores one that has a row under another key (`oneRowEach_run_iff`).

The first two phases of a re-parse are one command and the third is another, as commands that run
beside a re-parse come between its statements; `reparse` is the two after each other. -/

namespace StarStats.Client.TwoKeys

open StarStats.Lib.Text StarStats.Lib.Tables StarStats.Lib.Lines StarStats.Lib.Runs
open StarStats.Core.Events StarStats.Core.Crates StarStats.Core.Parser StarStats.Core.ParserDefs
open StarStats.Core.Bursts
open StarStats.Client.Store StarStats.Client.Gamelog StarStats.Client.Ingest StarStats.Client.Reading
open StarStats.Client.Backfill StarStats.Client.Reparse StarStats.Client.ReparsePhases
open StarStats.Client.RetroBursts StarStats.Client.ReparseTwice StarStats.Client.Interrupted
open StarStats.Client.InterruptedRuns StarStats.Client.ReplayRuns

/-- A rotated log whose lines occur once. -/
structure Rotated where
  path : Path
  file : List UInt8
  once : ∀ l l' : String × ℕ, IsLine file l → IsLine file l' → l.1 = l'.1 → l = l'

/-- The log that a rotated file is of. -/
def Rotated.source (log : Rotated) : String := logSourceFromPath log.path

/-- What happens to the file's events. -/
inductive Command (log : Rotated) where
  /-- One line is ingested. -/
  | ingest (l : String × ℕ) (isLine : IsLine log.file l)
  /-- The rules are replaced by those fetched. -/
  | fetch (rules : List CompiledRemoteRule)
  /-- The first two phases of a re-parse. -/
  | classify
  /-- The third phase of a re-parse. -/
  | collapse
  /-- The log is read again, with the calls failing that `io` says. -/
  | reingest (io : Io)

/-- The store, and the rules in use. -/
structure World where
  storage : Storage
  rules : List CompiledRemoteRule

section
variable (x : Externals) {log : Rotated}

def World.step (w : World) : Command log → World
  | .ingest l _ => { w with storage := (ingestOneLine x w.rules w.storage log.source l.2 l.1).1 }
  | .fetch rules => { w with rules := rules }
  | .classify =>
    let s := reclassifyEvents x w.rules w.storage
    { w with storage := (promoteUnknowns x w.rules (s.storage, s.stats)).1 }
  | .collapse => { w with storage := (collapseBursts x (w.storage, .zero)).1 }
  | .reingest io => { w with storage := (runReingest x w.rules [⟨log.path, log.file, io⟩] w.storage).1 }

def World.run (w : World) (cmds : List (Command log)) : World := cmds.foldl (World.step x) w

/-- A re-parse that nothing comes between. -/
def reparse (log : Rotated) : List (Command log) := [.classify, .collapse]

/-- The row is of the line. -/
def IsOf (source : String) (l : String × ℕ) (r : EventRow) : Prop :=
  r.logSource = source ∧ r.rawLine = l.1

/-- The row stands for the line alone; a summary stands for others too. -/
def Represents (source : String) (l : String × ℕ) (r : EventRow) : Prop :=
  IsOf source l r ∧ r.eventType ≠ "burst_summary"

/-- **No line of the log has two rows.** -/
def OneRowEach (log : Rotated) (t : Events) : Prop :=
  ∀ l, IsLine log.file l → ∀ a ∈ t.rows, ∀ b ∈ t.rows,
    Represents log.source l a.2 → Represents log.source l b.2 → a = b

/-- A line that is stored has no row, or has its own key. -/
def StoredOnce (log : Rotated) (rules : List CompiledRemoteRule) (t : Events) (l : String × ℕ) : Prop :=
  (recognise x rules l.1).isSome → (∃ a ∈ t.rows, Represents log.source l a.2) →
    idempotencyKey x log.source l.2 l.1 ∈ t.keys

/-- What a re-parse recognises has one row, summaries included, and what it promotes has none. -/
def ClassifiedOnce (log : Rotated) (rules : List CompiledRemoteRule) (st : Storage)
    (l : String × ℕ) : Prop :=
  (recognise x rules l.1).isSome →
    (∀ a ∈ st.events.rows, ∀ b ∈ st.events.rows,
      IsOf log.source l a.2 → IsOf log.source l b.2 → a = b) ∧
    ∀ s ∈ st.unknownSamples.contents, s.logSource = log.source → s.sampleLine = l.1 →
      (∃ a ∈ st.events.rows, IsOf log.source l a.2) →
      reparseIdempotencyKey x log.source l.1 ∈ st.events.keys

/-- A command that stores no line that has a row under another key. -/
def NoSecondRow (w : World) : Command log → Prop
  | .ingest l _ => StoredOnce x log w.rules w.storage.events l
  | .fetch _ | .collapse => True
  | .classify => ∀ l, IsLine log.file l → ClassifiedOnce x log w.rules w.storage l
  | .reingest io => io.opened = .found →
    ∀ l ∈ replayed log.file io 0, StoredOnce x log w.rules w.storage.events l

variable {x}

/-- A re-parse is its commands. -/
theorem storage_reparse (w : World) :
    (w.run x (reparse log)).storage = (runReparse x w.rules w.storage).1 := by
  simp only [World.run, reparse, List.foldl_cons, List.foldl_nil, World.step, runReparse,
    collapseBursts, foldl_collapseOps, promoteUnknowns_fst]

/-! ### Storing lines -/

theorem OneRowEach.mono {t u : Events} (h : OneRowEach log u)
    (hsub : ∀ a ∈ t.rows, a.2.eventType ≠ "burst_summary" → a ∈ u.rows) : OneRowEach log t :=
  fun l hl a ha b hb hal hbl => h l hl a (hsub a ha hal.2) b (hsub b hb hbl.2) hal hbl

theorem lineRow_spec {rules : List CompiledRemoteRule} {source : String} {l : String × ℕ}
    {r : EventRow} (h : lineRow x rules source l.2 l.1 = some r) :
    Represents source l r ∧ r.idempotencyKey = idempotencyKey x source l.2 l.1 := by
  obtain ⟨e, he, rfl⟩ := Option.map_eq_some_iff.mp h
  exact ⟨⟨⟨rfl, rfl⟩, eventTypeKey_ne_burstSummary he⟩, rfl⟩

/-- One line is stored once exactly if it has no row, or has its own key. -/
theorem oneRowEach_insertLine {rules : List CompiledRemoteRule} {t : Events} {l : String × ℕ}
    (ht : OneRowEach log t) (hl : IsLine log.file l) :
    OneRowEach log (t.insertAll (lineRow x rules log.source l.2 l.1).toList) ↔
      StoredOnce x log rules t l := by
  cases hr : lineRow x rules log.source l.2 l.1 with
  | none =>
    have hnone : recognise x rules l.1 = none := by simpa [lineRow, rowUnder] using hr
    simpa [StoredOnce, hnone] using ht
  | some r =>
    obtain ⟨hrl, hkey⟩ := lineRow_spec hr
    have hrec := (lineRow_eq_some hr).1
    rw [Option.toList_some, Table.insertAll_cons, Table.insertAll_nil]
    by_cases hk : idempotencyKey x log.source l.2 l.1 ∈ t.keys
    · rw [Table.insert_of_mem (hkey ▸ hk)]
      exact ⟨fun _ _ _ => hk, fun _ => ht⟩
    · have hnew : (t.seq + 1, r) ∈ (t.insert r).rows :=
        Table.mem_rows_insert.mpr (Or.inr ⟨hkey ▸ hk, rfl⟩)
      constructor
      · rintro hone - ⟨a, ha, hal⟩
        have heq := hone l hl a (Table.mem_rows_insert_of_mem ha) _ hnew hal hrl
        have hle := (t.bounded a ha).2
        rw [heq] at hle
        omega
      · intro hstored
        have hfree : ∀ a ∈ t.rows, ¬ Represents log.source l a.2 := fun a ha hal =>
          hk (hstored hrec ⟨a, ha, hal⟩)
        intro l' hl' a ha b hb hal hbl
        rcases Table.mem_rows_insert.mp ha with ha | ⟨-, rfl⟩ <;>
          rcases Table.mem_rows_insert.mp hb with hb | ⟨-, rfl⟩
        · exact ht l' hl' a ha b hb hal hbl
        · have hll : l' = l := log.once _ _ hl' hl (hbl.1.2.symm.trans hrl.1.2)
          exact absurd (hll ▸ hal) (hfree a ha)
        · have hll : l' = l := log.once _ _ hl' hl (hal.1.2.symm.trans hrl.1.2)
          exact absurd (hll ▸ hbl) (hfree b hb)
        · rfl

theorem storedOnce_insertLine {rules : List CompiledRemoteRule} {t : Events} {l l' : String × ℕ}
    (hne : l.1 ≠ l'.1) : StoredOnce x log rules
      (t.insertAll (lineRow x rules log.source l.2 l.1).toList) l' ↔ StoredOnce x log rules t l' := by
  cases hr : lineRow x rules log.source l.2 l.1 with
  | none => rfl
  | some r =>
    obtain ⟨hrl, hkey⟩ := lineRow_spec hr
    rw [Option.toList_some, Table.insertAll_cons, Table.insertAll_nil]
    have hrows : (∃ a ∈ (t.insert r).rows, Represents log.source l' a.2) ↔
        ∃ a ∈ t.rows, Represents log.source l' a.2 := by
      constructor
      · rintro ⟨a, ha, hal⟩
        rcases Table.mem_rows_insert.mp ha with ha | ⟨-, rfl⟩
        · exact ⟨a, ha, hal⟩
        · exact absurd (hrl.1.2.symm.trans hal.1.2) hne
      · rintro ⟨a, ha, hal⟩
        exact ⟨a, Table.mem_rows_insert_of_mem ha, hal⟩
    have hkeys : idempotencyKey x log.source l'.2 l'.1 ∈ (t.insert r).keys ↔
        idempotencyKey x log.source l'.2 l'.1 ∈ t.keys := by
      rw [Table.mem_keys_insert, hkey]
      refine or_iff_left fun heq => hne ?_
      exact (idempotencyKey_inj heq).2.symm
    rw [StoredOnce, StoredOnce, hrows, hkeys]

/-- **So for some lines of the log.** -/
theorem oneRowEach_insertLines {rules : List CompiledRemoteRule} : ∀ {ls : List (String × ℕ)}
    {t : Events}, OneRowEach log t → (∀ l ∈ ls, IsLine log.file l) →
    ls.Pairwise (fun l l' => l.1 ≠ l'.1) →
    (OneRowEach log (t.insertAll (lineRows x rules log.source ls)) ↔
      ∀ l ∈ ls, StoredOnce x log rules t l)
  | [], t, ht, _, _ => by simpa [lineRows] using ht
  | l :: ls, t, ht, hls, hne => by
    obtain ⟨hl, hls⟩ := List.forall_mem_cons.mp hls
    obtain ⟨hnel, hne⟩ := List.pairwise_cons.mp hne
    have hsplit : t.insertAll (lineRows x rules log.source (l :: ls)) =
        (t.insertAll (lineRow x rules log.source l.2 l.1).toList).insertAll
          (lineRows x rules log.source ls) := by
      rw [← Table.insertAll_append, lineRows, List.filterMap_cons]
      cases lineRow x rules log.source l.2 l.1 <;> rfl
    have hone := @oneRowEach_insertLine x _ rules _ _ ht hl
    rw [hsplit, List.forall_mem_cons]
    constructor
    · intro hall
      have hfirst : OneRowEach log (t.insertAll (lineRow x rules log.source l.2 l.1).toList) :=
        hall.mono fun a ha _ => Table.mem_rows_insertAll_of_mem ha
      refine ⟨hone.mp hfirst, fun l' hl' => ?_⟩
      exact (storedOnce_insertLine (hnel l' hl')).mp
        ((oneRowEach_insertLines hfirst hls hne).mp hall l' hl')
    · rintro ⟨hfirst, hrest⟩
      refine (oneRowEach_insertLines (hone.mpr hfirst) hls hne).mpr fun l' hl' => ?_
      exact (storedOnce_insertLine (hnel l' hl')).mpr (hrest l' hl')

/-! ### Re-parsing -/

/-- The samples are all of the log. -/
def SamplesOf (log : Rotated) (st : Storage) : Prop :=
  ∀ s ∈ st.unknownSamples.contents, s.logSource = log.source

theorem recognise_of_mem_promotions {rules : List CompiledRemoteRule} {st : Storage} {r : EventRow}
    (h : r ∈ promotions x rules st) : ∃ s ∈ st.unknownSamples.contents,
      promotion x rules s = some r ∧ (recognise x rules r.rawLine).isSome ∧
      r.logSource = s.logSource ∧ r.rawLine = s.sampleLine ∧ r.eventType ≠ "burst_summary" ∧
      r.idempotencyKey = reparseIdempotencyKey x s.logSource s.sampleLine := by
  obtain ⟨s, hs, hrow⟩ := List.mem_filterMap.mp h
  have hmem := (List.perm_insertionSort _ _).mem_iff.mp hs
  obtain ⟨e, he, hre⟩ := Option.map_eq_some_iff.mp hrow
  subst hre
  exact ⟨s, hmem, hrow, by simp [he], rfl, rfl, eventTypeKey_ne_burstSummary he, rfl⟩

/-- The key of a promoted sample tells its line, within a log. -/
theorem reparseIdempotencyKey_inj {source line line' : String}
    (h : reparseIdempotencyKey x source line = reparseIdempotencyKey x source line') :
    line = line' := by
  have happ := x.newV5_injective h
  rwa [String.append_right_inj, String.append_right_inj, String.append_right_inj] at happ

/-- **The first two phases leave one row for each line exactly if they recognise none that has two, and
promote no sample of one that has a row.** -/
theorem oneRowEach_classify {rules : List CompiledRemoteRule} {st : Storage} {t : Events}
    (ht : Reclassified x rules st t) (hsrc : SamplesOf log st) (hone : OneRowEach log st.events) :
    OneRowEach log t ↔ ∀ l, IsLine log.file l → ClassifiedOnce x log rules st l := by
  obtain ⟨new, hrows, hst, hnew⟩ := ht.rows
  have hold : ∀ a ∈ st.events.rows, ∃ z, (a.1, reclassified x rules z a.2) ∈ t.rows := fun a ha => by
    obtain ⟨z, hz⟩ := @exists_mem_reclassifiedAll x rules none _ _ ha
    exact ⟨z, by rw [hrows]; exact List.mem_append_left _ hz⟩
  have hcases : ∀ b ∈ t.rows, (∃ z, ∃ a ∈ st.events.rows, b = (a.1, reclassified x rules z a.2)) ∨
      (st.events.seq < b.1 ∧ b.2 ∈ promotions x rules st) := fun b hb => by
    rw [hrows] at hb
    rcases List.mem_append.mp hb with hb | hb
    · obtain ⟨z, a, ha, rfl⟩ := exists_of_mem_reclassifiedAll hb
      exact Or.inl ⟨z, a, ha, rfl⟩
    · exact Or.inr (hnew b hb)
  have hisOf : ∀ {l z} {r : EventRow}, IsOf log.source l (reclassified x rules z r) ↔
      IsOf log.source l r := fun {l z r} => by
    obtain ⟨-, hraw, hsource, -⟩ := @reclassified_frame x rules z r
    rw [IsOf, IsOf, hraw, hsource]
  -- a row of a recognised line is no summary after the first phase
  have hsingle : ∀ {l z} {r : EventRow}, (recognise x rules l.1).isSome → IsOf log.source l r →
      Represents log.source l (reclassified x rules z r) := fun {l z r} hrec hr =>
    ⟨hisOf.mpr hr, eventType_reclassified_ne (by rw [eventOf, hr.2]; exact hrec)⟩
  constructor
  · intro hall l hl hrec
    constructor
    · intro a ha b hb hal hbl
      obtain ⟨z, hza⟩ := hold a ha
      obtain ⟨z', hzb⟩ := hold b hb
      have hid : a.1 = b.1 :=
        congrArg (·.1) (hall l hl _ hza _ hzb (hsingle hrec hal) (hsingle hrec hbl))
      exact Table.eq_of_id_eq ha hb hid
    · rintro s hs hss hsl ⟨a, ha, hal⟩
      by_contra hfree
      obtain ⟨e, he⟩ := Option.isSome_iff_exists.mp hrec
      have hrow : promotion x rules s = some ⟨reparseIdempotencyKey x s.logSource s.sampleLine,
          e.eventTypeKey, e.timestamp, s.sampleLine, e.toValue.render, s.logSource, 0⟩ := by
        rw [promotion, rowUnder, hsl, he]
        rfl
      -- the key is free, so a sample of the line is promoted
      have hkey : reparseIdempotencyKey x log.source l.1 ∈ (promoted x rules st).keys := by
        refine Table.mem_keys_insertAll.mpr (Or.inr ⟨_, List.mem_filterMap.mpr
          ⟨s, (List.perm_insertionSort _ _).mem_iff.mpr hs, hrow⟩, ?_⟩)
        rw [← hss, ← hsl]
      obtain ⟨c, hc, hck⟩ := Table.mem_keys.mp hkey
      rw [hst] at hc
      rcases List.mem_append.mp hc with hc | hc
      · exact hfree (Table.mem_keys.mpr ⟨c, hc, hck⟩)
      · obtain ⟨hlt, hcp⟩ := hnew c hc
        obtain ⟨s', hs', -, -, hcsrc, hcline, hctype, hckey⟩ := recognise_of_mem_promotions hcp
        rw [hsrc s' hs'] at hckey hcsrc
        have hline := reparseIdempotencyKey_inj (hckey.symm.trans hck)
        obtain ⟨z, hza⟩ := hold a ha
        have hct : c ∈ t.rows := by rw [hrows]; exact List.mem_append_right _ hc
        have heq := hall l hl _ hza c hct (hsingle hrec hal) ⟨⟨hcsrc, hcline.trans hline⟩, hctype⟩
        have hle := (st.events.bounded a ha).2
        rw [← heq] at hlt
        simp only at hlt
        omega
  · intro hcond l hl b hb b' hb' hbl hbl'
    by_cases hrec : (recognise x rules l.1).isSome
    · obtain ⟨htwo, hsample⟩ := hcond l hl hrec
      -- a promoted row is of a line that had none
      have hfresh : ∀ c ∈ t.rows, st.events.seq < c.1 → c.2 ∈ promotions x rules st →
          IsOf log.source l c.2 → (∀ a ∈ st.events.rows, ¬ IsOf log.source l a.2) ∧
            c.2.idempotencyKey = reparseIdempotencyKey x log.source l.1 := by
        intro c hc hlt hcp hcl
        obtain ⟨s, hs, -, -, hcsrc, hcline, -, hckey⟩ := recognise_of_mem_promotions hcp
        rw [hsrc s hs, ← hcline, hcl.2] at hckey
        refine ⟨fun a ha hal => ?_, hckey⟩
        have hkey := hsample s hs (hsrc s hs) (hcline.symm.trans hcl.2) ⟨a, ha, hal⟩
        obtain ⟨d, hd, hdk⟩ := Table.mem_keys.mp hkey
        obtain ⟨z, hzd⟩ := hold d hd
        have heq := Table.eq_of_key_eq hzd hc
          ((reclassified_frame z d.2).1.trans (hdk.trans hckey.symm))
        have hle := (st.events.bounded d hd).2
        rw [← heq] at hlt
        simp only at hlt
        omega
      rcases hcases b hb with ⟨z, a, ha, rfl⟩ | ⟨hlt, hbp⟩ <;>
        rcases hcases b' hb' with ⟨z', a', ha', rfl⟩ | ⟨hlt', hbp'⟩
      · obtain rfl := htwo a ha a' ha' (hisOf.mp hbl.1) (hisOf.mp hbl'.1)
        exact Table.eq_of_id_eq hb hb' rfl
      · exact absurd (hisOf.mp hbl.1) ((hfresh b' hb' hlt' hbp' hbl'.1).1 a ha)
      · exact absurd (hisOf.mp hbl'.1) ((hfresh b hb hlt hbp hbl.1).1 a' ha')
      · exact Table.eq_of_key_eq hb hb'
          ((hfresh b hb hlt hbp hbl.1).2.trans (hfresh b' hb' hlt' hbp' hbl'.1).2.symm)
    · -- rows that are not recognised stay as they are
      have hstays : ∀ c ∈ t.rows, Represents log.source l c.2 → c ∈ st.events.rows := by
        intro c hc hcl
        rcases hcases c hc with ⟨z, a, ha, rfl⟩ | ⟨-, hcp⟩
        · have hnone : eventOf x rules a.2 = none := by
            rw [eventOf, (hisOf.mp hcl.1).2]
            exact Option.not_isSome_iff_eq_none.mp hrec
          rw [reclassified_of_none hnone]
          exact ha
        · obtain ⟨s, -, -, hsome, -⟩ := recognise_of_mem_promotions hcp
          rw [hcl.1.2] at hsome
          exact absurd hsome hrec
      exact hone l hl b (hstays b hb hbl) b' (hstays b' hb' hbl') hbl hbl'

/-- What the third phase does to the rows that are no summaries: some go. -/
theorem mem_of_mem_foldl_collapseOps : ∀ (sources : List String) {st : Storage} {a : ℕ × EventRow},
    a ∈ ((collapseOps x sources st).foldl StoreOp.run st).events.rows →
    a.2.eventType ≠ "burst_summary" → a ∈ st.events.rows := by
  have hburst : ∀ (b : String × Burst ScanEntry) {st : Storage} {a : ℕ × EventRow},
      a ∈ ((burstOps x b.1 b.2).foldl StoreOp.run st).events.rows →
      a.2.eventType ≠ "burst_summary" → a ∈ st.events.rows := by
    intro b st a ha hne
    rw [burstOps_eq, List.foldl_cons, foldl_deleteEventById] at ha
    simp only [Table.rows_deleteAll, List.mem_filter] at ha
    rcases Table.mem_rows_insert.mp ha.1 with ha | ⟨-, rfl⟩
    · exact ha
    · exact absurd rfl hne
  have hbursts : ∀ (source : String) (bs : List (Burst ScanEntry)) {st : Storage} {a : ℕ × EventRow},
      a ∈ ((bs.flatMap (burstOps x source)).foldl StoreOp.run st).events.rows →
      a.2.eventType ≠ "burst_summary" → a ∈ st.events.rows := by
    intro source bs
    induction bs with
    | nil => exact fun ha _ => ha
    | cons b bs ih =>
      intro st a ha hne
      rw [List.flatMap_cons, List.foldl_append] at ha
      exact hburst (source, b) (ih ha hne) hne
  intro sources
  induction sources with
  | nil => exact fun ha _ => ha
  | cons source sources ih =>
    intro st a ha hne
    rw [collapseOps, List.foldl_append] at ha
    have hmid := ih ha hne
    rw [sourceOps] at hmid
    split_ifs at hmid with hlen
    · exact hmid
    · exact hbursts source _ hmid hne

theorem mem_samples_run {op : StoreOp} {st : Storage} {s : UnknownSampleRow}
    (h : s ∈ (op.run st).unknownSamples.contents) : s ∈ st.unknownSamples.contents := by
  cases op with
  | deleteUnknown source name =>
    obtain ⟨a, ha, rfl⟩ := List.mem_map.mp h
    exact List.mem_map_of_mem (List.mem_of_mem_filter ha)
  | _ => exact h

theorem SamplesOf.foldl_run : ∀ {ops : List StoreOp} {st : Storage}, SamplesOf log st →
    SamplesOf log (ops.foldl StoreOp.run st)
  | [], _, h => h
  | op :: ops, st, h => @SamplesOf.foldl_run ops (op.run st) fun s hs => h s (mem_samples_run hs)

theorem SamplesOf.ingestOneLine {rules : List CompiledRemoteRule} {st : Storage} (h : SamplesOf log st)
    (offset : ℕ) (line : String) :
    SamplesOf log (ingestOneLine x rules st log.source offset line).1 := by
  unfold Gamelog.ingestOneLine
  cases structuralParse x line with
  | none => exact h
  | some p =>
    cases hr : recogniseParsed x rules p with
    | some e =>
      simp only [hr, serialiseEvent_eq]
      exact h
    | none =>
      simp only [hr]
      cases p.eventName with
      | none => exact h
      | some name =>
        simp only
        split_ifs
        · exact h
        · intro s hs
          rcases Table.mem_contents_upsert.mp hs with ⟨hs, -⟩ | ⟨s₀, hs₀, -, rfl⟩ | ⟨-, rfl⟩
          · exact h s hs
          · exact h s₀ hs₀
          · rfl

theorem SamplesOf.replayLines {rules : List CompiledRemoteRule} {fails : ℕ → Bool} :
    ∀ (i : ℕ) (cs : List (List UInt8)) {r : Replay}, SamplesOf log r.storage →
    SamplesOf log (replayLines x rules log.source fails i cs r).storage
  | _, [], _, h => h
  | i, c :: cs, r, h => by
    unfold Backfill.replayLines
    by_cases hf : fails i
    · rw [if_pos hf]
      exact h
    rw [if_neg hf]
    cases decode c with
    | none => exact h
    | some buf =>
      simp only
      split_ifs
      · exact h
      · exact SamplesOf.replayLines (i + 1) cs (h.ingestOneLine _ _)

/-! ### Runs -/

theorem samplesOf_step {w : World} (h : SamplesOf log w.storage) (cmd : Command log) :
    SamplesOf log (w.step x cmd).storage := by
  cases cmd with
  | ingest l _ => exact h.ingestOneLine _ _
  | fetch rules => exact h
  | classify =>
    simp only [World.step, promoteUnknowns_fst, afterSecond, afterFirst]
    exact h.foldl_run.foldl_run
  | collapse =>
    simp only [World.step, collapseBursts, foldl_collapseOps]
    exact h.foldl_run
  | reingest io =>
    simp only [World.step, runReingest, List.foldl_cons, List.foldl_nil, reingestFile]
    split_ifs
    · exact h
    · exact SamplesOf.replayLines 0 _ h
    · exact SamplesOf.replayLines 0 _ h

theorem pairwise_replayed (log : Rotated) (io : Io) :
    (replayed log.file io 0).Pairwise fun l l' => l.1 ≠ l'.1 := by
  have hlines := linesOf_replayed log.file io
  refine hlines.ordered.imp_of_mem fun {l l'} hl hl' hlt heq => ?_
  have := log.once l l' (hlines.isLine l hl) (hlines.isLine l' hl') heq
  rw [this] at hlt
  exact absurd hlt (lt_irrefl _)

/-- **One command.** -/
theorem oneRowEach_step {w : World} (hsrc : SamplesOf log w.storage)
    (hone : OneRowEach log w.storage.events) (cmd : Command log) :
    OneRowEach log (w.step x cmd).storage.events ↔ NoSecondRow x w cmd := by
  cases cmd with
  | ingest l hl =>
    simp only [World.step, events_ingestOneLine]
    exact oneRowEach_insertLine hone hl
  | fetch rules => exact iff_of_true hone trivial
  | classify =>
    obtain ⟨t, samples, n, k, ht, hrun, -⟩ := @promoteUnknowns_reclassifyEvents x w.rules w.storage
    simp only [World.step, hrun]
    exact oneRowEach_classify ht hsrc hone
  | collapse =>
    refine iff_of_true (hone.mono fun a ha hne => ?_) trivial
    simp only [World.step, collapseBursts, foldl_collapseOps] at ha
    exact mem_of_mem_foldl_collapseOps _ ha hne
  | reingest io =>
    simp only [World.step, runReingest, List.foldl_cons, List.foldl_nil, events_reingestFile]
    by_cases hopen : io.opened = .found
    · rw [if_pos hopen]
      refine (oneRowEach_insertLines hone (linesOf_replayed log.file io).isLine
        (pairwise_replayed log io)).trans ?_
      exact ⟨fun h _ => h, fun h => h hopen⟩
    · rw [if_neg hopen]
      exact iff_of_true hone fun h => absurd h hopen

/-- **No line of the log has two rows in any state of a history exactly if no command of it stores a line
that has a row under another key.** -/
theorem oneRowEach_run_iff (x : Externals) (log : Rotated) (noiseList : List String) (now : String)
    (rules : List CompiledRemoteRule) (cmds : List (Command log)) :
    (∀ n, OneRowEach log
        (World.run x ⟨.fresh noiseList now, rules⟩ (cmds.take n)).storage.events) ↔
      ∀ n cmd, cmds[n]? = some cmd →
        NoSecondRow x (World.run x ⟨.fresh noiseList now, rules⟩ (cmds.take n)) cmd :=
  @forall_take_iff _ _ _ _ (fun w : World => SamplesOf log w.storage)
    (fun w => OneRowEach log w.storage.events) _ (by
      intro s hs
      cases hs) (fun _ cmd h => samplesOf_step h cmd) (by
      intro l _ a ha
      cases ha) (fun _ cmd hsrc hone => oneRowEach_step hsrc hone cmd) cmds

end

/-! ### A line of an event that is not known at first -/

theorem isLine_of_complete {c : List UInt8} (hc : Complete c) {l : String × ℕ} (h : IsLine c l) :
    l = (lineText c, 0) := by
  obtain ⟨d, hd, htext⟩ := h
  have hle : l.2 + d.length ≤ [c].flatten.length := by
    obtain ⟨done, rest, -, -, hfile, hp⟩ := hd
    rw [List.flatten_singleton, hfile, hp]
    simp only [List.length_append]
    omega
  obtain ⟨before, after, hsplit, hp⟩ := @LineAt.mem_of_le [c] [] _ _ (by simpa using hc)
    (by simpa using hd) hle
  rcases List.append_eq_singleton_iff.mp hsplit.symm with ⟨rfl, hcons⟩ | ⟨-, hcons⟩
  · rw [List.cons.injEq] at hcons
    exact Prod.ext (by rw [htext, hcons.1]) (by simpa using hp)
  · cases hcons

def dockedLine : String := "<1> <Docked> bay"

def dockedBytes : List UInt8 := dockedLine.toUTF8.data.toList ++ [newline]

def dockedRule : CompiledRemoteRule := ⟨"docked", "Docked", .eventName, "bay", []⟩

theorem complete_dockedBytes : Complete dockedBytes :=
  ⟨dockedLine.toUTF8.data.toList, by decide, rfl⟩

theorem lineText_dockedBytes : lineText dockedBytes = dockedLine := by decide

/-- A log of one line. -/
def dockedRotated : Rotated where
  path := rotatedPath [] "LIVE" "Game-1.log"
  file := dockedBytes
  once l l' hl hl' _ := by
    rw [isLine_of_complete complete_dockedBytes hl, isLine_of_complete complete_dockedBytes hl']

theorem isLine_docked : IsLine dockedRotated.file (dockedLine, 0) :=
  ⟨dockedBytes, ⟨[], [], by simp, complete_dockedBytes, by simp [dockedRotated], rfl⟩,
    lineText_dockedBytes.symm⟩

theorem source_docked : dockedRotated.source = "live" := by decide +kernel

/-- The line is ingested before there is a rule for it, and re-parsed and read again afterwards. -/
def dockedHistory : List (Command dockedRotated) :=
  [.ingest (dockedLine, 0) isLine_docked, .fetch [dockedRule]] ++ reparse dockedRotated ++
    [.reingest .good]

theorem rows_dockedHistory :
    ((World.run .std ⟨.fresh [] "", []⟩ (dockedHistory.take 5)).storage.events.rows.map
      fun a => (a.1, a.2.logSource, a.2.rawLine, a.2.eventType)) =
    [(1, "live", dockedLine, "remote_match"), (2, "live", dockedLine, "remote_match")] := by
  decide +kernel

/-- Promoted and read again, the line has two rows. -/
theorem not_oneRowEach_docked : ¬ ∀ n, OneRowEach dockedRotated
    (World.run .std ⟨.fresh [] "", []⟩ (dockedHistory.take n)).storage.events := by
  intro hall
  obtain ⟨a, as, hsplit, ha, has⟩ := List.map_eq_cons_iff.mp rows_dockedHistory
  obtain ⟨b, hb, hbs⟩ := List.map_eq_singleton_iff.mp has
  rw [hb] at hsplit
  simp only [Prod.mk.injEq] at ha hbs
  have hrep : ∀ r : EventRow, r.logSource = "live" → r.rawLine = dockedLine →
      r.eventType = "remote_match" → Represents dockedRotated.source (dockedLine, 0) r :=
    fun r hs hl ht => ⟨⟨hs.trans source_docked.symm, hl⟩, by rw [ht]; decide⟩
  have heq := hall 5 (dockedLine, 0) isLine_docked a (by rw [hsplit]; simp) b (by rw [hsplit]; simp)
    (hrep _ ha.2.1 ha.2.2.1 ha.2.2.2) (hrep _ hbs.2.1 hbs.2.2.1 hbs.2.2.2)
  have hid : a.1 ≠ b.1 := by omega
  exact hid (congrArg Prod.fst heq)

end StarStats.Client.TwoKeys
