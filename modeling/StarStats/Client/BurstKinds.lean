import StarStats.Core.BurstRuns
import StarStats.Client.Reading
import StarStats.Client.ReparseTwice

/-! # What bursts hide

The built-in rules take lines by their event name, while the classifier also looks at the text of a
notification: one that says `Incapacitated:` is an event of its own kind. In a run of notifications it
is folded into the summary like the others. `hides_nothing_iff` says when that happens, in a drain and
in a re-parse: when a line of a kind that the rules are not documented for stands in a run of one of
them. -/

namespace StarStats.Client.BurstKinds

open StarStats.Lib.Tables StarStats.Lib.Lines
open StarStats.Core.Events StarStats.Core.Crates StarStats.Core.Parser StarStats.Core.ParserDefs
open StarStats.Core.Templates StarStats.Core.Bursts StarStats.Core.BurstRuns
open StarStats.Client.Store StarStats.Client.Gamelog StarStats.Client.Ingest
open StarStats.Client.BurstRules StarStats.Client.Reading
open StarStats.Client.Reparse StarStats.Client.ReparsePhases StarStats.Client.RetroBursts
open StarStats.Client.ReparseTwice

/-! ### The built-in rules -/

/-- The kinds that the built-in rules are documented for: banners, attachments, terrain, stowed
vehicles. -/
def documented : GameEvent → Bool
  | .hudNotification _ | .attachmentReceived _ | .planetTerrainLoad _ | .vehicleStowed _ => true
  | _ => false

/-- What the built-in classifier takes a line for. -/
def classifyLine (x : Externals) (line : String) : Option GameEvent :=
  (structuralParse x line).bind (classify x)

theorem separate_builtinBurstRules : Separate builtinBurstRules where
  nodup := by decide
  uniform := by decide
  exclusive _ hr _ hr' _ h h' := eq_of_lineMatches hr hr' (Or.inr h) (Or.inr h')

/-- No line of another kind stands in a run of a built-in rule. -/
def OnlyDocumented (x : Externals) (window : List LogLine) : Prop :=
  ∀ i l, window[i]? = some l → (∃ rule ∈ builtinBurstRules, InRun rule window i) →
    ∀ e, classify x l = some e → documented e

/-- Such lines are no members of bursts. -/
theorem onlyDocumented_iff {x : Externals} {α : Type} {log : α → LogLine} {items : List α} :
    OnlyDocumented x (items.map log) ↔
      ∀ b ∈ burstsOf log items builtinBurstRules, ∀ m ∈ b.members, ∀ e,
        classify x (log m) = some e → documented e := by
  have hmem := mem_members_iff separate_builtinBurstRules log items
  constructor
  · intro h b hb m hm e he
    obtain ⟨i, hi, hrun⟩ := (hmem m).mp ⟨b, hb, hm⟩
    exact h i (log m) (by rw [List.getElem?_map, hi]; rfl) hrun e he
  · intro h i l hl hrun e he
    rw [List.getElem?_map] at hl
    obtain ⟨m, hm, rfl⟩ := Option.map_eq_some_iff.mp hl
    obtain ⟨b, hb, hmb⟩ := (hmem m).mpr ⟨i, hm, hrun⟩
    exact h b hb m hmb e he

theorem recognise_of_classifyLine {x : Externals} {rules : List CompiledRemoteRule} {line : String}
    {e : GameEvent} (h : classifyLine x line = some e) : recognise x rules line = some e := by
  obtain ⟨log, hlog, he⟩ := Option.bind_eq_some_iff.mp h
  rw [recognise, hlog, Option.bind_some, recogniseParsed, he, Option.some_or]

theorem classify_of_classifyLine {x : Externals} {line : String} {log : LogLine}
    (hlog : structuralParse x line = some log) : classifyLine x line = classify x log := by
  rw [classifyLine, hlog, Option.bind_some]

/-! ### A drain -/

section Live
variable (x : Externals) (rules : List CompiledRemoteRule) (path : Path)

/-- Every line of the drain in which the player is incapacitated has its own row, of that type unless
the key was in use, and only lines of documented kinds are members of bursts. -/
def LiveHidesNothing (before : Storage) (d : Drained) : Prop :=
  (∀ l ∈ d.handed, ∀ p, classifyLine x l.1 = some (.playerIncapacitated p) →
    ∃ r ∈ d.tail.sink.storage.events.contents,
      r.idempotencyKey = idempotencyKey x (logSourceFromPath path) l.2 l.1 ∧
        (r.eventType = "player_incapacitated" ∨ r.idempotencyKey ∈ before.events.keys)) ∧
  ∀ b ∈ bufferBursts x builtinBurstRules d.handed, ∀ m ∈ b.members, ∀ e,
    classify x m.log = some e → documented e

variable {x rules path}

/-- What a drain stores are the rows of its steps. -/
theorem events_drain (burstRules : List BurstRule) (file : List UInt8) (io : Io) (t : Tail) :
    (drain x rules burstRules path file io t).tail.sink.storage.events =
      t.sink.storage.events.insertAll
        ((bufferOps x burstRules (drain x rules burstRules path file io t).handed).filterMap
          (BufferOp.row x rules (logSourceFromPath path))) := by
  unfold drain
  cases hread : readPending file io t.offset with
  | stop offset ok => simp [bufferOps_nil]
  | lines buffer offset =>
    simp only
    split_ifs <;> exact events_processRead burstRules path buffer offset t.sink

theorem ordered_drain (burstRules : List BurstRule) (file : List UInt8) (io : Io) (t : Tail) :
    (drain x rules burstRules path file io t).handed.Pairwise fun a b => a.2 < b.2 := by
  unfold drain
  cases hread : readPending file io t.offset with
  | stop offset ok => exact List.Pairwise.nil
  | lines buffer offset =>
    have hord := (ordered_of_readPending hread).1
    simp only
    split_ifs <;> exact hord

/-- In a buffer at growing offsets, no other step has the key of a line that no burst takes. -/
theorem row_eq_of_key_eq {burstRules : List BurstRule} {buffer : List (String × ℕ)}
    (hord : buffer.Pairwise fun a b => a.2 < b.2) {i : ℕ} {l : String × ℕ}
    (hi : buffer[i]? = some l) {logSource : String} {r r' : EventRow}
    (hr : lineRow x rules logSource l.2 l.1 = some r)
    (hr' : r' ∈ (bufferOps x burstRules buffer).filterMap (BufferOp.row x rules logSource))
    (hkey : r'.idempotencyKey = r.idempotencyKey) : r' = r := by
  obtain ⟨op, hop, hrow⟩ := List.mem_filterMap.mp hr'
  have hkey' := hkey.trans (lineRow_eq_some hr).2
  cases op with
  | line text offset =>
    obtain ⟨rfl, rfl⟩ := idempotencyKey_inj ((lineRow_eq_some hrow).2.symm.trans hkey')
    exact Option.some.inj (hrow.symm.trans hr)
  | summary b =>
    obtain rfl := Option.some.inj hrow
    obtain ⟨hoffset, hline⟩ := idempotencyKey_inj hkey'
    have hb := mem_bufferOps_summary.mp hop
    have hi' : buffer[i]? = some (l.1, b.anchor.offset) := by rw [hi, hoffset]
    exact absurd hline (ne_syntheticLine hord hb hi' _ _)

/-- A line that no burst takes has its own row, as it is classified unless the key was in use. -/
theorem own_row {burstRules : List BurstRule} {buffer : List (String × ℕ)}
    (hord : buffer.Pairwise fun a b => a.2 < b.2) {i : ℕ} {l : String × ℕ}
    (hi : buffer[i]? = some l) (hfree : i ∉ suppressed x burstRules buffer) {logSource : String}
    {r : EventRow} (hr : lineRow x rules logSource l.2 l.1 = some r) (events : Events) :
    ∃ r' ∈ (events.insertAll
        ((bufferOps x burstRules buffer).filterMap (BufferOp.row x rules logSource))).contents,
      r'.idempotencyKey = idempotencyKey x logSource l.2 l.1 ∧
        (r' = r ∨ r'.idempotencyKey ∈ events.keys) := by
  have hkey := (lineRow_eq_some hr).2
  have hmem : r ∈ (bufferOps x burstRules buffer).filterMap (BufferOp.row x rules logSource) :=
    List.mem_filterMap.mpr ⟨_, mem_bufferOps_line.mpr ⟨i, hi, hfree⟩, hr⟩
  by_cases hold : r.idempotencyKey ∈ events.keys
  · have hin : r.idempotencyKey ∈ (events.insertAll ((bufferOps x burstRules buffer).filterMap
        (BufferOp.row x rules logSource))).keys := Table.mem_keys_insertAll.mpr (Or.inl hold)
    obtain ⟨a, ha, hak⟩ := Table.mem_keys.mp hin
    exact ⟨a.2, Table.mem_contents.mpr ⟨a, ha, rfl⟩, hak.trans hkey, Or.inr (hak ▸ hold)⟩
  · exact ⟨r, Table.mem_contents_insertAll hmem
      (fun r' hr' hk => row_eq_of_key_eq hord hi hr hr' hk) hold, hkey, Or.inl rfl⟩

/-- **A drain hides nothing exactly if only lines of documented kinds stand in runs.** -/
theorem live_iff (file : List UInt8) (io : Io) (t : Tail) :
    let d := drain x rules builtinBurstRules path file io t
    LiveHidesNothing x path t.sink.storage d ↔
      OnlyDocumented x ((entries x d.handed).map Entry.log) := by
  intro d
  have honly := @onlyDocumented_iff x _ Entry.log (entries x d.handed)
  refine ⟨fun h => honly.mpr h.2, fun h => ⟨fun l hl p hp => ?_, honly.mp h⟩⟩
  obtain ⟨i, hi⟩ := List.mem_iff_getElem?.mp hl
  have hfree : i ∉ suppressed x builtinBurstRules d.handed := by
    intro hsup
    obtain ⟨b, hb, m, hm, rfl⟩ := mem_suppressed.mp hsup
    obtain rfl : l = (m.line, m.offset) :=
      Option.some.inj (hi.symm.trans (getElem?_of_member hb hm))
    have hlog := (mem_entries.mp (source_mem_of_member hb hm)).2
    rw [classify_of_classifyLine hlog] at hp
    exact absurd (honly.mp h b hb m hm _ hp) Bool.false_ne_true
  have hrec := @recognise_of_classifyLine x rules _ _ hp
  obtain ⟨r, hr⟩ := @exists_lineRow x rules (logSourceFromPath path) l.2 l.1 (by rw [hrec]; rfl)
  have htype : r.eventType = "player_incapacitated" := by
    rw [lineRow, rowUnder, hrec] at hr
    obtain rfl := Option.some.inj hr
    rfl
  obtain ⟨r', hr', hkey, hor⟩ := own_row (ordered_drain builtinBurstRules file io t) hi hfree hr
    t.sink.storage.events
  rw [← events_drain] at hr'
  exact ⟨r', hr', hkey, hor.imp_left fun heq => by rw [heq, htype]⟩

end Live

/-! ### A re-parse -/

section Retro
variable (x : Externals) (rules : List CompiledRemoteRule)

/-- Every row whose line says that the player is incapacitated is kept, and of that type, and only
rows of documented kinds are taken away. -/
def RetroHidesNothing (st : Storage) : Prop :=
  (∀ a ∈ (promoted x rules st).rows, ∀ p,
    classifyLine x a.2.rawLine = some (.playerIncapacitated p) →
      ∃ b ∈ (runReparse x rules st).1.events.rows,
        b.1 = a.1 ∧ b.2.rawLine = a.2.rawLine ∧ b.2.eventType = "player_incapacitated") ∧
  ∀ a ∈ (promoted x rules st).rows,
    (∀ b ∈ (runReparse x rules st).1.events.rows, b.1 ≠ a.1) →
      ∀ e, classifyLine x a.2.rawLine = some e → documented e

/-- In no source stands a line of another kind in a run. -/
def OnlyDocumentedIn (t : Events) : Prop :=
  ∀ source, OnlyDocumented x ((scanned x rules t source).map ScanEntry.log)

variable {x rules}

/-- No row of another kind is a member. -/
theorem onlyDocumentedIn_iff {t : Events} : OnlyDocumentedIn x rules t ↔
    ∀ a ∈ t.rows, a.1 ∈ memberIds (retroBursts x rules t) →
      ∀ e, classifyLine x a.2.rawLine = some e → documented e := by
  constructor
  · intro h a ha hi e he
    obtain ⟨source, -, b, hb, m, hm, hentry⟩ := exists_member ha hi
    rw [classify_of_classifyLine (entryFor_eq_some hentry).2.2] at he
    exact onlyDocumented_iff.mp (h source) b hb m hm e he
  · intro h source
    refine onlyDocumented_iff.mpr fun b hb m hm e he => ?_
    obtain ⟨a, ha, hid, hentry⟩ := exists_row_of_mem_scanned (mem_of_mem_members hb hm)
    obtain ⟨hsource, -, hlog⟩ := entryFor_eq_some hentry
    refine h a ha ?_ e ((classify_of_classifyLine hlog).trans he)
    have hin : source ∈ logSources t := mem_logSources.mpr ⟨a, ha, hsource⟩
    have hp : (source, b) ∈ retroBursts x rules t :=
      List.mem_flatMap.mpr ⟨source, hin, List.mem_map_of_mem hb⟩
    exact mem_memberIds.mpr ⟨_, hp, m, hm, hid.symm⟩

theorem exists_after_iff {t : Events} {a : ℕ × EventRow} (ha : a ∈ t.rows) :
    (∃ b ∈ ((retroBursts x rules t).foldl (storeBurst x) t).rows, b.1 = a.1) ↔
      a.1 ∉ memberIds (retroBursts x rules t) := by
  obtain ⟨news, hrows, hnews, -⟩ := (@collapsed_sources x rules t _ (nodup_logSources t)).rows
  rw [retroBursts, hrows]
  constructor
  · rintro ⟨b, hb, hba⟩
    rcases List.mem_append.mp hb with hb | hb
    · rw [← hba]
      simpa using (List.mem_filter.mp hb).2
    · have habove := (hnews b hb).1
      have hle := (t.bounded a ha).2
      omega
  · intro hi
    exact ⟨a, List.mem_append_left _ (List.mem_filter.mpr ⟨ha, decide_eq_true hi⟩), rfl⟩

/-- Where a row is before the third phase, and what its line says its type is. -/
theorem exists_row_of_promoted {st : Storage} {t : Events} (h : Reclassified x rules st t)
    {a : ℕ × EventRow} (ha : a ∈ (promoted x rules st).rows) :
    ∃ b ∈ t.rows, b.1 = a.1 ∧ b.2.rawLine = a.2.rawLine ∧
      ∀ e, recognise x rules a.2.rawLine = some e → b.2.eventType = e.eventTypeKey := by
  obtain ⟨new, hrows, hst, hnew⟩ := h.rows
  rw [hst] at ha
  rw [hrows]
  rcases List.mem_append.mp ha with ha | ha
  · obtain ⟨z, hz⟩ := @exists_mem_reclassifiedAll x rules none _ a ha
    refine ⟨_, List.mem_append_left _ hz, rfl, (reclassified_frame z a.2).2.1, fun e he => ?_⟩
    rw [reclassified_of_some he]
    exact eventTypeKey_enrichZone _ e
  · refine ⟨a, List.mem_append_right _ ha, rfl, rfl, fun e he => ?_⟩
    obtain ⟨key, src, line, hr⟩ := exists_rowUnder_of_mem_promotions (hnew a ha).2
    obtain ⟨e', he', hae⟩ := Option.map_eq_some_iff.mp hr
    rw [← hae] at he ⊢
    exact congrArg GameEvent.eventTypeKey (Option.some.inj (he'.symm.trans he))

/-- **A re-parse hides nothing exactly if only lines of documented kinds stand in runs.** -/
theorem retro_iff (st : Storage) :
    RetroHidesNothing x rules st ↔ OnlyDocumentedIn x rules (promoted x rules st) := by
  obtain ⟨t, samples, n, k, m, ht, hrun, -, -⟩ := @runReparse_spec x rules st
  have hfin : (runReparse x rules st).1.events = (retroBursts x rules t).foldl (storeBurst x) t := by
    rw [hrun]
  have hsame : OnlyDocumentedIn x rules (promoted x rules st) ↔ OnlyDocumentedIn x rules t := by
    simp only [OnlyDocumentedIn, ht.scanned_eq]
  have hids : retroBursts x rules t = retroBursts x rules (promoted x rules st) := ht.retroBursts_eq
  have hkept : ∀ a ∈ (promoted x rules st).rows,
      (∃ b ∈ (runReparse x rules st).1.events.rows, b.1 = a.1) ↔
        a.1 ∉ memberIds (retroBursts x rules (promoted x rules st)) := by
    intro a ha
    obtain ⟨b, hb, hid, -, -⟩ := exists_row_of_promoted ht ha
    rw [hfin, ← hids, ← hid]
    exact exists_after_iff hb
  rw [onlyDocumentedIn_iff]
  constructor
  · intro h a ha hi e he
    refine h.2 a ha (fun b hb hba => ?_) e he
    exact (hkept a ha).mp ⟨b, hb, hba⟩ hi
  · intro h
    refine ⟨fun a ha p hp => ?_, fun a ha hgone e he => ?_⟩
    · have hfree : a.1 ∉ memberIds (retroBursts x rules (promoted x rules st)) := fun hi =>
        absurd (h a ha hi _ hp) Bool.false_ne_true
      obtain ⟨b, hb, hid, hraw, htype⟩ := exists_row_of_promoted ht ha
      obtain ⟨news, hrows, -, -⟩ := (@collapsed_sources x rules t _ (nodup_logSources t)).rows
      refine ⟨b, ?_, hid, hraw, htype _ (recognise_of_classifyLine hp)⟩
      rw [hfin, retroBursts, hrows]
      refine List.mem_append_left _ (List.mem_filter.mpr ⟨hb, decide_eq_true ?_⟩)
      rw [hid, ← retroBursts, hids]
      exact hfree
    · refine h a ha ?_ e he
      by_contra hi
      obtain ⟨b, hb, hba⟩ := (hkept a ha).mpr hi
      exact hgone b hb hba

end Retro

/-- **Bursts hide nothing exactly if no line of another kind stands in a run of a built-in rule**, among
the lines of a drain, or among the stored lines of a source. -/
theorem hides_nothing_iff (x : Externals) (rules : List CompiledRemoteRule) :
    (∀ (path : Path) (file : List UInt8) (io : Io) (t : Tail),
      let d := drain x rules builtinBurstRules path file io t
      LiveHidesNothing x path t.sink.storage d ↔
        OnlyDocumented x ((entries x d.handed).map Entry.log)) ∧
    ∀ st : Storage, RetroHidesNothing x rules st ↔ OnlyDocumentedIn x rules (promoted x rules st) :=
  ⟨fun _ file io t => live_iff file io t, fun st => retro_iff st⟩

/-! ### Three times incapacitated -/

def incapacitatedLine : String :=
  "<1> <SHUDEvent_OnNotification> Added notification \"Incapacitated:\" [1]."

def incapacitatedBytes : List UInt8 := incapacitatedLine.toUTF8.data.toList ++ [newline]

/-- One drain of three lines in which the player is incapacitated. -/
def incapacitatedDrain : Drained :=
  drain .std [] builtinBurstRules ["LIVE", "Game.log"]
    (incapacitatedBytes ++ incapacitatedBytes ++ incapacitatedBytes) .good
    ⟨⟨.fresh [] "", .zero⟩, 0⟩

theorem not_liveHidesNothing_incapacitated :
    ¬ LiveHidesNothing .std ["LIVE", "Game.log"] (.fresh [] "") incapacitatedDrain := by
  intro h
  have hline : classifyLine .std incapacitatedLine = some (.playerIncapacitated ⟨"1", 1, none⟩) := by
    decide +kernel
  have hhanded : incapacitatedDrain.handed.head? = some (incapacitatedLine, 0) := by decide +kernel
  have htypes : incapacitatedDrain.tail.sink.storage.events.contents.map (·.eventType) =
      ["burst_summary"] := by decide +kernel
  obtain ⟨r, hr, -, htype⟩ := h.1 _ (List.mem_of_mem_head? hhanded) _ hline
  have hmem : r.eventType ∈ ["burst_summary"] := htypes ▸ List.mem_map_of_mem hr
  rw [List.mem_singleton] at hmem
  rcases htype with htype | hkey
  · rw [hmem] at htype
    exact absurd htype (by decide)
  · exact absurd hkey List.not_mem_nil

end StarStats.Client.BurstKinds
