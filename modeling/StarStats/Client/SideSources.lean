import StarStats.Lib.Percent
import StarStats.Lib.Runs
import StarStats.Client.CrashRuns
import StarStats.Client.Crashes
import StarStats.Client.SideRows

/-! # The launcher and the crashes beside the game logs

One store takes the lines of game logs, the lines of the launcher's log and the crashes, and is re-parsed
now and then; processes die, and new ones start from the store. In such a run no line of the launcher that
the tail is past is missing, exactly as long as no insert of one fails (`launcher_run`): a failed read
costs nothing, unlike in the tail of a game log. And each crash directory has one row, that of the sweep
that first stored it (`crash_run`).

`Documented` is what the development knows of the two patterns and of identifiers. -/

namespace StarStats.Client.SideSources

open StarStats.Lib.Tables StarStats.Lib.Lines StarStats.Lib.Runs StarStats.Lib.Text
open StarStats.Core.Crates StarStats.Core.Parser StarStats.Core.ParserDefs StarStats.Core.LauncherLog
open StarStats.Client.Store StarStats.Client.Gamelog StarStats.Client.Ingest StarStats.Client.Reading
open StarStats.Client.Reparse StarStats.Client.Discovery StarStats.Client.SideRows
open StarStats.Client.Launcher StarStats.Client.Crashes

/-- The patterns of a line begin with a bracket, each with its own; an identifier has no colon. -/
structure Documented (x : Externals) : Prop where
  shell : ∀ text, (x.captures shellRe text).isSome → text.toList.head? = some '<'
  launcher : ∀ text, (x.captures launcherRe text).isSome → text.toList.head? = some '['
  identifier : ∀ name, ':' ∉ (x.newV5 name).toList

/-- The log of the launcher, the task that tails it, and the scanner. -/
structure World where
  log : List UInt8
  task : Task
  crashes : CrashStats

def World.storage (w : World) : Storage := w.task.storage

def World.store (w : World) (st : Storage) : World := { w with task := { w.task with storage := st } }

/-- What happens to the launcher's log and its reader. -/
inductive Command where
  /-- The launcher writes to its log. -/
  | append (bytes : List UInt8)
  | drain (io : Launcher.Io)
  /-- The process dies in a drain, and a new one starts. -/
  | restart (io : Launcher.Io) (done : ℕ)
  | sweep (env : SweepEnv)
  /-- A line of a game log is stored, as it is tailed or replayed. -/
  | ingest (rules : List CompiledRemoteRule) (log : Path) (offset : ℕ) (line : String)
  | reparse (rules : List CompiledRemoteRule)

section
variable (x : Externals) (path : Path)

def World.step (w : World) : Command → World
  | .append bytes => { w with log := w.log ++ bytes }
  | .drain io => { w with task := (Launcher.drain x path w.log io w.task).1 }
  | .restart io done => ⟨w.log, drainDying x path w.log io done w.task, .zero⟩
  | .sweep env =>
    let s := sweepOnce env (w.storage, w.crashes)
    { w.store s.1 with crashes := s.2 }
  | .ingest rules log offset line =>
    w.store (ingestOneLine x rules w.storage (logSourceFromPath log) offset line).1
  | .reparse rules => w.store (runReparse x rules w.storage).1

/-- A new log, and a process that starts on a fresh store. -/
def World.start (noiseList : List String) (now : String) : World :=
  ⟨[], startTail path (.fresh noiseList now), .zero⟩

def World.run (w : World) (cmds : List Command) : World := cmds.foldl (World.step x path) w

/-- Every row of the launcher is that of a line of its log. -/
def Sound (w : World) : Prop :=
  ∀ r ∈ w.storage.events.contents, r.logSource = "launcher" →
    ∃ l, IsLine w.log l ∧ Launcher.lineRow x l = some r

/-- Every line below the offset has its row. -/
def AllStored (w : World) : Prop :=
  ∀ p c, LineAt w.log p c → p + c.length ≤ w.task.offset → ∀ r, Launcher.lineRow x (lineText c, p) = some r →
    r ∈ w.storage.events.contents

/-- A drain that goes past a line without a row, and does not get to store it. -/
def Loses (w : World) : Command → Prop
  | .drain io => ∃ i l r, (texts w.task.offset (readChunks w.log io w.task.offset))[i]? = some l ∧
      io.insertFails i = true ∧ Launcher.lineRow x l = some r ∧ r ∉ w.storage.events.contents
  | _ => False

end

/-- Identifiers that can be run, without a colon. -/
def percentExternals : Externals :=
  { Externals.std with
    newV5 := fun name => String.ofList (Lib.Percent.encodeSegment name)
    newV5_injective := fun _ _ h => Lib.Percent.encodeSegment_inj.mp (String.ofList_injective h) }

theorem documented_percent : Documented percentExternals := by
  have hbegins : ∀ {pattern text : String} {c : Char},
      (Lib.Regex.compile pattern).bind Lib.Regex.Re.headClass = some ⟨false, [.range c c]⟩ →
        (percentExternals.captures pattern text).isSome → text.toList.head? = some c := by
    intro pattern text c hpattern hsome
    obtain ⟨r, hcompile, hr⟩ := Option.bind_eq_some_iff.mp hpattern
    have hfound : Lib.Regex.findAll pattern text ≠ [] := by
      intro hnone
      have hcaptures : percentExternals.captures pattern text = (Lib.Regex.findAll pattern text).head? := rfl
      rw [hcaptures, hnone] at hsome
      cases hsome
    obtain ⟨a, ha, hhas⟩ := Lib.Regex.findAll_of_headClass hcompile hr hfound
    have hsame : a = c := by
      simp only [Lib.Regex.Class.has, Lib.Regex.Item.has, List.any_cons, List.any_nil, Bool.or_false,
        Bool.bne_false, Bool.and_eq_true, decide_eq_true_eq] at hhas
      exact Char.le_antisymm hhas.2 hhas.1
    rw [Option.mem_def.mp ha, hsame]
  refine ⟨fun text => hbegins (by rfl), fun text => hbegins (by rfl), fun name h => ?_⟩
  have hmem : ':' ∈ Lib.Percent.encodeSegment name := by
    have hlist : (percentExternals.newV5 name).toList = Lib.Percent.encodeSegment name :=
      String.toList_ofList
    rwa [hlist] at h
  have hplain := Lib.Percent.isPlain_of_mem_encode hmem
  exact absurd hplain (by decide)

/-! ### Keys -/

/-- The key of a line of the launcher. -/
def launcherKey (x : Externals) (l : String × ℕ) : String := Launcher.idempotencyKey x "launcher" l.2 l.1

/-- The keys of lines of the launcher, and those of crashes whose name is no line of a game log. -/
def Kept (x : Externals) (k : String) : Prop :=
  (∃ l, k = launcherKey x l) ∨
    ∃ channel ∈ channels, ∃ dirName, ¬ Parses x dirName ∧ k = crashKey channel dirName

variable {x : Externals} {path : Path}

theorem launcherKey_inj {l l' : String × ℕ} (h : launcherKey x l = launcherKey x l') : l = l' := by
  obtain ⟨hoffset, hline⟩ := @idempotencyKey_inj x "launcher" l.2 l'.2 l.1 l'.1 h
  exact Prod.ext hline hoffset

theorem not_mem_channel : ∀ channel ∈ channels, ':' ∉ channel.toList := by decide

theorem crashKey_inj {channel channel' dirName dirName' : String} (hc : channel ∈ channels)
    (hc' : channel' ∈ channels) (h : crashKey channel dirName = crashKey channel' dirName') :
    channel = channel' ∧ dirName = dirName' := by
  have hrest := (String.append_right_inj _).mp h
  have hlist := congrArg String.toList hrest
  simp only [String.toList_append] at hlist
  obtain ⟨hchannel, hname⟩ := cut_first (not_mem_channel _ hc) (not_mem_channel _ hc') hlist
  exact ⟨String.toList_injective hchannel, String.toList_injective hname⟩

theorem crashKey_ne (hx : Documented x) (name channel dirName : String) :
    x.newV5 name ≠ crashKey channel dirName := by
  intro h
  refine hx.identifier name ?_
  rw [h, crashKey, String.toList_append]
  exact List.mem_append_left _ (by decide)

/-- The names of game log sources. -/
def labels : List String := ["live", "ptu", "eptu", "hotfix", "tech", "other"]

theorem labelOf_mem (segment : String) : labelOf segment ∈ labels := by
  unfold labelOf
  split <;> decide

theorem channelLabel_mem (channel : String) : channelLabel channel ∈ labels := by
  unfold channelLabel
  split <;> decide

theorem labels_spec : ∀ label ∈ labels, ':' ∉ label.toList ∧ label ≠ "launcher" := by decide

theorem free_of_mem_labels (hx : Documented x) {label : String} (h : label ∈ labels) :
    Free x (Kept x) label := by
  obtain ⟨hcolon, hne⟩ := labels_spec label h
  rintro offset line (⟨l, hkey⟩ | ⟨channel, -, dirName, -, hkey⟩)
  · have hname := congrArg String.toList (x.newV5_injective hkey)
    simp only [String.toList_append, List.append_assoc] at hname
    have hsource := (cut_first hcolon (by decide) hname).1
    exact hne (String.toList_injective hsource)
  · exact crashKey_ne hx _ channel dirName hkey

theorem not_kept_reparseKey (hx : Documented x) (source line : String) :
    ¬ Kept x (reparseIdempotencyKey x source line) := by
  rintro (⟨l, hkey⟩ | ⟨channel, -, dirName, -, hkey⟩)
  · have hname := congrArg String.toList (x.newV5_injective hkey)
    simp only [String.toList_append] at hname
    exact absurd (List.cons.inj hname).1 (by decide)
  · exact crashKey_ne hx _ channel dirName hkey

theorem Documented.head?_of_parses (hx : Documented x) {line : String} (h : Parses x line) :
    (trimEndMatches isNewline line).toList.head? = some '<' := by
  refine hx.shell _ ?_
  unfold Parses structuralParse at h
  cases hcaptures : x.captures shellRe (trimEndMatches isNewline line) with
  | none => simp [hcaptures] at h
  | some c => rfl

/-- A line of the launcher is no line of a game log. -/
theorem not_parses_of_lineRow (hx : Documented x) {l : String × ℕ} {r : EventRow}
    (h : Launcher.lineRow x l = some r) : ¬ Parses x l.1 := by
  obtain ⟨parsed, hparsed, -⟩ := Option.map_eq_some_iff.mp h
  have hbracket : (trimEndMatches isNewline l.1).toList.head? = some '[' := by
    refine hx.launcher _ ?_
    unfold parseLauncherLine at hparsed
    cases hcaptures : x.captures launcherRe (trimEndMatches isNewline l.1) with
    | none => simp [hcaptures] at hparsed
    | some c => rfl
  intro hparses
  have hangle := hx.head?_of_parses hparses
  rw [hbracket] at hangle
  exact absurd hangle (by decide)

/-! ### What the rows are -/

variable (x) in
/-- A row, as a run leaves it. -/
structure RowOk (log : List UInt8) (r : EventRow) : Prop where
  apart : ApartRow x (Kept x) r
  launcher : (r.logSource = "launcher" ∨ ∃ l, r.idempotencyKey = launcherKey x l) →
    ∃ l, IsLine log l ∧ Launcher.lineRow x l = some r
  crash : ∀ channel ∈ channels, ∀ dirName, ¬ Parses x dirName →
    r.idempotencyKey = crashKey channel dirName → r.rawLine = dirName

variable {log : List UInt8} {r : EventRow}

theorem RowOk.append (h : RowOk x log r) (bytes : List UInt8) : RowOk x (log ++ bytes) r := by
  refine ⟨h.apart, fun hl => ?_, h.crash⟩
  obtain ⟨l, hline, hrow⟩ := h.launcher hl
  exact ⟨l, hline.append bytes, hrow⟩

theorem not_free_launcher : ¬ Free x (Kept x) "launcher" := fun h => h 0 "" (Or.inl ⟨("", 0), rfl⟩)

theorem rowOk_of_free (hkey : ¬ Kept x r.idempotencyKey) (hfree : Free x (Kept x) r.logSource) :
    RowOk x log r := by
  refine ⟨fun _ => ⟨hkey, hfree⟩, ?_, fun channel hchannel dirName hname hcrash => ?_⟩
  · rintro (hsource | hlauncher)
    · rw [hsource] at hfree
      exact absurd hfree not_free_launcher
    · exact absurd (Or.inl hlauncher) hkey
  · exact absurd (Or.inr ⟨channel, hchannel, dirName, hname, hcrash⟩) hkey

theorem rowOk_launcher (hx : Documented x) {l : String × ℕ} (hl : IsLine log l)
    (hrow : Launcher.lineRow x l = some r) : RowOk x log r := by
  have hparses := not_parses_of_lineRow hx hrow
  obtain ⟨parsed, -, heq⟩ := Option.map_eq_some_iff.mp hrow
  have hline : r.rawLine = l.1 := by rw [← heq]; rfl
  have hkey : r.idempotencyKey = launcherKey x l := by rw [← heq]; rfl
  refine ⟨fun h => absurd (hline ▸ h) hparses, fun _ => ⟨l, hl, hrow⟩, ?_⟩
  intro channel _ dirName _ hcrash
  rw [hkey] at hcrash
  exact absurd hcrash (crashKey_ne hx _ channel dirName)

theorem rowOk_crash (hx : Documented x) {env : SweepEnv} (h : r ∈ sweepRows env) : RowOk x log r := by
  obtain ⟨channel, hchannel, hkey, hsource⟩ := exists_of_mem_sweepRows h
  have hfree : Free x (Kept x) r.logSource := by
    rw [hsource]
    exact free_of_mem_labels hx (channelLabel_mem channel)
  refine ⟨fun hparses => ⟨?_, hfree⟩, ?_, fun channel' hchannel' dirName _ hcrash => ?_⟩
  · rintro (⟨l, hl⟩ | ⟨channel', hchannel', dirName, hname, hcrash⟩)
    · exact crashKey_ne hx _ channel r.rawLine (hl.symm.trans hkey)
    · obtain ⟨-, hsame⟩ := crashKey_inj hchannel hchannel' (hkey.symm.trans hcrash)
      exact hname (hsame ▸ hparses)
  · rintro (hlauncher | ⟨l, hl⟩)
    · rw [hlauncher] at hfree
      exact absurd hfree not_free_launcher
    · exact absurd (hl.symm.trans hkey) (crashKey_ne hx _ channel r.rawLine)
  · exact (crashKey_inj hchannel hchannel' (hkey.symm.trans hcrash)).2

theorem rowOk_insertAll {rs : List EventRow} {t : Events} (ht : ∀ r ∈ t.contents, RowOk x log r)
    (hrs : ∀ r ∈ rs, RowOk x log r) : ∀ r ∈ (t.insertAll rs).contents, RowOk x log r := by
  intro r hr
  obtain ⟨new, hrows, hnew⟩ := t.rows_insertAll rs
  obtain ⟨a, ha, rfl⟩ := Table.mem_contents.mp hr
  rw [hrows] at ha
  rcases List.mem_append.mp ha with hold | hadded
  · exact ht _ (List.mem_map_of_mem hold)
  · exact hrs _ (hnew a hadded).2

theorem rowOk_ingest (hx : Documented x) {rules : List CompiledRemoteRule} {label : String}
    (hlabel : label ∈ labels) {offset : ℕ} {line : String}
    (h : r ∈ (Ingest.lineRow x rules label offset line).toList) : RowOk x log r := by
  have hfree : Free x (Kept x) label := free_of_mem_labels hx hlabel
  obtain ⟨e, -, rfl⟩ := Option.map_eq_some_iff.mp (Option.mem_toList.mp h)
  exact rowOk_of_free (hfree offset line) hfree

/-- A re-parse leaves what the rows are. -/
theorem rowOk_reparse (hx : Documented x) {rules : List CompiledRemoteRule} {st : Storage}
    (hrows : ∀ r ∈ st.events.contents, RowOk x log r)
    (hsamples : ∀ s ∈ st.unknownSamples.contents, Free x (Kept x) s.logSource) :
    (∀ r ∈ (runReparse x rules st).1.events.contents, RowOk x log r) ∧
      ∀ s ∈ (runReparse x rules st).1.unknownSamples.contents, Free x (Kept x) s.logSource := by
  have hbefore : Apart x (Kept x) st :=
    ⟨fun a ha => (hrows a.2 (List.mem_map_of_mem ha)).apart, hsamples⟩
  have hafter : Apart x (Kept x) (runReparse x rules st).1 :=
    runReparse_apart hbefore (not_kept_reparseKey hx)
  refine ⟨fun r hr => ?_, hafter.samples⟩
  obtain ⟨a, ha, rfl⟩ := Table.mem_contents.mp hr
  by_cases hparses : Parses x a.2.rawLine
  · obtain ⟨hkey, hfree⟩ := hafter.rows a ha hparses
    exact rowOk_of_free hkey hfree
  · have hold : a ∈ st.events.rows := (runReparse_side st a hparses).mp ha
    exact hrows a.2 (List.mem_map_of_mem hold)

theorem free_samples_ingest {rules : List CompiledRemoteRule} {st : Storage} {label : String}
    (hlabel : Free x (Kept x) label) (h : ∀ s ∈ st.unknownSamples.contents, Free x (Kept x) s.logSource)
    (offset : ℕ) (line : String) :
    ∀ s ∈ (ingestOneLine x rules st label offset line).1.unknownSamples.contents,
      Free x (Kept x) s.logSource := by
  unfold ingestOneLine
  cases structuralParse x line with
  | none => exact h
  | some parsed =>
    cases hrecognised : recogniseParsed x rules parsed with
    | some e =>
      simp only [hrecognised, serialiseEvent_eq]
      exact h
    | none =>
      simp only [hrecognised]
      cases parsed.eventName with
      | none => exact h
      | some eventName =>
        simp only
        split_ifs
        · exact h
        · intro s hs
          rcases Table.mem_contents_upsert.mp hs with ⟨hold, -⟩ | ⟨s₀, hs₀, -, rfl⟩ | ⟨-, rfl⟩
          · exact h s hold
          · exact h s₀ hs₀
          · exact hlabel

/-! ### Runs -/

variable (x path) in
/-- What holds in every state of a run. -/
structure Inv (w : World) : Prop where
  offset : Boundary w.log w.task.offset
  cursor : Boundary w.log (w.storage.readCursor path)
  cursor_le : w.storage.readCursor path ≤ w.task.offset
  rows : ∀ r ∈ w.storage.events.contents, RowOk x w.log r
  samples : ∀ s ∈ w.storage.unknownSamples.contents, Free x (Kept x) s.logSource

theorem inv_start (noiseList : List String) (now : String) :
    Inv x path (World.start path noiseList now) where
  offset := boundary_zero _
  cursor := boundary_zero _
  cursor_le := le_rfl
  rows := fun _ hr => absurd hr List.not_mem_nil
  samples := fun _ hs => absurd hs List.not_mem_nil

theorem Inv.offset_le {w : World} (h : Inv x path w) : w.task.offset ≤ w.log.length := by
  obtain ⟨done, rest, -, hlog, hoffset⟩ := h.offset
  rw [hlog, hoffset, List.length_append]
  exact Nat.le_add_right _ _

/-- The store is another one, but the cursor is the same. -/
theorem Inv.store {w : World} {st : Storage} (h : Inv x path w)
    (hcursor : st.tailCursor = w.storage.tailCursor)
    (hrows : ∀ r ∈ st.events.contents, RowOk x w.log r)
    (hsamples : ∀ s ∈ st.unknownSamples.contents, Free x (Kept x) s.logSource) : Inv x path (w.store st) := by
  have hread : st.readCursor path = w.storage.readCursor path := CrashRuns.readCursor_congr hcursor path
  refine ⟨h.offset, ?_, ?_, hrows, hsamples⟩
  · show Boundary w.log (st.readCursor path)
    rw [hread]
    exact h.cursor
  · show st.readCursor path ≤ w.task.offset
    rw [hread]
    exact h.cursor_le

/-- The rows of lines that a drain gets past. -/
theorem rowOk_afterLines (hx : Documented x) {done read more : List (List UInt8)} {rest : List UInt8}
    {st : Storage} (io : Launcher.Io) (hd : ∀ c ∈ done, Complete c) (hlog : log = done.flatten ++ rest)
    (hcs : chunks rest = read ++ more) (hread : ∀ c ∈ read, Complete c)
    (hrows : ∀ r ∈ st.events.contents, RowOk x log r) :
    ∀ r ∈ (afterLines x io st done.flatten.length read).events.contents, RowOk x log r := by
  refine rowOk_insertAll hrows fun r hr => ?_
  have hlines := (linesOf_texts hd hcs hread).isLine
  rw [← hlog] at hlines
  obtain ⟨l, hl, hrow⟩ := exists_of_mem_inserted hr
  exact rowOk_launcher hx (hlines l hl) hrow

theorem complete_of_prefix {rest : List UInt8} {read : List (List UInt8)} (h : read <+: chunks rest)
    (hlast : ∀ c ∈ read, c.getLast? = some newline) : ∀ c ∈ read, Complete c :=
  fun c hc => complete_of_mem_chunks (h.subset hc) (hlast c hc)

theorem inv_step (hx : Documented x) {w : World} (h : Inv x path w) (cmd : Command) :
    Inv x path (w.step x path cmd) := by
  obtain ⟨done, rest, hd, hlog, hoffset⟩ := h.offset
  have hdrop : w.log.drop w.task.offset = rest := by rw [hlog, hoffset, List.drop_left]
  cases cmd with
  | append bytes =>
    exact ⟨h.offset.append bytes, h.cursor.append bytes, h.cursor_le, fun r hr => (h.rows r hr).append bytes,
      h.samples⟩
  | drain io =>
    obtain ⟨hnext, hstorage⟩ := drained_drain (x := x) path io h.offset_le
    obtain ⟨more, hcs⟩ : readChunks w.log io w.task.offset <+: chunks rest := hdrop ▸ readChunks_prefix _ _ _
    have hread := complete_of_prefix ⟨more, hcs⟩ (@getLast?_of_mem_readChunks io w.log w.task.offset)
    have hrows := rowOk_afterLines hx io hd hlog hcs.symm hread h.rows
    have hend := boundary_read hd hcs.symm hread
    rw [← hlog, List.flatten_append, List.length_append, ← hoffset, ← hnext] at hend
    rw [← hoffset] at hrows
    have hle : w.storage.readCursor path ≤ (Launcher.drain x path w.log io w.task).1.offset := by
      rw [hnext]
      exact h.cursor_le.trans (Nat.le_add_right _ _)
    unfold World.step
    simp only
    generalize (Launcher.drain x path w.log io w.task).1 = task at hstorage hend hle ⊢
    obtain ⟨st, stats, offset⟩ := task
    dsimp only at hstorage hend hle
    rcases hstorage with rfl | rfl
    · exact ⟨hend, h.cursor, hle, hrows, h.samples⟩
    · have hcursor := CrashRuns.readCursor_writeCursor
        (afterLines x io w.task.storage w.task.offset (readChunks w.log io w.task.offset)) path offset
      exact ⟨hend, hcursor.symm ▸ hend, hcursor.le, hrows, h.samples⟩
  | restart io done' =>
    obtain ⟨read, hprefix, hlast, heq⟩ := drainDying_spec (x := x) path io done' h.offset_le
    obtain ⟨more, hcs⟩ : read <+: chunks rest := hdrop ▸ hprefix
    have hread := complete_of_prefix ⟨more, hcs⟩ hlast
    have hrows := rowOk_afterLines hx io hd hlog hcs.symm hread h.rows
    rw [← hoffset] at hrows
    unfold World.step
    simp only
    rw [heq]
    exact ⟨h.cursor, h.cursor, le_rfl, hrows, h.samples⟩
  | sweep env =>
    have hstorage : (sweepOnce env (w.storage, w.crashes)).1 = storeRows w.storage (sweepRows env) :=
      sweepOnce_fst env _
    have hnext : Inv x path (w.store (storeRows w.storage (sweepRows env))) :=
      h.store rfl (rowOk_insertAll h.rows fun r hr => rowOk_crash hx hr) h.samples
    unfold World.step
    simp only
    rw [hstorage]
    exact ⟨hnext.offset, hnext.cursor, hnext.cursor_le, hnext.rows, hnext.samples⟩
  | ingest rules log offset line =>
    have hlabel : logSourceFromPath log ∈ labels := labelOf_mem _
    refine h.store (tailCursor_ingestOneLine _ _ _) ?_
      (free_samples_ingest (free_of_mem_labels hx hlabel) h.samples offset line)
    rw [events_ingestOneLine]
    exact rowOk_insertAll h.rows fun r hr => rowOk_ingest hx hlabel hr
  | reparse rules =>
    obtain ⟨events, samples, honly, -⟩ := @runReparse_only x rules w.storage
    obtain ⟨hrows, hsamples⟩ := @rowOk_reparse x w.log hx rules w.storage h.rows h.samples
    have hcursor : (runReparse x rules w.storage).1.tailCursor = w.storage.tailCursor := by rw [honly]
    exact h.store hcursor hrows hsamples

theorem inv_run (hx : Documented x) (noiseList : List String) (now : String) (cmds : List Command) :
    Inv x path ((World.start path noiseList now).run x path cmds) :=
  invariant_run (inv_start noiseList now) (fun _ cmd h => inv_step hx h cmd) cmds

/-! ### The launcher -/

theorem Inv.row_eq {w : World} (h : Inv x path w) {l : String × ℕ} (hr : r ∈ w.storage.events.contents)
    (hkey : r.idempotencyKey = launcherKey x l) : Launcher.lineRow x l = some r := by
  obtain ⟨l', -, hrow⟩ := (h.rows r hr).launcher (Or.inr ⟨l, hkey⟩)
  obtain ⟨parsed, -, heq⟩ := Option.map_eq_some_iff.mp hrow
  have hkey' : launcherKey x l' = launcherKey x l := by rw [← hkey, ← heq]; rfl
  rw [← launcherKey_inj hkey']
  exact hrow

theorem key_of_lineRow {l : String × ℕ} (h : Launcher.lineRow x l = some r) :
    r.idempotencyKey = launcherKey x l := by
  obtain ⟨parsed, -, rfl⟩ := Option.map_eq_some_iff.mp h
  rfl

/-- What a drain adds: the rows of the lines that it gets past, unless their insert fails. -/
theorem Inv.mem_afterLines {w : World} (h : Inv x path w) {io : Launcher.Io} {read : List (List UInt8)}
    {l : String × ℕ} (hl : Launcher.lineRow x l = some r) :
    r ∈ (afterLines x io w.storage w.task.offset read).events.contents ↔
      r ∈ w.storage.events.contents ∨
        ∃ i, (texts w.task.offset read)[i]? = some l ∧ io.insertFails i = false := by
  unfold afterLines storeRows
  constructor
  · intro hr
    obtain ⟨new, hrows, hnew⟩ := w.storage.events.rows_insertAll
      (inserted x io.insertFails 0 (texts w.task.offset read))
    obtain ⟨a, ha, rfl⟩ := Table.mem_contents.mp hr
    rw [hrows] at ha
    rcases List.mem_append.mp ha with hold | hadded
    · exact Or.inl (List.mem_map_of_mem hold)
    · obtain ⟨i, l', hi, hok, hrow⟩ := mem_inserted.mp (hnew a hadded).2
      rw [Nat.zero_add] at hok
      have hsame : l' = l := launcherKey_inj ((key_of_lineRow hrow).symm.trans (key_of_lineRow hl))
      exact Or.inr ⟨i, hsame ▸ hi, hok⟩
  · rintro (hold | ⟨i, hi, hok⟩)
    · obtain ⟨a, ha, rfl⟩ := Table.mem_contents.mp hold
      exact Table.mem_contents.mpr ⟨a, Table.mem_rows_insertAll_of_mem ha, rfl⟩
    · have hmem : r ∈ inserted x io.insertFails 0 (texts w.task.offset read) :=
        mem_inserted.mpr ⟨i, l, hi, by rwa [Nat.zero_add], hl⟩
      by_cases hkey : r.idempotencyKey ∈ w.storage.events.keys
      · obtain ⟨a, ha, hsame⟩ := Table.mem_keys.mp hkey
        have hrow := h.row_eq (List.mem_map_of_mem ha) (hsame.trans (key_of_lineRow hl))
        rw [hl] at hrow
        obtain rfl := Option.some.inj hrow
        exact Table.mem_contents.mpr ⟨a, Table.mem_rows_insertAll_of_mem ha, rfl⟩
      · refine Table.mem_contents_insertAll hmem (fun r' hr' hsame => ?_) hkey
        obtain ⟨l', -, hrow⟩ := exists_of_mem_inserted hr'
        have hline : l' = l := launcherKey_inj
          ((key_of_lineRow hrow).symm.trans (hsame.trans (key_of_lineRow hl)))
        rw [hline, hl] at hrow
        exact (Option.some.inj hrow).symm

/-- Below a boundary every line has its row. -/
theorem allStored_iff {w : World} {done : List (List UInt8)} {rest : List UInt8}
    (hd : ∀ c ∈ done, Complete c) (hlog : w.log = done.flatten ++ rest)
    (hoffset : w.task.offset = done.flatten.length) : AllStored x w ↔
      ∀ l ∈ texts 0 done, ∀ r, Launcher.lineRow x l = some r → r ∈ w.storage.events.contents := by
  unfold AllStored
  rw [hlog, hoffset]
  exact forall_lineAt_iff hd (P := fun l => ∀ r, Launcher.lineRow x l = some r →
    r ∈ w.storage.events.contents)

/-- A store that has kept its rows of the launcher. -/
theorem AllStored.of_le {w w' : World} (h : AllStored x w) {bytes : List UInt8}
    (hoff : Boundary w.log w'.task.offset) (hlog : w'.log = w.log ++ bytes)
    (hle : w'.task.offset ≤ w.task.offset)
    (hrows : ∀ l r, Launcher.lineRow x l = some r → r ∈ w.storage.events.contents →
      r ∈ w'.storage.events.contents) : AllStored x w' := by
  obtain ⟨done, rest, hd, hsplit, hoffset⟩ := hoff
  intro p c hline hend r hr
  refine hrows _ r hr (h p c ?_ (hend.trans hle) r hr)
  rw [hlog, hsplit, List.append_assoc] at hline
  rw [hoffset] at hend
  obtain ⟨before, after, rfl, rfl⟩ := hline.mem_of_le hd hend
  refine ⟨before, after.flatten ++ rest, fun d hdm => hd d (by simp [hdm]), hd c (by simp), ?_, rfl⟩
  rw [hsplit]
  simp

theorem mem_contents_of_mem {t : Events} (rs : List EventRow) (h : r ∈ t.contents) :
    r ∈ (t.insertAll rs).contents := by
  obtain ⟨a, ha, rfl⟩ := Table.mem_contents.mp h
  exact Table.mem_contents.mpr ⟨a, Table.mem_rows_insertAll_of_mem ha, rfl⟩

theorem storage_step_drain (w : World) (io : Launcher.Io) : (w.step x path (.drain io)).storage =
    (Launcher.drain x path w.log io w.task).1.storage := rfl

theorem storage_step_restart (w : World) (io : Launcher.Io) (done : ℕ) :
    (w.step x path (.restart io done)).storage = (drainDying x path w.log io done w.task).storage := rfl

theorem storage_step_sweep (w : World) (env : SweepEnv) :
    (w.step x path (.sweep env)).storage = storeRows w.storage (sweepRows env) := sweepOnce_fst env _

theorem storage_step_ingest (w : World) (rules : List CompiledRemoteRule) (log : Path) (offset : ℕ)
    (line : String) : (w.step x path (.ingest rules log offset line)).storage =
      (ingestOneLine x rules w.storage (logSourceFromPath log) offset line).1 := rfl

theorem storage_step_reparse (w : World) (rules : List CompiledRemoteRule) :
    (w.step x path (.reparse rules)).storage = (runReparse x rules w.storage).1 := rfl

theorem events_storeRows (st : Storage) (rows : List EventRow) :
    (storeRows st rows).events = st.events.insertAll rows := rfl

/-- The events behind a drain, with or without a new cursor. -/
theorem events_drained {w : World} {task : Task} {io : Launcher.Io}
    (h : Drained x path w.log io w.task task) :
    task.storage.events = w.storage.events.insertAll
      (inserted x io.insertFails 0 (texts w.task.offset (readChunks w.log io w.task.offset))) := by
  obtain ⟨-, heq | heq⟩ := h
  · rw [heq]
    rfl
  · rw [heq]
    rfl

theorem mem_contents_step (hx : Documented x) {w : World} (h : Inv x path w) (cmd : Command) {l : String × ℕ}
    (hl : Launcher.lineRow x l = some r) (hr : r ∈ w.storage.events.contents) :
    r ∈ (w.step x path cmd).storage.events.contents := by
  cases cmd with
  | append bytes => exact hr
  | drain io =>
    have hdrained := drained_drain (x := x) path io h.offset_le
    rw [storage_step_drain, events_drained hdrained]
    exact mem_contents_of_mem _ hr
  | restart io done =>
    obtain ⟨read, -, -, heq⟩ := drainDying_spec (x := x) path io done h.offset_le
    rw [storage_step_restart, heq]
    exact @mem_contents_of_mem r w.storage.events (inserted x io.insertFails 0 (texts w.task.offset read)) hr
  | sweep env =>
    rw [storage_step_sweep, events_storeRows]
    exact mem_contents_of_mem _ hr
  | ingest rules log offset line =>
    rw [storage_step_ingest, events_ingestOneLine]
    exact mem_contents_of_mem _ hr
  | reparse rules =>
    obtain ⟨a, ha, rfl⟩ := Table.mem_contents.mp hr
    have hline : a.2.rawLine = l.1 := by
      obtain ⟨parsed, -, heq⟩ := Option.map_eq_some_iff.mp hl
      rw [← heq]
      rfl
    have hside : ¬ Parses x a.2.rawLine := hline ▸ not_parses_of_lineRow hx hl
    rw [storage_step_reparse]
    exact List.mem_map_of_mem ((runReparse_side w.storage a hside).mpr ha)

/-- A drain keeps all lines stored exactly if it does not go past one that it fails to store. -/
theorem allStored_drain_iff {w : World} (h : Inv x path w) (hall : AllStored x w) (io : Launcher.Io) :
    AllStored x (w.step x path (.drain io)) ↔ ¬ Loses x w (.drain io) := by
  obtain ⟨done, rest, hd, hlog, hoffset⟩ := h.offset
  have hdrop : w.log.drop w.task.offset = rest := by rw [hlog, hoffset, List.drop_left]
  obtain ⟨hnext, hstorage⟩ := drained_drain (x := x) path io h.offset_le
  obtain ⟨more, hcs⟩ : readChunks w.log io w.task.offset <+: chunks rest := hdrop ▸ readChunks_prefix _ _ _
  have hread := complete_of_prefix ⟨more, hcs⟩ (@getLast?_of_mem_readChunks io w.log w.task.offset)
  have hcomplete : ∀ c ∈ done ++ readChunks w.log io w.task.offset, Complete c :=
    fun c hc => (List.mem_append.mp hc).elim (hd c) (hread c)
  have hsplit : (w.step x path (.drain io)).log =
      (done ++ readChunks w.log io w.task.offset).flatten ++ more.flatten := by
    show w.log = _
    rw [List.flatten_append, List.append_assoc, ← List.flatten_append, hcs, flatten_chunks]
    exact hlog
  have hend : (w.step x path (.drain io)).task.offset =
      (done ++ readChunks w.log io w.task.offset).flatten.length := by
    rw [List.flatten_append, List.length_append, ← hoffset]
    exact hnext
  have hrows : ∀ {l r}, Launcher.lineRow x l = some r →
      (r ∈ (w.step x path (.drain io)).storage.events.contents ↔ r ∈ w.storage.events.contents ∨
        ∃ i, (texts w.task.offset (readChunks w.log io w.task.offset))[i]? = some l ∧
          io.insertFails i = false) := by
    intro l r hl
    rw [← h.mem_afterLines hl, storage_step_drain, events_drained ⟨hnext, hstorage⟩]
    rfl
  rw [allStored_iff hcomplete hsplit hend, texts_append, Nat.zero_add, ← hoffset]
  constructor
  · rintro hstored ⟨i, l, r, hi, hfails, hl, hmissing⟩
    have hr := hstored l (List.mem_append_right _ (List.mem_of_getElem? hi)) r hl
    rcases (hrows hl).mp hr with hold | ⟨j, hj, hok⟩
    · exact hmissing hold
    · have hij : i = j := getElem?_texts_inj hread hi hj
      rw [hij, hok] at hfails
      cases hfails
  · intro hkept l hl r hrow
    rcases List.mem_append.mp hl with hbelow | hhere
    · exact (hrows hrow).mpr (Or.inl ((allStored_iff hd hlog hoffset).mp hall l hbelow r hrow))
    · obtain ⟨i, hi⟩ := List.mem_iff_getElem?.mp hhere
      by_contra hmissing
      have hnot : ¬ (r ∈ w.storage.events.contents ∨
          ∃ i, (texts w.task.offset (readChunks w.log io w.task.offset))[i]? = some l ∧
            io.insertFails i = false) := fun hor => hmissing ((hrows hrow).mpr hor)
      refine hkept ⟨i, l, r, hi, ?_, hrow, fun hold => hnot (Or.inl hold)⟩
      cases hfails : io.insertFails i with
      | true => rfl
      | false => exact absurd (Or.inr ⟨i, hi, hfails⟩) hnot

/-- Whatever is done to the store beside the tail, the lines stay stored. -/
theorem AllStored.store {w : World} {st : Storage} (h : AllStored x w)
    (hoffset : Boundary w.log w.task.offset)
    (hrows : ∀ l r, Launcher.lineRow x l = some r → r ∈ w.storage.events.contents → r ∈ st.events.contents) :
    AllStored x (w.store st) :=
  @AllStored.of_le x w (w.store st) h [] hoffset (List.append_nil _).symm le_rfl hrows

theorem allStored_step_iff (hx : Documented x) {w : World} (h : Inv x path w) (hall : AllStored x w)
    (cmd : Command) : AllStored x (w.step x path cmd) ↔ ¬ Loses x w cmd := by
  have hself : w.log = w.log ++ [] := (List.append_nil _).symm
  have hkept := fun l r => @mem_contents_step x path r hx w h cmd l
  cases cmd with
  | append bytes => exact iff_of_true (hall.of_le h.offset rfl le_rfl hkept) id
  | drain io => exact allStored_drain_iff h hall io
  | restart io done =>
    obtain ⟨read, -, -, heq⟩ := drainDying_spec (x := x) path io done h.offset_le
    have hoffset : (w.step x path (.restart io done)).task.offset = w.storage.readCursor path := by
      show (drainDying x path w.log io done w.task).offset = _
      rw [heq]
      rfl
    exact iff_of_true (hall.of_le (hoffset ▸ h.cursor) hself (hoffset ▸ h.cursor_le) hkept) id
  | sweep env => exact iff_of_true (hall.of_le h.offset hself le_rfl hkept) id
  | ingest rules log offset line =>
    rw [storage_step_ingest] at hkept
    have hstored := hall.store h.offset hkept
    exact iff_of_true hstored id
  | reparse rules =>
    rw [storage_step_reparse] at hkept
    have hstored := hall.store h.offset hkept
    exact iff_of_true hstored id

/-- **The tail of the launcher's log loses a line only by an insert that fails**: reads that fail, bytes
that are no text, processes that die and re-parses cost nothing. Each of its rows is one of a line. -/
theorem launcher_run (hx : Documented x) (noiseList : List String) (now : String) (cmds : List Command) :
    (∀ n, Sound x ((World.start path noiseList now).run x path (cmds.take n))) ∧
      ((∀ n, AllStored x ((World.start path noiseList now).run x path (cmds.take n))) ↔
        ∀ n cmd, cmds[n]? = some cmd →
          ¬ Loses x ((World.start path noiseList now).run x path (cmds.take n)) cmd) := by
  constructor
  · intro n r hr hsource
    exact ((inv_run hx noiseList now (cmds.take n)).rows r hr).launcher (Or.inl hsource)
  · have hstart : AllStored x (World.start path noiseList now) := by
      rintro p c ⟨-, -, -, hcomplete, -⟩ hle
      have hpos := hcomplete.length_pos
      have hzero : (World.start path noiseList now).task.offset = 0 := rfl
      omega
    exact forall_take_iff (inv_start noiseList now) (fun _ cmd h => inv_step hx h cmd) hstart
      (fun _ cmd h hall => allStored_step_iff hx h hall cmd) cmds

/-- `[a] [info] b`, and a newline. -/
def entry : List UInt8 := [91, 97, 93, 32, 91, 105, 110, 102, 111, 93, 32, 98, 10]

/-- A drain in which the second read fails, after one line. -/
def oneRead : Launcher.Io := ⟨⟨.found, false, false, fun i => i = 1, false⟩, fun _ => false⟩

/-- A line that is read before an error is stored. -/
theorem launcher_run_oneRead : AllStored percentExternals
    ((World.start ["LOG"] [] "").run percentExternals ["LOG"] [.append entry, .drain oneRead]) := by
  have hkept := (@launcher_run percentExternals ["LOG"] documented_percent [] ""
    [.append entry, .drain oneRead]).2
  refine hkept.mpr (fun n cmd hcmd => ?_) 2
  match n, hcmd with
  | 0, hcmd =>
    obtain rfl := Option.some.inj hcmd
    exact id
  | 1, hcmd =>
    obtain rfl := Option.some.inj hcmd
    rintro ⟨i, l, r, -, hfails, -⟩
    cases hfails

/-! ### Crashes -/

/-- What a command inserts for crashes. -/
def sweptBy : Command → List EventRow
  | .sweep env => sweepRows env
  | _ => []

section
variable {channel dirName : String}

theorem find?_crashKey_eq_none (hx : Documented x) {rs : List EventRow}
    (h : ∀ r ∈ rs, ∃ name, r.idempotencyKey = x.newV5 name) :
    (rs.find? fun r => r.idempotencyKey = crashKey channel dirName) = none := by
  refine List.find?_eq_none.mpr fun r hr hkey => ?_
  obtain ⟨name, hname⟩ := h r hr
  exact crashKey_ne hx name channel dirName (hname.symm.trans (of_decide_eq_true hkey))

theorem identifier_of_mem_inserted {fails : ℕ → Bool} {ls : List (String × ℕ)} :
    ∀ r ∈ inserted x fails 0 ls, ∃ name, r.idempotencyKey = x.newV5 name := by
  intro r hr
  obtain ⟨l, -, hrow⟩ := exists_of_mem_inserted hr
  exact ⟨_, key_of_lineRow hrow⟩

/-- What is under the key of a crash stays, and where nothing is, a sweep that finds the crash puts it. -/
theorem find?_crashKey_step (hx : Documented x) {w : World} (h : Inv x path w) (cmd : Command)
    (hchannel : channel ∈ channels) (hname : ¬ Parses x dirName) :
    ((w.step x path cmd).storage.events.find? (crashKey channel dirName)).map (·.2) =
      ((w.storage.events.find? (crashKey channel dirName)).map (·.2)).or
        ((sweptBy cmd).find? fun r => r.idempotencyKey = crashKey channel dirName) := by
  have hadded : ∀ {events : Events} {rs : List EventRow},
      (∀ r ∈ rs, ∃ name, r.idempotencyKey = x.newV5 name) → events = w.storage.events.insertAll rs →
      (events.find? (crashKey channel dirName)).map (·.2) =
        ((w.storage.events.find? (crashKey channel dirName)).map (·.2)).or none := by
    intro events rs hrs heq
    rw [heq, Table.map_find?_insertAll, find?_crashKey_eq_none hx hrs]
  cases cmd with
  | append bytes => exact (Option.or_none).symm
  | drain io =>
    rw [storage_step_drain]
    have hdrained := drained_drain (x := x) path io h.offset_le
    exact hadded identifier_of_mem_inserted (events_drained hdrained)
  | restart io done =>
    obtain ⟨read, -, -, heq⟩ := drainDying_spec (x := x) path io done h.offset_le
    rw [storage_step_restart, heq]
    exact @hadded _ (inserted x io.insertFails 0 (texts w.task.offset read)) identifier_of_mem_inserted rfl
  | sweep env =>
    rw [storage_step_sweep, events_storeRows]
    exact Table.map_find?_insertAll
  | ingest rules log offset line =>
    have hidentifier : ∀ r ∈ (Ingest.lineRow x rules (logSourceFromPath log) offset line).toList,
        ∃ name, r.idempotencyKey = x.newV5 name := by
      intro r hr
      obtain ⟨e, -, rfl⟩ := Option.map_eq_some_iff.mp (Option.mem_toList.mp hr)
      exact ⟨_, rfl⟩
    rw [storage_step_ingest, events_ingestOneLine]
    exact hadded hidentifier rfl
  | reparse rules =>
    have hafter := (inv_step hx h (.reparse rules)).rows
    rw [storage_step_reparse] at hafter
    refine Eq.trans (Option.ext fun r => ?_) (Option.or_none).symm
    rw [storage_step_reparse, Table.map_find?_eq_some, Table.map_find?_eq_some]
    constructor
    · rintro ⟨hr, hkey⟩
      have hside : ¬ Parses x r.rawLine :=
        (hafter r hr).crash channel hchannel dirName hname hkey ▸ hname
      obtain ⟨a, ha, rfl⟩ := Table.mem_contents.mp hr
      exact ⟨List.mem_map_of_mem ((runReparse_side w.storage a hside).mp ha), hkey⟩
    · rintro ⟨hr, hkey⟩
      have hside : ¬ Parses x r.rawLine := (h.rows r hr).crash channel hchannel dirName hname hkey ▸ hname
      obtain ⟨a, ha, rfl⟩ := Table.mem_contents.mp hr
      exact ⟨List.mem_map_of_mem ((runReparse_side w.storage a hside).mpr ha), hkey⟩

theorem find?_crashKey_run (hx : Documented x) (hchannel : channel ∈ channels) (hname : ¬ Parses x dirName) :
    ∀ (cmds : List Command) {w : World}, Inv x path w →
      ((w.run x path cmds).storage.events.find? (crashKey channel dirName)).map (·.2) =
        ((w.storage.events.find? (crashKey channel dirName)).map (·.2)).or
          ((cmds.flatMap sweptBy).find? fun r => r.idempotencyKey = crashKey channel dirName)
  | [], w, _ => (Option.or_none).symm
  | cmd :: cmds, w, h => by
    have hrest := find?_crashKey_run hx hchannel hname cmds (inv_step hx h cmd)
    have hone := find?_crashKey_step hx h cmd hchannel hname
    rw [List.flatMap_cons, List.find?_append, ← Option.or_assoc, ← hone]
    exact hrest

/-- **Each crash directory has one row: that of the first sweep that has stored it.** Later sweeps,
restarts and re-parses leave it as it is. -/
theorem crash_run (hx : Documented x) (noiseList : List String) (now : String) (cmds : List Command)
    (hchannel : channel ∈ channels) (hname : ¬ Parses x dirName) :
    (((World.start path noiseList now).run x path cmds).storage.events.find?
        (crashKey channel dirName)).map (·.2) =
      (cmds.flatMap sweptBy).find? fun r => r.idempotencyKey = crashKey channel dirName :=
  find?_crashKey_run hx hchannel hname cmds (inv_start noiseList now)

end

def crashDir : Path := ["SC", "LIVE", "Crashes", "2026-05-04-21-10-12"]

/-- A disk with one crash. -/
def crashDisk : FileSystem where
  fileSize file := if file = crashDir ++ ["crash.log"] then some 7 else none
  readDir dir :=
    if dir = crashDir.dropLast then some ["2026-05-04-21-10-12"]
    else if dir = crashDir then some ["crash.log"]
    else none
  isDir dir := decide (dir = crashDir)

/-- A sweep at a time, with nothing known of when the crash was. -/
def sweepAt (now : String) : SweepEnv :=
  ⟨crashDisk, [["SC"]], fun _ => none, fun _ => none, now, fun _ => false⟩

/-- The crash is of the first sweep. -/
theorem crash_run_again : ((((World.start ["LOG"] [] "").run percentExternals ["LOG"]
      [.sweep (sweepAt "1"), .reparse [], .restart oneRead 0, .sweep (sweepAt "2")]).storage.events.find?
        (crashKey "LIVE" "2026-05-04-21-10-12")).map (·.2)).map (·.timestamp) = some "1" := by
  have hname : ¬ Parses percentExternals "2026-05-04-21-10-12" := fun hparses =>
    absurd (documented_percent.head?_of_parses hparses) (by decide)
  rw [@crash_run percentExternals ["LOG"] "LIVE" "2026-05-04-21-10-12" documented_percent [] ""
    [.sweep (sweepAt "1"), .reparse [], .restart oneRead 0, .sweep (sweepAt "2")] (by decide) hname]
  rfl

end StarStats.Client.SideSources
