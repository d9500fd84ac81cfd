import StarStats.Client.Discovery
import StarStats.Client.Launcher

/-! # The crash scanner

Every sweep walks the crash directories of all channels again, and inserts an event for each: the key is
the channel and the name of the directory, so that a directory gets one row, whatever the sweep finds in
it. A game log has no such line, and the name stands in its place. -/

namespace StarStats.Client.Crashes

open StarStats.Lib.Tables
open StarStats.Core.Events
open StarStats.Client.Store StarStats.Client.Discovery StarStats.Client.Launcher

/-- What the tray shows of the sweeps. -/
structure CrashStats where
  lastScanAt : Option String
  totalCrashesSeen : ℕ
  lastCrashDir : Option String
  deriving DecidableEq

/-- Before the first sweep. -/
def CrashStats.zero : CrashStats := ⟨none, 0, none⟩

/-- What a sweep finds: the disk and the clock, a reader of dates of the form `%Y-%m-%d-%H-%M-%S`, and
the crashes whose insert fails. -/
structure SweepEnv where
  fs : FileSystem
  installRoots : List Path
  parseCrashTimestamp : String → Option String
  dirMtimeRfc3339 : Path → Option String
  now : String
  insertFails : DiscoveredLog → Bool

/-- The directory that the log lies in. -/
def crashDirName (crashLogPath : Path) : Option String := crashLogPath.dropLast.getLast?

/-- The sizes of the files of a directory, added up to what a `u64` holds. Links, which the sum does not
follow, are not in the model. -/
def sumCrashDirBytes (fs : FileSystem) (dir : Path) : ℕ :=
  ((entriesOf fs dir).filterMap fun name => fs.fileSize (dir ++ [name])).foldl
    (fun total size => min (total + size) (2 ^ 64 - 1)) 0

/-- The key of a crash: channel and directory. -/
def crashKey (channel dirName : String) : String := "crash:" ++ (channel ++ (":" ++ dirName))

/-- `log_source_for_channel` -/
def logSourceForChannel (channel : String) : String := channelLabel channel

/-- The row of a crash; nothing for a log that is in no directory. -/
def crashRow (env : SweepEnv) (log : DiscoveredLog) : Option EventRow :=
  (crashDirName log.path).map fun dirName =>
    let crashDir := log.path.dropLast
    let timestamp := ((env.parseCrashTimestamp dirName).or (env.dirMtimeRfc3339 crashDir)).getD env.now
    let event := GameEvent.gameCrash ⟨timestamp, log.channel, dirName, log.path.getLast?,
      sumCrashDirBytes env.fs crashDir⟩
    ⟨crashKey log.channel dirName, "game_crash", timestamp, dirName, event.toValue.render,
      logSourceForChannel log.channel, 0⟩

/-- `ingest_crash`, and whether it has succeeded. -/
def ingestCrash (env : SweepEnv) (st : Storage) (log : DiscoveredLog) : Storage × Bool :=
  match crashRow env log with
  | none => (st, false)
  | some row => if env.insertFails log then (st, false) else (st.insertEvent row, true)

/-- The logs under one root, channel by channel. -/
def collectFromRoot (fs : FileSystem) (root : Path) : List DiscoveredLog :=
  channels.flatMap fun channel => collectChannel fs channel (root ++ [channel])

/-- `discover`, without the logs of the launcher. -/
def discover (env : SweepEnv) : List DiscoveredLog := env.installRoots.flatMap (collectFromRoot env.fs)

/-- The logs of crashes among all that are found. -/
def crashLogs (env : SweepEnv) : List DiscoveredLog :=
  (discover env).filter fun log => log.kind = .crashReport

/-- One sweep. A crash that is not stored does not stop it. -/
def sweepOnce (env : SweepEnv) (s : Storage × CrashStats) : Storage × CrashStats :=
  let logs := crashLogs env
  (logs.foldl (fun st log => (ingestCrash env st log).1) s.1,
    { lastScanAt := some env.now
      totalCrashesSeen := logs.length
      lastCrashDir := match logs with
        | [] => s.2.lastCrashDir
        | first :: _ => crashDirName first.path })

/-! ### What a sweep stores -/

/-- The rows that a sweep inserts. -/
def sweepRows (env : SweepEnv) : List EventRow :=
  ((crashLogs env).filter (!env.insertFails ·)).filterMap (crashRow env)

theorem foldl_ingestCrash (env : SweepEnv) : ∀ (logs : List DiscoveredLog) (st : Storage),
    logs.foldl (fun st log => (ingestCrash env st log).1) st =
      storeRows st ((logs.filter (!env.insertFails ·)).filterMap (crashRow env))
  | [], _ => rfl
  | log :: logs, st => by
    have hone : (ingestCrash env st log).1 =
        storeRows st (if env.insertFails log then [] else (crashRow env log).toList) := by
      unfold ingestCrash
      cases crashRow env log with
      | none => cases env.insertFails log <;> rfl
      | some row => cases env.insertFails log <;> rfl
    have hrows : ((log :: logs).filter (!env.insertFails ·)).filterMap (crashRow env) =
        (if env.insertFails log then [] else (crashRow env log).toList) ++
          (logs.filter (!env.insertFails ·)).filterMap (crashRow env) := by
      rw [List.filter_cons]
      cases env.insertFails log with
      | true => rfl
      | false =>
        cases hrow : crashRow env log with
        | none => exact List.filterMap_cons_none hrow
        | some row => exact List.filterMap_cons_some hrow
    rw [List.foldl_cons, foldl_ingestCrash env logs, hone, hrows, storeRows_append]

theorem sweepOnce_fst (env : SweepEnv) (s : Storage × CrashStats) :
    (sweepOnce env s).1 = storeRows s.1 (sweepRows env) := foldl_ingestCrash env _ s.1

theorem channel_of_mem_crashLogs {env : SweepEnv} {log : DiscoveredLog} (h : log ∈ crashLogs env) :
    log.channel ∈ channels := by
  obtain ⟨root, -, hlog⟩ := List.mem_flatMap.mp (List.mem_filter.mp h).1
  obtain ⟨channel, hchannel, hlog⟩ := List.mem_flatMap.mp hlog
  have hsame : log.channel = channel := by
    unfold collectChannel collectLive newestFirst collectRotatedFrom collectCrashes at hlog
    simp only [List.mem_append, List.mem_insertionSort, List.mem_flatMap, List.mem_filterMap,
      Option.mem_toList, Option.map_eq_some_iff] at hlog
    rcases hlog with (⟨size, -, rfl⟩ | ⟨sub, -, name, -, hname⟩) | ⟨name, -, hname⟩
    · rfl
    · split_ifs at hname
      obtain ⟨size, -, rfl⟩ := Option.map_eq_some_iff.mp hname
      rfl
    · split_ifs at hname
      obtain ⟨best, -, rfl⟩ := Option.map_eq_some_iff.mp hname
      rfl
  rw [hsame]
  exact hchannel

theorem exists_of_mem_sweepRows {env : SweepEnv} {r : EventRow} (h : r ∈ sweepRows env) :
    ∃ channel ∈ channels, r.idempotencyKey = crashKey channel r.rawLine ∧
      r.logSource = logSourceForChannel channel := by
  obtain ⟨log, hlog, hrow⟩ := List.mem_filterMap.mp h
  obtain ⟨dirName, -, rfl⟩ := Option.map_eq_some_iff.mp hrow
  exact ⟨log.channel, channel_of_mem_crashLogs (List.mem_filter.mp hlog).1, rfl, rfl⟩

end StarStats.Client.Crashes
