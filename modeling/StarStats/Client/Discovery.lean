import StarStats.Client.Gamelog

/-! # Discovery of the logs of a channel

`collectChannel` walks the directory of a channel and reports the live log, the rotated logs of `Logs` and
of `logbackups`, and the largest log of each crash. `logSourceFromPath` labels a log by the directory it is
in; it steps over `Logs`, and over no other directory. So a log has the label of its channel, and each of
its lines the key that it has in the live log, exactly if it is not in `logbackups` (`sharesLabel_iff`). -/

namespace StarStats.Client.Discovery

open StarStats.Lib.Text StarStats.Core.Crates StarStats.Client.Store StarStats.Client.Gamelog

/-- What kind of log a file is. -/
inductive LogKind where
  | channelLive
  | channelArchived
  | crashReport
  deriving DecidableEq

/-- A log that was found. -/
structure DiscoveredLog where
  channel : String
  kind : LogKind
  path : Path
  sizeBytes : ℕ
  deriving DecidableEq

/-- `CHANNELS` -/
def channels : List String := ["LIVE", "PTU", "EPTU", "HOTFIX", "TECH-PREVIEW"]

/-- The files on disk. Names that are no text are left out. -/
structure FileSystem where
  /-- The size of a regular file. -/
  fileSize : Path → Option ℕ
  /-- The names in a directory, in the order of the system. -/
  readDir : Path → Option (List String)
  isDir : Path → Bool

variable (fs : FileSystem)

/-- The names in a directory; none where it cannot be read. -/
def entriesOf (dir : Path) : List String := (fs.readDir dir).getD []

/-- `Path::extension`: what stands behind the last dot, unless nothing stands before it. -/
def extension (name : String) : Option String :=
  let tail := name.toList.reverse.takeWhile (· ≠ '.')
  let rest := name.toList.reverse.dropWhile (· ≠ '.')
  if rest.length ≤ 1 then none else some (String.ofList tail.reverse)

/-- The last part of the path. -/
def fileName (log : DiscoveredLog) : String := log.path.getLast?.getD ""

/-- Sorted by name, the last name first. -/
def newestFirst (logs : List DiscoveredLog) : List DiscoveredLog :=
  logs.insertionSort fun a b => fileName b ≤ fileName a

/-- The file names of rotated logs. -/
def isRotatedName (name : String) : Bool :=
  startsWith name "Game" && endsWith name ".log" && name ≠ "Game.log"

/-- The rotated logs of one directory. -/
def collectRotatedFrom (channel : String) (dir : Path) : List DiscoveredLog :=
  (entriesOf fs dir).filterMap fun name =>
    if isRotatedName name then
      (fs.fileSize (dir ++ [name])).map fun size => ⟨channel, .channelArchived, dir ++ [name], size⟩
    else none

/-- The larger of two logs, the first one where they are alike. -/
def keepLarger (best : Option (Path × ℕ)) (log : Path × ℕ) : Option (Path × ℕ) :=
  if best.all fun b => b.2 < log.2 then some log else best

/-- The largest log of a crash. -/
def crashLog (crashDir : Path) : Option (Path × ℕ) :=
  ((entriesOf fs crashDir).filterMap fun name =>
    if extension name = some "log" then
      (fs.fileSize (crashDir ++ [name])).map fun size => (crashDir ++ [name], size)
    else none).foldl keepLarger none

/-- A log for each directory of a crash that has one. -/
def collectCrashes (channel : String) (crashesDir : Path) : List DiscoveredLog :=
  (entriesOf fs crashesDir).filterMap fun name =>
    if fs.isDir (crashesDir ++ [name]) then
      (crashLog fs (crashesDir ++ [name])).map fun (path, size) => ⟨channel, .crashReport, path, size⟩
    else none

/-- The log that is being written. -/
def collectLive (channel : String) (channelDir : Path) : List DiscoveredLog :=
  ((fs.fileSize (channelDir ++ ["Game.log"])).map fun size =>
    ⟨channel, .channelLive, channelDir ++ ["Game.log"], size⟩).toList

/-- The directories of rotated logs. -/
def rotatedDirs : List String := ["Logs", "logbackups"]

/-- The logs of a channel: the live one first, then the rotated ones and those of crashes. -/
def collectChannel (channel : String) (channelDir : Path) : List DiscoveredLog :=
  collectLive fs channel channelDir ++
    newestFirst (rotatedDirs.flatMap fun sub => collectRotatedFrom fs channel (channelDir ++ [sub])) ++
    newestFirst (collectCrashes fs channel (channelDir ++ ["Crashes"]))

/-! ### Labels -/

/-- The label of a channel. -/
def channelLabel : String → String
  | "LIVE" => "live"
  | "PTU" => "ptu"
  | "EPTU" => "eptu"
  | "HOTFIX" => "hotfix"
  | "TECH-PREVIEW" => "tech"
  | _ => "other"

/-- The live log of a channel. -/
def livePath (root : Path) (channel : String) : Path := root ++ [channel] ++ ["Game.log"]

/-- **The log has the label of its channel**, and a line at an offset of it the key that it has there in
the live log. -/
structure SharesLabel (x : Externals) (root : Path) (channel : String) (path : Path) : Prop where
  label : logSourceFromPath path = channelLabel channel
  live : logSourceFromPath path = logSourceFromPath (livePath root channel)
  keys : ∀ offset line, idempotencyKey x (logSourceFromPath path) offset line =
    idempotencyKey x (logSourceFromPath (livePath root channel)) offset line

/-- Where the logs of a channel are. -/
inductive Located (channelDir : Path) : LogKind → Path → Prop
  | live : Located channelDir .channelLive (channelDir ++ ["Game.log"])
  | archived (sub name : String) : sub ∈ rotatedDirs →
      Located channelDir .channelArchived (channelDir ++ [sub] ++ [name])
  | crash (path : Path) : Located channelDir .crashReport path

variable {fs} {root : Path} {channel : String} {channelDir : Path} {log : DiscoveredLog}

theorem located_collectRotatedFrom {sub : String} (hsub : sub ∈ rotatedDirs)
    (h : log ∈ collectRotatedFrom fs channel (channelDir ++ [sub])) :
    Located channelDir log.kind log.path := by
  obtain ⟨name, -, hname⟩ := List.mem_filterMap.mp h
  split_ifs at hname
  obtain ⟨size, -, rfl⟩ := Option.map_eq_some_iff.mp hname
  exact .archived sub name hsub

/-- **Every log that is reported is in its place.** -/
theorem located_collectChannel (h : log ∈ collectChannel fs channel channelDir) :
    Located channelDir log.kind log.path := by
  unfold collectChannel newestFirst at h
  rw [List.mem_append, List.mem_append, List.mem_insertionSort, List.mem_insertionSort] at h
  rcases h with (hlive | hrotated) | hcrash
  · obtain ⟨size, -, rfl⟩ := Option.map_eq_some_iff.mp (Option.mem_toList.mp hlive)
    exact .live
  · obtain ⟨sub, hsub, hmem⟩ := List.mem_flatMap.mp hrotated
    exact located_collectRotatedFrom hsub hmem
  · obtain ⟨name, -, hname⟩ := List.mem_filterMap.mp hcrash
    split_ifs at hname
    obtain ⟨⟨path, size⟩, -, rfl⟩ := Option.map_eq_some_iff.mp hname
    exact .crash path

/-- The label of the directory that counts. -/
def labelOf (segment : String) : String :=
  match segment.toUpper with
  | "LIVE" => "live"
  | "PTU" => "ptu"
  | "EPTU" => "eptu"
  | "HOTFIX" => "hotfix"
  | "TECH-PREVIEW" => "tech"
  | _ => "other"

/-- The directory that counts. -/
def segmentOf (path : Path) : Option String :=
  match path.dropLast.getLast? with
  | some "Logs" => path.dropLast.dropLast.getLast?
  | s => s

theorem logSourceFromPath_eq (path : Path) :
    logSourceFromPath path = labelOf ((segmentOf path).getD "OTHER") := rfl

theorem logSourceFromPath_concat {dir : Path} {segment name : String} (h : segment ≠ "Logs") :
    logSourceFromPath (dir ++ [segment] ++ [name]) = labelOf segment := by
  have hsegment : segmentOf (dir ++ [segment] ++ [name]) = some segment := by
    unfold segmentOf
    rw [List.dropLast_concat, List.getLast?_concat]
    split
    · next heq => exact absurd (Option.some.inj heq) h
    · rfl
  rw [logSourceFromPath_eq, hsegment]
  rfl

theorem logSourceFromPath_logs {dir : Path} {segment name : String} :
    logSourceFromPath (dir ++ [segment] ++ ["Logs"] ++ [name]) = labelOf segment := by
  have hsegment : segmentOf (dir ++ [segment] ++ ["Logs"] ++ [name]) = some segment := by
    unfold segmentOf
    rw [List.dropLast_concat, List.getLast?_concat, List.dropLast_concat]
    exact List.getLast?_concat
  rw [logSourceFromPath_eq, hsegment]
  rfl

theorem labelOf_channel : ∀ channel ∈ channels, labelOf channel = channelLabel channel ∧
    channel ≠ "Logs" ∧ channelLabel channel ≠ labelOf "logbackups" := by
  decide +kernel

theorem logSourceFromPath_livePath (hchannel : channel ∈ channels) :
    logSourceFromPath (livePath root channel) = channelLabel channel := by
  obtain ⟨hlabel, hlogs, -⟩ := labelOf_channel channel hchannel
  unfold livePath
  rw [logSourceFromPath_concat hlogs, hlabel]

theorem sharesLabel_of_label {x : Externals} {path : Path} (hchannel : channel ∈ channels)
    (h : logSourceFromPath path = channelLabel channel) : SharesLabel x root channel path := by
  have hlive : logSourceFromPath path = logSourceFromPath (livePath root channel) := by
    rw [h, logSourceFromPath_livePath hchannel]
  exact ⟨h, hlive, fun offset line => by rw [hlive]⟩

/-- **A live or rotated log has the label of its channel exactly if it is not in `logbackups`.** -/
theorem sharesLabel_iff (x : Externals) (fs : FileSystem) (root : Path) (hchannel : channel ∈ channels)
    (h : log ∈ collectChannel fs channel (root ++ [channel]))
    (hkind : log.kind = .channelLive ∨ log.kind = .channelArchived) :
    SharesLabel x root channel log.path ↔ log.path.dropLast ≠ root ++ [channel] ++ ["logbackups"] := by
  have hlocated := located_collectChannel h
  generalize log.kind = kind at hlocated hkind
  generalize log.path = path at hlocated
  cases hlocated with
  | live =>
    refine iff_of_true (sharesLabel_of_label hchannel (logSourceFromPath_livePath hchannel)) ?_
    rw [List.dropLast_concat]
    simp
  | archived sub name hsub =>
    obtain ⟨hlabel, -, hother⟩ := labelOf_channel channel hchannel
    have hsub : sub = "Logs" ∨ sub = "logbackups" := by simpa [rotatedDirs] using hsub
    rw [List.dropLast_concat]
    rcases hsub with rfl | rfl
    · refine iff_of_true (sharesLabel_of_label hchannel ?_) (by simp)
      rw [logSourceFromPath_logs, hlabel]
    · refine iff_of_false (fun hshares => hother ?_) (fun hne => hne rfl)
      rw [← hshares.label, logSourceFromPath_concat (by decide)]
  | crash => simp at hkind

def install : Path := ["C:", "Program Files", "Roberts Space Industries", "StarCitizen"]

/-- A rotated log of the channel `LIVE`. -/
def rotatedIn (sub name : String) : DiscoveredLog :=
  ⟨"LIVE", .channelArchived, install ++ ["LIVE"] ++ [sub] ++ [name], 18⟩

/-- One rotated log in either directory. -/
def disk : FileSystem where
  fileSize _ := some 18
  readDir dir :=
    if dir = install ++ ["LIVE"] ++ ["Logs"] then some ["Game-20260101-120000.log"]
    else if dir = install ++ ["LIVE"] ++ ["logbackups"] then some ["Game.20260103.log"]
    else none
  isDir _ := false

/-- The one in `Logs` has the label of its channel. -/
theorem sharesLabel_logs : SharesLabel .std install "LIVE"
    (rotatedIn "Logs" "Game-20260101-120000.log").path := by
  have hmem : rotatedIn "Logs" "Game-20260101-120000.log" ∈
      collectChannel disk "LIVE" (install ++ ["LIVE"]) := by
    decide
  exact (sharesLabel_iff .std disk install (by decide) hmem (Or.inr rfl)).mpr (by decide)

/-- The one in `logbackups` does not. -/
theorem not_sharesLabel_logbackups : rotatedIn "logbackups" "Game.20260103.log" ∈
      collectChannel disk "LIVE" (install ++ ["LIVE"]) ∧
    ¬ SharesLabel .std install "LIVE" (rotatedIn "logbackups" "Game.20260103.log").path := by
  refine ⟨by decide, fun h => ?_⟩
  have hlabel : logSourceFromPath (rotatedIn "logbackups" "Game.20260103.log").path = "other" := by
    decide +kernel
  rw [h.label] at hlabel
  exact absurd hlabel (by decide)

end StarStats.Client.Discovery
