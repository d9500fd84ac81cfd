import StarStats.Client.ConfigFile
import StarStats.Lib.Text

/-! # Opening and saving the settings

The configuration file with all of its fields. Absent fields are left out of the file, and what the
file leaves out has its default when it is loaded; the default address of the server is an address, so
none is not a value the file can hold. The settings are opened with the web origin that is in force,
and saved with it, so an origin that was derived from the address of the server is an explicit one from
then on. These are the two ways in which a configuration is not kept (`roundTrips_iff`). The crate that
writes and reads the file is given. -/

namespace StarStats.Client.Settings

open StarStats.Lib.Text
open StarStats.Client.ConfigFile (RemoteSyncConfig DismissedHealth)

/-! ### The configuration -/

/-- The themes of the tray. -/
inductive Theme
  | stanton
  | pyro
  | terra
  | nyx
  deriving DecidableEq

/-- The token of the theme in the file. -/
def Theme.asStr : Theme → String
  | stanton => "stanton"
  | pyro => "pyro"
  | terra => "terra"
  | nyx => "nyx"

/-- The channels of the updater. -/
inductive ReleaseChannel
  | alpha
  | beta
  | rc
  | live
  deriving DecidableEq

/-- The token of the channel in the file. -/
def ReleaseChannel.asStr : ReleaseChannel → String
  | alpha => "alpha"
  | beta => "beta"
  | rc => "rc"
  | live => "live"

/-- The channel of a version, by what stands between its first hyphen and the next dot. -/
def ReleaseChannel.fromVersion (v : String) : ReleaseChannel :=
  match splitOnce v '-' with
  | none => live
  | some (_, suffix) =>
    let token := String.ofList (suffix.takeWhile (· ≠ '.'))
    if token = "alpha" then alpha else if token = "beta" then beta else if token = "rc" then rc else live

/-- The version of the package. -/
def pkgVersion : String := "0.0.7-beta"

/-- The server of a fresh install. -/
def defaultApiUrl : String := "https://api.starstats.app"

/-- The configuration in memory. -/
structure Config where
  gamelogPath : Option String
  remoteSync : RemoteSyncConfig
  webOrigin : Option String
  autoUpdateCheck : Bool
  releaseChannel : ReleaseChannel
  debugLogging : Bool
  theme : Theme
  dismissedHealth : List DismissedHealth
  clientAnonId : Option String
  deriving DecidableEq

/-- Synchronisation is off until a device is paired. -/
def defaultRemoteSync : RemoteSyncConfig where
  enabled := false
  apiUrl := some defaultApiUrl
  claimedHandle := none
  accessToken := none
  intervalSecs := 60
  batchSize := 200

/-- The configuration of a fresh install. -/
def Config.default : Config where
  gamelogPath := none
  remoteSync := defaultRemoteSync
  webOrigin := none
  autoUpdateCheck := true
  releaseChannel := ReleaseChannel.fromVersion pkgVersion
  debugLogging := false
  theme := .stanton
  dismissedHealth := []
  clientAnonId := none

/-! ### The web origin -/

/-- What ends the host and the port of an address. -/
def isStop (c : Char) : Bool := c = '/' || c = '?' || c = '#'

/-- The address without the path, and without the `api.` that its host begins with. -/
def deriveWebOriginFromApiUrl (apiUrl : String) : Option String :=
  let trimmed := trimEndMatches (· = '/') (trim apiUrl)
  if trimmed = "" then none
  else
    (cutFirst "://".toList trimmed.toList).bind fun (scheme, rest) =>
      if scheme = [] ∨ rest = [] then none
      else
        let authority := rest.takeWhile fun c => !isStop c
        (stripPrefix "api." authority).bind fun newAuthority =>
          if newAuthority = [] then none
          else some (String.ofList scheme ++ "://" ++ String.ofList newAuthority)

/-- An explicit origin that is not blank, or else the one derived. -/
def Config.effectiveWebOrigin (cfg : Config) : Option String :=
  let derived := cfg.remoteSync.apiUrl.bind deriveWebOriginFromApiUrl
  match cfg.webOrigin with
  | none => derived
  | some origin => if trim origin = "" then derived else some (trimEndMatches (· = '/') (trim origin))

/-! ### The file -/

/-- The fields of the file that are present. -/
structure RemoteSyncTable where
  enabled : Option Bool
  apiUrl : Option String
  claimedHandle : Option String
  accessToken : Option String
  intervalSecs : Option ℕ
  batchSize : Option ℕ
  deriving DecidableEq

/-- The configuration in the file, where each entry may be missing. -/
structure ConfigTable where
  gamelogPath : Option String
  remoteSync : Option RemoteSyncTable
  webOrigin : Option String
  autoUpdateCheck : Option Bool
  releaseChannel : Option String
  debugLogging : Option Bool
  theme : Option String
  dismissedHealth : Option (List DismissedHealth)
  clientAnonId : Option String
  deriving DecidableEq

/-- The section as it is written. -/
def toRemoteSyncTable (cfg : RemoteSyncConfig) : RemoteSyncTable where
  enabled := some cfg.enabled
  apiUrl := cfg.apiUrl
  claimedHandle := cfg.claimedHandle
  accessToken := cfg.accessToken
  intervalSecs := some cfg.intervalSecs
  batchSize := some cfg.batchSize

/-- A field without a value is left out of the file. -/
def Config.toTable (cfg : Config) : ConfigTable where
  gamelogPath := cfg.gamelogPath
  remoteSync := some (toRemoteSyncTable cfg.remoteSync)
  webOrigin := cfg.webOrigin
  autoUpdateCheck := some cfg.autoUpdateCheck
  releaseChannel := some cfg.releaseChannel.asStr
  debugLogging := some cfg.debugLogging
  theme := some cfg.theme.asStr
  dismissedHealth := some cfg.dismissedHealth
  clientAnonId := cfg.clientAnonId

/-- What is missing has its default. -/
def RemoteSyncTable.toConfig (t : RemoteSyncTable) : RemoteSyncConfig where
  enabled := t.enabled.getD defaultRemoteSync.enabled
  apiUrl := t.apiUrl.or defaultRemoteSync.apiUrl
  claimedHandle := t.claimedHandle.or defaultRemoteSync.claimedHandle
  accessToken := t.accessToken.or defaultRemoteSync.accessToken
  intervalSecs := t.intervalSecs.getD defaultRemoteSync.intervalSecs
  batchSize := t.batchSize.getD defaultRemoteSync.batchSize

/-- The value with a name, of those that there are. -/
def ofToken {α : Type} (asStr : α → String) (all : List α) (s : String) : Option α :=
  all.find? fun a => decide (asStr a = s)

/-- An unknown token is no theme. -/
def Theme.ofStr : String → Option Theme := ofToken Theme.asStr [stanton, pyro, terra, nyx]

/-- An unknown token is no channel. -/
def ReleaseChannel.ofStr : String → Option ReleaseChannel :=
  ofToken ReleaseChannel.asStr [alpha, beta, rc, live]

/-- A name that is missing stands for the default, one that is not known for nothing. -/
def tokenOr {α : Type} (ofStr : String → Option α) (default : α) : Option String → Option α
  | none => some default
  | some s => ofStr s

/-- Missing entries get the defaults; an unknown token fails the whole file. -/
def ConfigTable.toConfig (t : ConfigTable) : Option Config :=
  (tokenOr ReleaseChannel.ofStr Config.default.releaseChannel t.releaseChannel).bind fun releaseChannel =>
    (tokenOr Theme.ofStr Config.default.theme t.theme).map fun theme =>
      { gamelogPath := t.gamelogPath.or Config.default.gamelogPath
        remoteSync := (t.remoteSync.map RemoteSyncTable.toConfig).getD Config.default.remoteSync
        webOrigin := t.webOrigin.or Config.default.webOrigin
        autoUpdateCheck := t.autoUpdateCheck.getD Config.default.autoUpdateCheck
        releaseChannel
        debugLogging := t.debugLogging.getD Config.default.debugLogging
        theme
        dismissedHealth := t.dismissedHealth.getD Config.default.dismissedHealth
        clientAnonId := t.clientAnonId.or Config.default.clientAnonId }

/-- The crate that writes tables as text: what it has written it reads back. -/
structure Toml (Text : Type) where
  toStringPretty : ConfigTable → Text
  fromStr : Text → Option ConfigTable
  fromStr_toStringPretty : ∀ t, fromStr (toStringPretty t) = some t

/-- The directory of the configuration, if it can be made, and the file in it. -/
structure Disk (Text : Type) where
  configDir : Except String Unit
  readable : Bool
  writable : Bool
  file : Option Text

/-- Nothing fails on the disk. -/
structure Disk.Works {Text : Type} (disk : Disk Text) : Prop where
  configDir : disk.configDir = .ok ()
  readable : disk.readable = true
  writable : disk.writable = true

section File

variable {Text : Type} (toml : Toml Text)

/-- A missing file reads as the defaults, a broken one is an error. -/
def load (disk : Disk Text) : Except String Config :=
  match disk.configDir with
  | .error e => .error e
  | .ok () =>
    match disk.file with
    | none => .ok Config.default
    | some text =>
      if disk.readable then
        match (toml.fromStr text).bind ConfigTable.toConfig with
        | none => .error "parse config.toml"
        | some cfg => .ok cfg
      else .error "read config.toml"

/-- The file is written whole. -/
def save (cfg : Config) (disk : Disk Text) : Except String (Disk Text) :=
  match disk.configDir with
  | .error e => .error e
  | .ok () =>
    if disk.writable then .ok { disk with file := some (toml.toStringPretty cfg.toTable) }
    else .error "write config.toml"

/-! ### The commands -/

/-- The configuration with the origin that is in force. -/
def Config.hydrated (cfg : Config) : Config :=
  if cfg.webOrigin.isNone then { cfg with webOrigin := cfg.effectiveWebOrigin } else cfg

/-- What the page is given: the configuration with the origin filled in. -/
def getConfig (disk : Disk Text) : Except String Config := (load toml disk).map Config.hydrated

/-- What the command does to the file; the worker is then started anew. -/
def saveConfig (cfg : Config) (disk : Disk Text) : Except String (Disk Text) := save toml cfg disk

/-- The settings are opened and saved without an edit. -/
def reopen (disk : Disk Text) : Except String (Disk Text) :=
  (getConfig toml disk).bind fun cfg => saveConfig toml cfg disk

end File

/-- The configuration for another server. -/
def Config.withApiUrl (cfg : Config) (url : Option String) : Config :=
  { cfg with remoteSync := { cfg.remoteSync with apiUrl := url } }

/-! ### Addresses with an origin -/

/-- The host of the address is `api.` and something. -/
def HasApiHost (apiUrl : String) : Prop :=
  ∃ scheme host, cutFirst "://".toList (trimEndMatches (· = '/') (trim apiUrl)).toList =
      some (scheme, "api.".toList ++ host) ∧ scheme ≠ [] ∧ ∃ c ∈ host.head?, isStop c = false

/-- What comes after `api.` in the host is what comes after it in the text, up to the host's end. -/
theorem exists_authority_iff {rest : List Char} :
    (∃ new, stripPrefix "api." (rest.takeWhile fun c => !isStop c) = some new ∧ new ≠ []) ↔
      ∃ host, rest = "api.".toList ++ host ∧ ∃ c ∈ host.head?, isStop c = false := by
  constructor
  · rintro ⟨new, hstrip, hne⟩
    have hhost := stripPrefix_eq_some_iff.mp hstrip
    obtain ⟨c, new, rfl⟩ := List.exists_cons_of_ne_nil hne
    have hc : c ∈ rest.takeWhile fun c => !isStop c := by
      rw [hhost]
      simp
    refine ⟨c :: new ++ rest.dropWhile fun c => !isStop c, ?_, c, rfl, ?_⟩
    · rw [← List.append_assoc, ← hhost, List.takeWhile_append_dropWhile]
    · simpa using List.mem_takeWhile_imp hc
  · rintro ⟨host, rfl, c, hc, hstop⟩
    have hapi : ∀ c ∈ "api.".toList, (!isStop c) = true := List.all_eq_true.mp (by decide)
    obtain ⟨host, rfl⟩ : ∃ cs, host = c :: cs := by
      rcases host with _ | ⟨c', cs⟩
      · cases hc
      · exact ⟨cs, by rw [Option.mem_def, List.head?_cons] at hc; rw [Option.some.inj hc]⟩
    refine ⟨(c :: host).takeWhile fun c => !isStop c, ?_, ?_⟩
    · rw [stripPrefix_eq_some_iff, List.takeWhile_append_of_pos hapi]
    · rw [List.takeWhile_cons_of_pos (by simp [hstop])]
      exact List.cons_ne_nil _ _

/-- An origin is derived just from the addresses of such a host. -/
theorem isSome_derive_iff {apiUrl : String} :
    (deriveWebOriginFromApiUrl apiUrl).isSome = true ↔ HasApiHost apiUrl := by
  unfold deriveWebOriginFromApiUrl HasApiHost
  simp only
  generalize trimEndMatches (· = '/') (trim apiUrl) = trimmed
  by_cases hblank : trimmed = ""
  · rw [if_pos hblank, hblank]
    simp [cutFirst]
  rw [if_neg hblank]
  rcases hcut : cutFirst "://".toList trimmed.toList with _ | ⟨scheme, rest⟩
  · simp
  rw [Option.bind_some]
  constructor
  · intro hsome
    split_ifs at hsome with hempty
    · cases hsome
    · push Not at hempty
      obtain ⟨origin, horigin⟩ := Option.isSome_iff_exists.mp hsome
      obtain ⟨new, hstrip, hnew⟩ := Option.bind_eq_some_iff.mp horigin
      have hne : new ≠ [] := by
        rintro rfl
        rw [if_pos rfl] at hnew
        cases hnew
      obtain ⟨host, rfl, hhost⟩ := exists_authority_iff.mp ⟨new, hstrip, hne⟩
      exact ⟨scheme, host, rfl, hempty.1, hhost⟩
  · rintro ⟨scheme', host, heq, hscheme, hhost⟩
    simp only [Option.some.injEq, Prod.mk.injEq] at heq
    obtain ⟨rfl, rfl⟩ := heq
    obtain ⟨new, hstrip, hne⟩ := exists_authority_iff.mpr ⟨host, rfl, hhost⟩
    have hempty : ¬ (scheme = [] ∨ "api.".toList ++ host = []) := by
      rintro (h | h)
      · exact hscheme h
      · exact absurd (List.append_eq_nil_iff.mp h).1 (by decide)
    rw [if_neg hempty, hstrip, Option.bind_some, if_neg hne]
    rfl

/-! ### What the file keeps -/

/-- The configuration with the default address where it has none. -/
def Config.filled (cfg : Config) : Config :=
  cfg.withApiUrl (cfg.remoteSync.apiUrl.or (some defaultApiUrl))

theorem Theme.ofStr_asStr (theme : Theme) : Theme.ofStr theme.asStr = some theme := by
  cases theme <;> decide

theorem ReleaseChannel.ofStr_asStr (channel : ReleaseChannel) :
    ReleaseChannel.ofStr channel.asStr = some channel := by
  cases channel <;> decide

theorem toConfig_toTable (cfg : Config) : cfg.toTable.toConfig = some cfg.filled := by
  obtain ⟨path, ⟨enabled, apiUrl, handle, token, interval, batch⟩, origin, update, channel, logging, theme,
    dismissed, anonId⟩ := cfg
  unfold ConfigTable.toConfig Config.toTable
  simp only [tokenOr, ReleaseChannel.ofStr_asStr, Theme.ofStr_asStr, Option.bind_some, Option.map_some,
    Option.getD_some]
  unfold RemoteSyncTable.toConfig toRemoteSyncTable Config.filled Config.withApiUrl Config.default
    defaultRemoteSync
  simp only [Option.or_none, Option.getD_some]

theorem apiUrl_of_toConfig {t : ConfigTable} {cfg : Config} (h : t.toConfig = some cfg) :
    cfg.remoteSync.apiUrl ≠ none := by
  obtain ⟨channel, -, h⟩ := Option.bind_eq_some_iff.mp h
  obtain ⟨theme, -, rfl⟩ := Option.map_eq_some_iff.mp h
  rcases t.remoteSync with _ | sync
  · exact Option.some_ne_none _
  · show sync.apiUrl.or (some defaultApiUrl) ≠ none
    simp

theorem filled_eq_iff {cfg : Config} : cfg.filled = cfg ↔ cfg.remoteSync.apiUrl ≠ none := by
  obtain ⟨path, ⟨enabled, apiUrl, handle, token, interval, batch⟩, origin, update, channel, logging, theme,
    dismissed, anonId⟩ := cfg
  unfold Config.filled Config.withApiUrl
  rcases apiUrl with _ | url
  · simp
  · simp

/-- The origin that is in force is written down unless there is one already, or none can be derived. -/
theorem hydrated_eq_iff {cfg : Config} : cfg.hydrated = cfg ↔
    cfg.webOrigin ≠ none ∨ cfg.remoteSync.apiUrl.bind deriveWebOriginFromApiUrl = none := by
  obtain ⟨path, sync, origin, update, channel, logging, theme, dismissed, anonId⟩ := cfg
  unfold Config.hydrated Config.effectiveWebOrigin
  rcases origin with _ | origin
  · simp
  · simp

theorem hydrated_remoteSync (cfg : Config) : cfg.hydrated.remoteSync = cfg.remoteSync := by
  unfold Config.hydrated
  split_ifs <;> rfl

section File

variable {Text : Type} {toml : Toml Text} {disk : Disk Text} {cfg : Config}

theorem exists_save (hw : disk.Works) : ∃ disk', save toml cfg disk = .ok disk' ∧ disk'.Works ∧
    load toml disk' = .ok cfg.filled := by
  refine ⟨{ disk with file := some (toml.toStringPretty cfg.toTable) }, ?_,
    ⟨hw.configDir, hw.readable, hw.writable⟩, ?_⟩
  · unfold save
    rw [hw.configDir]
    simp only
    rw [if_pos hw.writable]
  · unfold load
    rw [hw.configDir]
    simp only
    rw [if_pos hw.readable, toml.fromStr_toStringPretty, Option.bind_some, toConfig_toTable]

theorem apiUrl_of_load (h : load toml disk = .ok cfg) : cfg.remoteSync.apiUrl ≠ none := by
  unfold load at h
  split at h
  · cases h
  · split at h
    · cases h
      decide
    · split_ifs at h
      split at h
      · cases h
      · rename_i cfg' hparse
        cases h
        obtain ⟨t, -, ht⟩ := Option.bind_eq_some_iff.mp hparse
        exact apiUrl_of_toConfig ht

theorem exists_reopen (hw : disk.Works) (h : load toml disk = .ok cfg) : ∃ disk',
    reopen toml disk = .ok disk' ∧ load toml disk' = .ok cfg.hydrated := by
  obtain ⟨disk', hsave, -, hload⟩ : ∃ disk', save toml cfg.hydrated disk = .ok disk' ∧ disk'.Works ∧
      load toml disk' = .ok cfg.hydrated.filled := exists_save hw
  refine ⟨disk', ?_, ?_⟩
  · unfold reopen getConfig
    rw [h]
    exact hsave
  · rw [hload, filled_eq_iff.mpr (by rw [hydrated_remoteSync]; exact apiUrl_of_load h)]

end File

/-! ### What is kept -/

section Law

variable {Text : Type} {toml : Toml Text} {cfg : Config}

/-- Loaded after it was saved, a configuration is what it was; opened and saved without an edit, what
is loaded is what it was; and a later change of the address has the effect it would have had. -/
structure RoundTrips (toml : Toml Text) (cfg : Config) : Prop where
  loads : ∀ disk : Disk Text, disk.Works → ∃ disk', save toml cfg disk = .ok disk' ∧
    load toml disk' = .ok cfg
  reopens : ∀ disk : Disk Text, disk.Works → load toml disk = .ok cfg → ∃ disk',
    reopen toml disk = .ok disk' ∧ load toml disk' = .ok cfg
  follows : ∀ disk : Disk Text, disk.Works → load toml disk = .ok cfg → ∀ url, ∃ disk' cfg',
    reopen toml disk = .ok disk' ∧ load toml disk' = .ok cfg' ∧
      (cfg'.withApiUrl url).effectiveWebOrigin = (cfg.withApiUrl url).effectiveWebOrigin

/-- The configuration has an address, and an explicit web origin or a host that none is derived from. -/
def Kept (cfg : Config) : Prop :=
  ∃ url, cfg.remoteSync.apiUrl = some url ∧ (cfg.webOrigin ≠ none ∨ ¬ HasApiHost url)

theorem hydrated_eq_of_kept (h : Kept cfg) : cfg.hydrated = cfg := by
  obtain ⟨url, hurl, horigin⟩ := h
  refine hydrated_eq_iff.mpr (horigin.imp_right fun hno => ?_)
  rw [hurl, Option.bind_some]
  exact Option.not_isSome_iff_eq_none.mp fun hsome => hno (isSome_derive_iff.mp hsome)

theorem roundTrips_iff : RoundTrips toml cfg ↔ Kept cfg := by
  constructor
  · intro hlaw
    have hw : (⟨.ok (), true, true, none⟩ : Disk Text).Works := ⟨rfl, rfl, rfl⟩
    obtain ⟨disk, hsave, hworks, hfilled⟩ : ∃ disk', save toml cfg ⟨.ok (), true, true, none⟩ = .ok disk' ∧
        disk'.Works ∧ load toml disk' = .ok cfg.filled := exists_save hw
    obtain ⟨disk', hsave', hload⟩ := hlaw.loads _ hw
    rw [hsave] at hsave'
    cases hsave'
    obtain ⟨url, hurl⟩ := Option.ne_none_iff_exists'.mp (apiUrl_of_load hload)
    refine ⟨url, hurl, ?_⟩
    obtain ⟨disk₁, hreopen, hsame⟩ := hlaw.reopens disk hworks hload
    obtain ⟨disk₂, hreopen', hhydrated⟩ := exists_reopen hworks hload
    rw [hreopen] at hreopen'
    cases hreopen'
    rw [hsame] at hhydrated
    refine (hydrated_eq_iff.mp (Except.ok.inj hhydrated).symm).imp_right fun hnone hhost => ?_
    have hsome := isSome_derive_iff.mpr hhost
    rw [hurl, Option.bind_some] at hnone
    rw [hnone] at hsome
    cases hsome
  · intro hkept
    have hreopens : ∀ disk : Disk Text, disk.Works → load toml disk = .ok cfg → ∃ disk',
        reopen toml disk = .ok disk' ∧ load toml disk' = .ok cfg := by
      intro disk hw hload
      obtain ⟨disk', hreopen, hload'⟩ := exists_reopen hw hload
      rw [hydrated_eq_of_kept hkept] at hload'
      exact ⟨disk', hreopen, hload'⟩
    obtain ⟨url, hurl, -⟩ := hkept
    refine ⟨fun disk hw => ?_, hreopens, fun disk hw hload apiUrl => ?_⟩
    · obtain ⟨disk', hsave, -, hload⟩ : ∃ disk', save toml cfg disk = .ok disk' ∧ disk'.Works ∧
          load toml disk' = .ok cfg.filled := exists_save hw
      rw [filled_eq_iff.mpr (by rw [hurl]; exact Option.some_ne_none _)] at hload
      exact ⟨disk', hsave, hload⟩
    · obtain ⟨disk', hreopen, hload'⟩ := hreopens disk hw hload
      exact ⟨disk', cfg, hreopen, hload', rfl⟩

end Law

/-- The tables themselves for the text of a file. -/
def tables : Toml ConfigTable := ⟨id, some, fun _ => rfl⟩

/-- After the settings were opened and saved once on a new installation, another address of the server
no longer changes the web origin. -/
theorem not_roundTrips_default : ¬ RoundTrips tables Config.default := by
  intro hlaw
  have hw : (⟨.ok (), true, true, none⟩ : Disk ConfigTable).Works := ⟨rfl, rfl, rfl⟩
  obtain ⟨disk', cfg', hreopen, hload, horigin⟩ :=
    hlaw.follows _ hw rfl (some "https://api.example.test")
  obtain ⟨disk'', hreopen', hload'⟩ : ∃ disk', reopen tables ⟨.ok (), true, true, none⟩ = .ok disk' ∧
      load tables disk' = .ok Config.default.hydrated := exists_reopen hw rfl
  rw [hreopen] at hreopen'
  cases hreopen'
  rw [hload] at hload'
  cases hload'
  have hstays : (Config.default.hydrated.withApiUrl (some "https://api.example.test")).effectiveWebOrigin =
      some "https://starstats.app" := by decide +kernel
  have hderived : (Config.default.withApiUrl (some "https://api.example.test")).effectiveWebOrigin =
      some "https://example.test" := by decide +kernel
  rw [hstays, hderived] at horigin
  exact absurd horigin (by decide)

end StarStats.Client.Settings
