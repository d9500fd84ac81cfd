import StarStats.Lib.Histories
import StarStats.Lib.Text

/-! # The settings of the mailer

A PUT of the settings writes their row, reads it back and puts a mailer made of it in force; a restart
makes its mailer of the row as well. The steps of several PUTs may come between each other. The row always
opens to what has been written so far, with the password that was given last, and the mailer in force is
that of the settings as they stood when the last to change it read them (`mailer_run`): not always those
that are stored now. -/

namespace StarStats.Server.SmtpConfig

open StarStats.Lib.Histories StarStats.Lib.Text StarStats.Lib.Threads

/-- The settings without the password. -/
structure Settings where
  host : String
  port : ℤ
  username : String
  secure : Bool
  fromAddr : String
  fromName : String
  webOrigin : String
  enabled : Bool

/-- The settings with the password in plain text. Written, `none` keeps the password that is stored, and
an empty one clears it. -/
structure SmtpConfigRecord extends Settings where
  password : Option String

/-- The row: the password under the key, and the nonce that it is under the key with. -/
structure Row extends Settings where
  passwordCiphertext : Option String
  passwordNonce : Option String

/-- The body of a PUT. -/
structure SmtpConfigRequest extends Settings where
  password : Option String

/-- What is told of the settings: whether there is a password, never which. -/
structure SmtpConfigResponse extends Settings where
  passwordSet : Bool

/-- An error, the settings, or a process that is up. -/
inductive Response where
  | error (status : ℕ) (code : String) (detail : Option String)
  | config (r : SmtpConfigResponse)
  | booted

/-! ### Mailers -/

/-- Where mail is handed in; without a user name there are no credentials. -/
structure Transport where
  secure : Bool
  host : String
  port : ℕ
  credentials : Option (String × String)
  deriving DecidableEq

/-- A mailer that drops its mail, or one that hands it on. -/
inductive Mailer where
  | noop
  | lettre (transport : Transport) (fromAddr fromName webOrigin : String)
  deriving DecidableEq

/-- What the process is given: the key that passwords are stored under, whether a transport to a host can
be set up, which subjects are ids, and the mailer that its environment configures. -/
structure Given where
  encrypt : String → String → Option String
  decrypt : String → String → Option String
  relays : Bool → String → Bool
  isUuid : String → Bool
  envMailer : Mailer

/-- The key opens what it has closed. -/
def Given.Opens (g : Given) : Prop :=
  ∀ text nonce ciphertext, g.encrypt text nonce = some ciphertext → g.decrypt ciphertext nonce = some text

section Build
variable (g : Given)

/-- A port out of range or a host that cannot be set up gives no transport. -/
def buildTransportFromParts (host : String) (port : ℤ) (username : String) (password : Option String)
    (secure : Bool) : Option Transport :=
  if port < 0 ∨ 65535 < port then none
  else if !g.relays secure host then none
  else some ⟨secure, host, port.toNat, if username = "" then none else some (username, password.getD "")⟩

/-- A mailer needs a host; the origin of its links loses its slashes at the end. -/
def fromRecord (rec : SmtpConfigRecord) : Option Mailer :=
  if trim rec.host = "" then none
  else
    (buildTransportFromParts g rec.host rec.port rec.username rec.password rec.secure).map fun transport =>
      .lettre transport rec.fromAddr rec.fromName (trimEndMatches (· = '/') rec.webOrigin)

/-- Settings of which no mailer can be made send nothing. -/
def buildMailerFromRecord (rec : SmtpConfigRecord) : Mailer := (fromRecord g rec).getD .noop

/-- The mailer that a PUT puts in force. -/
def newMailer (rec : SmtpConfigRecord) : Mailer :=
  if rec.enabled then buildMailerFromRecord g rec else .noop

/-- The mailer that a process starts with. -/
def initialMailer (rec : Option SmtpConfigRecord) : Mailer :=
  match rec with
  | some rec => if rec.enabled then buildMailerFromRecord g rec else g.envMailer
  | none => g.envMailer

/-! ### The store -/

/-- The settings as they are stored. A ciphertext without its nonce, or one the key does not open, is an
error. -/
def get (row : Row) : Option SmtpConfigRecord :=
  match row.passwordCiphertext, row.passwordNonce with
  | some ciphertext, some nonce => (g.decrypt ciphertext nonce).map fun p => ⟨row.toSettings, some p⟩
  | none, none => some ⟨row.toSettings, none⟩
  | _, _ => none

/-- The one statement of the store; it fails when the password cannot be put under the key. -/
def put (row : Row) (rec : SmtpConfigRecord) (nonce : String) : Option Row :=
  match rec.password with
  | none => some { row with toSettings := rec.toSettings }
  | some plain =>
    if plain = "" then some ⟨rec.toSettings, none, none⟩
    else (g.encrypt plain nonce).map fun ciphertext => ⟨rec.toSettings, some ciphertext, some nonce⟩

end Build

/-- The row of the migration. -/
def seeded : Row := ⟨⟨"", 587, "", true, "noreply@starstats.local", "StarStats", "", false⟩, none, none⟩

/-! ### The routes -/

/-- The refusal of a field. -/
def invalid (detail : String) : Option Response := some (.error 400 "invalid_smtp_config" (some detail))

/-- The checks of a PUT, in the source's order. -/
def validate (req : SmtpConfigRequest) : Option Response :=
  if trim req.host = "" ∧ req.enabled = true then invalid "host is required when enabled"
  else if req.port < 1 ∨ 65535 < req.port then
    invalid ("port " ++ toString req.port ++ " out of range 1..=65535")
  else if trim req.fromAddr = "" ∨ contains req.fromAddr "@" = false then
    invalid "from_addr must contain '@'"
  else if trim req.fromName = "" then invalid "from_name is required"
  else if startsWith req.webOrigin "http://" = false ∧ startsWith req.webOrigin "https://" = false then
    invalid "web_origin must start with http:// or https://"
  else none

/-- An empty password counts as none. -/
def toResponse (rec : SmtpConfigRecord) : SmtpConfigResponse :=
  ⟨rec.toSettings, rec.password.any fun p => p ≠ ""⟩

/-- The settings that a PUT writes. -/
def merge (req : SmtpConfigRequest) : SmtpConfigRecord := ⟨req.toSettings, req.password⟩

/-- What the site is asked. -/
inductive Request where
  | put (sub : String) (req : SmtpConfigRequest)
  | get
  /-- A process starts. -/
  | boot

/-- Where a request is. -/
inductive Place where
  | asked
  /-- The row is written. -/
  | written
  /-- The settings, as they have been read back. -/
  | reread (rec : SmtpConfigRecord)
  | answered (r : Response)

/-- The nonce that is drawn, and whether the call of a step fails. -/
structure Env where
  nonce : String
  fault : Bool

/-- The row, and the mailer in force. -/
structure Site where
  row : Row
  mailer : Mailer

/-- A failed call. -/
def internal : Place := .answered (.error 500 "internal" none)

section Handlers
variable (g : Given) (env : Env) (st : Site)

/-- A PUT in its three steps: write the row, read it back, put its mailer in force. -/
def putSmtp (sub : String) (req : SmtpConfigRequest) : Place → Site × Place
  | .asked =>
    match validate req with
    | some r => (st, .answered r)
    | none =>
      if !g.isUuid sub then (st, .answered (.error 500 "bad_subject" none))
      else if env.fault then (st, internal)
      else
        match put g st.row (merge req) env.nonce with
        | none => (st, internal)
        | some row => ({ st with row := row }, .written)
  | .written =>
    if env.fault then (st, internal)
    else
      match get g st.row with
      | none => (st, internal)
      | some rec => (st, .reread rec)
  | .reread rec => ({ st with mailer := newMailer g rec }, .answered (.config (toResponse rec)))
  | place => (st, place)

/-- A GET reads the row once. -/
def getSmtp : Place → Site × Place
  | .asked =>
    if env.fault then (st, internal)
    else
      match get g st.row with
      | none => (st, internal)
      | some rec => (st, .answered (.config (toResponse rec)))
  | place => (st, place)

/-- A read that fails leaves a process with the mailer of its environment. -/
def bootMailer : Mailer := initialMailer g (if env.fault then none else get g st.row)

/-- A process starts with the mailer of the row or of its environment. -/
def boot : Place → Site × Place
  | .asked => ({ st with mailer := bootMailer g env st }, .answered .booted)
  | place => (st, place)

end Handlers

section Machine
variable {ι : Type} [DecidableEq ι] (g : Given) (requests : ι → Request)

/-- A request takes its next step. -/
def step (i : ι) (env : Env) (st : Site) (place : Place) : Site × Place :=
  match requests i with
  | .put sub req => putSmtp g env st sub req place
  | .get => getSmtp g env st place
  | .boot => boot g env st place

/-- A process has started on the row of the migration. -/
def initial : Shared ι Site Place := ⟨⟨seeded, initialMailer g (get g seeded)⟩, fun _ => .asked⟩

variable (as : List (ι × Env))

/-- The state after the first turns. -/
def state (n : ℕ) : Shared ι Site Place := after (step g requests) (initial g) as n

/-- What is written over the settings: a password that is not given stays, an empty one clears it. -/
def SmtpConfigRecord.over (rec old : SmtpConfigRecord) : SmtpConfigRecord where
  toSettings := rec.toSettings
  password :=
    match rec.password with
    | none => old.password
    | some plain => if plain = "" then none else some plain

/-- What a turn writes: the settings of a PUT that begins, if they are valid and can be stored. -/
def written (i : ι) (env : Env) (place : Place) : Option SmtpConfigRecord :=
  match requests i, place with
  | .put sub req, .asked =>
    if (validate req).isNone && g.isUuid sub && !env.fault &&
        (req.password.all fun plain => plain = "" || (g.encrypt plain env.nonce).isSome) then
      some (merge req)
    else none
  | _, _ => none

/-- The settings that the first turns have written, each over those before. -/
def saved : ℕ → SmtpConfigRecord
  | 0 => ⟨seeded.toSettings, none⟩
  | n + 1 =>
    match as[n]? with
    | none => saved n
    | some (i, env) =>
      match written g requests i env ((state g requests as n).place i) with
      | none => saved n
      | some rec => rec.over (saved n)

/-- A PUT puts the mailer of the settings that it has read back in force. -/
def Swaps (i : ι) (_ : Env) (_ : Site) (place : Place) : Prop :=
  (∃ sub req, requests i = .put sub req) ∧ ∃ rec, place = .reread rec

/-- The step is a process that starts. -/
def Boots (i : ι) (_ : Env) (_ : Site) (place : Place) : Prop := requests i = .boot ∧ place = .asked

/-- A PUT reads the settings back. -/
def Reads (i : ι) (env : Env) (_ : Site) (place : Place) : Prop :=
  (∃ sub req, requests i = .put sub req) ∧ place = .written ∧ env.fault = false

/-- A turn puts a mailer in force. -/
def Changes : ℕ → Prop :=
  Turns (step g requests) (initial g) as
    fun i env st place => Swaps requests i env st place ∨ Boots requests i env st place

/-- Where the mailer in force after `n` turns comes from: the start, the last process to start, or the
last PUT to swap it, and then from the settings as this PUT has read them. -/
inductive InForce (n : ℕ) : Mailer → Prop where
  | start (hnone : ∀ q < n, ¬ Changes g requests as q) : InForce n (initialMailer g (get g seeded))
  | boot {p : ℕ} {i : ι} {env : Env} (hpn : p < n) (ha : as[p]? = some (i, env))
      (hboot : requests i = .boot) (hlast : ∀ q, p < q → q < n → ¬ Changes g requests as q) :
      InForce n (initialMailer g (if env.fault then none else some (saved g requests as p)))
  | put {m p : ℕ} {i : ι} (hmp : m < p) (hpn : p < n)
      (hreads : TurnOf (step g requests) (initial g) as i (Reads requests i) m) (hidle : Idle as i m p)
      (hswaps : TurnOf (step g requests) (initial g) as i (Swaps requests i) p)
      (hlast : ∀ q, p < q → q < n → ¬ Changes g requests as q) :
      InForce n (newMailer g (saved g requests as m))

end Machine

/-! ### What a step does -/

section Steps
variable {ι : Type} {g : Given} {requests : ι → Request} {i : ι} {env : Env} {st : Site} {place : Place}
  {rec old : SmtpConfigRecord} {row row' : Row} {nonce : String} {μ : Mailer}

/-- What is written is read back, over what was read before. -/
theorem get_put (hg : g.Opens) (hold : get g row = some old) (hput : put g row rec nonce = some row') :
    get g row' = some (rec.over old) := by
  unfold put at hput
  unfold SmtpConfigRecord.over
  cases hpassword : rec.password with
  | none =>
    rw [hpassword] at hput
    obtain rfl := Option.some.inj hput
    unfold get at hold ⊢
    simp only
    split at hold
    · next ciphertext nonce' hc hn =>
      obtain ⟨p, hp, rfl⟩ := Option.map_eq_some_iff.mp hold
      simp [hp]
    · next hc hn =>
      obtain rfl := Option.some.inj hold
      rfl
    · cases hold
  | some plain =>
    rw [hpassword] at hput
    simp only at hput ⊢
    split_ifs at hput with hempty
    · obtain rfl := Option.some.inj hput
      rw [if_pos hempty]
      rfl
    · obtain ⟨ciphertext, hencrypt, rfl⟩ := Option.map_eq_some_iff.mp hput
      have hplain := hg plain nonce ciphertext hencrypt
      rw [if_neg hempty]
      simp [get, hplain]

theorem isSome_put : (put g row rec nonce).isSome =
    rec.password.all fun plain => plain = "" || (g.encrypt plain nonce).isSome := by
  unfold put
  cases rec.password with
  | none => rfl
  | some plain => by_cases hempty : plain = "" <;> simp [hempty]

theorem isSome_put_of_written (h : written g requests i env place = some rec) (row : Row) :
    (put g row rec env.nonce).isSome = true := by
  unfold written at h
  split at h
  · split_ifs at h with hok
    obtain rfl := Option.some.inj h
    rw [isSome_put]
    simp only [Bool.and_eq_true] at hok
    exact hok.2
  · cases h

theorem getSmtp_fst : (getSmtp g env st place).1 = st := by
  unfold getSmtp
  split
  · split_ifs
    · rfl
    · split <;> rfl
  · rfl

theorem getSmtp_reread : (getSmtp g env st place).2 = .reread rec ↔ place = .reread rec := by
  unfold getSmtp
  split
  · split_ifs
    · simp [internal]
    · split <;> simp [internal]
  · rfl

section Put
variable {sub : String} {req : SmtpConfigRequest}

theorem putSmtp_asked : (putSmtp g env st sub req .asked).1.mailer = st.mailer ∧
    ∀ rec, (putSmtp g env st sub req .asked).2 ≠ .reread rec := by
  unfold putSmtp
  simp only
  split
  · simp
  · split_ifs
    · simp
    · simp [internal]
    · split <;> simp [internal]

theorem putSmtp_written_fst : (putSmtp g env st sub req .written).1 = st := by
  unfold putSmtp
  simp only
  split_ifs
  · rfl
  · split <;> rfl

theorem putSmtp_written_reread : (putSmtp g env st sub req .written).2 = .reread rec ↔
    env.fault = false ∧ get g st.row = some rec := by
  unfold putSmtp
  simp only
  split_ifs with hfault
  · simp [internal, hfault]
  · split
    · next hnone => simp [internal, hnone]
    · next rec' hsome => simp [hsome, hfault]

end Put

/-- The row is the old one, or the one with what the turn writes. -/
theorem row_step : (step g requests i env st place).1.row =
    ((written g requests i env place).bind fun rec => put g st.row rec env.nonce).getD st.row := by
  unfold step written
  cases requests i with
  | put sub req =>
    cases place with
    | asked =>
      have hput : (put g st.row (merge req) env.nonce).isSome =
          req.password.all fun plain => plain = "" || (g.encrypt plain env.nonce).isSome := isSome_put
      simp only [putSmtp]
      rw [← hput]
      cases validate req with
      | some r => rfl
      | none =>
        cases g.isUuid sub with
        | false => rfl
        | true =>
          cases env.fault with
          | true => rfl
          | false =>
            cases hrow : put g st.row (merge req) env.nonce with
            | none => simp [internal]
            | some row => simp [hrow]
    | written => exact congrArg Site.row putSmtp_written_fst
    | _ => rfl
  | get => exact congrArg Site.row getSmtp_fst
  | boot => cases place <;> rfl

variable (g requests) in
/-- A turn puts this mailer in force. -/
def Sets (μ : Mailer) (i : ι) (env : Env) (st : Site) (place : Place) : Prop :=
  (∃ sub req rec, requests i = .put sub req ∧ place = .reread rec ∧ newMailer g rec = μ) ∨
    Boots requests i env st place ∧ bootMailer g env st = μ

theorem mailer_step : (step g requests i env st place).1.mailer = μ ↔
    Sets g requests μ i env st place ∨
      st.mailer = μ ∧ ¬ (Swaps requests i env st place ∨ Boots requests i env st place) := by
  unfold step Sets Swaps Boots
  cases requests i with
  | put sub req =>
    cases place with
    | asked =>
      have hsame := (@putSmtp_asked g env st sub req).1
      simp [hsame]
    | written => simp [putSmtp_written_fst]
    | reread rec => simp [putSmtp]
    | answered r => simp [putSmtp]
  | get => simp [getSmtp_fst]
  | boot => cases place <;> simp [boot]

/-- A place holds settings that have been read back exactly if this turn has read them, or it held them
and the request is no PUT. -/
theorem reread_step : (step g requests i env st place).2 = .reread rec ↔
    (Reads requests i env st place ∧ get g st.row = some rec) ∨
      place = .reread rec ∧ ¬ ∃ sub req, requests i = .put sub req := by
  unfold step Reads
  cases requests i with
  | put sub req =>
    cases place with
    | asked =>
      have hno := (@putSmtp_asked g env st sub req).2 rec
      simp [hno]
    | written => simp [putSmtp_written_reread]
    | reread rec' => simp [putSmtp]
    | answered r => simp [putSmtp]
  | get => simp [getSmtp_reread]
  | boot => cases place <;> simp [boot]

end Steps

/-! ### Runs -/

section Runs
variable {ι : Type} [DecidableEq ι] {g : Given} {requests : ι → Request} {as : List (ι × Env)}

/-- **The row opens to what has been written.** -/
theorem get_state (hg : g.Opens) (n : ℕ) :
    get g (state g requests as n).store.row = some (saved g requests as n) := by
  induction n with
  | zero => rfl
  | succ n ih =>
    cases ha : as[n]? with
    | none =>
      have hsame : state g requests as (n + 1) = state g requests as n := after_of_none ha
      have hsaved : saved g requests as (n + 1) = saved g requests as n := by simp [saved, ha]
      rw [hsame, hsaved]
      exact ih
    | some a =>
      have hturn : state g requests as (n + 1) = turn (step g requests) (state g requests as n) a :=
        after_succ ha
      have hsaved : saved g requests as (n + 1) =
          match written g requests a.1 a.2 ((state g requests as n).place a.1) with
          | none => saved g requests as n
          | some rec => rec.over (saved g requests as n) := by simp [saved, ha]
      rw [hturn, hsaved, store_turn, row_step]
      cases hwritten : written g requests a.1 a.2 ((state g requests as n).place a.1) with
      | none => exact ih
      | some rec =>
        obtain ⟨row, hrow⟩ := Option.isSome_iff_exists.mp
          (isSome_put_of_written hwritten (state g requests as n).store.row)
        rw [Option.bind_some, hrow]
        exact get_put hg ih hrow

theorem mailer_state {μ : Mailer} (n : ℕ) : (state g requests as n).store.mailer = μ ↔
    (initialMailer g (get g seeded) = μ ∧ ∀ p < n, ¬ Changes g requests as p) ∨
      Since (Turns (step g requests) (initial g) as (Sets g requests μ)) (Changes g requests as) n := by
  refine @iff_start_or_since (fun n => (state g requests as n).store.mailer = μ) _ _ (fun n => ?_) n
  unfold Changes
  cases ha : as[n]? with
  | none =>
    have hsame : state g requests as (n + 1) = state g requests as n := after_of_none ha
    have hsets : ¬ Turns (step g requests) (initial g) as (Sets g requests μ) n := not_turns _ ha
    rw [hsame, iff_false_intro hsets, iff_false_intro (not_turns _ ha)]
    tauto
  | some a =>
    have hturn : state g requests as (n + 1) = turn (step g requests) (state g requests as n) a :=
      after_succ ha
    rw [hturn, turns_iff ha, turns_iff ha]
    exact mailer_step

/-- Settings that a PUT has read back are those that were saved then, and it has taken no turn since. -/
theorem exists_reads (hg : g.Opens) {i : ι} {rec : SmtpConfigRecord} {p : ℕ}
    (hput : ∃ sub req, requests i = .put sub req)
    (h : (state g requests as p).place i = .reread rec) :
    ∃ m < p, TurnOf (step g requests) (initial g) as i (Reads requests i) m ∧ Idle as i m p ∧
      rec = saved g requests as m := by
  have hsince := (@place_iff_since ι Site Place Env _ (step g requests) (initial g) as i
    (fun place => place = .reread rec)
    (fun env st place => Reads requests i env st place ∧ get g st.row = some rec)
    (fun _ _ _ => ∃ sub req, requests i = .put sub req) (by rintro ⟨⟩)
    (fun _ _ _ => reread_step) p).mp h
  obtain ⟨m, hmp, ⟨j, env, ha, rfl, hreads, hget⟩, hkept⟩ := hsince
  refine ⟨m, hmp, ⟨j, env, ha, rfl, hreads⟩, ?_, ?_⟩
  · intro q hmq hqp env' hq
    exact hkept q hmq hqp ⟨j, env', hq, rfl, hput⟩
  · have hsaved := @get_state ι _ g requests as hg m
    exact Option.some.inj (hget.symm.trans hsaved)

/-- **The row opens to what has been written, and the mailer in force is that of the settings as they
stood when the last to change it read them.** -/
theorem mailer_run (hg : g.Opens) (n : ℕ) :
    get g (state g requests as n).store.row = some (saved g requests as n) ∧
      InForce g requests as n (state g requests as n).store.mailer := by
  refine ⟨get_state hg n, ?_⟩
  have hsource := (@mailer_state ι _ g requests as _ n).mp rfl
  rcases hsource with ⟨hμ, hnone⟩ | ⟨p, hpn, ⟨i, env, ha, hsets⟩, hlast⟩
  · rw [← hμ]
    exact .start hnone
  · rcases hsets with ⟨sub, req, rec, hput, hplace, hμ⟩ | ⟨⟨hboot, -⟩, hμ⟩
    · obtain ⟨m, hmp, hreads, hidle, hrec⟩ := exists_reads hg ⟨sub, req, hput⟩ hplace
      rw [← hμ, hrec]
      exact .put hmp hpn hreads hidle ⟨i, env, ha, rfl, ⟨sub, req, hput⟩, rec, hplace⟩ hlast
    · have hrow := @get_state ι _ g requests as hg p
      have hfrom : bootMailer g env (state g requests as p).store =
          initialMailer g (if env.fault then none else some (saved g requests as p)) := by
        unfold bootMailer
        rw [hrow]
      rw [← hμ]
      exact hfrom ▸ .boot hpn ha hboot hlast

end Runs

/-- A key that closes nothing. -/
def inClear : Given := ⟨fun text _ => some text, fun ciphertext _ => some ciphertext, fun _ _ => true,
  fun _ => true, .noop⟩

def onHost (host : String) : SmtpConfigRequest :=
  ⟨⟨host, 25, "", true, "a@b", "S", "https://s", true⟩, none⟩

/-- Two admins save. -/
def saves (second : Bool) : Request := .put "admin" (onHost (if second then "two" else "one"))

/-- The first writes and reads, the second goes all the way, and the first goes on. -/
def turns : List (Bool × Env) :=
  [false, false, true, true, true, false].map fun i => (i, ⟨"", false⟩)

/-- The second has saved, and the mailer of the first is in force. -/
theorem mailer_run_overlapping :
    (get inClear (state inClear saves turns 6).store.row = some (saved inClear saves turns 6)) ∧
      (state inClear saves turns 6).store.mailer = newMailer inClear (saved inClear saves turns 2) ∧
      newMailer inClear (saved inClear saves turns 6) ≠ newMailer inClear (saved inClear saves turns 2) := by
  have hopens : inClear.Opens := fun text nonce ciphertext h => h.symm
  refine ⟨(mailer_run hopens 6).1, rfl, ?_⟩
  decide

end StarStats.Server.SmtpConfig
