import StarStats.Server.Submissions

/-! # The creation of a submission

`create` inserts the row of a submission and then reads the handle of its submitter, each statement by
itself. What is read is a column that no migration has added to `users`, so the second statement is refused
whenever the first is not, and the row stays (`allOrNothing_iff`). -/

namespace StarStats.Server.NewSubmissions

open StarStats.Server.Submissions (SubmissionStatus)

/-! ### The tables -/

/-- The columns of `users`, migration by migration. -/
def usersColumns : List String :=
  ["id", "email", "password_hash", "claimed_handle", "created_at", "updated_at"] ++
  ["email_verified_at", "email_verification_token", "email_verification_expires_at"] ++
  ["password_reset_token", "password_reset_expires_at", "password_changed_at", "pending_email",
    "pending_email_token", "pending_email_expires_at"] ++
  ["rsi_verified_at", "rsi_verify_code", "rsi_verify_expires_at"] ++
  ["totp_secret_ciphertext", "totp_secret_nonce", "totp_setup_at", "totp_enabled_at"] ++
  ["preferences", "share_scopes", "shares_paused_until"]

/-- A row of `users`: its id, and the text in each of its columns, where there is one. -/
structure UserRow where
  id : String
  text : String → Option String

/-- A row of `submissions`. -/
structure SubmissionRow where
  id : String
  submitterId : String
  pattern : String
  proposedLabel : String
  description : String
  sampleLine : String
  logSource : String
  status : String
  rejectionReason : Option String
  createdAt : ℤ
  updatedAt : ℤ
  deriving DecidableEq

/-- The two tables. -/
structure Database where
  users : List UserRow
  submissions : List SubmissionRow

/-- What the user proposes. -/
structure NewSubmission where
  submitterId : String
  pattern : String
  proposedLabel : String
  description : String
  sampleLine : String
  logSource : String

/-- What the handler answers with. -/
structure Submission where
  id : String
  submitterId : String
  submitterHandle : String
  pattern : String
  proposedLabel : String
  description : String
  sampleLine : String
  logSource : String
  status : SubmissionStatus
  rejectionReason : Option String
  createdAt : ℤ
  updatedAt : ℤ
  voteCount : ℕ
  flagCount : ℕ

/-- Why the database refuses a statement. -/
inductive SqlError where
  | connection
  | invalidText
  | duplicateId
  | unknownSubmitter
  | undefinedColumn (name : String)
  | rowNotFound
  | unexpectedNull
  deriving DecidableEq

/-- What is drawn for a call and what fails on the way. -/
structure Env where
  id : String
  now : ℤ
  insertFails : Bool
  lookupFails : Bool

variable (db : Database) (env : Env) (new : NewSubmission)

/-! ### The statements -/

/-- A column of type `TEXT` holds every text without a null character. -/
def isText (s : String) : Bool := s.toList.all (· ≠ '\x00')

/-- The row of a proposal. -/
def NewSubmission.row : SubmissionRow where
  id := env.id
  submitterId := new.submitterId
  pattern := new.pattern
  proposedLabel := new.proposedLabel
  description := new.description
  sampleLine := new.sampleLine
  logSource := new.logSource
  status := "review"
  rejectionReason := none
  createdAt := env.now
  updatedAt := env.now

/-- `INSERT INTO submissions … RETURNING created_at, updated_at, status` -/
def insertSubmission : Except SqlError (Database × (ℤ × ℤ × String)) :=
  if env.insertFails then .error .connection
  else if !([new.pattern, new.proposedLabel, new.description, new.sampleLine, new.logSource].all isText)
    then .error .invalidText
  else if db.submissions.any (·.id = env.id) then .error .duplicateId
  else if !(db.users.any (·.id = new.submitterId)) then .error .unknownSubmitter
  else
    let row := new.row env
    .ok ({ db with submissions := db.submissions ++ [row] }, row.createdAt, row.updatedAt, row.status)

/-- `SELECT column FROM users WHERE id = $1`, of one row. A column that the table does not have is refused
before a row is looked for. -/
def selectScalar (column userId : String) : Except SqlError String :=
  if column ∉ usersColumns then .error (.undefinedColumn column)
  else
    match db.users.find? (·.id = userId) with
    | none => .error .rowNotFound
    | some u =>
      match u.text column with
      | none => .error .unexpectedNull
      | some s => .ok s

/-- The query names a column that `users` does not have. -/
def lookupHandle (userId : String) : Except SqlError String :=
  if env.lookupFails then .error .connection else selectScalar db "preferred_username" userId

/-- Any other text is no status. -/
def parseStatus : String → Option SubmissionStatus
  | "review" => some .review
  | "accepted" => some .accepted
  | "shipped" => some .shipped
  | "rejected" => some .rejected
  | "withdrawn" => some .withdrawn
  | "flagged" => some .flagged
  | _ => none

/-- The tables after the call, and what it returns. -/
def create : Database × Except SqlError Submission :=
  match insertSubmission db env new with
  | .error e => (db, .error e)
  | .ok (db, createdAt, updatedAt, status) =>
    match lookupHandle db env new.submitterId with
    | .error e => (db, .error e)
    | .ok submitterHandle =>
      (db, .ok
        { id := env.id
          submitterId := new.submitterId
          submitterHandle := submitterHandle
          pattern := new.pattern
          proposedLabel := new.proposedLabel
          description := new.description
          sampleLine := new.sampleLine
          logSource := new.logSource
          status := (parseStatus status).getD .review
          rejectionReason := none
          createdAt := createdAt
          updatedAt := updatedAt
          voteCount := 0
          flagCount := 0 })

/-! ### All or nothing -/

/-- The submission is what the row says. -/
structure Submission.Shows (s : Submission) (r : SubmissionRow) : Prop where
  id : s.id = r.id
  submitterId : s.submitterId = r.submitterId
  pattern : s.pattern = r.pattern
  proposedLabel : s.proposedLabel = r.proposedLabel
  description : s.description = r.description
  sampleLine : s.sampleLine = r.sampleLine
  logSource : s.logSource = r.logSource
  status : parseStatus r.status = some s.status
  rejectionReason : s.rejectionReason = r.rejectionReason
  createdAt : s.createdAt = r.createdAt
  updatedAt : s.updatedAt = r.updatedAt

/-- The database takes the row: the connection holds, every text can be stored, the id is new, and the
submitter is there. -/
structure Accepted : Prop where
  connected : env.insertFails = false
  texts : ∀ s ∈ [new.pattern, new.proposedLabel, new.description, new.sampleLine, new.logSource],
    isText s = true
  fresh : ∀ r ∈ db.submissions, r.id ≠ env.id
  submitter : ∃ u ∈ db.users, u.id = new.submitterId

/-- **All or nothing**: what the database accepts is stored and returned, and an error leaves no row
behind. -/
structure AllOrNothing : Prop where
  ok : Accepted db env new → ∃ s r, (create db env new).2 = .ok s ∧
    (create db env new).1.submissions = db.submissions ++ [r] ∧ s.Shows r
  error : ∀ e, (create db env new).2 = .error e →
    (create db env new).1.submissions = db.submissions

variable {db env new}

/-- The INSERT goes through exactly if the database accepts the input, and then adds the row. -/
theorem insertSubmission_of_accepted (h : Accepted db env new) : insertSubmission db env new =
    .ok ({ db with submissions := db.submissions ++ [new.row env] }, env.now, env.now, "review") := by
  have htexts : [new.pattern, new.proposedLabel, new.description, new.sampleLine,
      new.logSource].all isText = true := List.all_eq_true.mpr h.texts
  have hfresh : db.submissions.any (·.id = env.id) = false := by
    simpa using h.fresh
  have hsubmitter : db.users.any (·.id = new.submitterId) = true := by
    simpa using h.submitter
  unfold insertSubmission
  simp only [h.connected, htexts, hfresh, hsubmitter]
  rfl

theorem insertSubmission_of_not_accepted (h : ¬ Accepted db env new) :
    ∃ e, insertSubmission db env new = .error e := by
  unfold insertSubmission
  split_ifs with hconnected htexts hfresh hsubmitter
  · exact ⟨_, rfl⟩
  · exact ⟨_, rfl⟩
  · exact ⟨_, rfl⟩
  · exact ⟨_, rfl⟩
  · refine absurd ⟨by simpa using hconnected, ?_, by simpa using hfresh, by simpa using hsubmitter⟩ h
    exact List.all_eq_true.mp (by simpa using htexts)

/-- No migration adds the column, so the second statement is refused whatever is in the tables. -/
theorem lookupHandle_error (db : Database) (env : Env) (userId : String) :
    ∃ e, lookupHandle db env userId = .error e := by
  have hcolumn : "preferred_username" ∉ usersColumns := by decide
  unfold lookupHandle selectScalar
  rw [if_pos hcolumn]
  split_ifs
  · exact ⟨_, rfl⟩
  · exact ⟨_, rfl⟩

theorem create_of_accepted (h : Accepted db env new) :
    (create db env new).1.submissions = db.submissions ++ [new.row env] ∧
      ∃ e, (create db env new).2 = .error e := by
  obtain ⟨e, he⟩ := lookupHandle_error
    { db with submissions := db.submissions ++ [new.row env] } env new.submitterId
  unfold create
  simp only [insertSubmission_of_accepted h, he]
  exact ⟨trivial, e, rfl⟩

theorem create_of_not_accepted (h : ¬ Accepted db env new) :
    ∃ e, create db env new = (db, .error e) := by
  obtain ⟨e, he⟩ := insertSubmission_of_not_accepted h
  unfold create
  rw [he]
  exact ⟨e, rfl⟩

/-- **A creation is all or nothing exactly if the database refuses the row.** -/
theorem allOrNothing_iff : AllOrNothing db env new ↔ ¬ Accepted db env new := by
  constructor
  · intro hall hacc
    obtain ⟨s, -, hok, -⟩ := hall.ok hacc
    obtain ⟨e, he⟩ := (create_of_accepted hacc).2
    rw [he] at hok
    cases hok
  · intro hacc
    obtain ⟨e, he⟩ := create_of_not_accepted hacc
    exact ⟨fun h => absurd h hacc, fun _ _ => by rw [he]⟩

/-- One user, and no submission yet. -/
def oneUser : Database :=
  ⟨[⟨"u1", fun column => if column = "claimed_handle" then some "Jim" else none⟩], []⟩

def proposal : NewSubmission := ⟨"u1", "Foo", "foo", "seen at the kiosk", "<t> Foo", "live"⟩

/-- The row is stored, and the call returns an error. -/
theorem not_allOrNothing_proposal : ¬ AllOrNothing oneUser ⟨"s1", 0, false, false⟩ proposal := by
  intro hall
  have hacc : Accepted oneUser ⟨"s1", 0, false, false⟩ proposal :=
    ⟨rfl, by decide, by simp [oneUser], ⟨_, List.mem_singleton_self _, rfl⟩⟩
  obtain ⟨hrows, e, he⟩ := create_of_accepted hacc
  rw [hall.error e he] at hrows
  simp [oneUser] at hrows

end StarStats.Server.NewSubmissions
