import StarStats.Lib.Text
import StarStats.Lib.Threads

/-! # A recovery code opens the account once

Redeems, regenerations and deletions of recovery codes run beside each other, each statement by itself,
and any statement may fail. A row is marked as used only where it is not, so of two redeems of one code
the second loses. A DELETE goes over the rows of its snapshot; so where two regenerations overlap, neither
deletes what the other inserts, and both batches stay. -/

namespace StarStats.Server.RecoveryCodes

open StarStats.Lib.Text StarStats.Lib.Threads

/-- `NUM_CODES` -/
def numCodes : ℕ := 10

/-- Two digits for each byte. -/
def hexEncode (bytes : List ℕ) : List Char :=
  bytes.flatMap fun b => [Nat.digitChar (b / 16), Nat.digitChar (b % 16)]

/-- `XXXX-XXXX-XXXX-XXXX` -/
def generateCode (bytes : Fin 8 → Fin 256) : String :=
  let hex := (hexEncode ((List.ofFn bytes).map (·.val))).map Char.toUpper
  String.ofList (hex.take 4 ++ '-' :: (hex.drop 4).take 4 ++ '-' :: (hex.drop 8).take 4 ++
    '-' :: (hex.drop 12).take 4)

/-- No whitespace, and upper case. -/
def normalise (toUppercase : String → String) (candidate : String) : String :=
  toUppercase (String.ofList (candidate.toList.filter fun ch => !isWhitespace ch))

/-- What each regeneration draws at random, the hashes of its codes, and how a hash is verified. The codes
of a batch are distinct, and a hash is verified by its own code alone. -/
structure Batches (ι : Type) where
  bytes : ι → Fin numCodes → Fin 8 → Fin 256
  hash : ι → Fin numCodes → String
  verifyPassword : String → String → Bool
  toUppercase : String → String
  distinct : ∀ b, Function.Injective fun k => generateCode (bytes b k)
  verifies : ∀ s b k, verifyPassword s (hash b k) = true ↔ s = generateCode (bytes b k)

/-- The row of a code: its id, which is drawn at random, stands here as the batch and the number. -/
structure Row (ι : Type) where
  id : ι × Fin numCodes
  userId : String
  codeHash : String
  usedAt : Option ℤ
  deriving DecidableEq

/-- The table, and which transaction has deleted a row and is still open. -/
structure CodeStore (ι : Type) where
  rows : List (Row ι)
  lock : ι × Fin numCodes → Option ι

/-- The clock, whether the statement of a step fails, and the order in which it goes over the rows. -/
structure Env (ι : Type) where
  now : ℤ
  fault : Bool
  order : List (Row ι) → List (Row ι)
  perm : ∀ rows, (order rows).Perm rows

/-- The requests that touch the codes. -/
inductive Request where
  | redeem (userId candidate : String)
  | regenerateForUser (userId : String)
  | clearForUser (userId : String)

/-- Where a request is. -/
inductive Place (ι : Type) where
  | asked
  | matched (id : ι × Fin numCodes)
  | redeemed (id : ι × Fin numCodes)
  | rejected
  /-- The rows of the snapshot that are yet to be deleted, and those that are. -/
  | deleting (rest gone : List (ι × Fin numCodes))
  /-- So many rows are inserted. -/
  | inserting (gone : List (ι × Fin numCodes)) (n : ℕ)
  | regenerated
  | cleared
  | failed
  deriving DecidableEq

namespace Place
variable {ι : Type}

/-- The request has come to its end. -/
def ended : Place ι → Bool
  | redeemed _ | rejected | regenerated | cleared | failed => true
  | _ => false

/-- A DELETE has begun, and its transaction is open. -/
def underWay : Place ι → Bool
  | deleting _ _ | inserting _ _ => true
  | _ => false

/-- A regeneration or a deletion has committed. -/
def finished : Place ι → Bool
  | regenerated | cleared => true
  | _ => false

end Place

def ids {ι : Type} (rows : List (Row ι)) : List (ι × Fin numCodes) := rows.map Row.id

section Steps
variable {ι : Type} [DecidableEq ι] (c : Batches ι) (env : Env ι) (st : CodeStore ι)

/-- The text of a code. -/
def code (id : ι × Fin numCodes) : String := generateCode (c.bytes id.1 id.2)

/-- The first unused row of the user whose hash the candidate verifies. -/
def matching (rows : List (Row ι)) (userId candidate : String) : Option (Row ι) :=
  (rows.filter fun r => r.userId = userId && r.usedAt.isNone).find? fun r =>
    c.verifyPassword candidate r.codeHash

/-- `WHERE id = $1 AND used_at IS NULL` -/
def unusedAt (id : ι × Fin numCodes) (r : Row ι) : Bool := r.id = id && r.usedAt.isNone

/-- A row used already keeps its time. -/
def markUsed (id : ι × Fin numCodes) (now : ℤ) (rows : List (Row ι)) : List (Row ι) :=
  rows.map fun r => if unusedAt id r then { r with usedAt := some now } else r

/-- The handler of a code, in its steps. -/
def redeem (userId candidate : String) : Place ι → CodeStore ι × Place ι
  | .asked =>
    if env.fault then (st, .failed)
    else
      match matching c (env.order st.rows) userId (normalise c.toUppercase candidate) with
      | none => (st, .rejected)
      | some row => (st, .matched row.id)
  | .matched id =>
    if env.fault then (st, .failed)
    -- The row is another's until that transaction is over.
    else if (st.lock id).isSome then (st, .matched id)
    else ({ st with rows := markUsed id env.now st.rows },
      if st.rows.countP (unusedAt id) = 1 then .redeemed id else .rejected)
  | place => (st, place)

/-- The transaction of `i` is over. -/
def release (i : ι) : CodeStore ι :=
  { st with lock := fun id => if st.lock id = some i then none else st.lock id }

/-- `DELETE FROM recovery_codes WHERE user_id = $1`, row by row. -/
def delete (i : ι) (userId : String) : Place ι → CodeStore ι × Place ι
  | .asked =>
    if env.fault then (st, .failed)
    else (st, .deleting (ids ((env.order st.rows).filter (·.userId = userId))) [])
  | .deleting (id :: rest) gone =>
    if env.fault then (release st i, .failed)
    else if (st.lock id).any (· ≠ i) then (st, .deleting (id :: rest) gone)
    else if id ∈ ids st.rows then
      ({ st with lock := Function.update st.lock id (some i) }, .deleting rest (id :: gone))
    else (st, .deleting rest gone)
  | place => (st, place)

/-- The rows without those that are deleted. -/
def without (gone : List (ι × Fin numCodes)) (rows : List (Row ι)) : List (Row ι) :=
  rows.filter (·.id ∉ gone)

/-- The rows of one regeneration. -/
def batch (i : ι) (userId : String) : List (Row ι) :=
  List.ofFn fun k => ⟨(i, k), userId, c.hash i k, none⟩

/-- One transaction; where a statement fails, it is rolled back. -/
def regenerateForUser (i : ι) (userId : String) : Place ι → CodeStore ι × Place ι
  | .deleting [] gone =>
    if env.fault then (release st i, .failed) else (st, .inserting gone 0)
  | .inserting gone n =>
    if env.fault then (release st i, .failed)
    else if n < numCodes then (st, .inserting gone (n + 1))
    else (release { st with rows := without gone st.rows ++ batch c i userId } i, .regenerated)
  | place => delete env st i userId place

/-- The rows of the user are deleted, one after the other. -/
def clearForUser (i : ι) (userId : String) : Place ι → CodeStore ι × Place ι
  | .deleting [] gone =>
    if env.fault then (release st i, .failed)
    else (release { st with rows := without gone st.rows } i, .cleared)
  | place => delete env st i userId place

/-- A request takes its next step. -/
def step (requests : ι → Request) (i : ι) (env : Env ι) (st : CodeStore ι) (place : Place ι) :
    CodeStore ι × Place ι :=
  match requests i with
  | .redeem userId candidate => redeem c env st userId candidate place
  | .regenerateForUser userId => regenerateForUser c env st i userId place
  | .clearForUser userId => clearForUser env st i userId place

end Steps

/-- The user whose codes a request deletes. -/
def Request.deletes : Request → Option String
  | .regenerateForUser userId | .clearForUser userId => some userId
  | .redeem _ _ => none

section Machine
variable {ι : Type} [DecidableEq ι] (c : Batches ι) (requests : ι → Request) (as : List (ι × Env ι))

/-- No code has been issued, and all requests are yet to begin. -/
def initial : Shared ι (CodeStore ι) (Place ι) := ⟨⟨[], fun _ => none⟩, fun _ => .asked⟩

/-- The state after the first turns. -/
def state (n : ℕ) : Shared ι (CodeStore ι) (Place ι) := after (step c requests) initial as n

/-- A redeem has accepted the code. -/
def Accepted (n : ℕ) (i : ι) (id : ι × Fin numCodes) : Prop :=
  (state c requests as n).place i = .redeemed id

/-- The batch is the user's, and it was there when the other request had not committed. -/
def Earlier (b j : ι) (userId : String) : Prop :=
  requests b = .regenerateForUser userId ∧ ∃ q, (state c requests as q).place b = .regenerated ∧
    ¬ ((state c requests as q).place j).finished

/-- **Each code is accepted once at most, and never after it has been replaced.** -/
structure OneUse : Prop where
  /-- What a redeem accepts is the code that it presents, issued for its user. -/
  presented : ∀ n i id, Accepted c requests as n i id → ∃ userId candidate,
    requests i = .redeem userId candidate ∧ normalise c.toUppercase candidate = code c id ∧
      requests id.1 = .regenerateForUser userId
  /-- Two redeems that one code of a batch has opened the account for are one. -/
  once : ∀ n i j b k k', Accepted c requests as n i (b, k) → Accepted c requests as n j (b, k') →
    code c (b, k) = code c (b, k') → i = j
  /-- A redeem that begins after a regeneration or deletion has committed accepts no code of an earlier
  batch. -/
  newOnly : ∀ m n i j id userId, (requests j).deletes = some userId →
    ((state c requests as m).place j).finished → (state c requests as m).place i = .asked →
    Accepted c requests as n i id → ¬ Earlier c requests as id.1 j userId

/-- No regeneration commits while another one of the user, or a deletion, that commits too has begun. -/
def Apart : Prop :=
  ∀ m n b j userId, requests b = .regenerateForUser userId → (requests j).deletes = some userId → b ≠ j →
    (state c requests as m).place b ≠ .regenerated →
    (state c requests as (m + 1)).place b = .regenerated →
    ((state c requests as m).place j).underWay → ¬ ((state c requests as n).place j).finished

end Machine

/-! ### What a step does -/

section Steps
variable {ι : Type} {c : Batches ι} {requests : ι → Request} {i j : ι} {env : Env ι}
  {rows rows' : List (Row ι)} {place place' : Place ι} {id : ι × Fin numCodes}

theorem matching_eq_some {userId candidate : String} {row : Row ι}
    (h : matching c (env.order rows) userId candidate = some row) :
    row ∈ rows ∧ row.userId = userId ∧ c.verifyPassword candidate row.codeHash = true := by
  have hmem := List.mem_of_find?_eq_some h
  simp only [List.mem_filter, Bool.and_eq_true, decide_eq_true_eq] at hmem
  have hverifies := List.find?_some h
  exact ⟨(env.perm rows).mem_iff.mp hmem.1, hmem.2.1, hverifies⟩

theorem ended_of_finished {place : Place ι} (h : place.finished = true) : place.ended = true := by
  cases place with
  | regenerated | cleared => rfl
  | _ => cases h

variable [DecidableEq ι]

/-- The moves of a request, and what they make of the rows. -/
inductive Moves (c : Batches ι) (requests : ι → Request) (i : ι) (env : Env ι) (rows : List (Row ι)) :
    Place ι → List (Row ι) → Place ι → Prop
  | stay (place : Place ι) : Moves c requests i env rows place rows place
  | fail (place : Place ι) : place.ended = false → Moves c requests i env rows place rows .failed
  | reject : (requests i).deletes = none → Moves c requests i env rows .asked rows .rejected
  | find (userId candidate : String) (row : Row ι) : requests i = .redeem userId candidate →
      row ∈ rows → row.userId = userId →
      c.verifyPassword (normalise c.toUppercase candidate) row.codeHash = true →
      Moves c requests i env rows .asked rows (.matched row.id)
  | redeem (id : ι × Fin numCodes) : rows.countP (unusedAt id) = 1 →
      Moves c requests i env rows (.matched id) (markUsed id env.now rows) (.redeemed id)
  | lose (id : ι × Fin numCodes) :
      Moves c requests i env rows (.matched id) (markUsed id env.now rows) .rejected
  | delete (userId : String) : (requests i).deletes = some userId →
      Moves c requests i env rows .asked rows
        (.deleting (ids ((env.order rows).filter (·.userId = userId))) [])
  | take (id : ι × Fin numCodes) (rest gone : List (ι × Fin numCodes)) :
      Moves c requests i env rows (.deleting (id :: rest) gone) rows (.deleting rest (id :: gone))
  | skip (id : ι × Fin numCodes) (rest gone : List (ι × Fin numCodes)) : id ∉ ids rows →
      Moves c requests i env rows (.deleting (id :: rest) gone) rows (.deleting rest gone)
  | deleted (gone : List (ι × Fin numCodes)) :
      Moves c requests i env rows (.deleting [] gone) rows (.inserting gone 0)
  | insert (gone : List (ι × Fin numCodes)) (n : ℕ) :
      Moves c requests i env rows (.inserting gone n) rows (.inserting gone (n + 1))
  | commit (userId : String) (gone : List (ι × Fin numCodes)) (n : ℕ) :
      requests i = .regenerateForUser userId →
      Moves c requests i env rows (.inserting gone n) (without gone rows ++ batch c i userId) .regenerated
  | clear (gone : List (ι × Fin numCodes)) :
      Moves c requests i env rows (.deleting [] gone) (without gone rows) .cleared

theorem moves_delete {userId : String} (st : CodeStore ι) (hdeletes : (requests i).deletes = some userId) :
    Moves c requests i env st.rows place (delete env st i userId place).1.rows
      (delete env st i userId place).2 := by
  unfold delete
  rcases place with _ | id | id | _ | ⟨_ | ⟨id, rest⟩, gone⟩ | ⟨gone, n⟩ | _ | _ | _
  case asked =>
    simp only
    split_ifs
    · exact .fail _ rfl
    · exact .delete userId hdeletes
  case deleting.cons =>
    simp only
    split_ifs with hfault hlock hid
    · exact .fail _ rfl
    · exact .stay _
    · exact .take id rest gone
    · exact .skip id rest gone hid
  all_goals exact .stay _

/-- Every step is a move. -/
theorem moves_step (c : Batches ι) (requests : ι → Request) (i : ι) (env : Env ι) (st : CodeStore ι)
    (place : Place ι) :
    Moves c requests i env st.rows place (step c requests i env st place).1.rows
      (step c requests i env st place).2 := by
  unfold step
  cases hrequest : requests i with
  | redeem userId candidate =>
    simp only
    unfold RecoveryCodes.redeem
    cases place with
    | asked =>
      simp only
      split_ifs
      · exact .fail _ rfl
      cases hrow : matching c (env.order st.rows) userId (normalise c.toUppercase candidate) with
      | none => exact .reject (by rw [hrequest]; rfl)
      | some row =>
        obtain ⟨hmem, huser, hverifies⟩ := matching_eq_some hrow
        exact .find userId candidate row hrequest hmem huser hverifies
    | matched id =>
      simp only
      split_ifs with hfault hlock hone
      · exact .fail _ rfl
      · exact .stay _
      · exact .redeem id hone
      · exact .lose id
    | _ => exact .stay _
  | regenerateForUser userId =>
    have hdeletes : (requests i).deletes = some userId := by rw [hrequest]; rfl
    simp only
    unfold regenerateForUser
    rcases place with _ | id | id | _ | ⟨_ | ⟨id, rest⟩, gone⟩ | ⟨gone, n⟩ | _ | _ | _
    case deleting.nil =>
      simp only
      split_ifs
      · exact .fail _ rfl
      · exact .deleted gone
    case inserting =>
      simp only
      split_ifs
      · exact .fail _ rfl
      · exact .insert gone n
      · exact .commit userId gone n hrequest
    all_goals exact moves_delete st hdeletes
  | clearForUser userId =>
    have hdeletes : (requests i).deletes = some userId := by rw [hrequest]; rfl
    simp only
    unfold clearForUser
    rcases place with _ | id | id | _ | ⟨_ | ⟨id, rest⟩, gone⟩ | ⟨gone, n⟩ | _ | _ | _
    case deleting.nil =>
      simp only
      split_ifs
      · exact .fail _ rfl
      · exact .clear gone
    all_goals exact moves_delete st hdeletes

/-- A row that is there after a move was there before, used or not, or the move has inserted it. -/
theorem Moves.row_cases (h : Moves c requests i env rows place rows' place') {row : Row ι}
    (hrow : row ∈ rows') :
    (∃ old ∈ rows, row = { old with usedAt := row.usedAt }) ∨
      (place.ended = false ∧ place' = .regenerated ∧ row.id.1 = i ∧
        row.codeHash = c.hash row.id.1 row.id.2 ∧ requests i = .regenerateForUser row.userId) := by
  have hmarked : ∀ id : ι × Fin numCodes, row ∈ markUsed id env.now rows →
      ∃ old ∈ rows, row = { old with usedAt := row.usedAt } := by
    intro id hmem
    obtain ⟨old, hold, rfl⟩ := List.mem_map.mp hmem
    refine ⟨old, hold, ?_⟩
    split_ifs <;> rfl
  have hkept : ∀ gone, row ∈ without gone rows → ∃ old ∈ rows, row = { old with usedAt := row.usedAt } :=
    fun gone hmem => ⟨row, (List.mem_filter.mp hmem).1, rfl⟩
  cases h with
  | redeem id | lose id => exact Or.inl (hmarked id hrow)
  | clear gone => exact Or.inl (hkept gone hrow)
  | commit userId gone n hrequest =>
    rcases List.mem_append.mp hrow with hold | hnew
    · exact Or.inl (hkept gone hold)
    · obtain ⟨k, rfl⟩ := List.mem_ofFn.mp hnew
      exact Or.inr ⟨rfl, rfl, rfl, rfl, hrequest⟩
  | _ => exact Or.inl ⟨row, hrow, rfl⟩

theorem Moves.mem_ids (h : Moves c requests i env rows place rows' place') (hid : id ∈ ids rows') :
    id ∈ ids rows ∨ (place.ended = false ∧ id.1 = i) := by
  obtain ⟨row, hrow, rfl⟩ := List.mem_map.mp hid
  rcases h.row_cases hrow with ⟨old, hold, hsame⟩ | ⟨hopen, -, hi, -⟩
  · refine Or.inl (List.mem_map.mpr ⟨old, hold, ?_⟩)
    rw [hsame]
  · exact Or.inr ⟨hopen, hi⟩

theorem Moves.ended (h : Moves c requests i env rows place rows' place') (hended : place.ended = true) :
    place' = place := by
  cases h with
  | stay => rfl
  | fail place hopen =>
    rw [hopen] at hended
    cases hended
  | _ => cases hended

theorem Moves.used (h : Moves c requests i env rows place rows' place')
    (hused : ∀ row ∈ rows, row.id = id → row.usedAt.isSome) (hbatch : place.ended = false → id.1 ≠ i) :
    ∀ row ∈ rows', row.id = id → row.usedAt.isSome := by
  have hmarked : ∀ id' : ι × Fin numCodes, ∀ row ∈ markUsed id' env.now rows, row.id = id →
      row.usedAt.isSome := by
    intro id' row hmem hid
    obtain ⟨old, hold, rfl⟩ := List.mem_map.mp hmem
    split_ifs at hid ⊢ with hunused
    · rfl
    · exact hused old hold hid
  cases h with
  | redeem id' | lose id' => exact hmarked id'
  | clear gone => exact fun row hrow => hused row (List.mem_filter.mp hrow).1
  | commit userId gone n hrequest =>
    intro row hrow hid
    rcases List.mem_append.mp hrow with hold | hnew
    · exact hused row (List.mem_filter.mp hold).1 hid
    · obtain ⟨k, rfl⟩ := List.mem_ofFn.mp hnew
      exact absurd (congrArg Prod.fst hid).symm (hbatch rfl)
  | _ => exact hused

/-- A redeem that succeeds has found the row unused, and leaves it used. -/
theorem Moves.of_redeemed (h : Moves c requests i env rows place rows' (.redeemed id))
    (hne : place ≠ .redeemed id) :
    place = .matched id ∧ (∃ row ∈ rows, row.id = id ∧ row.usedAt = none) ∧
      ∀ row ∈ rows', row.id = id → row.usedAt.isSome := by
  cases h with
  | stay => exact absurd rfl hne
  | redeem id hone =>
    refine ⟨rfl, ?_, fun row hrow hid => ?_⟩
    · obtain ⟨row, hrow, hunused⟩ := List.countP_pos_iff.mp (hone ▸ Nat.one_pos)
      simp only [unusedAt, Bool.and_eq_true, decide_eq_true_eq, Option.isNone_iff_eq_none] at hunused
      exact ⟨row, hrow, hunused.1, hunused.2⟩
    · obtain ⟨old, hold, rfl⟩ := List.mem_map.mp hrow
      split_ifs at hid ⊢ with hunused
      · rfl
      · simp only [unusedAt, hid, decide_true, Bool.true_and, Option.isNone_iff_eq_none] at hunused
        exact Option.isSome_iff_ne_none.mpr hunused

/-- The row has been deleted by the transaction, or is yet to be. -/
def Covers (id : ι × Fin numCodes) : Place ι → Prop
  | .deleting rest gone => id ∈ rest ∨ id ∈ gone
  | .inserting gone _ => id ∈ gone
  | .asked | .regenerated | .cleared => False
  | _ => True

/-- A DELETE leaves none of its rows out: where the row is there, it is deleted or yet to be, and where the
transaction has committed, it is not there. -/
theorem Moves.covers (h : Moves c requests i env rows place rows' place')
    (hcovers : id ∈ ids rows → Covers id place) (hid : id ∈ ids rows') (hbatch : id.1 ≠ i) :
    Covers id place' := by
  have hbefore : id ∈ ids rows := (h.mem_ids hid).resolve_right fun hnew => hbatch hnew.2
  have hnow := hcovers hbefore
  have hleft : ∀ gone, id ∈ gone → id ∉ ids (without gone rows) := by
    intro gone hgone hmem
    obtain ⟨row, hrow, rfl⟩ := List.mem_map.mp hmem
    have hout := (List.mem_filter.mp hrow).2
    exact absurd hgone (of_decide_eq_true hout)
  cases h with
  | stay => exact hnow
  | take first rest gone =>
    rcases hnow with hrest | hgone
    · rcases List.mem_cons.mp hrest with rfl | hrest
      · exact Or.inr (List.mem_cons_self ..)
      · exact Or.inl hrest
    · exact Or.inr (List.mem_cons_of_mem _ hgone)
  | skip first rest gone hout =>
    rcases hnow with hrest | hgone
    · rcases List.mem_cons.mp hrest with rfl | hrest
      · exact absurd hbefore hout
      · exact Or.inl hrest
    · exact Or.inr hgone
  | deleted gone => exact hnow.resolve_left (List.not_mem_nil)
  | insert gone n => exact hnow
  | commit userId gone n hrequest =>
    obtain ⟨row, hrow, rfl⟩ := List.mem_map.mp hid
    rcases List.mem_append.mp hrow with hold | hnew
    · exact absurd (List.mem_map.mpr ⟨row, hold, rfl⟩) (hleft gone hnow)
    · obtain ⟨k, rfl⟩ := List.mem_ofFn.mp hnew
      exact absurd rfl hbatch
  | clear gone => exact absurd hid (hleft gone (hnow.resolve_left List.not_mem_nil))
  | delete => exact hnow.elim
  | _ => trivial

end Steps

/-! ### Runs -/

section Runs
variable {ι : Type} [DecidableEq ι] {c : Batches ι} {requests : ι → Request} {as : List (ι × Env ι)}
  {i j b : ι} {e : Env ι} {n m p q : ℕ} {id : ι × Fin numCodes} {userId : String}

theorem moves_turn (s : Shared ι (CodeStore ι) (Place ι)) (i : ι) (e : Env ι) :
    Moves c requests i e s.store.rows (s.place i) (turn (step c requests) s (i, e)).store.rows
      ((turn (step c requests) s (i, e)).place i) := by
  rw [store_turn, place_turn_self]
  exact moves_step c requests i e s.store (s.place i)

/-- What a row says is what its batch has issued, once that has committed; and a redeem is at the row of
the code that it presents. -/
theorem rows_state (as : List (ι × Env ι)) (n : ℕ) :
    (∀ row ∈ (state c requests as n).store.rows,
      row.codeHash = c.hash row.id.1 row.id.2 ∧ requests row.id.1 = .regenerateForUser row.userId) ∧
    ∀ i, (∀ row ∈ (state c requests as n).store.rows, row.id.1 = i →
        (state c requests as n).place i = .regenerated) ∧
      ∀ id, ((state c requests as n).place i = .matched id ∨
          (state c requests as n).place i = .redeemed id) →
        ∃ userId candidate, requests i = .redeem userId candidate ∧
          normalise c.toUppercase candidate = code c id ∧
          requests id.1 = .regenerateForUser userId := by
  refine @placed_after ι (CodeStore ι) (Place ι) (Env ι) _ (step c requests) initial
    (fun st => ∀ row ∈ st.rows,
      row.codeHash = c.hash row.id.1 row.id.2 ∧ requests row.id.1 = .regenerateForUser row.userId)
    (fun i st place => (∀ row ∈ st.rows, row.id.1 = i → place = .regenerated) ∧
      ∀ id, (place = .matched id ∨ place = .redeemed id) → ∃ userId candidate,
        requests i = .redeem userId candidate ∧ normalise c.toUppercase candidate = code c id ∧
          requests id.1 = .regenerateForUser userId) ?_ ?_ ?_ as n
  · rintro i e st place hrows ⟨hplace, hcode⟩
    have hmoves := moves_step c requests i e st place
    refine ⟨fun row hrow => ?_, fun row hrow hi => ?_, fun id hid => ?_⟩
    · rcases hmoves.row_cases hrow with ⟨old, hold, hsame⟩ | ⟨-, -, rfl, hhash, hrequest⟩
      · rw [hsame]
        exact hrows old hold
      · exact ⟨hhash, hrequest⟩
    · rcases hmoves.row_cases hrow with ⟨old, hold, hsame⟩ | ⟨-, hdone, -⟩
      · have hregenerated := hplace old hold (by rw [hsame] at hi; exact hi)
        have hstays := hmoves.ended (by rw [hregenerated]; rfl)
        rw [hstays, hregenerated]
      · exact hdone
    · generalize (step c requests i e st place).2 = place' at hmoves hid
      generalize (step c requests i e st place).1.rows = rows' at hmoves
      cases hmoves with
      | stay => exact hcode id hid
      | find userId candidate row hrequest hmem huser hverifies =>
        obtain rfl : row.id = id := by
          rcases hid with hid | hid <;> cases hid
          rfl
        obtain ⟨hhash, hbatch⟩ := hrows row hmem
        rw [hhash] at hverifies
        rw [huser] at hbatch
        exact ⟨userId, candidate, hrequest, (c.verifies _ _ _).mp hverifies, hbatch⟩
      | redeem id' hone =>
        obtain rfl : id' = id := by
          rcases hid with hid | hid <;> cases hid
          rfl
        exact hcode id' (Or.inl rfl)
      | _ => rcases hid with hid | hid <;> cases hid
  · rintro i e st place j place' hj hrows - ⟨hplace, hcode⟩
    refine ⟨fun row hrow hrowj => ?_, hcode⟩
    rcases (moves_step c requests i e st place).row_cases hrow with ⟨old, hold, hsame⟩ | ⟨-, -, hi, -⟩
    · exact hplace old hold (by rw [hsame] at hrowj; exact hrowj)
    · exact absurd (hrowj.symm.trans hi) hj
  · exact ⟨fun row hrow => (List.not_mem_nil hrow).elim, fun i =>
      ⟨fun row hrow => (List.not_mem_nil hrow).elim, fun id hid => by rcases hid with hid | hid <;> cases hid⟩⟩

/-- The batch of a row has been committed. -/
theorem regenerated_of_mem (h : id ∈ ids (state c requests as n).store.rows) :
    (state c requests as n).place id.1 = .regenerated := by
  obtain ⟨row, hrow, rfl⟩ := List.mem_map.mp h
  exact ((rows_state as n).2 row.id.1).1 row hrow rfl

theorem ended_keeps (hnm : n ≤ m) (h : ((state c requests as n).place i).ended = true) :
    (state c requests as m).place i = (state c requests as n).place i := by
  refine @place_keeps ι (CodeStore ι) (Place ι) (Env ι) _ (step c requests) initial as i n m
    (fun place => place = (state c requests as n).place i) (fun e st place hplace => ?_) hnm rfl
  exact ((moves_step c requests i e st place).ended (by rw [hplace]; exact h)).trans hplace

/-- A redeem has accepted the code in a turn of its own, which found the row unused and left it used. -/
theorem exists_acceptance (h : Accepted c requests as n i id) :
    ∃ p e, p < n ∧ as[p]? = some (i, e) ∧ (state c requests as p).place i = .matched id ∧
      (state c requests as (p + 1)).place i = .redeemed id ∧
      (∃ row ∈ (state c requests as p).store.rows, row.id = id ∧ row.usedAt = none) ∧
      ∀ row ∈ (state c requests as (p + 1)).store.rows, row.id = id → row.usedAt.isSome := by
  obtain ⟨p, e, hpn, ha, hbefore, hsince⟩ := @exists_arrival ι (CodeStore ι) (Place ι) (Env ι) _
    (step c requests) initial as i (Q := fun place : Place ι => place = .redeemed id)
    (fun hstart => by cases hstart) n h
  have hturn : state c requests as (p + 1) = turn (step c requests) (state c requests as p) (i, e) :=
    after_succ ha
  have hmoves := @moves_turn ι _ c requests (state c requests as p) i e
  have hafter : (state c requests as (p + 1)).place i = .redeemed id := hsince (p + 1) (by omega) (by omega)
  rw [← hturn, hafter] at hmoves
  obtain ⟨hmatched, hunused, hused⟩ := hmoves.of_redeemed hbefore
  exact ⟨p, e, hpn, ha, hmatched, hafter, hunused, hused⟩

theorem used_keeps (hnm : n ≤ m) (hbatch : (state c requests as n).place id.1 = .regenerated)
    (hused : ∀ row ∈ (state c requests as n).store.rows, row.id = id → row.usedAt.isSome) :
    ∀ row ∈ (state c requests as m).store.rows, row.id = id → row.usedAt.isSome := by
  refine (@keeps_after ι (CodeStore ι) (Place ι) (Env ι) _ (step c requests) initial as n m
    (fun s => s.place id.1 = .regenerated ∧ ∀ row ∈ s.store.rows, row.id = id → row.usedAt.isSome)
    ?_ hnm ⟨hbatch, hused⟩).2
  rintro s ⟨i, e⟩ ⟨hbatch, hused⟩
  have hmoves := @moves_turn ι _ c requests s i e
  refine ⟨?_, hmoves.used hused fun hopen hi => ?_⟩
  · by_cases hi : id.1 = i
    · subst hi
      rw [hmoves.ended (by rw [hbatch]; rfl), hbatch]
    · rw [place_turn_of_ne hi, hbatch]
  · rw [← hi, hbatch] at hopen
    cases hopen

/-- Of two redeems of one row the one whose turn comes first has used it up. -/
theorem not_accepted_later (hpq : p < q)
    (hfirst : ∃ row ∈ (state c requests as p).store.rows, row.id = id ∧ row.usedAt = none)
    (hused : ∀ row ∈ (state c requests as (p + 1)).store.rows, row.id = id → row.usedAt.isSome) :
    ¬ ∃ row ∈ (state c requests as q).store.rows, row.id = id ∧ row.usedAt = none := by
  rintro ⟨row, hrow, hid, hunused⟩
  obtain ⟨old, hold, holdid, -⟩ := hfirst
  have hthere : (state c requests as p).place id.1 = .regenerated :=
    regenerated_of_mem (List.mem_map.mpr ⟨old, hold, holdid⟩)
  have hbatch : (state c requests as (p + 1)).place id.1 = .regenerated :=
    (ended_keeps (Nat.le_succ p) (by rw [hthere]; rfl)).trans hthere
  have hlater := used_keeps (show p + 1 ≤ q by omega) hbatch hused row hrow hid
  rw [hunused] at hlater
  cases hlater

/-- The rows of a batch, once it is there, are only those that have been there since. -/
theorem covers_keeps (hne : id.1 ≠ j) (hnm : n ≤ m)
    (hbatch : (state c requests as n).place id.1 = .regenerated)
    (hcovers : id ∈ ids (state c requests as n).store.rows → Covers id ((state c requests as n).place j)) :
    id ∈ ids (state c requests as m).store.rows → Covers id ((state c requests as m).place j) := by
  refine (@keeps_after ι (CodeStore ι) (Place ι) (Env ι) _ (step c requests) initial as n m
    (fun s => s.place id.1 = .regenerated ∧ (id ∈ ids s.store.rows → Covers id (s.place j)))
    ?_ hnm ⟨hbatch, hcovers⟩).2
  rintro s ⟨i, e⟩ ⟨hbatch, hcovers⟩
  have hmoves := @moves_turn ι _ c requests s i e
  refine ⟨?_, fun hid => ?_⟩
  · by_cases hi : id.1 = i
    · subst hi
      rw [hmoves.ended (by rw [hbatch]; rfl), hbatch]
    · rw [place_turn_of_ne hi, hbatch]
  · by_cases hj : j = i
    · subst hj
      exact hmoves.covers hcovers hid hne
    · rw [place_turn_of_ne hj]
      refine hcovers ((hmoves.mem_ids hid).resolve_right ?_)
      rintro ⟨hopen, hi⟩
      rw [← hi, hbatch] at hopen
      cases hopen

/-- Where a regeneration or deletion may be. -/
theorem deleter_place (hdeletes : (requests j).deletes = some userId) (as : List (ι × Env ι)) (n : ℕ) :
    (state c requests as n).place j = .asked ∨ ((state c requests as n).place j).underWay = true ∨
      ((state c requests as n).place j).finished = true ∨ (state c requests as n).place j = .failed := by
  refine @place_keeps ι (CodeStore ι) (Place ι) (Env ι) _ (step c requests) initial as j 0 n
    (fun place => place = .asked ∨ place.underWay = true ∨ place.finished = true ∨ place = .failed)
    (fun e st place hplace => ?_) (Nat.zero_le n) (Or.inl rfl)
  have hmoves := moves_step c requests j e st place
  generalize (step c requests j e st place).2 = place' at hmoves ⊢
  generalize (step c requests j e st place).1.rows = rows' at hmoves
  cases hmoves with
  | stay => exact hplace
  | fail => exact Or.inr (Or.inr (Or.inr rfl))
  | find userId candidate row hrequest =>
    rw [hrequest] at hdeletes
    cases hdeletes
  | reject hno =>
    rw [hdeletes] at hno
    cases hno
  | redeem | lose => rcases hplace with hplace | hplace | hplace | hplace <;> cases hplace
  | delete | take | skip | deleted | insert => exact Or.inr (Or.inl rfl)
  | commit | clear => exact Or.inr (Or.inr (Or.inl rfl))

theorem finished_keeps (hnm : n ≤ m) (h : ((state c requests as n).place j).finished = true) :
    ((state c requests as m).place j).finished = true := by
  rw [ended_keeps hnm (ended_of_finished h)]
  exact h

/-- A regeneration or deletion that has committed began with a snapshot of the rows of its user. -/
theorem exists_snapshot (hdeletes : (requests j).deletes = some userId)
    (hfinished : ((state c requests as m).place j).finished = true) :
    ∃ s, s < m ∧ (∀ p, s < p → p ≤ m → (state c requests as p).place j ≠ .asked) ∧
      ∀ row ∈ (state c requests as (s + 1)).store.rows, row.userId = userId →
        Covers row.id ((state c requests as (s + 1)).place j) := by
  have hleft : (state c requests as m).place j ≠ .asked := by
    intro hasked
    rw [hasked] at hfinished
    cases hfinished
  obtain ⟨s, e, hsm, ha, hbefore, hsince⟩ := @exists_arrival ι (CodeStore ι) (Place ι) (Env ι) _
    (step c requests) initial as j (Q := fun place : Place ι => place ≠ .asked)
    (fun hstart => hstart rfl) m hleft
  refine ⟨s, hsm, hsince, ?_⟩
  have hasked : (state c requests as s).place j = .asked := not_not.mp hbefore
  have hturn : state c requests as (s + 1) = turn (step c requests) (state c requests as s) (j, e) :=
    after_succ ha
  have hmoves := @moves_turn ι _ c requests (state c requests as s) j e
  have hleft : (state c requests as (s + 1)).place j ≠ .asked := hsince (s + 1) (by omega) (by omega)
  have hgoes : (state c requests as (s + 1)).place j ≠ .failed := by
    intro hfailed
    have hstays := ended_keeps (show s + 1 ≤ m by omega) (by rw [hfailed]; rfl)
    rw [hstays, hfailed] at hfinished
    cases hfinished
  rw [← hturn, hasked] at hmoves
  generalize (state c requests as (s + 1)).place j = place' at hmoves hleft hgoes ⊢
  generalize (state c requests as (s + 1)).store.rows = rows' at hmoves ⊢
  cases hmoves with
  | stay => exact absurd rfl hleft
  | fail => exact absurd rfl hgoes
  | reject hno =>
    rw [hdeletes] at hno
    cases hno
  | find userId candidate row hrequest =>
    rw [hrequest] at hdeletes
    cases hdeletes
  | delete userId' hdeletes' =>
    obtain rfl := Option.some.inj (hdeletes'.symm.trans hdeletes)
    intro row hrow huser
    have hseen : row ∈ (e.order (state c requests as s).store.rows).filter (·.userId = userId') :=
      List.mem_filter.mpr ⟨(e.perm _).mem_iff.mpr hrow, decide_eq_true huser⟩
    exact Or.inl (List.mem_map.mpr ⟨row, hseen, rfl⟩)

/-- A batch that was there when the regeneration or deletion began is gone when it has committed. -/
theorem not_mem_of_finished (hapart : Apart c requests as) (hdeletes : (requests j).deletes = some userId)
    (hfinished : ((state c requests as m).place j).finished = true) (hearlier : Earlier c requests as id.1 j userId)
    (hmn : m ≤ n) : id ∉ ids (state c requests as n).store.rows := by
  obtain ⟨hbatch, q, hthere, hopen⟩ := hearlier
  have hne : id.1 ≠ j := by
    intro hsame
    rw [← hsame, hthere] at hopen
    exact hopen rfl
  have hqm : q ≤ m := by
    by_contra hlater
    exact hopen (finished_keeps (show m ≤ q by omega) hfinished)
  obtain ⟨s, hsm, hsince, hsnapshot⟩ := exists_snapshot hdeletes hfinished
  obtain ⟨r, e, hrq, -, hnot, hcommitted⟩ := @exists_arrival ι (CodeStore ι) (Place ι) (Env ι) _
    (step c requests) initial as id.1 (Q := fun place : Place ι => place = .regenerated)
    (fun hstart => by cases hstart) q hthere
  have hcommit : (state c requests as (r + 1)).place id.1 = .regenerated :=
    hcommitted (r + 1) (by omega) (by omega)
  -- The batch was committed before the snapshot, since nothing has been committed during the DELETE.
  have hrs : r ≤ s := by
    by_contra hlater
    refine hapart r m id.1 j userId hbatch hdeletes hne hnot hcommit ?_ hfinished
    rcases deleter_place hdeletes as r with hasked | hunder | hdone | hfailed
    · exact absurd hasked (hsince r (by omega) (by omega))
    · exact hunder
    · exact absurd (finished_keeps (show r ≤ q by omega) hdone) hopen
    · have hstays := ended_keeps (show r ≤ m by omega) (by rw [hfailed]; rfl)
      rw [hstays, hfailed] at hfinished
      cases hfinished
  have hseen : (state c requests as (s + 1)).place id.1 = .regenerated :=
    (ended_keeps (show r + 1 ≤ s + 1 by omega) (by rw [hcommit]; rfl)).trans hcommit
  have hcovers : id ∈ ids (state c requests as (s + 1)).store.rows →
      Covers id ((state c requests as (s + 1)).place j) := by
    intro hid
    obtain ⟨row, hrow, rfl⟩ := List.mem_map.mp hid
    have hrequest := ((rows_state as (s + 1)).1 row hrow).2
    rw [hbatch] at hrequest
    exact hsnapshot row hrow (Request.regenerateForUser.inj hrequest).symm
  intro hid
  have hend := covers_keeps hne (show s + 1 ≤ n by omega) hseen hcovers hid
  have hdone := finished_keeps hmn hfinished
  generalize (state c requests as n).place j = place at hend hdone
  cases place with
  | regenerated | cleared => exact hend
  | _ => cases hdone

/-- **Where no regeneration commits during another regeneration or deletion of the same user, each code is
accepted once at most, and never after it has been replaced.** -/
theorem oneUse_of_apart (h : Apart c requests as) : OneUse c requests as := by
  constructor
  case presented =>
    intro n i id haccepted
    exact ((rows_state as n).2 i).2 id (Or.inr haccepted)
  case once =>
    intro n i j b k k' hi hj hsame
    obtain rfl : k = k' := c.distinct b hsame
    obtain ⟨p, e, hpn, ha, -, -, hunused, hused⟩ := exists_acceptance hi
    obtain ⟨q, e', hqn, ha', -, -, hunused', hused'⟩ := exists_acceptance hj
    by_contra hij
    rcases Nat.lt_trichotomy p q with hpq | rfl | hqp
    · exact not_accepted_later hpq hunused hused hunused'
    · rw [ha] at ha'
      exact hij (congrArg Prod.fst (Option.some.inj ha'))
    · exact not_accepted_later hqp hunused' hused' hunused
  case newOnly =>
    intro m n i j id userId hdeletes hfinished hasked haccepted hearlier
    obtain ⟨p, e, hpn, ha, -, hredeemed, ⟨row, hrow, hid, -⟩, -⟩ := exists_acceptance haccepted
    have hmp : m ≤ p := by
      by_contra hlater
      have hstays := ended_keeps (show p + 1 ≤ m by omega) (by rw [hredeemed]; rfl)
      rw [hredeemed, hasked] at hstays
      cases hstays
    exact not_mem_of_finished h hdeletes hfinished hearlier hmp (List.mem_map.mpr ⟨row, hrow, hid⟩)

end Runs

/-! ### Two regenerations -/

/-- The statements succeed, and go over the rows as they are. -/
def plain : Env (Fin 3) := ⟨0, false, id, fun _ => .refl _⟩

def bytes (b : Fin 3) (k : Fin numCodes) : Fin 8 → Fin 256 := fun _ => Fin.ofNat 256 (10 * b.val + k.val)

/-- Each code stands for its hash. -/
def batches : Batches (Fin 3) where
  bytes := bytes
  hash b k := generateCode (bytes b k)
  verifyPassword s hash := s = hash
  toUppercase := String.map Char.toUpper
  distinct := by
    have hdistinct : ∀ b, ∀ k k' : Fin numCodes,
        generateCode (bytes b k) = generateCode (bytes b k') → k = k' := by decide +kernel
    exact hdistinct
  verifies s b k := decide_eq_true_iff

/-- The first code of the first batch. -/
def oldCode : Fin 3 × Fin numCodes := (0, Fin.ofNat 10 0)

def alice : String := "00000000-0000-0000-0000-000000000001"

/-- Two regenerations, and a redeem of the first code of the first. -/
def requests : Fin 3 → Request
  | 0 => .regenerateForUser alice
  | 1 => .regenerateForUser alice
  | 2 => .redeem alice "0000-0000-0000-0000"

/-- The first one commits after the second has begun. -/
def overlapping : List (Fin 3 × Env (Fin 3)) :=
  (0, plain) :: (1, plain) :: (List.replicate 12 (0, plain) ++ List.replicate 12 (1, plain)) ++
    [(2, plain), (2, plain)]

/-- The redeem accepts a code of the batch that the second regeneration should have replaced. -/
theorem not_oneUse_overlapping : ¬ OneUse batches requests overlapping := by
  intro h
  have hreplaced : ((state batches requests overlapping 26).place 1).finished = true := by decide +kernel
  have hasked : (state batches requests overlapping 26).place 2 = .asked := by decide +kernel
  have haccepted : (state batches requests overlapping 28).place 2 = .redeemed oldCode := by
    decide +kernel
  have hthere : (state batches requests overlapping 14).place 0 = .regenerated := by decide +kernel
  have hopen : ((state batches requests overlapping 14).place 1).finished ≠ true := by decide +kernel
  exact h.newOnly 26 28 2 1 oldCode alice rfl hreplaced hasked haccepted ⟨rfl, 14, hthere, hopen⟩

/-- One after the other. -/
def inTurns : List (Fin 3 × Env (Fin 3)) :=
  List.replicate 13 (0, plain) ++ List.replicate 23 (1, plain) ++ [(2, plain), (2, plain)]

theorem oneUse_inTurns : OneUse batches requests inTurns := by
  have hturns : ∀ m < 38, ∀ b j : Fin 3, b ≠ j →
      (state batches requests inTurns m).place b ≠ .regenerated →
      (state batches requests inTurns (m + 1)).place b = .regenerated →
      ((state batches requests inTurns m).place j).underWay = false := by decide +kernel
  refine oneUse_of_apart fun m n b j userId _ _ hne hbefore hafter hunder _ => ?_
  by_cases hm : m < 38
  · rw [hturns m hm b j hne hbefore hafter] at hunder
    cases hunder
  · have hover : inTurns[m]? = none := List.getElem?_eq_none (Nat.not_lt.mp hm)
    have hsame : state batches requests inTurns (m + 1) = state batches requests inTurns m :=
      after_of_none hover
    rw [hsame] at hafter
    exact hbefore hafter

end StarStats.Server.RecoveryCodes
