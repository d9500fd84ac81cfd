import Mathlib.Data.Fintype.Basic
import Mathlib.Data.List.Sort
import StarStats.Lib.Runs
import StarStats.Server.Audit

/-! # Calls beside each other

A call is a transaction of three statements: it reads the tail and locks it, inserts its row, which the
trigger checks against the tail that is there by then, and commits. The rows form one chain and no call is
lost when no call begins while another is under way. -/

namespace StarStats.Server.Audit

open StarStats.Lib StarStats.Lib.Json StarStats.Lib.Runs StarStats.Lib.Chain

/-- Where a call is, with the tail that it has read and the row that it is for. -/
inductive Phase where
  | idle
  /-- The tail is found, and its lock is waited for. -/
  | waiting (tail : AuditRow)
  | selected (tail : Option AuditRow)
  /-- A row with the same hash, not committed yet, is waited for. -/
  | conflicting (tail : Option AuditRow) (row : AuditRow)
  | inserted (tail : Option AuditRow) (row : AuditRow)
  | committed (tail : Option AuditRow) (row : AuditRow)
  | aborted

namespace Phase

/-- The tail that has been read, if one has been looked for. -/
def tail : Phase → Option (Option AuditRow)
  | .waiting t => some (some t)
  | .selected tail | .conflicting tail _ | .inserted tail _ | .committed tail _ => some tail
  | .idle | .aborted => none

/-- The row of the call that is in the table. -/
def row : Phase → Option AuditRow
  | .inserted _ row | .committed _ row => some row
  | _ => none

/-- The row that is made. -/
def made : Phase → Option AuditRow
  | .conflicting _ row | .inserted _ row | .committed _ row => some row
  | _ => none

/-- The phase has locked the row. -/
def holds (t : AuditRow) : Phase → Bool
  | .selected (some t') | .conflicting (some t') _ | .inserted (some t') _ => t'.seq = t.seq
  | _ => false

/-- The row is inserted, and not committed yet, under this hash. -/
def blocks (h : Hash) : Phase → Bool
  | .inserted _ row => row.rowHash = h
  | _ => false

/-- Between the first statement and the last. -/
def isOpen : Phase → Bool
  | .waiting _ | .selected _ | .conflicting .. | .inserted .. => true
  | .idle | .committed .. | .aborted => false

/-- The call is over. -/
def isFinished : Phase → Bool
  | .committed .. | .aborted => true
  | _ => false

end Phase

/-- The committed rows by number, the next number and the calls; `hashed` keeps what has been hashed. -/
structure State (n : ℕ) where
  log : List AuditRow
  next : ℤ
  phase : Fin n → Phase
  hashed : List (Hash × String)

namespace State
variable {n : ℕ}

/-- An empty table, and no call begun. -/
def start : State n := ⟨[], 1, fun _ => .idle, []⟩

/-- One call goes on. -/
def set (st : State n) (i : Fin n) (phase : Phase) : State n :=
  { st with phase := Function.update st.phase i phase }

/-- A committed row takes its place by number. -/
def commit (st : State n) (row : AuditRow) : State n :=
  { st with log := st.log.orderedInsert (fun a b => a.seq ≤ b.seq) row }

/-- The hash is worked out, and a number is taken for the row. -/
def hashing (st : State n) (p : Prepared) : State n :=
  { st with next := st.next + 1, hashed := st.hashed ++ [(p.prevHash, p.text)] }

/-- The unique index on the hash. -/
def insertRow (st : State n) (i : Fin n) (tail : Option AuditRow) (row : AuditRow) : State n :=
  if row.rowHash ∈ st.log.map (·.rowHash) then st.set i .aborted
  else if ∃ j, j ≠ i ∧ (st.phase j).blocks row.rowHash = true then st.set i (.conflicting tail row)
  else st.set i (.inserted tail row)

end State

/-- What a call is for, and when. -/
structure Job where
  entry : AuditEntry
  now : ℤ

section Machine
variable {n : ℕ} (digest : Hash → String → Hash) (readBack : Value → Value) (jobs : Fin n → Job)

/-- The next statement of a call, if it need not wait. -/
def turn (st : State n) (i : Fin n) : State n :=
  match st.phase i with
  | .idle =>
    match st.log.getLast? with
    | none => st.set i (.selected none)
    | some t => st.set i (.waiting t)
  | .waiting t =>
    if ∃ j, j ≠ i ∧ (st.phase j).holds t = true then st else st.set i (.selected (some t))
  | .selected tail =>
    let p := prepare digest (jobs i).entry tail
    let row := rowOf readBack (jobs i).entry (jobs i).now st.next p
    if checkChain st.log.getLast? p.prevHash = false then (st.hashing p).set i .aborted
    else (st.hashing p).insertRow i tail row
  | .conflicting tail row => st.insertRow i tail row
  | .inserted tail row => (st.commit row).set i (.committed tail row)
  | .committed .. | .aborted => st

/-- The state after the first turns. -/
def afterTurns (turns : List (Fin n)) (m : ℕ) : State n :=
  (turns.take m).foldl (turn digest readBack jobs) .start

/-- **The committed rows are a chain in every state, and every call commits its row.** -/
structure OneChain (turns : List (Fin n)) : Prop where
  linked : ∀ m, Linked AuditRow.prevHash AuditRow.rowHash 0
    (afterTurns digest readBack jobs turns m).log
  kept : ∀ i, ∃ tail row,
    (afterTurns digest readBack jobs turns turns.length).phase i = .committed tail row ∧
      row ∈ (afterTurns digest readBack jobs turns turns.length).log

/-- Every call runs to its end. -/
def Complete (turns : List (Fin n)) : Prop :=
  ∀ i, ((afterTurns digest readBack jobs turns turns.length).phase i).isFinished = true

/-- No call begins while another is under way. -/
def OneByOne (turns : List (Fin n)) : Prop :=
  ∀ m i, turns[m]? = some i → (afterTurns digest readBack jobs turns m).phase i = .idle →
    ∀ j, ((afterTurns digest readBack jobs turns m).phase j).isOpen = false

end Machine

/-! ### What holds of every schedule -/

section Invariant
variable {n : ℕ} {digest : Hash → String → Hash} {readBack : Value → Value} {jobs : Fin n → Job}
  {st : State n} {i j : Fin n} {ph : Phase} {tail : Option AuditRow} {row : AuditRow}

@[simp] theorem phase_set_self : (st.set i ph).phase i = ph := Function.update_self ..

theorem phase_set_of_ne (h : j ≠ i) : (st.set i ph).phase j = st.phase j := Function.update_of_ne h ..

/-- A row follows the tail that was read, under the hash of a text. -/
def Made (digest : Hash → String → Hash) (hashed : List (Hash × String)) (ph : Phase) (row : AuditRow) :
    Prop :=
  ∃ tail text, ph.tail = some tail ∧ row.prevHash = tail.elim 0 (·.rowHash) ∧
    (row.prevHash, text) ∈ hashed ∧ row.rowHash = digest row.prevHash text

/-- What the theorem carries along a schedule. -/
structure Inv (digest : Hash → String → Hash) (st : State n) : Prop where
  made : ∀ i row, (st.phase i).made = some row → Made digest st.hashed (st.phase i) row
  unique : ∀ i j, i ≠ j → ∀ row row', (st.phase i).row = some row → (st.phase j).row = some row' →
    row.rowHash ≠ row'.rowHash
  logged : ∀ row, row ∈ st.log ↔ ∃ i tail, st.phase i = .committed tail row
  nodup : (st.log.map (·.rowHash)).Nodup

theorem inv_start : Inv digest (State.start : State n) := by
  refine ⟨by simp [State.start, Phase.made], by simp [State.start, Phase.row],
    fun row => ⟨by simp [State.start], ?_⟩, List.nodup_nil⟩
  rintro ⟨i, tail, h⟩
  cases h

theorem row_cases (h : ph.row = some row) :
    (∃ tail, ph = .inserted tail row) ∨ ∃ tail, ph = .committed tail row := by
  cases ph with
  | inserted tail r =>
    obtain rfl := Option.some.inj h
    exact Or.inl ⟨tail, rfl⟩
  | committed tail r =>
    obtain rfl := Option.some.inj h
    exact Or.inr ⟨tail, rfl⟩
  | _ => cases h

/-- A hash that neither the table nor an open call has is of no row. -/
theorem Inv.hash_ne (h : Inv digest st) {hash : Hash} (hlog : hash ∉ st.log.map (·.rowHash))
    (hopen : ¬ ∃ j, j ≠ i ∧ (st.phase j).blocks hash = true) (hj : j ≠ i)
    (hrow : (st.phase j).row = some row) : row.rowHash ≠ hash := by
  rintro rfl
  rcases row_cases hrow with ⟨tail, hphase⟩ | ⟨tail, hphase⟩
  · exact hopen ⟨j, hj, by simp [hphase, Phase.blocks]⟩
  · exact hlog (List.mem_map_of_mem ((h.logged row).mpr ⟨j, tail, hphase⟩))

/-- A call goes on to another statement. -/
theorem Inv.set (h : Inv digest st) (hold : ∀ tail row, st.phase i ≠ .committed tail row)
    (hnew : ∀ tail row, ph ≠ .committed tail row)
    (hmade : ∀ row, ph.made = some row → Made digest st.hashed ph row)
    (hrow : ∀ row, ph.row = some row → row.rowHash ∉ st.log.map (·.rowHash) ∧
      ¬ ∃ j, j ≠ i ∧ (st.phase j).blocks row.rowHash = true) : Inv digest (st.set i ph) := by
  constructor
  · intro j row hj
    by_cases hji : j = i
    · subst hji
      rw [phase_set_self] at hj ⊢
      exact hmade row hj
    · rw [phase_set_of_ne hji] at hj ⊢
      exact h.made j row hj
  · intro j k hjk row row' hj hk
    by_cases hji : j = i
    · subst hji
      rw [phase_set_self] at hj
      rw [phase_set_of_ne (Ne.symm hjk)] at hk
      exact (h.hash_ne (hrow row hj).1 (hrow row hj).2 (Ne.symm hjk) hk).symm
    · rw [phase_set_of_ne hji] at hj
      by_cases hki : k = i
      · subst hki
        rw [phase_set_self] at hk
        exact h.hash_ne (hrow row' hk).1 (hrow row' hk).2 hji hj
      · rw [phase_set_of_ne hki] at hk
        exact h.unique j k hjk row row' hj hk
  · intro row
    refine (h.logged row).trans ⟨?_, ?_⟩
    · rintro ⟨j, tail, hj⟩
      have hji : j ≠ i := fun hji => hold tail row (hji ▸ hj)
      exact ⟨j, tail, by rw [phase_set_of_ne hji, hj]⟩
    · rintro ⟨j, tail, hj⟩
      have hji : j ≠ i := by
        rintro rfl
        rw [phase_set_self] at hj
        exact hnew tail row hj
      rw [phase_set_of_ne hji] at hj
      exact ⟨j, tail, hj⟩
  · exact h.nodup

theorem Inv.set_unmade (h : Inv digest st) (hold : ∀ tail row, st.phase i ≠ .committed tail row)
    (hmade : ph.made = none) : Inv digest (st.set i ph) := by
  refine h.set hold (fun tail row heq => ?_) (fun row hrow => ?_) fun row hrow => ?_
  · rw [heq] at hmade
    simp [Phase.made] at hmade
  · rw [hmade] at hrow
    simp at hrow
  · rcases row_cases hrow with ⟨tail, heq⟩ | ⟨tail, heq⟩ <;>
      simp [heq, Phase.made] at hmade

theorem Inv.abort (h : Inv digest st) (hold : ∀ tail row, st.phase i ≠ .committed tail row) :
    Inv digest (st.set i .aborted) := h.set_unmade hold rfl

theorem Inv.insertRow (h : Inv digest st) (hold : ∀ tail row, st.phase i ≠ .committed tail row)
    (hmade : Made digest st.hashed (.selected tail) row) : Inv digest (st.insertRow i tail row) := by
  unfold State.insertRow
  split_ifs with hlog hopen
  · exact h.abort hold
  · refine h.set hold (by simp) (fun r hr => ?_) (by simp [Phase.row])
    obtain rfl := Option.some.inj hr
    exact hmade
  · refine h.set hold (by simp) (fun r hr => ?_) fun r hr => ?_
    · obtain rfl := Option.some.inj hr
      exact hmade
    · obtain rfl := Option.some.inj hr
      exact ⟨hlog, hopen⟩

theorem Inv.hashing (h : Inv digest st) (p : Prepared) : Inv digest (st.hashing p) := by
  refine ⟨fun i row hrow => ?_, h.unique, h.logged, h.nodup⟩
  obtain ⟨tail, text, htail, hprev, hmem, hhash⟩ := h.made i row hrow
  exact ⟨tail, text, htail, hprev, List.mem_append_left _ hmem, hhash⟩

theorem made_prepare (entry : AuditEntry) (now : ℤ) (tail : Option AuditRow) (st : State n) :
    Made digest (st.hashing (prepare digest entry tail)).hashed (.selected tail)
      (rowOf readBack entry now st.next (prepare digest entry tail)) :=
  ⟨tail, (prepare digest entry tail).text, rfl, rfl,
    List.mem_append_right _ (List.mem_singleton_self _), rfl⟩

theorem turn_selected (hphase : st.phase i = .selected tail) :
    turn digest readBack jobs st i =
      if checkChain st.log.getLast? (prepare digest (jobs i).entry tail).prevHash = false then
        (st.hashing (prepare digest (jobs i).entry tail)).set i .aborted
      else (st.hashing (prepare digest (jobs i).entry tail)).insertRow i tail
        (rowOf readBack (jobs i).entry (jobs i).now st.next (prepare digest (jobs i).entry tail)) := by
  unfold turn
  rw [hphase]

theorem mem_log_commit {r : AuditRow} : r ∈ (st.commit row).log ↔ r = row ∨ r ∈ st.log := by
  unfold State.commit
  exact List.mem_orderedInsert _

/-- An inserted row is committed. -/
theorem Inv.commit (h : Inv digest st) (hi : st.phase i = .inserted tail row) :
    Inv digest ((st.commit row).set i (.committed tail row)) := by
  have hrow : (st.phase i).row = some row := by rw [hi]; rfl
  have hlog : row.rowHash ∉ st.log.map (·.rowHash) := by
    intro hmem
    obtain ⟨r, hr, hhash⟩ := List.mem_map.mp hmem
    obtain ⟨j, tail', hj⟩ := (h.logged r).mp hr
    have hji : j ≠ i := by
      rintro rfl
      rw [hi] at hj
      cases hj
    exact h.unique j i hji r row (by rw [hj]; rfl) hrow hhash
  have hphase : ∀ j, (((st.commit row).set i (.committed tail row)).phase j).row =
      (st.phase j).row := by
    intro j
    by_cases hji : j = i
    · subst hji
      rw [phase_set_self, hrow]
      rfl
    · rw [phase_set_of_ne hji]
      rfl
  constructor
  · intro j r hj
    by_cases hji : j = i
    · subst hji
      rw [phase_set_self] at hj ⊢
      obtain rfl := Option.some.inj hj
      have hmade := h.made j row (by rw [hi]; rfl)
      rw [hi] at hmade
      exact hmade
    · rw [phase_set_of_ne hji] at hj ⊢
      exact h.made j r hj
  · intro j k hjk r r' hj hk
    rw [hphase] at hj hk
    exact h.unique j k hjk r r' hj hk
  · intro r
    refine mem_log_commit.trans ⟨?_, ?_⟩
    · rintro (rfl | hr)
      · exact ⟨i, tail, phase_set_self⟩
      · obtain ⟨j, tail', hj⟩ := (h.logged r).mp hr
        have hji : j ≠ i := by
          rintro rfl
          rw [hi] at hj
          cases hj
        exact ⟨j, tail', (phase_set_of_ne hji).trans hj⟩
    · rintro ⟨j, tail', hj⟩
      by_cases hji : j = i
      · subst hji
        rw [phase_set_self] at hj
        cases hj
        exact Or.inl rfl
      · rw [phase_set_of_ne hji] at hj
        exact Or.inr ((h.logged r).mpr ⟨j, tail', hj⟩)
  · have hperm := (List.perm_orderedInsert (fun a b : AuditRow => a.seq ≤ b.seq) row st.log).map
      (·.rowHash)
    exact hperm.nodup_iff.mpr (List.nodup_cons.mpr ⟨hlog, h.nodup⟩)

theorem Inv.turn (h : Inv digest st) (i : Fin n) : Inv digest (turn digest readBack jobs st i) := by
  cases hphase : st.phase i with
  | idle =>
    have hold : ∀ tail row, st.phase i ≠ .committed tail row := by simp [hphase]
    unfold Audit.turn
    rw [hphase]
    cases st.log.getLast? with
    | none => exact h.set_unmade hold rfl
    | some t => exact h.set_unmade hold rfl
  | waiting t =>
    unfold Audit.turn
    rw [hphase]
    simp only
    split_ifs
    · exact h
    · exact h.set_unmade (by simp [hphase]) rfl
  | selected tail =>
    have hold : ∀ tail row, st.phase i ≠ .committed tail row := by simp [hphase]
    rw [turn_selected hphase]
    split_ifs
    · exact (h.hashing _).abort hold
    · exact (h.hashing _).insertRow hold (made_prepare _ _ tail st)
  | conflicting tail row =>
    unfold Audit.turn
    rw [hphase]
    refine h.insertRow (by simp [hphase]) ?_
    have hmade := h.made i row (by rw [hphase]; rfl)
    rw [hphase] at hmade
    exact hmade
  | inserted tail row =>
    unfold Audit.turn
    rw [hphase]
    exact h.commit hphase
  | committed tail row =>
    unfold Audit.turn
    rw [hphase]
    exact h
  | aborted =>
    unfold Audit.turn
    rw [hphase]
    exact h

/-! ### What holds of calls that take turns -/

/-- At most one call is under way; it has read the last row, and it is not stopped. -/
structure InTurn (st : State n) : Prop where
  linked : Linked AuditRow.prevHash AuditRow.rowHash 0 st.log
  one : ∀ i j, (st.phase i).isOpen = true → (st.phase j).isOpen = true → i = j
  tail : ∀ i, (st.phase i).isOpen = true → (st.phase i).tail = some st.log.getLast?
  safe : ∀ i, st.phase i ≠ .aborted ∧ ∀ tail row, st.phase i ≠ .conflicting tail row
  below : ∀ r ∈ st.log, r.seq < st.next
  last : ∀ i tail row, st.phase i = .inserted tail row →
    row.seq < st.next ∧ ∀ r ∈ st.log, r.seq < row.seq

theorem inTurn_start : InTurn (State.start : State n) :=
  ⟨trivial, by simp [State.start, Phase.isOpen], by simp [State.start, Phase.isOpen],
    by simp [State.start], by simp [State.start], by simp [State.start]⟩

/-- A call that is alone goes on. -/
theorem InTurn.advance {st' : State n} (h : InTurn st) (hlog : st'.log = st.log)
    (hnext : st.next ≤ st'.next) (hphase : ∀ j, j ≠ i → st'.phase j = st.phase j)
    (halone : ∀ j, j ≠ i → (st.phase j).isOpen = false)
    (htail : (st'.phase i).isOpen = true → (st'.phase i).tail = some st.log.getLast?)
    (hsafe : st'.phase i ≠ .aborted ∧ ∀ tail row, st'.phase i ≠ .conflicting tail row)
    (hlast : ∀ tail row, st'.phase i = .inserted tail row →
      row.seq < st'.next ∧ ∀ r ∈ st.log, r.seq < row.seq) : InTurn st' := by
  have hopen : ∀ j, (st'.phase j).isOpen = true → j = i := by
    intro j hj
    by_contra hji
    rw [hphase j hji, halone j hji] at hj
    cases hj
  constructor
  · rw [hlog]
    exact h.linked
  · intro j k hj hk
    rw [hopen j hj, hopen k hk]
  · intro j hj
    obtain rfl := hopen j hj
    rw [hlog]
    exact htail hj
  · intro j
    by_cases hji : j = i
    · exact hji ▸ hsafe
    · rw [hphase j hji]
      exact h.safe j
  · intro r hr
    have hlt := h.below r (hlog ▸ hr)
    omega
  · intro j tail row hj
    obtain rfl := hopen j (by rw [hj]; rfl)
    rw [hlog]
    exact hlast tail row hj

theorem InTurn.read (h : InTurn st) (halone : ∀ j, j ≠ i → (st.phase j).isOpen = false)
    (hph : (∃ t, ph = .waiting t) ∨ ∃ tail, ph = .selected tail)
    (htail : ph.tail = some st.log.getLast?) : InTurn (st.set i ph) := by
  refine h.advance rfl le_rfl (fun j hji => phase_set_of_ne hji) halone ?_ ?_ ?_
  · rw [phase_set_self]
    exact fun _ => htail
  · rw [phase_set_self]
    rcases hph with ⟨t, rfl⟩ | ⟨tail, rfl⟩ <;> simp
  · rw [phase_set_self]
    rcases hph with ⟨t, rfl⟩ | ⟨tail, rfl⟩ <;> simp

theorem hashing_phase (p : Prepared) : (st.hashing p).phase = st.phase := rfl

/-- A call that is alone inserts its row, when its hash is new. -/
theorem InTurn.insert (h : InTurn st) (halone : ∀ j, j ≠ i → (st.phase j).isOpen = false)
    (htail : tail = st.log.getLast?) {p : Prepared} (hseq : row.seq = st.next)
    (hnew : row.rowHash ∉ st.log.map (·.rowHash)) :
    InTurn ((st.hashing p).insertRow i tail row) := by
  have hnone : ¬ ∃ j, j ≠ i ∧ ((st.hashing p).phase j).blocks row.rowHash = true := by
    rintro ⟨j, hji, hj⟩
    have hclosed := halone j hji
    rw [hashing_phase] at hj
    cases hphase : st.phase j with
    | inserted tail row =>
      rw [hphase] at hclosed
      cases hclosed
    | _ =>
      rw [hphase] at hj
      cases hj
  have hlog : row.rowHash ∉ (st.hashing p).log.map (·.rowHash) := hnew
  unfold State.insertRow
  rw [if_neg hlog, if_neg hnone]
  have hnext : st.next ≤ st.next + 1 := by omega
  refine h.advance rfl hnext (fun j hji => phase_set_of_ne hji) halone ?_ ?_ ?_
  · rw [phase_set_self]
    exact fun _ => congrArg some htail
  · rw [phase_set_self]
    exact ⟨by simp, by simp⟩
  · rw [phase_set_self]
    intro tail' row' heq
    cases heq
    change row.seq < st.next + 1 ∧ _
    refine ⟨by omega, fun r hr => ?_⟩
    have hlt := h.below r hr
    omega

theorem orderedInsert_last {l : List AuditRow} (h : ∀ r ∈ l, r.seq < row.seq) :
    l.orderedInsert (fun a b => a.seq ≤ b.seq) row = l ++ [row] := by
  induction l with
  | nil => rfl
  | cons a l ih =>
    have ha := h a List.mem_cons_self
    rw [List.orderedInsert, if_neg (by omega), ih fun r hr => h r (List.mem_cons_of_mem _ hr)]
    rfl

theorem InTurn.commit (hinv : Inv digest st) (h : InTurn st) (hi : st.phase i = .inserted tail row)
    (halone : ∀ j, j ≠ i → (st.phase j).isOpen = false) :
    InTurn ((st.commit row).set i (.committed tail row)) := by
  obtain ⟨hnext, hlast⟩ := h.last i tail row hi
  have hlog : (st.commit row).log = st.log ++ [row] := orderedInsert_last hlast
  have hclosed : ∀ j, (((st.commit row).set i (.committed tail row)).phase j).isOpen = false := by
    intro j
    by_cases hji : j = i
    · subst hji
      rw [phase_set_self]
      rfl
    · rw [phase_set_of_ne hji]
      exact halone j hji
  have hprev : row.prevHash = tip AuditRow.rowHash 0 st.log := by
    obtain ⟨tail', -, htail', hprev, -⟩ := hinv.made i row (by rw [hi]; rfl)
    have htail := h.tail i (by rw [hi]; rfl)
    obtain rfl := Option.some.inj (htail'.symm.trans htail)
    rw [hprev]
    unfold tip
    cases st.log.getLast? <;> rfl
  constructor
  · change Linked _ _ _ (st.commit row).log
    rw [hlog]
    exact linked_concat.mpr ⟨h.linked, hprev⟩
  · intro j k hj
    rw [hclosed j] at hj
    cases hj
  · intro j hj
    rw [hclosed j] at hj
    cases hj
  · intro j
    by_cases hji : j = i
    · subst hji
      rw [phase_set_self]
      exact ⟨by simp, by simp⟩
    · rw [phase_set_of_ne hji]
      exact h.safe j
  · change ∀ r ∈ (st.commit row).log, r.seq < st.next
    rw [hlog]
    intro r hr
    rcases List.mem_append.mp hr with hr | hr
    · exact h.below r hr
    · obtain rfl := List.mem_singleton.mp hr
      exact hnext
  · intro j tail' row' hj
    have hopen := hclosed j
    rw [hj] at hopen
    cases hopen

/-- The row of a call that has read the last row has a hash of its own. -/
theorem hash_not_mem (hinv : Inv digest st) (h : InTurn st) {entry : AuditEntry}
    (hsha : CollisionFree digest (st.hashing (prepare digest entry st.log.getLast?)).hashed)
    (hzero : ∀ m ∈ st.hashed, digest m.1 m.2 ≠ 0) :
    (prepare digest entry st.log.getLast?).rowHash ∉ st.log.map (·.rowHash) := by
  intro hmem
  obtain ⟨r, hr, hhash⟩ := List.mem_map.mp hmem
  have hmade : ∀ r ∈ st.log, ∃ text, (r.prevHash, text) ∈ st.hashed ∧
      r.rowHash = digest r.prevHash text := by
    intro r hr
    obtain ⟨i, tail, hi⟩ := (hinv.logged r).mp hr
    obtain ⟨-, text, -, -, htext⟩ := hinv.made i r (by rw [hi]; rfl)
    exact ⟨text, htext⟩
  obtain ⟨text, hmem, htext⟩ := hmade r hr
  have hsame : digest r.prevHash text =
      digest (prepare digest entry st.log.getLast?).prevHash
        (prepare digest entry st.log.getLast?).text := htext.symm.trans hhash
  have hprev : r.prevHash = tip AuditRow.rowHash 0 st.log := by
    have heq := hsha _ (List.mem_append_left _ hmem) _
      (List.mem_append_right _ (List.mem_singleton_self _)) hsame
    rw [← prevHash_prepare digest entry st.log]
    exact congrArg Prod.fst heq
  -- The last row is followed by none of the rows.
  cases hlog : st.log using List.reverseRecOn with
  | nil =>
    rw [hlog] at hr
    cases hr
  | append_singleton l x =>
    have hlinked := h.linked
    have hnodup := hinv.nodup
    rw [hlog] at hlinked hnodup hr
    rw [hlog, tip_concat] at hprev
    rcases prev_eq_or hlinked hr with hseed | ⟨d, hd, hd'⟩
    · obtain ⟨text', hmem', htext'⟩ := hmade x (by rw [hlog]; simp)
      refine hzero _ hmem' ?_
      rw [← htext', ← hprev, hseed]
    · exact hash_ne_of_concat hnodup hd (hd'.symm.trans hprev)

theorem hashed_insertRow : (st.insertRow i tail row).hashed = st.hashed := by
  unfold State.insertRow
  split_ifs <;> rfl

theorem checkChain_getLast? (entry : AuditEntry) :
    checkChain st.log.getLast? (prepare digest entry st.log.getLast?).prevHash = true :=
  checkChain_prepare entry _

/-- A call that is alone goes on alone. -/
theorem InTurn.turn (hinv : Inv digest st) (h : InTurn st) (i : Fin n)
    (hsha : CollisionFree digest (Audit.turn digest readBack jobs st i).hashed)
    (hzero : ∀ m ∈ st.hashed, digest m.1 m.2 ≠ 0)
    (hidle : st.phase i = .idle → ∀ j, (st.phase j).isOpen = false) :
    InTurn (Audit.turn digest readBack jobs st i) := by
  have halone : (st.phase i).isOpen = true → ∀ j, j ≠ i → (st.phase j).isOpen = false := by
    intro hi j hji
    by_contra hj
    exact hji (h.one j i (by simpa using hj) hi)
  cases hphase : st.phase i with
  | idle =>
    have hnone := hidle hphase
    unfold Audit.turn
    rw [hphase]
    cases hlog : st.log.getLast? with
    | none => exact h.read (fun j _ => hnone j) (Or.inr ⟨none, rfl⟩) (by rw [hlog]; rfl)
    | some t => exact h.read (fun j _ => hnone j) (Or.inl ⟨t, rfl⟩) (by rw [hlog]; rfl)
  | waiting t =>
    have hopen : (st.phase i).isOpen = true := by rw [hphase]; rfl
    have htail := h.tail i hopen
    rw [hphase] at htail
    unfold Audit.turn
    rw [hphase]
    simp only
    split_ifs
    · exact h
    · exact h.read (halone hopen) (Or.inr ⟨some t, rfl⟩) htail
  | selected tail =>
    have hopen : (st.phase i).isOpen = true := by rw [hphase]; rfl
    have htail := h.tail i hopen
    rw [hphase] at htail
    obtain rfl : tail = st.log.getLast? := Option.some.inj htail
    rw [turn_selected hphase, checkChain_getLast?, if_neg (by simp)] at hsha ⊢
    rw [hashed_insertRow] at hsha
    exact h.insert (halone hopen) rfl rfl (hash_not_mem hinv h hsha hzero)
  | conflicting tail row => exact absurd hphase ((h.safe i).2 tail row)
  | inserted tail row =>
    have hopen : (st.phase i).isOpen = true := by rw [hphase]; rfl
    unfold Audit.turn
    rw [hphase]
    exact h.commit hinv hphase (halone hopen)
  | committed tail row =>
    unfold Audit.turn
    rw [hphase]
    exact h
  | aborted => exact absurd hphase (h.safe i).1

/-! ### Schedules -/

theorem mem_hashed_turn {m : Hash × String} (hm : m ∈ st.hashed) (i : Fin n) :
    m ∈ (turn digest readBack jobs st i).hashed := by
  cases hphase : st.phase i with
  | selected tail =>
    rw [turn_selected hphase]
    split_ifs
    · exact List.mem_append_left _ hm
    · rw [hashed_insertRow]
      exact List.mem_append_left _ hm
  | waiting t =>
    unfold turn
    rw [hphase]
    simp only
    split_ifs <;> exact hm
  | conflicting tail row =>
    unfold turn
    rw [hphase]
    simp only [hashed_insertRow]
    exact hm
  | idle =>
    unfold turn
    rw [hphase]
    cases st.log.getLast? <;> exact hm
  | _ =>
    unfold turn
    rw [hphase]
    exact hm

theorem phase_insertRow_of_ne (hji : j ≠ i) : (st.insertRow i tail row).phase j = st.phase j := by
  unfold State.insertRow
  split_ifs <;> exact phase_set_of_ne hji

theorem phase_turn_of_ne (hji : j ≠ i) : (turn digest readBack jobs st i).phase j = st.phase j := by
  cases hphase : st.phase i with
  | selected tail =>
    rw [turn_selected hphase]
    split_ifs
    · exact phase_set_of_ne hji
    · exact phase_insertRow_of_ne hji
  | waiting t =>
    unfold turn
    rw [hphase]
    simp only
    split_ifs
    · rfl
    · exact phase_set_of_ne hji
  | conflicting tail row =>
    unfold turn
    rw [hphase]
    exact phase_insertRow_of_ne hji
  | idle =>
    unfold turn
    rw [hphase]
    cases st.log.getLast? <;> exact phase_set_of_ne hji
  | inserted tail row =>
    unfold turn
    rw [hphase]
    exact phase_set_of_ne hji
  | _ =>
    unfold turn
    rw [hphase]

/-- A call follows the tail that it has read, or is aborted. -/
def Follows (tail : Option AuditRow) (i : Fin n) (st : State n) : Prop :=
  st.phase i = .aborted ∨ (st.phase i).tail = some tail

theorem follows_insertRow : Follows tail i (st.insertRow i tail row) := by
  unfold State.insertRow Follows
  split_ifs
  · exact Or.inl phase_set_self
  · rw [phase_set_self]
    exact Or.inr rfl
  · rw [phase_set_self]
    exact Or.inr rfl

theorem follows_turn (h : Follows tail i st) (j : Fin n) :
    Follows tail i (turn digest readBack jobs st j) := by
  by_cases hij : i = j
  · subst hij
    rcases h with haborted | htail
    · unfold turn
      rw [haborted]
      exact Or.inl haborted
    · cases hphase : st.phase i with
      | idle =>
        rw [hphase] at htail
        cases htail
      | aborted =>
        rw [hphase] at htail
        cases htail
      | waiting t =>
        unfold turn
        rw [hphase] at htail ⊢
        simp only
        split_ifs
        · exact Or.inr (hphase ▸ htail)
        · exact Or.inr (by rw [phase_set_self]; exact htail)
      | selected tail' =>
        rw [hphase] at htail
        obtain rfl := Option.some.inj htail
        rw [turn_selected hphase]
        split_ifs
        · exact Or.inl phase_set_self
        · exact follows_insertRow
      | conflicting tail' row =>
        rw [hphase] at htail
        obtain rfl := Option.some.inj htail
        unfold turn
        rw [hphase]
        exact follows_insertRow
      | inserted tail' row =>
        unfold turn
        rw [hphase] at htail ⊢
        exact Or.inr (by rw [phase_set_self]; exact htail)
      | committed tail' row =>
        have hsame : turn digest readBack jobs st i = st := by
          unfold turn
          rw [hphase]
        rw [hsame]
        exact Or.inr htail
  · unfold Follows
    rw [phase_turn_of_ne hij]
    exact h

end Invariant

section Schedules
variable {n : ℕ} {digest : Hash → String → Hash} {readBack : Value → Value} {jobs : Fin n → Job}
  {turns : List (Fin n)}

theorem afterTurns_succ {m : ℕ} {i : Fin n} (h : turns[m]? = some i) :
    afterTurns digest readBack jobs turns (m + 1) =
      turn digest readBack jobs (afterTurns digest readBack jobs turns m) i := run_take_succ h

theorem inv_afterTurns (m : ℕ) : Inv digest (afterTurns digest readBack jobs turns m) :=
  invariant_run inv_start (fun _ i h => h.turn i) (turns.take m)

/-- What every turn keeps holds at the end. -/
theorem final_of (P : State n → Prop) (hstep : ∀ st i, P st → P (turn digest readBack jobs st i))
    {m : ℕ} (h : P (afterTurns digest readBack jobs turns m)) :
    P (afterTurns digest readBack jobs turns turns.length) := by
  rcases Nat.le_total m turns.length with hm | hm
  · exact invariant_take_from hstep hm h
  · unfold afterTurns at h ⊢
    rw [List.take_of_length_le hm] at h
    rwa [List.take_length]

/-- While no call has begun beside another, at most one is under way. -/
theorem inTurn_afterTurns
    (hsha : CollisionFree digest (afterTurns digest readBack jobs turns turns.length).hashed)
    (hzero : ∀ x ∈ (afterTurns digest readBack jobs turns turns.length).hashed, digest x.1 x.2 ≠ 0)
    (m : ℕ) (hone : ∀ k < m, ∀ i, turns[k]? = some i →
      (afterTurns digest readBack jobs turns k).phase i = .idle →
      ∀ j, ((afterTurns digest readBack jobs turns k).phase j).isOpen = false) :
    InTurn (afterTurns digest readBack jobs turns m) := by
  have hfinal : ∀ k, ∀ x ∈ (afterTurns digest readBack jobs turns k).hashed,
      x ∈ (afterTurns digest readBack jobs turns turns.length).hashed :=
    fun k x hx => final_of (fun st => x ∈ st.hashed) (fun _ i hm => mem_hashed_turn hm i) hx
  induction m with
  | zero => exact inTurn_start
  | succ m ih =>
    have hm := ih fun k hk => hone k (by omega)
    cases hi : turns[m]? with
    | none =>
      unfold afterTurns at hm ⊢
      rwa [run_take_of_none hi]
    | some i =>
      have hnext := hfinal (m + 1)
      rw [afterTurns_succ hi] at hnext ⊢
      refine hm.turn (inv_afterTurns m) i (fun x hx y hy => hsha x (hnext x hx) y (hnext y hy))
        (fun x hx => hzero x (hfinal m x hx)) (hone m (by omega) i hi)

/-- A call that begins reads the last row. -/
theorem follows_begin {m : ℕ} {i : Fin n} (hi : turns[m]? = some i)
    (hidle : (afterTurns digest readBack jobs turns m).phase i = .idle) :
    Follows (afterTurns digest readBack jobs turns m).log.getLast? i
      (afterTurns digest readBack jobs turns (m + 1)) := by
  rw [afterTurns_succ hi]
  right
  unfold turn
  rw [hidle]
  cases hlog : (afterTurns digest readBack jobs turns m).log.getLast? with
  | none =>
    simp only
    rw [phase_set_self]
    rfl
  | some t =>
    simp only
    rw [phase_set_self]
    rfl

/-- No two calls that are kept in one chain follow the same row. -/
theorem eq_of_follows {tail : Option AuditRow} {i j : Fin n} (h : OneChain digest readBack jobs turns)
    (hzero : ∀ x ∈ (afterTurns digest readBack jobs turns turns.length).hashed, digest x.1 x.2 ≠ 0)
    (hi : Follows tail i (afterTurns digest readBack jobs turns turns.length))
    (hj : Follows tail j (afterTurns digest readBack jobs turns turns.length)) : i = j := by
  have hinv : Inv digest (afterTurns digest readBack jobs turns turns.length) :=
    inv_afterTurns turns.length
  have hkept : ∀ k, Follows tail k (afterTurns digest readBack jobs turns turns.length) → ∃ row,
      ((afterTurns digest readBack jobs turns turns.length).phase k).row = some row ∧
      row ∈ (afterTurns digest readBack jobs turns turns.length).log ∧
      row.prevHash = tail.elim 0 (·.rowHash) := by
    intro k hk
    obtain ⟨tail', row, hphase, hlog⟩ := h.kept k
    have hmade := hinv.made k row (by rw [hphase]; rfl)
    unfold Follows at hk
    rw [hphase] at hk hmade ⊢
    obtain ⟨tail'', -, htail, hprev, -⟩ := hmade
    obtain rfl := Option.some.inj (htail.symm.trans (hk.resolve_left (by simp)))
    exact ⟨row, rfl, hlog, hprev⟩
  obtain ⟨row, hrow, hlog, hprev⟩ := hkept i hi
  obtain ⟨row', hrow', hlog', hprev'⟩ := hkept j hj
  have hseed : ∀ r ∈ (afterTurns digest readBack jobs turns turns.length).log, r.rowHash ≠ 0 := by
    intro r hr
    obtain ⟨k, tail', hk⟩ := (hinv.logged r).mp hr
    obtain ⟨-, text, -, -, hmem, hhash⟩ := hinv.made k r (by rw [hk]; rfl)
    rw [hhash]
    exact hzero _ hmem
  have hsame : row = row' := eq_of_prev_eq (h.linked turns.length) hinv.nodup hseed hlog hlog'
    (hprev.trans hprev'.symm)
  by_contra hij
  exact hinv.unique i j hij row row' hrow hrow' (congrArg _ hsame)

/-- **The calls form one chain and none is lost exactly if they run one after the other.** -/
theorem oneChain_iff (hcomplete : Complete digest readBack jobs turns)
    (hsha : CollisionFree digest (afterTurns digest readBack jobs turns turns.length).hashed)
    (hzero : ∀ x ∈ (afterTurns digest readBack jobs turns turns.length).hashed,
      digest x.1 x.2 ≠ 0) :
    OneChain digest readBack jobs turns ↔ OneByOne digest readBack jobs turns := by
  constructor
  · intro h m i hi hidle j
    induction m using Nat.strong_induction_on generalizing i j with
    | _ m ih =>
      by_contra hopen
      have hopen : ((afterTurns digest readBack jobs turns m).phase j).isOpen = true := by
        simpa using hopen
      -- The call under way and the one that begins have read the same row.
      have hturn := inTurn_afterTurns hsha hzero m fun k hk i hi hidle j => ih k hk i hi hidle j
      have hj := final_of (Follows _ j) (fun _ k h => follows_turn h k) (Or.inr (hturn.tail j hopen))
      have hi' := final_of (Follows _ i) (fun _ k h => follows_turn h k)
        (follows_begin hi hidle)
      obtain rfl := eq_of_follows h hzero hi' hj
      rw [hidle] at hopen
      cases hopen
  · intro h
    have hturn := fun m => inTurn_afterTurns hsha hzero m fun k _ => h k
    refine ⟨fun m => (hturn m).linked, fun i => ?_⟩
    have hfinished := hcomplete i
    cases hphase : (afterTurns digest readBack jobs turns turns.length).phase i with
    | committed tail row =>
      exact ⟨tail, row, rfl, ((inv_afterTurns turns.length).logged row).mpr ⟨i, tail, hphase⟩⟩
    | aborted => exact absurd hphase ((hturn turns.length).safe i).1
    | _ =>
      rw [hphase] at hfinished
      cases hfinished

end Schedules

/-- Two calls. -/
def twoJobs (i : Fin 2) : Job := ⟨visibilityChanged (i = 0), 0⟩

/-- The second begins when the first is committed. -/
def inTurns : List (Fin 2) := [0, 0, 0, 1, 1, 1, 1]

theorem oneChain_inTurns : OneChain sha256Of id twoJobs inTurns := by
  refine (oneChain_iff ?_ (by decide +kernel) (by decide +kernel)).mpr fun m i hi hidle => ?_
  · unfold Complete
    decide +kernel
  · match m with
    | 0 | 3 => decide +kernel
    | 1 | 2 | 4 | 5 | 6 =>
      -- The call has begun before.
      obtain rfl := Option.some.inj hi
      have hopen := congrArg Phase.isOpen hidle
      exact absurd hopen (by decide +kernel)
    | m + 7 => cases hi

/-- On the empty table there is no row to lock, and both calls follow the seed. -/
def beside : List (Fin 2) := [0, 1, 0, 1, 0, 1]

theorem not_oneChain_beside : Complete sha256Of id twoJobs beside ∧
    CollisionFree sha256Of (afterTurns sha256Of id twoJobs beside beside.length).hashed ∧
    ¬ OneChain sha256Of id twoJobs beside := by
  refine ⟨?_, by decide +kernel, fun h => ?_⟩
  · unfold Complete
    decide +kernel
  · exact absurd (h.linked 6) (by decide +kernel)

end StarStats.Server.Audit
