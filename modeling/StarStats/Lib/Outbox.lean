import Mathlib.Data.Set.Insert
import Mathlib.Logic.Relation

/-! # Outboxes with a cursor

Items get ascending ids and may be deleted. A sender reads the items above a cursor in batches that
leave none out, and once a batch is acknowledged it may move the cursor to the highest id of it.

The steps of any number of senders may interleave in any order with inserts and deletions, and a
sender that fails or stops just takes no further step: the state keeps what has been read and what
has been acknowledged, not who is under way. Still the cursor never passes an item for nothing
(`covered_of_reachable`): an item at or below it was in a batch that moved the cursor, or was
deleted before such a batch was read. -/

namespace StarStats.Lib.Outbox

variable {ι : Type} [LinearOrder ι]

/-- A batch: the cursor it was read above, the ids in it, those deleted when it was read, and its
highest id. -/
structure Batch (ι : Type) where
  after : ι
  sent : Set ι
  gone : Set ι
  upto : ι

/-- The rows, the cursor and what the senders hold. -/
structure State (ι : Type) where
  inserted : Set ι
  deleted : Set ι
  cursor : ι
  /-- The cursors that were read. -/
  opened : Set ι
  /-- The batches that were read. -/
  read : Set (Batch ι)
  acknowledged : Set (Batch ι)
  /-- The batches that moved the cursor. -/
  advanced : Set (Batch ι)

/-- Nothing inserted. -/
def init (start : ι) : State ι := ⟨∅, ∅, start, ∅, ∅, ∅, ∅⟩

/-- The rows that are still there. -/
def State.live (o : State ι) : Set ι := o.inserted \ o.deleted

/-- A batch holds the live items above a cursor up to its highest id. -/
def State.Reads (o : State ι) (b : Batch ι) : Prop :=
  b.after ∈ o.opened ∧ b.sent ⊆ o.live ∧ b.upto ∈ b.sent ∧ b.gone = o.deleted ∧
    ∀ i ∈ o.live, b.after < i → i ≤ b.upto → i ∈ b.sent

/-- One thing that can happen. -/
inductive Step (start : ι) : State ι → State ι → Prop
  | stutter (o) : Step start o o
  | insert {o i} : start < i → (∀ j ∈ o.inserted, j < i) →
      Step start o { o with inserted := insert i o.inserted }
  | delete {o i} : i ∈ o.live → Step start o { o with deleted := insert i o.deleted }
  | openCursor (o) : Step start o { o with opened := insert o.cursor o.opened }
  | read {o b} : o.Reads b → Step start o { o with read := insert b o.read }
  | acknowledge {o b} : b ∈ o.read → Step start o { o with acknowledged := insert b o.acknowledged }
  | advance {o b} : b ∈ o.acknowledged →
      Step start o { o with cursor := b.upto, advanced := insert b o.advanced }

/-- What can be reached from the empty outbox. -/
abbrev Reachable (start : ι) : State ι → Prop := Relation.ReflTransGen (Step start) (init start)

/-! ### What a position covers -/

/-- An item was passed for a reason: it was in a batch that moved the cursor, or deleted before such
a batch was read. -/
def State.Passed (o : State ι) (i : ι) : Prop :=
  ∃ b ∈ o.advanced, i ∈ b.sent ∨ (i ∈ b.gone ∧ i ≤ b.upto)

/-- All items up to a position were passed for a reason, and later items will lie above it. -/
structure Covered (start : ι) (o : State ι) (c : ι) : Prop where
  passed : ∀ i ∈ o.inserted, i ≤ c → o.Passed i
  bounded : c ≤ start ∨ ∃ j ∈ o.inserted, c ≤ j

/-- Once the batch has moved the cursor, all items up to its highest id are passed. -/
structure Complete (start : ι) (o : State ι) (b : Batch ι) : Prop where
  after : Covered start o b.after
  full : ∀ i ∈ o.inserted, b.after < i → i ≤ b.upto → i ∈ b.sent ∨ i ∈ b.gone
  sent : b.sent ⊆ o.inserted
  upto : b.upto ∈ b.sent
  gone : b.gone ⊆ o.deleted

/-- What every step keeps. -/
structure Inv (start : ι) (o : State ι) : Prop where
  deleted : o.deleted ⊆ o.inserted
  cursor : Covered start o o.cursor
  opened : ∀ c ∈ o.opened, Covered start o c
  read : ∀ b ∈ o.read, Complete start o b
  acknowledged : o.acknowledged ⊆ o.read
  advanced : o.advanced ⊆ o.acknowledged

section Frame
variable {start c : ι} {o o' : State ι} {b : Batch ι}

/-- An insert above all others, a deletion and a further advance keep what is covered. -/
theorem Covered.mono (h : Covered start o c) (hadv : o.advanced ⊆ o'.advanced)
    (hins : o.inserted ⊆ o'.inserted)
    (hnew : ∀ i ∈ o'.inserted, i ∉ o.inserted → start < i ∧ ∀ j ∈ o.inserted, j < i) :
    Covered start o' c := by
  refine ⟨fun i hi hic => ?_, h.bounded.imp id fun ⟨j, hj, hcj⟩ => ⟨j, hins hj, hcj⟩⟩
  by_cases hold : i ∈ o.inserted
  · obtain ⟨b, hb, hib⟩ := h.passed i hold hic
    exact ⟨b, hadv hb, hib⟩
  · obtain ⟨hstart, habove⟩ := hnew i hi hold
    rcases h.bounded with hc | ⟨j, hj, hcj⟩
    · exact absurd (lt_of_lt_of_le hstart (hic.trans hc)) (lt_irrefl _)
    · exact absurd (lt_of_lt_of_le (habove j hj) (hic.trans hcj)) (lt_irrefl _)

theorem Complete.mono (h : Complete start o b) (hadv : o.advanced ⊆ o'.advanced)
    (hins : o.inserted ⊆ o'.inserted) (hdel : o.deleted ⊆ o'.deleted)
    (hnew : ∀ i ∈ o'.inserted, i ∉ o.inserted → start < i ∧ ∀ j ∈ o.inserted, j < i) :
    Complete start o' b := by
  refine ⟨h.after.mono hadv hins hnew, fun i hi hlo hhi => ?_, h.sent.trans hins, h.upto,
    h.gone.trans hdel⟩
  by_cases hold : i ∈ o.inserted
  · exact h.full i hold hlo hhi
  · have habove := (hnew i hi hold).2 b.upto (h.sent h.upto)
    exact absurd (lt_of_lt_of_le habove hhi) (lt_irrefl _)

theorem State.Reads.complete (h : o.Reads b) (hinv : Inv start o) : Complete start o b := by
  obtain ⟨hopen, hsent, hupto, hgone, hfull⟩ := h
  refine ⟨hinv.opened _ hopen, fun i hi hlo hhi => ?_, fun i hi => (hsent hi).1, hupto, hgone.le⟩
  by_cases hdel : i ∈ o.deleted
  · exact Or.inr (hgone ▸ hdel)
  · exact Or.inl (hfull i ⟨hi, hdel⟩ hlo hhi)

theorem Complete.covered (h : Complete start o b) (hadv : o.advanced ⊆ o'.advanced)
    (hins : o'.inserted = o.inserted) (hb : b ∈ o'.advanced) : Covered start o' b.upto := by
  refine ⟨fun i hi hiu => ?_, Or.inr ⟨b.upto, hins ▸ h.sent h.upto, le_rfl⟩⟩
  rw [hins] at hi
  by_cases hlo : i ≤ b.after
  · obtain ⟨a, ha, hia⟩ := h.after.passed i hi hlo
    exact ⟨a, hadv ha, hia⟩
  · exact ⟨b, hb, (h.full i hi (not_le.mp hlo) hiu).imp_right fun hg => ⟨hg, hiu⟩⟩

end Frame

/-! ### Any order of steps -/

section Runs
variable {start : ι} {o o' : State ι}

theorem inv_init : Inv start (init start) where
  deleted := le_rfl
  cursor := ⟨fun _ hi => hi.elim, Or.inl le_rfl⟩
  opened _ h := h.elim
  read _ h := h.elim
  acknowledged := le_rfl
  advanced := le_rfl

/-- Inserted items, deleted ones and moves of the cursor only add up, and new items lie above. -/
theorem Step.mono (h : Step start o o') : o.advanced ⊆ o'.advanced ∧ o.inserted ⊆ o'.inserted ∧
    o.deleted ⊆ o'.deleted ∧
    ∀ i ∈ o'.inserted, i ∉ o.inserted → start < i ∧ ∀ j ∈ o.inserted, j < i := by
  cases h with
  | insert hstart habove =>
    refine ⟨le_rfl, Set.subset_insert _ _, le_rfl, fun i hi hold => ?_⟩
    rcases hi with rfl | hi
    · exact ⟨hstart, habove⟩
    · exact absurd hi hold
  | delete => exact ⟨le_rfl, le_rfl, Set.subset_insert _ _, fun _ hi hold => absurd hi hold⟩
  | advance => exact ⟨Set.subset_insert _ _, le_rfl, le_rfl, fun _ hi hold => absurd hi hold⟩
  | _ => exact ⟨le_rfl, le_rfl, le_rfl, fun _ hi hold => absurd hi hold⟩

theorem inv_step (h : Step start o o') (hinv : Inv start o) : Inv start o' := by
  obtain ⟨hadv, hins, hdel, hnew⟩ := h.mono
  have hcov : ∀ {c}, Covered start o c → Covered start o' c := fun hc => hc.mono hadv hins hnew
  have hcom : ∀ {b}, Complete start o b → Complete start o' b := fun hb =>
    hb.mono hadv hins hdel hnew
  have hopened : ∀ c ∈ o.opened, Covered start o' c := fun c hc => hcov (hinv.opened c hc)
  have hread : ∀ b ∈ o.read, Complete start o' b := fun b hb => hcom (hinv.read b hb)
  cases h with
  | stutter => exact hinv
  | insert hstart habove =>
    exact ⟨hinv.deleted.trans hins, hcov hinv.cursor, hopened, hread, hinv.acknowledged,
      hinv.advanced⟩
  | delete hlive =>
    exact ⟨Set.insert_subset hlive.1 hinv.deleted, hcov hinv.cursor, hopened, hread,
      hinv.acknowledged, hinv.advanced⟩
  | openCursor =>
    refine ⟨hinv.deleted, hcov hinv.cursor, ?_, hread, hinv.acknowledged, hinv.advanced⟩
    rintro c (rfl | hc)
    · exact hcov hinv.cursor
    · exact hopened c hc
  | read hreads =>
    refine ⟨hinv.deleted, hcov hinv.cursor, hopened, ?_,
      hinv.acknowledged.trans (Set.subset_insert _ _), hinv.advanced⟩
    rintro b (rfl | hb)
    · exact hcom (hreads.complete hinv)
    · exact hread b hb
  | acknowledge hb =>
    exact ⟨hinv.deleted, hcov hinv.cursor, hopened, hread, Set.insert_subset hb hinv.acknowledged,
      hinv.advanced.trans (Set.subset_insert _ _)⟩
  | advance hb =>
    have hcomplete := hinv.read _ (hinv.acknowledged hb)
    exact ⟨hinv.deleted, hcomplete.covered hadv rfl (Set.mem_insert _ _), hopened, hread,
      hinv.acknowledged, Set.insert_subset hb hinv.advanced⟩

theorem inv_of_reachable (h : Reachable start o) : Inv start o := by
  induction h with
  | refl => exact inv_init
  | tail _ hstep ih => exact inv_step hstep ih

/-- **The cursor passes no item for nothing.** -/
theorem passed_of_reachable (h : Reachable start o) {i : ι} (hi : i ∈ o.inserted)
    (hc : i ≤ o.cursor) : o.Passed i :=
  (inv_of_reachable h).cursor.passed i hi hc

/-- A live item at or below the cursor was in a batch that moved the cursor. -/
theorem sent_of_live (h : Reachable start o) {i : ι} (hi : i ∈ o.live) (hc : i ≤ o.cursor) :
    ∃ b ∈ o.advanced, i ∈ b.sent := by
  have hinv := inv_of_reachable h
  obtain ⟨b, hb, hib⟩ := hinv.cursor.passed i hi.1 hc
  have hcomplete := hinv.read b (hinv.acknowledged (hinv.advanced hb))
  rcases hib with hs | ⟨hg, -⟩
  · exact ⟨b, hb, hs⟩
  · exact absurd (hcomplete.gone hg) hi.2

end Runs

end StarStats.Lib.Outbox
