import StarStats.Client.ReviewQueue
import StarStats.Server.ParserSubmissions

/-! # Occurrences counted on the server

An install counts how often it has captured a shape; a submission carries that count, and the server adds
it to what it has. So the total is right after the first row of a shape that is committed, and counts the
same captures again with every further one. It never exceeds the captures in the runs in which no shape
is committed twice (`neverOvercounts_of_sentOnce`). -/

namespace StarStats.Tray.Occurrences

open StarStats.Lib.Tables StarStats.Lib.Runs
open StarStats.Core.Crates StarStats.Core.UnknownLines
open StarStats.Client.Store StarStats.Client.Store.Storage StarStats.Client.UnknownCache
open StarStats.Client.ReviewQueue (listed)
open StarStats.Tray.Review StarStats.Server.ParserSubmissions

variable {υ : Type}

/-! ### An install and the server -/

/-- A submission on its way; `captured` are the captures before it was sent. -/
structure Request (υ : Type) where
  batch : List (ParserSubmission υ)
  captured : List String
  progress : Progress υ

/-- The store of the install, the hashes of the shapes captured so far, the submissions sent so far, and
the table of the server. -/
structure World (υ : Type) where
  storage : Storage
  captured : List String
  requests : List (Request υ)
  submissions : Submissions υ

/-- A line is captured, a shape is dismissed, rows of the review pane are sent, the server handles one of
the submissions for one turn, or its answer arrives, when each shape may fail to be stamped. -/
inductive Action (υ : Type) where
  | capture (c : Captured)
  | dismiss (shapeHash : String)
  | send (payloads : List (SubmitPayload υ))
  | turn (i : ℕ) (fault : Bool)
  | receive (i : ℕ) (fails : String → Bool) (now : String)

section Machine
variable (x : Externals) (bytes : ParserSubmission υ → ℕ) (anonId : String)

/-- What `submit_unknown_lines` sends for the rows of the pane. -/
def batchOf (st : Storage) (payloads : List (SubmitPayload υ)) : List (ParserSubmission υ) :=
  (payloads.filterMap (onSubmit (listed st))).map fun p => { p with clientAnonId := anonId }

/-- After a 202 the shapes sent are stamped, as far as that goes. -/
def markAll (st : Storage) (fails : String → Bool) (now : String)
    (batch : List (ParserSubmission υ)) : Storage :=
  batch.foldl (fun st p => if fails p.shapeHash then st else st.markSubmitted p.shapeHash now) st

def step (w : World υ) : Action υ → World υ
  | .capture c =>
    { w with storage := w.storage.cacheUnknownLine (c.record x), captured := w.captured ++ [shapeHash x c.line] }
  | .dismiss k => { w with storage := w.storage.dismissUnknownLine k }
  | .send payloads =>
    let batch := batchOf anonId w.storage payloads
    if batch.isEmpty then w else { w with requests := w.requests ++ [⟨batch, w.captured, .arrived⟩] }
  | .turn i fault =>
    match w.requests[i]? with
    | none => w
    | some r =>
      let (submissions, progress) := Server.ParserSubmissions.turn bytes w.submissions r.batch fault r.progress
      { w with requests := w.requests.set i { r with progress := progress }, submissions := submissions }
  | .receive i fails now =>
    match w.requests[i]? with
    | some ⟨batch, _, .answered (.taken ..)⟩ => { w with storage := markAll w.storage fails now batch }
    | _ => w

/-- Nothing is captured, and nothing has been sent. -/
def start (noiseList : List String) (now : String) : World υ := ⟨.fresh noiseList now, [], [], Table.empty⟩

def run (w : World υ) (as : List (Action υ)) : World υ := as.foldl (step x bytes anonId) w

end Machine

/-! ### Statement -/

/-- How often the install has captured a shape. -/
def World.captures (w : World υ) (k : String) : ℕ := w.captured.count k

/-- The submission was answered by a 202. -/
def Taken (w : World υ) (i : ℕ) (r : Request υ) : Prop :=
  w.requests[i]? = some r ∧ ∃ accepted deduped ids, r.progress = .answered (.taken accepted deduped ids)

section Statement
variable (x : Externals) (bytes : ParserSubmission υ → ℕ) (anonId : String)

/-- **Totals never overcount**: no total is more than the captures, and right after a 202 those of the
shapes sent are the captures as they were when it was sent. -/
structure NeverOvercounts (w : World υ) (as : List (Action υ)) : Prop where
  atMost : ∀ n k total, totalOf (run x bytes anonId w (as.take n)).submissions (k, anonId) = some total →
    total ≤ (run x bytes anonId w (as.take n)).captures k
  exact : ∀ n i r, ¬ (∃ r', Taken (run x bytes anonId w (as.take n)) i r') →
    Taken (run x bytes anonId w (as.take (n + 1))) i r → ∀ p ∈ r.batch,
      totalOf (run x bytes anonId w (as.take (n + 1))).submissions (p.shapeHash, anonId) =
        some (r.captured.count p.shapeHash : ℤ)

/-- The row that an action is about to commit, with the submission that it is of. -/
def nextRow (w : World υ) : Action υ → Option (Request υ × ParserSubmission υ)
  | .turn i false =>
    w.requests[i]?.bind fun r =>
      match r.progress with
      | .writing (p :: _) _ _ _ => some (r, p)
      | _ => none
  | _ => none

/-- A row that is committed is the first of its shape, and the captures it stands for fit the column. -/
def SentOnce (w : World υ) (a : Action υ) : Prop :=
  ∀ next ∈ nextRow w a, totalOf w.submissions (next.2.shapeHash, anonId) = none ∧
    next.1.captured.count next.2.shapeHash < 2 ^ 31

instance (w : World υ) (a : Action υ) : Decidable (SentOnce anonId w a) :=
  inferInstanceAs (Decidable (∀ next ∈ nextRow w a, _ ∧ _))

end Statement

/-! ### Counts of the install -/

/-- The rows count the captures of their shapes. -/
structure Counts (st : Storage) (captured : List String) : Prop where
  count : ∀ r ∈ st.unknownLines.contents, r.occurrenceCount = captured.count r.key
  cached : ∀ k ∈ captured, k ∈ st.unknownLines.keys

section Counts
variable {x : Externals} {st : Storage} {captured : List String}

theorem Counts.capture (h : Counts st captured) (c : Captured) :
    Counts (st.cacheUnknownLine (c.record x)) (captured ++ [shapeHash x c.line]) := by
  have hkey : (newUnknownLine (c.record x)).key = shapeHash x c.line := rfl
  constructor
  · intro r hr
    unfold cacheUnknownLine at hr
    rw [List.count_append]
    rcases Table.mem_contents_upsert.mp hr with ⟨hold, hne⟩ | ⟨r₀, hold, hk, rfl⟩ | ⟨hfree, rfl⟩
    · have hzero : [shapeHash x c.line].count r.key = 0 :=
        List.count_eq_zero.mpr fun hmem => hne (List.mem_singleton.mp hmem)
      rw [h.count r hold, hzero]
      omega
    · have hone : [shapeHash x c.line].count r₀.key = 1 := by rw [hk, hkey]; simp
      show r₀.occurrenceCount + 1 = captured.count r₀.key + [shapeHash x c.line].count r₀.key
      rw [h.count r₀ hold, hone]
    · have hzero : captured.count (shapeHash x c.line) = 0 :=
        List.count_eq_zero.mpr fun hmem => hfree (h.cached _ hmem)
      rw [hkey, hzero]
      simp [newUnknownLine, Captured.record, StarStats.Core.UnknownLines.capture]
  · intro k hk
    unfold cacheUnknownLine
    rw [Table.mem_keys_upsert]
    rcases List.mem_append.mp hk with hold | hnew
    · exact Or.inl (h.cached k hold)
    · exact Or.inr (List.mem_singleton.mp hnew)

theorem Counts.updateKey (h : Counts st captured) {k : String} {f : UnknownLineRow → UnknownLineRow}
    (hf : ∀ r, (f r).key = r.key) (hcount : ∀ r, (f r).occurrenceCount = r.occurrenceCount) :
    Counts { st with unknownLines := st.unknownLines.updateKey k f hf } captured := by
  constructor
  · intro r hr
    rw [Table.contents_updateKey] at hr
    obtain ⟨r₀, hold, rfl⟩ := List.mem_map.mp hr
    split_ifs
    · rw [hcount, hf]
      exact h.count r₀ hold
    · exact h.count r₀ hold
  · intro k' hk'
    obtain ⟨row, hrow, hkey⟩ := Table.mem_keys.mp (h.cached k' hk')
    have hmem : row.2 ∈ st.unknownLines.contents := Table.mem_contents.mpr ⟨row, hrow, rfl⟩
    have hnew := List.mem_map_of_mem (f := fun r => if r.key = k then f r else r) hmem
    rw [← Table.contents_updateKey st.unknownLines k f hf] at hnew
    obtain ⟨row', hrow', heq⟩ := Table.mem_contents.mp hnew
    refine Table.mem_keys.mpr ⟨row', hrow', ?_⟩
    rw [heq, ← hkey]
    split_ifs
    · exact hf row.2
    · rfl

theorem Counts.markAll (fails : String → Bool) (now : String) (batch : List (ParserSubmission υ)) :
    ∀ {st : Storage}, Counts st captured → Counts (markAll st fails now batch) captured := by
  unfold Occurrences.markAll
  induction batch with
  | nil => exact fun h => h
  | cons p batch ih =>
    intro st h
    rw [List.foldl_cons]
    refine ih ?_
    split_ifs
    · exact h
    · unfold markSubmitted
      exact h.updateKey _ fun r => by rfl

theorem Counts.sent (h : Counts st captured) {anonId : String} {payloads : List (SubmitPayload υ)}
    {p : ParserSubmission υ} (hp : p ∈ batchOf anonId st payloads) :
    p.clientAnonId = anonId ∧ p.occurrenceCount = captured.count p.shapeHash % 2 ^ 32 := by
  unfold batchOf at hp
  obtain ⟨q, hq, rfl⟩ := List.mem_map.mp hp
  obtain ⟨payload, -, hsubmit⟩ := List.mem_filterMap.mp hq
  refine ⟨rfl, ?_⟩
  unfold onSubmit at hsubmit
  obtain ⟨u, hfind, rfl⟩ := Option.map_eq_some_iff.mp hsubmit
  have hshape : u.shapeHash = payload.shapeHash := by simpa using List.find?_some hfind
  obtain ⟨r, hr, -, -, rfl⟩ := mem_listUnknownLines.mp (List.mem_of_find?_eq_some hfind)
  show r.occurrenceCount % 2 ^ 32 = captured.count payload.shapeHash % 2 ^ 32
  rw [h.count r hr, ← hshape]
  rfl

end Counts

/-! ### Invariant -/

/-- The total of a shape is that of the captures when it was sent. -/
def TotalIs (t : Submissions υ) (anonId : String) (captured : List String) (p : ParserSubmission υ) : Prop :=
  totalOf t (p.shapeHash, anonId) = some (captured.count p.shapeHash : ℤ)

/-- As far as a submission is handled, the totals are right. -/
def Handled (t : Submissions υ) (anonId : String) (r : Request υ) : Progress υ → Prop
  | .writing rest _ _ _ => ∃ done, r.batch = done ++ rest ∧ ∀ p ∈ done, TotalIs t anonId r.captured p
  | .answered (.taken ..) => ∀ p ∈ r.batch, TotalIs t anonId r.captured p
  | .arrived | .answered (.error ..) => True

/-- A submission that was sent. -/
structure Sound (w : World υ) (anonId : String) (r : Request υ) : Prop where
  before : ∀ k, r.captured.count k ≤ w.captures k
  sent : ∀ p ∈ r.batch, p.clientAnonId = anonId ∧
    p.occurrenceCount = r.captured.count p.shapeHash % 2 ^ 32
  handled : Handled w.submissions anonId r r.progress

/-- What the theorem carries along a run. -/
structure Inv (anonId : String) (w : World υ) : Prop where
  counts : Counts w.storage w.captured
  requests : ∀ r ∈ w.requests, Sound w anonId r
  totals : ∀ k total, totalOf w.submissions (k, anonId) = some total → total ≤ w.captures k

section Steps
variable {x : Externals} {bytes : ParserSubmission υ → ℕ} {anonId : String} {w : World υ}

theorem inv_start (noiseList : List String) (now : String) : Inv anonId (start (υ := υ) noiseList now) := by
  refine ⟨⟨fun r hr => ?_, fun k hk => ?_⟩, fun r hr => ?_, fun k total h => ?_⟩
  · simp [start, Storage.fresh, Table.contents, Table.empty] at hr
  · cases hk
  · cases hr
  · simp [start, totalOf, Table.find?, Table.empty] at h

/-- The totals that are there stay. -/
theorem Handled.mono {t t' : Submissions υ} {r : Request υ} {progress : Progress υ}
    (h : Handled t anonId r progress)
    (hstay : ∀ k n, totalOf t (k, anonId) = some n → totalOf t' (k, anonId) = some n) :
    Handled t' anonId r progress := by
  unfold Handled at h ⊢
  split at h
  · obtain ⟨done, hbatch, hdone⟩ := h
    exact ⟨done, hbatch, fun p hp => hstay _ _ (hdone p hp)⟩
  · exact fun p hp => hstay _ _ (h p hp)
  · trivial
  · trivial

/-- A row that is the first of its shape. -/
theorem totalOf_first {t t' : Submissions υ} {p : ParserSubmission υ} {key : String × String}
    (h : upsertRow t p = some t') (hfirst : totalOf t (newRow p).key = none)
    (hsmall : p.occurrenceCount < 2 ^ 31) :
    totalOf t' key = if key = (newRow p).key then some (p.occurrenceCount : ℤ) else totalOf t key := by
  rw [totalOf_upsertRow h]
  split_ifs with hkey
  · rw [hkey, hfirst, asI32_eq hsmall]
    simp
  · rfl

theorem Inv.capture (h : Inv anonId w) (c : Captured) : Inv anonId (step x bytes anonId w (.capture c)) := by
  have hgrow : ∀ k, w.captures k ≤ (step x bytes anonId w (.capture c)).captures k := by
    intro k
    show w.captured.count k ≤ (w.captured ++ [shapeHash x c.line]).count k
    rw [List.count_append]
    omega
  refine ⟨h.counts.capture c, fun r hr => ?_, fun k total htotal => ?_⟩
  · have hr' := h.requests r hr
    exact ⟨fun k => (hr'.before k).trans (hgrow k), hr'.sent, hr'.handled⟩
  · have hle := h.totals k total htotal
    have hcast : (w.captures k : ℤ) ≤ (step x bytes anonId w (.capture c)).captures k := by
      exact_mod_cast hgrow k
    omega

theorem Inv.storage (h : Inv anonId w) {st : Storage} (hst : Counts st w.captured) :
    Inv anonId { w with storage := st } :=
  ⟨hst, fun r hr => ⟨(h.requests r hr).before, (h.requests r hr).sent, (h.requests r hr).handled⟩, h.totals⟩

theorem Inv.send (h : Inv anonId w) (payloads : List (SubmitPayload υ)) :
    Inv anonId (step x bytes anonId w (.send payloads)) := by
  unfold step
  simp only
  split_ifs
  · exact h
  · refine ⟨h.counts, fun r hr => ?_, h.totals⟩
    rcases List.mem_append.mp hr with hold | hnew
    · exact ⟨(h.requests r hold).before, (h.requests r hold).sent, (h.requests r hold).handled⟩
    · obtain rfl := List.mem_singleton.mp hnew
      exact ⟨fun k => le_refl _, fun p hp => h.counts.sent hp, trivial⟩

/-- The progress of a submission is set; the others stay as they are. -/
theorem Inv.setProgress (h : Inv anonId w) {i : ℕ} {r : Request υ} (hi : w.requests[i]? = some r)
    {t : Submissions υ} {progress : Progress υ}
    (hstay : ∀ k n, totalOf w.submissions (k, anonId) = some n → totalOf t (k, anonId) = some n)
    (htotals : ∀ k n, totalOf t (k, anonId) = some n → n ≤ w.captures k)
    (hhandled : Handled t anonId r progress) :
    Inv anonId { w with
      requests := w.requests.set i { r with progress := progress }, submissions := t } := by
  have hr := h.requests r (List.mem_of_getElem? hi)
  refine ⟨h.counts, fun q hq => ?_, htotals⟩
  rcases List.mem_or_eq_of_mem_set hq with hold | rfl
  · have hq' := h.requests q hold
    exact ⟨hq'.before, hq'.sent, hq'.handled.mono hstay⟩
  · exact ⟨hr.before, hr.sent, hhandled⟩

/-- A row is committed that is the first of its shape. -/
theorem Inv.commit (h : Inv anonId w) {i : ℕ} {r : Request υ} (hi : w.requests[i]? = some r)
    {done rest : List (ParserSubmission υ)} {p : ParserSubmission υ} (hbatch : r.batch = done ++ p :: rest)
    (hdone : ∀ q ∈ done, TotalIs w.submissions anonId r.captured q)
    (hnone : totalOf w.submissions (p.shapeHash, anonId) = none)
    (hsmall : r.captured.count p.shapeHash < 2 ^ 31) {t : Submissions υ}
    (hrow : upsertRow w.submissions p = some t) (accepted deduped : ℕ) (ids : List String) :
    Inv anonId { w with
      requests := w.requests.set i { r with progress := .writing rest accepted deduped ids },
      submissions := t } := by
  have hr := h.requests r (List.mem_of_getElem? hi)
  have hp : p ∈ r.batch := by rw [hbatch]; simp
  obtain ⟨hanon, hcount⟩ := hr.sent p hp
  have hkey : (newRow p).key = (p.shapeHash, anonId) := by
    show (p.shapeHash, p.clientAnonId) = _
    rw [hanon]
  have hsent : p.occurrenceCount = r.captured.count p.shapeHash := by
    rw [hcount]
    exact Nat.mod_eq_of_lt (by omega)
  have hfirst : totalOf w.submissions (newRow p).key = none := by rw [hkey, hnone]
  have htotal := fun key => @totalOf_first υ _ _ _ key hrow hfirst (by omega)
  have hstay : ∀ k n, totalOf w.submissions (k, anonId) = some n → totalOf t (k, anonId) = some n := by
    intro k n hkn
    rw [htotal, if_neg]
    · exact hkn
    · intro heq
      rw [heq, hfirst] at hkn
      cases hkn
  refine h.setProgress hi hstay (fun k n hkn => ?_) ⟨done ++ [p], by rw [hbatch]; simp, fun q hq => ?_⟩
  · rw [htotal] at hkn
    split_ifs at hkn with heq
    · obtain rfl := Option.some.inj hkn
      rw [hkey] at heq
      obtain rfl : k = p.shapeHash := (Prod.mk.inj heq).1
      have hbefore := hr.before p.shapeHash
      exact_mod_cast hsent ▸ hbefore
    · exact h.totals k n hkn
  · rcases List.mem_append.mp hq with hold | hnew
    · exact hstay _ _ (hdone q hold)
    · obtain rfl := List.mem_singleton.mp hnew
      unfold TotalIs
      rw [htotal, if_pos hkey.symm, hsent]

theorem handled_refusal {t : Submissions υ} {r : Request υ} {reply : Reply}
    (h : refusal bytes r.batch = some reply) : Handled t anonId r (.answered reply) := by
  unfold refusal at h
  split_ifs at h
  · obtain rfl := Option.some.inj h
    trivial
  · obtain rfl := Option.some.inj h
    trivial
  · obtain ⟨code, -, rfl⟩ := Option.map_eq_some_iff.mp h
    trivial

/-- **A turn of the server** adds a total where there was none, for the captures when it was sent. -/
theorem Inv.turn (h : Inv anonId w) {i : ℕ} {fault : Bool} (hcond : SentOnce anonId w (.turn i fault)) :
    Inv anonId (step x bytes anonId w (.turn i fault)) := by
  unfold step
  simp only
  cases hi : w.requests[i]? with
  | none => exact h
  | some r =>
    have hquiet := fun progress => @Inv.setProgress υ anonId w h i r hi w.submissions progress
      (fun _ _ h => h) h.totals
    have hhandled := (h.requests r (List.mem_of_getElem? hi)).handled
    simp only
    unfold Server.ParserSubmissions.turn
    cases hprogress : r.progress with
    | arrived =>
      simp only
      cases hrefusal : refusal bytes r.batch with
      | some reply => exact hquiet _ (handled_refusal hrefusal)
      | none => exact hquiet _ ⟨[], rfl, nofun⟩
    | answered reply =>
      rw [hprogress] at hhandled
      exact hquiet _ hhandled
    | writing rest accepted deduped ids =>
      rw [hprogress] at hhandled
      obtain ⟨done, hbatch, hdone⟩ := hhandled
      cases rest with
      | nil =>
        refine hquiet _ fun p hp => hdone p ?_
        rwa [hbatch, List.append_nil] at hp
      | cons p rest =>
        simp only
        cases hrow : (if fault = true then none else upsertRow w.submissions p) with
        | none => exact hquiet _ trivial
        | some t =>
          obtain rfl : fault = false := by
            by_contra hfault
            rw [if_pos (by simpa using hfault)] at hrow
            cases hrow
          rw [if_neg (by simp)] at hrow
          obtain ⟨hnone, hsmall⟩ := hcond (r, p) (by simp [nextRow, hi, hprogress])
          simp only
          split_ifs
          · exact h.commit hi hbatch hdone hnone hsmall hrow _ _ _
          · exact h.commit hi hbatch hdone hnone hsmall hrow _ _ _

theorem Inv.step {a : Action υ} (h : Inv anonId w) (ha : SentOnce anonId w a) :
    Inv anonId (step x bytes anonId w a) := by
  cases a with
  | capture c => exact h.capture c
  | dismiss k =>
    refine h.storage ?_
    unfold dismissUnknownLine
    exact h.counts.updateKey _ fun r => by rfl
  | send payloads => exact h.send payloads
  | turn i fault => exact h.turn ha
  | receive i fails now =>
    unfold Occurrences.step
    simp only
    split
    · exact h.storage (h.counts.markAll fails now _)
    · exact h

end Steps

/-! ### Runs -/

section Runs
variable {x : Externals} {bytes : ParserSubmission υ → ℕ} {anonId : String}

/-- **A run in which no shape is committed twice never overcounts.** -/
theorem neverOvercounts_of_sentOnce {noiseList : List String} {now : String} {as : List (Action υ)}
    (h : ∀ n a, as[n]? = some a →
      SentOnce anonId (run x bytes anonId (start noiseList now) (as.take n)) a) :
    NeverOvercounts x bytes anonId (start noiseList now) as := by
  have hinv : ∀ n, Inv anonId (run x bytes anonId (start noiseList now) (as.take n)) :=
    invariant_take_of (inv_start noiseList now) (fun _ _ hw ha => hw.step ha) h
  refine ⟨fun n k total => (hinv n).totals k total, fun n i r _ htaken p hp => ?_⟩
  obtain ⟨hi, accepted, deduped, ids, hprogress⟩ := htaken
  have hhandled := ((hinv (n + 1)).requests r (List.mem_of_getElem? hi)).handled
  rw [hprogress] at hhandled
  exact hhandled p hp

end Runs

/-! ### A line with a tag -/

def tagged : Captured := ⟨"a", "<Tag> [12345] at 2024-05", some "Tag", CaptureContext.default, ""⟩

def submitTagged : Action Char :=
  .send [⟨shapeHash .std tagged.line, tagged.line.toList, none, none, fun _ => false⟩]

/-- It is captured twice, and submitted. -/
def submittedOnce : List (Action Char) :=
  [.capture tagged, .capture tagged, submitTagged, .turn 0 false, .turn 0 false, .turn 0 false,
    .receive 0 (fun _ => false) "now"]

theorem neverOvercounts_submittedOnce :
    NeverOvercounts .std payloadBytes "anon" (start [] "") submittedOnce := by
  refine neverOvercounts_of_sentOnce fun n a ha => ?_
  have hall : ∀ m ∈ List.range 7, ∀ b ∈ submittedOnce[m]?,
      SentOnce "anon" (run .std payloadBytes "anon" (start [] "") (submittedOnce.take m)) b := by
    decide +kernel
  have hn : n < 7 := (List.getElem?_eq_some_iff.mp ha).1
  exact hall n (List.mem_range.mpr hn) a ha

/-- It is captured once; as it is listed still, it is submitted again. -/
def submittedTwice : List (Action Char) :=
  [.capture tagged, submitTagged, .turn 0 false, .turn 0 false, .turn 0 false,
    .receive 0 (fun _ => false) "now", submitTagged, .turn 1 false, .turn 1 false, .turn 1 false]

theorem not_neverOvercounts_submittedTwice :
    ¬ NeverOvercounts .std payloadBytes "anon" (start [] "") submittedTwice := by
  intro h
  have hmost := h.atMost 9 (shapeHash .std tagged.line) 2 (by decide +kernel)
  exact absurd hmost (by decide +kernel)

end StarStats.Tray.Occurrences
