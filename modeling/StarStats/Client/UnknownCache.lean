import StarStats.Client.Store

/-! # The cache of unknown lines

The store keeps one row for each shape of unknown line. After any sequence of captures, that row is
made of the captures of its shape and nothing else (`Describes`, `describes_cacheAll`): the record of
the first, the last five lines, how many there were, and when the last one was.

So what is listed pairs the line of the last capture with the tokens of the first.
`allFit_iff` says for which sequences of captures the two always belong together. -/

namespace StarStats.Client.UnknownCache

open StarStats.Lib.Tables StarStats.Lib.Text
open StarStats.Core.Crates StarStats.Core.UnknownLines
open StarStats.Client.Store StarStats.Client.Store.Storage

/-- A line and what it is captured with. -/
structure Captured where
  id : String
  line : String
  shellTag : Option String
  ctx : CaptureContext
  now : String

/-- The record of a captured line. -/
def Captured.record (x : Externals) (c : Captured) : UnknownLine :=
  capture x c.id c.line c.shellTag c.ctx c.now

/-- The sensitive tokens of the line, for the player it was captured for. -/
def Captured.tokens (x : Externals) (c : Captured) : List PiiToken :=
  detectPii x c.line c.ctx.ownHandle c.ctx.knownFriends

/-- Lines captured and cached, one after the other. -/
def cacheAll (x : Externals) (st : Storage) (cs : List Captured) : Storage :=
  cs.foldl (fun st c => st.cacheUnknownLine (c.record x)) st

/-- The captures of one shape. -/
def ofShape (x : Externals) (cs : List Captured) (k : String) : List Captured :=
  cs.filter fun c => shapeHash x c.line = k

/-! ### Statement -/

/-- A listed line shows the last line of its shape, with the tokens of that very line; each of them
lies in the line and is what it says. -/
def Fits (x : Externals) (cs : List Captured) (u : UnknownLine) : Prop :=
  ∃ c, (ofShape x cs u.shapeHash).getLast? = some c ∧ u.rawLine = c.line ∧
    u.detectedPii = c.tokens x ∧
    ∀ t ∈ u.detectedPii, Sensitive x u.rawLine c.ctx.ownHandle c.ctx.knownFriends t

/-- Whatever is listed at any time fits. -/
def AllFit (x : Externals) (st : Storage) (cs : List Captured) : Prop :=
  ∀ past, past <+: cs → ∀ minInterest, ∀ u ∈ (cacheAll x st past).listUnknownLines minInterest,
    Fits x past u

/-- Lines of one shape have their sensitive tokens at the same offsets. -/
def SameTokens (x : Externals) (cs : List Captured) : Prop :=
  ∀ c ∈ cs, ∀ d ∈ cs, shapeHash x c.line = shapeHash x d.line → c.tokens x = d.tokens x

/-! ### Samples -/

/-- The last samples, as many as are kept. -/
def lastExamples (lines : List String) : List String :=
  lines.drop (lines.length - rawExamplesCap)

theorem pushExample_lastExamples (lines : List String) (line : String) :
    pushExample (lastExamples lines) line = lastExamples (lines ++ [line]) := by
  have hle : lines.length - rawExamplesCap ≤ lines.length := Nat.sub_le _ _
  rw [pushExample, lastExamples, lastExamples, ← List.drop_append_of_le_length hle, List.drop_drop]
  congr 1
  simp only [List.length_drop, List.length_append, List.length_singleton, rawExamplesCap]
  omega

theorem getLast?_lastExamples (lines : List String) :
    (lastExamples lines).getLast? = lines.getLast? := by
  rw [lastExamples, List.getLast?_drop]
  cases lines with
  | nil => rfl
  | cons a l =>
    rw [if_neg]
    simp only [List.length_cons, rawExamplesCap]
    omega

/-! ### What the rows are -/

/-- A row is made of the captures of its shape. -/
structure Describes (x : Externals) (cs : List Captured) (r : UnknownLineRow) : Prop where
  first : (ofShape x cs r.key).head?.map (Captured.record x) = some r.record
  samples : r.rawExamples = lastExamples ((ofShape x cs r.key).map (·.line))
  count : r.occurrenceCount = (ofShape x cs r.key).length
  last : (ofShape x cs r.key).getLast?.map (·.now) = some r.lastSeen
  shown : r.dismissed = false

section Rows
variable {x : Externals} {cs : List Captured} {c : Captured} {k : String}

theorem ofShape_append_of_eq (h : shapeHash x c.line = k) :
    ofShape x (cs ++ [c]) k = ofShape x cs k ++ [c] := by
  simp [ofShape, h]

theorem ofShape_append_of_ne (h : shapeHash x c.line ≠ k) :
    ofShape x (cs ++ [c]) k = ofShape x cs k := by
  simp [ofShape, h]

theorem ofShape_eq_nil : ofShape x cs k = [] ↔ ∀ c ∈ cs, shapeHash x c.line ≠ k := by
  simp [ofShape, List.filter_eq_nil_iff]

theorem describes_new (h : ofShape x cs (shapeHash x c.line) = []) :
    Describes x (cs ++ [c]) (newUnknownLine (c.record x)) := by
  have hof : ofShape x (cs ++ [c]) (newUnknownLine (c.record x)).key = [c] := by
    rw [show (newUnknownLine (c.record x)).key = shapeHash x c.line from rfl,
      ofShape_append_of_eq rfl, h, List.nil_append]
  refine ⟨?_, ?_, ?_, ?_, rfl⟩ <;> rw [hof] <;> rfl

theorem Describes.touch {r : UnknownLineRow} (hr : Describes x cs r)
    (hk : r.key = shapeHash x c.line) : Describes x (cs ++ [c]) (touchUnknownLine (c.record x) r) := by
  have hof : ofShape x (cs ++ [c]) (touchUnknownLine (c.record x) r).key =
      ofShape x cs r.key ++ [c] := ofShape_append_of_eq hk.symm
  refine ⟨?_, ?_, ?_, ?_, hr.shown⟩ <;> rw [hof]
  · rw [List.head?_append, Option.map_or, hr.first]
    rfl
  · rw [List.map_append, List.map_singleton, ← pushExample_lastExamples, ← hr.samples]
    rfl
  · rw [List.length_append, ← hr.count]
    rfl
  · rw [List.getLast?_append, List.getLast?_singleton]
    rfl

theorem Describes.other {r : UnknownLineRow} (hr : Describes x cs r)
    (hk : r.key ≠ shapeHash x c.line) : Describes x (cs ++ [c]) r := by
  have hof : ofShape x (cs ++ [c]) r.key = ofShape x cs r.key := ofShape_append_of_ne hk.symm
  refine ⟨?_, ?_, ?_, ?_, hr.shown⟩ <;> rw [hof]
  exacts [hr.first, hr.samples, hr.count, hr.last]

end Rows

/-! ### Any number of captures -/

section Runs
variable {x : Externals} {noiseList : List String} {now : String} {cs : List Captured}

theorem unknownLines_cacheAll_append (st : Storage) (c : Captured) :
    (cacheAll x st (cs ++ [c])).unknownLines = (cacheAll x st cs).unknownLines.upsert
      (newUnknownLine (c.record x)) (touchUnknownLine (c.record x))
      (key_touchUnknownLine (c.record x)) := by
  rw [cacheAll, List.foldl_append]
  rfl

theorem mem_keys_cacheAll {k : String} :
    k ∈ (cacheAll x (Storage.fresh noiseList now) cs).unknownLines.keys ↔
      ∃ c ∈ cs, shapeHash x c.line = k := by
  induction cs using List.reverseRecOn with
  | nil => simp [cacheAll, Storage.fresh, Table.keys, Table.empty]
  | append_singleton cs c ih =>
    rw [unknownLines_cacheAll_append, Table.mem_keys_upsert, ih]
    simp only [List.mem_append, List.mem_singleton, or_and_right, exists_or, exists_eq_left]
    exact or_congr_right eq_comm

/-- **Every row is made of the captures of its shape.** -/
theorem describes_cacheAll {r : UnknownLineRow}
    (hr : r ∈ (cacheAll x (Storage.fresh noiseList now) cs).unknownLines.contents) :
    Describes x cs r := by
  induction cs using List.reverseRecOn generalizing r with
  | nil => simp [cacheAll, Storage.fresh, Table.contents, Table.empty] at hr
  | append_singleton cs c ih =>
    rw [unknownLines_cacheAll_append, Table.mem_contents_upsert] at hr
    rcases hr with ⟨hr, hk⟩ | ⟨r₀, hr₀, hk, rfl⟩ | ⟨hfree, rfl⟩
    · exact (ih hr).other hk
    · exact (ih hr₀).touch hk
    · refine describes_new (ofShape_eq_nil.mpr fun d hd hk => hfree ?_)
      exact mem_keys_cacheAll.mpr ⟨d, hd, hk⟩

end Runs

/-! ### What is listed -/

section Listed
variable {x : Externals} {noiseList : List String} {now : String} {cs : List Captured}

theorem mem_listUnknownLines {st : Storage} {minInterest : ℕ} {u : UnknownLine} :
    u ∈ st.listUnknownLines minInterest ↔ ∃ r ∈ st.unknownLines.contents,
      r.dismissed = false ∧ minInterest ≤ r.record.interestScore ∧ decodeUnknownLine r = u := by
  simp [listUnknownLines, and_assoc]

/-- A listed line shows the line of the last capture of its shape and the tokens of the first. -/
theorem Describes.decode {r : UnknownLineRow} (hr : Describes x cs r) :
    ∃ first last, (ofShape x cs r.key).head? = some first ∧
      (ofShape x cs r.key).getLast? = some last ∧ (decodeUnknownLine r).shapeHash = r.key ∧
      (decodeUnknownLine r).rawLine = last.line ∧
      (decodeUnknownLine r).detectedPii = first.tokens x := by
  obtain ⟨first, hfirst, hrecord⟩ := Option.map_eq_some_iff.mp hr.first
  obtain ⟨last, hlast, -⟩ := Option.map_eq_some_iff.mp hr.last
  refine ⟨first, last, hfirst, hlast, rfl, ?_, ?_⟩
  · change r.rawExamples.getLast?.getD "" = last.line
    rw [hr.samples, getLast?_lastExamples, List.getLast?_map, hlast]
    rfl
  · change r.record.detectedPii = first.tokens x
    rw [← hrecord]
    rfl

/-- When all fits, a capture and the first of its shape have the same tokens: right after the capture
its row shows its line with the tokens of the first. -/
theorem first_of_allFit (hfit : AllFit x (Storage.fresh noiseList now) cs) {c : Captured}
    (hc : c ∈ cs) :
    (ofShape x cs (shapeHash x c.line)).head?.map (Captured.tokens x) = some (c.tokens x) := by
  obtain ⟨before, after, rfl⟩ := List.append_of_mem hc
  have hpast : before ++ [c] <+: before ++ c :: after := ⟨after, by simp⟩
  obtain ⟨a, ha, hk⟩ := Table.mem_keys.mp ((@mem_keys_cacheAll x noiseList now _ _).mpr
    ⟨c, List.mem_append_right before List.mem_cons_self, rfl⟩)
  have hr := Table.mem_contents.mpr ⟨a, ha, rfl⟩
  have hdesc := describes_cacheAll hr
  obtain ⟨first, last, hfirst, hlast, hshape, -, htokens⟩ := hdesc.decode
  obtain ⟨d, hd, -, hfits, -⟩ := hfit _ hpast 0 (decodeUnknownLine a.2)
    (mem_listUnknownLines.mpr ⟨a.2, hr, hdesc.shown, Nat.zero_le _, rfl⟩)
  have hd' : d = c := by
    rw [hshape, ofShape_append_of_eq hk.symm, List.getLast?_append, List.getLast?_singleton] at hd
    exact (Option.some.inj hd).symm
  have hof : ofShape x (before ++ c :: after) (shapeHash x c.line) =
      ofShape x (before ++ [c]) a.2.key ++ ofShape x after a.2.key := by
    rw [show a.2.key = shapeHash x c.line from hk, ofShape, ofShape, ofShape, ← List.filter_append,
      List.append_assoc, List.singleton_append]
  rw [hof, List.head?_append, hfirst, Option.some_or, Option.map_some, ← htokens, hfits, hd']

theorem AllFit.sameTokens (hfit : AllFit x (Storage.fresh noiseList now) cs) : SameTokens x cs := by
  intro c hc d hd hshape
  have h := first_of_allFit hfit hc
  rw [hshape, first_of_allFit hfit hd] at h
  exact (Option.some.inj h).symm

/-- **What is listed fits at any time exactly if lines of one shape have the same tokens.** -/
theorem allFit_iff (x : Externals) (noiseList : List String) (now : String) (cs : List Captured) :
    AllFit x (Storage.fresh noiseList now) cs ↔ SameTokens x cs := by
  refine ⟨AllFit.sameTokens, fun hsame past hpast minInterest u hu => ?_⟩
  obtain ⟨r, hr, -, -, rfl⟩ := mem_listUnknownLines.mp hu
  obtain ⟨first, last, hfirst, hlast, hshape, hline, htokens⟩ := (describes_cacheAll hr).decode
  obtain ⟨hf, hfk⟩ := List.mem_filter.mp (List.mem_of_head? hfirst)
  obtain ⟨hl, hlk⟩ := List.mem_filter.mp (List.mem_of_getLast? hlast)
  have heq : first.tokens x = last.tokens x := hsame first (hpast.subset hf) last
    (hpast.subset hl) ((of_decide_eq_true hfk).trans (of_decide_eq_true hlk).symm)
  refine ⟨last, hlast, hline, htokens.trans heq, fun t ht => ?_⟩
  rw [htokens, heq] at ht
  rw [hline]
  exact sensitive_of_mem_detectPii ht

end Listed

/-! ### A shape with two lengths -/

/-- A line that is an entity id in brackets. -/
def geidLine (id line : String) : Captured := ⟨id, line, none, CaptureContext.default, ""⟩

/-- Two ids of different lengths have one shape, and the token of the first does not even lie in the
second line. -/
theorem not_allFit_geid :
    ¬ AllFit .std (Storage.fresh [] "") [geidLine "a" "[123456]", geidLine "b" "[12345]"] := by
  intro h
  have hsame := h.sameTokens (geidLine "a" "[123456]") (by simp) (geidLine "b" "[12345]") (by simp)
    (by decide +kernel)
  exact absurd hsame (by decide +kernel)

end StarStats.Client.UnknownCache
