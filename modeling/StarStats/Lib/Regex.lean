import StarStats.Lib.Text

/-! # Regular expressions with captures

A backtracking matcher for the fragment of the usual regular expression syntax that log parsers
use: literals, bracketed classes, `.`, the classes `\d`, `\s`, `\w` and their complements, groups
(plain, named and non-capturing), alternation, the quantifiers `?`, `*`, `+` and `{m,n}` with their
lazy forms, and the assertions `^`, `$` and `\b`.

A match is the *leftmost-first* one: the first start position that matches at all, and there the
first way to match in the order in which a backtracking search would try them. `Re.run` is that
search, written with a continuation for what follows; `searchFrom` tries the start positions.

The Perl classes are the ASCII ones. -/

namespace StarStats.Lib.Regex

open StarStats.Lib.Text (bytes bytes_append)

/-! ### Syntax -/

/-- One entry of a bracketed class. -/
inductive Item where
  | range (lo hi : Char)
  | digit
  | space
  | word
  deriving DecidableEq

/-- The characters between `\t` and `\r`, and the blank. -/
def isSpace (c : Char) : Bool := ('\t' ≤ c && c ≤ '\r') || c = ' '

/-- A letter, a digit or an underscore. -/
def isWord (c : Char) : Bool := c.isAlphanum || c = '_'

/-- The characters of one item of a class. -/
def Item.has (c : Char) : Item → Bool
  | range lo hi => lo ≤ c && c ≤ hi
  | digit => c.isDigit
  | space => isSpace c
  | word => isWord c

/-- A class of characters: some entries, or everything but them. -/
structure Class where
  neg : Bool
  items : List Item
  deriving DecidableEq

/-- A class may be negated as a whole. -/
def Class.has (k : Class) (c : Char) : Bool := k.items.any (Item.has c) != k.neg

/-- A regular expression. `group` carries the number of the group and its name, if any. -/
inductive Re where
  | empty
  | one (k : Class)
  | startText
  | endText
  | wordBoundary
  | cat (a b : Re)
  | alt (a b : Re)
  | rep (greedy : Bool) (min : Nat) (max : Option Nat) (r : Re)
  | group (index : Nat) (name : Option String) (r : Re)
  deriving DecidableEq

/-! ### Matching -/

/-- A place in the text: its byte offset, the character before it and the text after it. -/
structure Cursor where
  pos : Nat
  before : Option Char
  rest : List Char
  deriving DecidableEq

/-- Before the first character. -/
def Cursor.start (text : List Char) : Cursor := ⟨0, none, text⟩

/-- What a group has matched. -/
structure Slot where
  index : Nat
  name : Option String
  start : Nat
  stop : Nat
  text : List Char
  deriving DecidableEq

/-- Where a match ends and what its groups hold, if there is one. -/
abbrev Result := Option (Cursor × List Slot)

/-- What has to match behind. -/
abbrev Cont := Cursor → List Slot → Result

/-- A way to match: from a place and the groups so far, with what follows. -/
abbrev Step := Cursor → List Slot → Cont → Result

/-- Exactly `n` times. -/
def times (step : Step) : Nat → Step
  | 0 => fun c s k => k c s
  | n + 1 => fun c s k => step c s fun c s => times step n c s k

/-- At most `n` times, as often as possible first if `greedy`. A round that consumes nothing is
not repeated. -/
def upTo (greedy : Bool) (step : Step) : Nat → Step
  | 0 => fun c s k => k c s
  | n + 1 => fun c s k =>
    let more := fun _ : Unit => step c s fun c' s' =>
      if c.pos < c'.pos then upTo greedy step n c' s' k else none
    if greedy then (more ()).orElse fun _ => k c s else (k c s).orElse more

/-- One character of a class. -/
def oneChar (k : Class) : Step := fun c s k' =>
  match c.rest with
  | [] => none
  | a :: rest => if k.has a then k' ⟨c.pos + a.utf8Size, some a, rest⟩ s else none

/-- Is there a word character on exactly one side? -/
def Cursor.atBoundary (c : Cursor) : Bool := c.before.any isWord != c.rest.head?.any isWord

/-- What is preferred is tried first, and the first that lets the rest match counts. -/
def Re.run : Re → Step
  | empty => fun c s k => k c s
  | one k => oneChar k
  | startText => fun c s k => if c.before = none then k c s else none
  | endText => fun c s k => if c.rest = [] then k c s else none
  | wordBoundary => fun c s k => if c.atBoundary then k c s else none
  | cat a b => fun c s k => a.run c s fun c s => b.run c s k
  | alt a b => fun c s k => (a.run c s k).orElse fun _ => b.run c s k
  | rep greedy min max r => fun c s k =>
    times r.run min c s fun c s =>
      upTo greedy r.run (match max with | some m => m - min | none => c.rest.length) c s k
  | group i name r => fun c s k => r.run c s fun c' s' =>
    k c' (⟨i, name, c.pos, c'.pos, c.rest.take (c.rest.length - c'.rest.length)⟩ :: s')

/-- The first match at or after a place, the whole of it as group `0`. -/
def searchFrom (r : Re) : Nat → Cursor → Result
  | 0, _ => none
  | n + 1, c =>
    match (Re.group 0 none r).run c [] fun c s => some (c, s) with
    | some m => some m
    | none =>
      match c.rest with
      | [] => none
      | a :: rest => searchFrom r n ⟨c.pos + a.utf8Size, some a, rest⟩

/-- Every match, each beginning where the one before it ended. -/
def searchAll (r : Re) : Nat → Cursor → List (List Slot)
  | 0, _ => []
  | n + 1, c =>
    match searchFrom r (c.rest.length + 1) c with
    | none => []
    | some (c', s) => s :: if c.pos < c'.pos then searchAll r n c' else []

/-! ### Reading a pattern -/

/-- The class a backslash and a letter stand for; any other character stands for itself. -/
def escape (c : Char) : Class :=
  match c with
  | 'd' => ⟨false, [.digit]⟩
  | 's' => ⟨false, [.space]⟩
  | 'w' => ⟨false, [.word]⟩
  | 'D' => ⟨true, [.digit]⟩
  | 'S' => ⟨true, [.space]⟩
  | 'W' => ⟨true, [.word]⟩
  | 'n' => ⟨false, [.range '\n' '\n']⟩
  | 'r' => ⟨false, [.range '\r' '\r']⟩
  | 't' => ⟨false, [.range '\t' '\t']⟩
  | c => ⟨false, [.range c c]⟩

/-- The entries of a bracketed class, up to the closing bracket. -/
def readItems : Nat → List Char → Option (List Item × List Char)
  | 0, _ => none
  | _ + 1, [] => none
  | _ + 1, ']' :: cs => some ([], cs)
  | n + 1, '\\' :: c :: cs => do
    let (items, rest) ← readItems n cs
    some ((escape c).items ++ items, rest)
  | n + 1, lo :: '-' :: hi :: cs =>
    if hi = ']' then do
      let (items, rest) ← readItems n (hi :: cs)
      some (.range lo lo :: .range '-' '-' :: items, rest)
    else do
      let (items, rest) ← readItems n cs
      some (.range lo hi :: items, rest)
  | n + 1, c :: cs => do
    let (items, rest) ← readItems n cs
    some (.range c c :: items, rest)

/-- A decimal number at the front, if there is one. -/
def readNat (cs : List Char) : Option Nat × List Char :=
  match cs.takeWhile Char.isDigit with
  | [] => (none, cs)
  | ds => (some (ds.foldl (fun n d => 10 * n + (d.toNat - 48)) 0), cs.dropWhile Char.isDigit)

/-- The bounds after an opening brace. -/
def readBounds (cs : List Char) : Option (Nat × Option Nat × List Char) :=
  match readNat cs with
  | (some m, ',' :: cs) =>
    match readNat cs with
    | (n, '\x7d' :: cs) => some (m, n, cs)
    | _ => none
  | (some m, '\x7d' :: cs) => some (m, some m, cs)
  | _ => none

/-- A repetition, lazy if a question mark follows. -/
def lazily (min : Nat) (max : Option Nat) (r : Re) : List Char → Re × List Char
  | '?' :: cs => (.rep false min max r, cs)
  | cs => (.rep true min max r, cs)

/-- The quantifiers after an atom. -/
def readQuantifier (r : Re) (cs : List Char) : Option (Re × List Char) :=
  match cs with
  | '?' :: cs => some (lazily 0 (some 1) r cs)
  | '*' :: cs => some (lazily 0 none r cs)
  | '+' :: cs => some (lazily 1 none r cs)
  | '\x7b' :: cs => (readBounds cs).map fun (m, n, cs) => lazily m n r cs
  | cs => some (r, cs)

/-- Alternatives up to a closing parenthesis or the end. `acc` is the branch read so far and `i`
the number of the next group. -/
def readAlt : Nat → Re → Nat → List Char → Option (Re × Nat × List Char)
  | 0, _, _, _ => none
  | _ + 1, acc, i, [] => some (acc, i, [])
  | _ + 1, acc, i, ')' :: cs => some (acc, i, ')' :: cs)
  | n + 1, acc, i, '|' :: cs => do
    let (b, i, cs) ← readAlt n .empty i cs
    some (.alt acc b, i, cs)
  | n + 1, acc, i, '(' :: '?' :: ':' :: cs => do
    let (r, i, cs) ← readAlt n .empty i cs
    let (r, cs) ← readQuantifier r (cs.drop 1)
    readAlt n (.cat acc r) i cs
  | n + 1, acc, i, '(' :: '?' :: 'P' :: '<' :: cs => do
    let name := String.ofList (cs.takeWhile (· ≠ '>'))
    let (r, j, cs) ← readAlt n .empty (i + 1) ((cs.dropWhile (· ≠ '>')).drop 1)
    let (r, cs) ← readQuantifier (.group i (some name) r) (cs.drop 1)
    readAlt n (.cat acc r) j cs
  | n + 1, acc, i, '(' :: cs => do
    let (r, j, cs) ← readAlt n .empty (i + 1) cs
    let (r, cs) ← readQuantifier (.group i none r) (cs.drop 1)
    readAlt n (.cat acc r) j cs
  | n + 1, acc, i, '[' :: '^' :: cs => do
    let (items, cs) ← readItems (cs.length + 1) cs
    let (r, cs) ← readQuantifier (.one ⟨true, items⟩) cs
    readAlt n (.cat acc r) i cs
  | n + 1, acc, i, '[' :: cs => do
    let (items, cs) ← readItems (cs.length + 1) cs
    let (r, cs) ← readQuantifier (.one ⟨false, items⟩) cs
    readAlt n (.cat acc r) i cs
  | n + 1, acc, i, '\\' :: 'b' :: cs => readAlt n (.cat acc .wordBoundary) i cs
  | n + 1, acc, i, '\\' :: c :: cs => do
    let (r, cs) ← readQuantifier (.one (escape c)) cs
    readAlt n (.cat acc r) i cs
  | n + 1, acc, i, '^' :: cs => readAlt n (.cat acc .startText) i cs
  | n + 1, acc, i, '$' :: cs => readAlt n (.cat acc .endText) i cs
  | n + 1, acc, i, '.' :: cs => do
    let (r, cs) ← readQuantifier (.one ⟨true, [.range '\n' '\n']⟩) cs
    readAlt n (.cat acc r) i cs
  | n + 1, acc, i, c :: cs => do
    let (r, cs) ← readQuantifier (.one ⟨false, [.range c c]⟩) cs
    readAlt n (.cat acc r) i cs

/-- The expression a pattern stands for, if it can be read. -/
def compile (pattern : String) : Option Re :=
  match readAlt (pattern.length + 1) .empty 1 pattern.toList with
  | some (r, _, []) => some r
  | _ => none

/-- Every match of a pattern in a text, left to right. -/
def findAll (pattern text : String) : List (List Slot) :=
  match compile pattern with
  | some r => searchAll r (text.length + 1) (.start text.toList)
  | none => []

/-! ### Where matches lie -/

/-- A place in `text`: what stands before it takes `pos` bytes. -/
def Cursor.In (text : List Char) (c : Cursor) : Prop :=
  ∃ pre, text = pre ++ c.rest ∧ c.pos = bytes pre

/-- The slot holds what stands in `text` between its two offsets. -/
def Slot.In (text : List Char) (s : Slot) : Prop :=
  ∃ pre post, text = pre ++ s.text ++ post ∧ s.start = bytes pre ∧ s.stop = bytes pre + bytes s.text

theorem Cursor.in_start (text : List Char) : (Cursor.start text).In text := ⟨[], rfl, rfl⟩

theorem Cursor.In.next {text rest : List Char} {pos : ℕ} {b : Option Char} {a : Char}
    (h : (Cursor.mk pos b (a :: rest)).In text) : (Cursor.mk (pos + a.utf8Size) (some a) rest).In text := by
  obtain ⟨pre, ht, hp⟩ := h
  refine ⟨pre ++ [a], by rw [ht]; simp, ?_⟩
  simp only at hp
  simp [hp]

/-- What a match gives, a place and some groups, was handed to the continuation, and from a place in
the text with groups in it that place and those groups are again in it, and not before `c`. -/
def Sound (text : List Char) (step : Step) : Prop :=
  ∀ c s k r, step c s k = some r → c.In text → (∀ t ∈ s, t.In text) →
    ∃ c' s', c'.In text ∧ c'.rest <:+ c.rest ∧ (∀ t ∈ s', t.In text) ∧ k c' s' = some r

section Soundness
variable {text : List Char} {step : Step}

theorem sound_skip {p : Cursor → Bool} :
    Sound text fun c s k => if p c then k c s else none := by
  intro c s k r h hc hs
  by_cases hp : p c
  · exact ⟨c, s, hc, List.suffix_rfl, hs, by simpa [hp] using h⟩
  · simp [hp] at h

theorem sound_oneChar (k : Class) : Sound text (oneChar k) := by
  rintro ⟨pos, b, rest⟩ s k' r h hc hs
  unfold oneChar at h
  match rest, h, hc with
  | a :: rest, h, hc =>
    by_cases ha : k.has a
    · simp only [ha, if_true] at h
      exact ⟨_, s, hc.next, List.suffix_cons a rest, hs, h⟩
    · simp [ha] at h

theorem Sound.times (hstep : Sound text step) : ∀ n, Sound text (times step n)
  | 0, c, s, k, r, h, hc, hs => ⟨c, s, hc, List.suffix_rfl, hs, h⟩
  | n + 1, c, s, k, r, h, hc, hs => by
    obtain ⟨c', s', hc', hsuf, hs', h'⟩ := hstep c s _ r h hc hs
    obtain ⟨c₂, s₂, hc₂, hsuf₂, hs₂, h₂⟩ := hstep.times n c' s' k r h' hc' hs'
    exact ⟨c₂, s₂, hc₂, hsuf₂.trans hsuf, hs₂, h₂⟩

theorem Sound.upTo (hstep : Sound text step) (greedy : Bool) : ∀ n, Sound text (upTo greedy step n)
  | 0, c, s, k, r, h, hc, hs => ⟨c, s, hc, List.suffix_rfl, hs, h⟩
  | n + 1, c, s, k, r, h, hc, hs => by
    have stop : k c s = some r → ∃ c' s', c'.In text ∧ c'.rest <:+ c.rest ∧
        (∀ t ∈ s', t.In text) ∧ k c' s' = some r := fun h => ⟨c, s, hc, List.suffix_rfl, hs, h⟩
    have more : (step c s fun c' s' =>
        if c.pos < c'.pos then Regex.upTo greedy step n c' s' k else none) = some r →
        ∃ c' s', c'.In text ∧ c'.rest <:+ c.rest ∧ (∀ t ∈ s', t.In text) ∧ k c' s' = some r := by
      intro h
      obtain ⟨c', s', hc', hsuf, hs', h'⟩ := hstep c s _ r h hc hs
      by_cases hlt : c.pos < c'.pos
      · rw [if_pos hlt] at h'
        obtain ⟨c₂, s₂, hc₂, hsuf₂, hs₂, h₂⟩ := hstep.upTo greedy n c' s' k r h' hc' hs'
        exact ⟨c₂, s₂, hc₂, hsuf₂.trans hsuf, hs₂, h₂⟩
      · simp [hlt] at h'
    unfold Regex.upTo at h
    cases greedy
    · simp only [Bool.false_eq_true, if_false, Option.orElse_eq_or, Option.or_eq_some_iff] at h
      rcases h with h | ⟨-, h⟩
      · exact stop h
      · exact more h
    · simp only [if_true, Option.orElse_eq_or, Option.or_eq_some_iff] at h
      rcases h with h | ⟨-, h⟩
      · exact more h
      · exact stop h

theorem slot_in {c c' : Cursor} (i : ℕ) (name : Option String) (hc : c.In text) (hc' : c'.In text)
    (hsuf : c'.rest <:+ c.rest) :
    (Slot.mk i name c.pos c'.pos (c.rest.take (c.rest.length - c'.rest.length))).In text := by
  obtain ⟨pre, ht, hp⟩ := hc
  obtain ⟨pre', ht', hp'⟩ := hc'
  obtain ⟨mid, hmid⟩ := hsuf
  have hpre : pre' = pre ++ mid := by
    rw [ht, ← hmid, ← List.append_assoc] at ht'
    exact (List.append_cancel_right ht').symm
  have htake : c.rest.take (c.rest.length - c'.rest.length) = mid := by
    rw [← hmid]; simp
  refine ⟨pre, c'.rest, ?_, hp, ?_⟩
  · rw [htake, List.append_assoc, hmid, ht]
  · rw [htake, hp', hpre, bytes_append]

/-- **Every expression matches within the text.** -/
theorem sound_run : ∀ r : Re, Sound text r.run
  | .empty => fun c s k r h hc hs => ⟨c, s, hc, List.suffix_rfl, hs, h⟩
  | .one k => sound_oneChar k
  | .startText => by simpa [Re.run] using sound_skip (p := fun c => decide (c.before = none))
  | .endText => by simpa [Re.run] using sound_skip (p := fun c => decide (c.rest = []))
  | .wordBoundary => sound_skip (p := Cursor.atBoundary)
  | .cat a b => by
    intro c s k r h hc hs
    obtain ⟨c', s', hc', hsuf, hs', h'⟩ := sound_run a c s _ r h hc hs
    obtain ⟨c₂, s₂, hc₂, hsuf₂, hs₂, h₂⟩ := sound_run b c' s' k r h' hc' hs'
    exact ⟨c₂, s₂, hc₂, hsuf₂.trans hsuf, hs₂, h₂⟩
  | .alt a b => by
    intro c s k r h hc hs
    simp only [Re.run, Option.orElse_eq_or, Option.or_eq_some_iff] at h
    rcases h with h | ⟨-, h⟩
    · exact sound_run a c s k r h hc hs
    · exact sound_run b c s k r h hc hs
  | .rep greedy min max a => by
    intro c s k r h hc hs
    obtain ⟨c', s', hc', hsuf, hs', h'⟩ := (sound_run a).times min c s _ r h hc hs
    obtain ⟨c₂, s₂, hc₂, hsuf₂, hs₂, h₂⟩ := (sound_run a).upTo greedy _ c' s' k r h' hc' hs'
    exact ⟨c₂, s₂, hc₂, hsuf₂.trans hsuf, hs₂, h₂⟩
  | .group i name a => by
    intro c s k r h hc hs
    obtain ⟨c', s', hc', hsuf, hs', h'⟩ := sound_run a c s _ r h hc hs
    refine ⟨c', _, hc', hsuf, ?_, h'⟩
    rintro t ht
    rcases List.mem_cons.mp ht with rfl | ht
    · exact slot_in i name hc hc' hsuf
    · exact hs' t ht

theorem searchFrom_sound (r : Re) : ∀ (n : ℕ) {c c' : Cursor} {s : List Slot}, c.In text →
    searchFrom r n c = some (c', s) → c'.In text ∧ ∀ t ∈ s, t.In text
  | n + 1, ⟨pos, b, rest⟩, c', s, hc, h => by
    unfold searchFrom at h
    cases hm : (Re.group 0 none r).run ⟨pos, b, rest⟩ [] fun c s => some (c, s) with
    | some m =>
      simp only [hm] at h
      obtain ⟨c₂, s₂, hc₂, -, hs₂, h₂⟩ := sound_run (.group 0 none r) _ _ _ _ hm hc (by simp)
      cases h; cases h₂
      exact ⟨hc₂, hs₂⟩
    | none =>
      simp only [hm] at h
      match rest, h, hc with
      | a :: rest, h, hc => exact searchFrom_sound r n hc.next h

theorem searchAll_sound (r : Re) : ∀ (n : ℕ) {c : Cursor}, c.In text →
    ∀ s ∈ searchAll r n c, ∀ t ∈ s, t.In text
  | 0, _, _, s, h => by simp [searchAll] at h
  | n + 1, c, hc, s, h => by
    unfold searchAll at h
    cases hm : searchFrom r (c.rest.length + 1) c with
    | none => simp [hm] at h
    | some m =>
      obtain ⟨c', s'⟩ := m
      obtain ⟨hc', hs'⟩ := searchFrom_sound r _ hc hm
      simp only [hm, List.mem_cons] at h
      rcases h with rfl | h
      · exact hs'
      · split_ifs at h
        · exact searchAll_sound r n hc' s h
        · simp at h

end Soundness

/-- **Every group of every match holds what stands between its offsets.** -/
theorem findAll_sound {pattern text : String} {s : List Slot} (h : s ∈ findAll pattern text) :
    ∀ t ∈ s, t.In text.toList := by
  unfold findAll at h
  cases hc : compile pattern with
  | none => simp [hc] at h
  | some r =>
    simp only [hc] at h
    exact searchAll_sound r _ (Cursor.in_start _) s h

/-! ### Patterns that begin with a character -/

/-- The class of the character that an expression begins with, at the start of the text. -/
def Re.headClass : Re → Option Class
  | .cat (.cat .empty .startText) (.one k) => some k
  | .cat a _ => a.headClass
  | _ => none

theorem run_of_headClass {k : Class} : ∀ {r : Re}, r.headClass = some k → ∀ {c : Cursor} {s : List Slot}
    {cont : Cont} {m : Cursor × List Slot}, r.run c s cont = some m →
      c.before = none ∧ ∃ a ∈ c.rest.head?, k.has a = true := by
  intro r
  induction r using Re.headClass.induct with
  | case1 k' =>
    intro hr c s cont m h
    obtain rfl : k' = k := Option.some.inj hr
    simp only [Re.run] at h
    split_ifs at h with hbefore
    refine ⟨hbefore, ?_⟩
    unfold oneChar at h
    cases hrest : c.rest with
    | nil => simp [hrest] at h
    | cons a rest =>
      simp only [hrest] at h
      split_ifs at h with hhas
      exact ⟨a, rfl, hhas⟩
  | case2 a b hne ih =>
    intro hr c s cont m h
    rw [Re.headClass] at hr
    · exact ih hr h
    · exact hne
  | case3 r hfirst hcat =>
    intro hr
    rw [Re.headClass] at hr
    · cases hr
    · exact hfirst
    · exact hcat

/-- Behind the start of the text such an expression does not match. -/
theorem searchFrom_of_headClass {r : Re} {k : Class} (hr : r.headClass = some k) : ∀ (n : ℕ) {c : Cursor},
    c.before ≠ none → searchFrom r n c = none
  | 0, _, _ => rfl
  | n + 1, c, hc => by
    unfold searchFrom
    cases hm : (Re.group 0 none r).run c [] fun c s => some (c, s) with
    | some m => exact absurd (run_of_headClass hr hm).1 hc
    | none =>
      simp only
      cases c.rest with
      | nil => rfl
      | cons a rest => exact searchFrom_of_headClass hr n (Option.some_ne_none a)

/-- **A text in which such a pattern is found begins with a character of the class.** -/
theorem findAll_of_headClass {pattern text : String} {r : Re} {k : Class} (hcompile : compile pattern = some r)
    (hr : r.headClass = some k) (h : findAll pattern text ≠ []) : ∃ a ∈ text.toList.head?, k.has a = true := by
  unfold findAll at h
  simp only [hcompile] at h
  unfold searchAll at h
  cases hm : searchFrom r ((Cursor.start text.toList).rest.length + 1) (.start text.toList) with
  | none => simp [hm] at h
  | some m =>
    unfold searchFrom at hm
    cases hfirst : (Re.group 0 none r).run (.start text.toList) [] fun c s => some (c, s) with
    | some m' => exact (run_of_headClass hr hfirst).2
    | none =>
      simp only [hfirst] at hm
      cases hrest : (Cursor.start text.toList).rest with
      | nil => simp [hrest] at hm
      | cons a rest =>
        simp only [hrest] at hm
        rw [searchFrom_of_headClass hr _ (Option.some_ne_none a)] at hm
        cases hm

end StarStats.Lib.Regex
