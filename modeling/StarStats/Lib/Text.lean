import Mathlib.Algebra.GroupWithZero.Nat
import Mathlib.Data.List.Infix
import Mathlib.Data.List.TakeWhile

/-! # Text as the standard string library handles it

Substring search, trimming, splitting and slicing of strings, with positions counted in bytes of
the UTF-8 encoding, and the reading of unsigned decimals. Strings are taken apart as lists of
characters. -/

namespace StarStats.Lib.Text

/-- The Unicode property `White_Space`. -/
def isWhitespace (c : Char) : Bool :=
  let n := c.toNat
  (9 ≤ n && n ≤ 13) || n = 0x20 || n = 0x85 || n = 0xA0 || n = 0x1680 ||
    (0x2000 ≤ n && n ≤ 0x200A) || n = 0x2028 || n = 0x2029 || n = 0x202F || n = 0x205F || n = 0x3000

/-! ### Search -/

/-- Does `needle` occur in `cs`? -/
def infixOf (needle : List Char) : List Char → Bool
  | [] => needle.isEmpty
  | c :: cs => needle.isPrefixOf (c :: cs) || infixOf needle cs

/-- Does the needle occur? -/
def contains (s needle : String) : Bool := infixOf needle.toList s.toList

/-- Is it at the start? -/
def startsWith (s pre : String) : Bool := pre.toList.isPrefixOf s.toList

/-- Is it at the end? -/
def endsWith (s suf : String) : Bool := suf.toList.isSuffixOf s.toList

/-- The byte offsets at which `needle` occurs, occurrences not overlapping. `skip` characters are
still inside the last one. -/
def matchIndicesFrom (needle : List Char) : Nat → Nat → List Char → List Nat
  | _, _, [] => []
  | skip + 1, p, c :: cs => matchIndicesFrom needle skip (p + c.utf8Size) cs
  | 0, p, c :: cs =>
    if needle.isPrefixOf (c :: cs) then
      p :: matchIndicesFrom needle (needle.length - 1) (p + c.utf8Size) cs
    else matchIndicesFrom needle 0 (p + c.utf8Size) cs

/-- Where the needle occurs, in bytes and without overlaps. -/
def matchIndices (s needle : String) : List Nat := matchIndicesFrom needle.toList 0 0 s.toList

/-! ### Trimming and splitting -/

/-- Without the leading characters that satisfy `p`. -/
def trimStartMatches (p : Char → Bool) (s : String) : String := String.ofList (s.toList.dropWhile p)

/-- Without the trailing characters that satisfy `p`. -/
def trimEndMatches (p : Char → Bool) (s : String) : String :=
  String.ofList (s.toList.reverse.dropWhile p).reverse

/-- Without the surrounding white space. -/
def trim (s : String) : String := trimStartMatches isWhitespace (trimEndMatches isWhitespace s)

/-- The pieces between the separators; there is always one. -/
def splitOn (sep : Char → Bool) : List Char → List (List Char)
  | [] => [[]]
  | c :: cs =>
    match splitOn sep cs with
    | [] => [[c]]
    | w :: ws => if sep c then [] :: w :: ws else (c :: w) :: ws

/-- What is before and after the first `c`, where there is one. -/
def splitOnce (s : String) (c : Char) : Option (List Char × List Char) :=
  match s.toList.dropWhile (· ≠ c) with
  | [] => none
  | _ :: rest => some (s.toList.takeWhile (· ≠ c), rest)

/-- The text before the first separator and the text behind it. -/
def cutFirst (sep : List Char) : List Char → Option (List Char × List Char)
  | [] => none
  | c :: cs =>
    if sep.isPrefixOf (c :: cs) then some ([], (c :: cs).drop sep.length)
    else (cutFirst sep cs).map fun p => (c :: p.1, p.2)

/-- What comes after a prefix. -/
def stripPrefix (pre : String) (cs : List Char) : Option (List Char) :=
  if pre.toList.isPrefixOf cs then some (cs.drop pre.toList.length) else none

/-- The first `n` characters. -/
def takeChars (n : Nat) (s : String) : String := String.ofList (s.toList.take n)

/-! ### Slices -/

/-- The length of a text in bytes. -/
def bytes (cs : List Char) : ℕ := (cs.map Char.utf8Size).sum

@[simp] theorem bytes_nil : bytes [] = 0 := rfl

@[simp] theorem bytes_cons (a : Char) (cs : List Char) : bytes (a :: cs) = a.utf8Size + bytes cs := rfl

@[simp] theorem bytes_append (cs ds : List Char) : bytes (cs ++ ds) = bytes cs + bytes ds := by
  simp [bytes]

/-- `str::len`. -/
def len (s : String) : ℕ := bytes s.toList

/-- The characters after the first `n` bytes, if these end between two characters. -/
def dropBytes : Nat → List Char → Option (List Char)
  | 0, cs => some cs
  | _ + 1, [] => none
  | n + 1, c :: cs => if c.utf8Size ≤ n + 1 then dropBytes (n + 1 - c.utf8Size) cs else none

/-- The characters within the first `n` bytes, if these end between two characters. -/
def takeBytes : Nat → List Char → Option (List Char)
  | 0, _ => some []
  | _ + 1, [] => none
  | n + 1, c :: cs =>
    if c.utf8Size ≤ n + 1 then (takeBytes (n + 1 - c.utf8Size) cs).map (c :: ·) else none

/-- The slice from byte `start` up to byte `stop`, where both are boundaries of characters. -/
def slice (s : String) (start stop : Nat) : Option String :=
  if start ≤ stop then
    ((dropBytes start s.toList).bind (takeBytes (stop - start))).map String.ofList
  else none

theorem dropBytes_append : ∀ pre post : List Char, dropBytes (bytes pre) (pre ++ post) = some post
  | [], post => by cases post <;> rfl
  | c :: pre, post => by
    obtain ⟨n, hn⟩ : ∃ n, bytes (c :: pre) = n + 1 :=
      Nat.exists_eq_add_one.mpr (by have := c.utf8Size_pos; rw [bytes_cons]; omega)
    have hle : c.utf8Size ≤ n + 1 := by rw [← hn, bytes_cons]; omega
    have hsub : n + 1 - c.utf8Size = bytes pre := by rw [← hn, bytes_cons]; omega
    rw [hn, List.cons_append, dropBytes, if_pos hle, hsub]
    exact dropBytes_append pre post

theorem takeBytes_append : ∀ pre post : List Char, takeBytes (bytes pre) (pre ++ post) = some pre
  | [], post => by cases post <;> rfl
  | c :: pre, post => by
    obtain ⟨n, hn⟩ : ∃ n, bytes (c :: pre) = n + 1 :=
      Nat.exists_eq_add_one.mpr (by have := c.utf8Size_pos; rw [bytes_cons]; omega)
    have hle : c.utf8Size ≤ n + 1 := by rw [← hn, bytes_cons]; omega
    have hsub : n + 1 - c.utf8Size = bytes pre := by rw [← hn, bytes_cons]; omega
    rw [hn, List.cons_append, takeBytes, if_pos hle, hsub, takeBytes_append pre post]
    rfl

theorem slice_eq {s : String} {pre mid post : List Char} (h : s.toList = pre ++ mid ++ post) :
    slice s (bytes pre) (bytes pre + bytes mid) = some (String.ofList mid) := by
  unfold slice
  rw [if_pos (Nat.le_add_right _ _), h, List.append_assoc, dropBytes_append,
    Nat.add_sub_cancel_left]
  simp [takeBytes_append]

theorem mem_matchIndicesFrom {needle : List Char} : ∀ {skip p : ℕ} {cs : List Char} {i : ℕ},
    i ∈ matchIndicesFrom needle skip p cs → ∃ pre post, cs = pre ++ needle ++ post ∧ i = p + bytes pre
  | _, _, [], i, h => by simp [matchIndicesFrom] at h
  | skip + 1, p, c :: cs, i, h => by
    rw [matchIndicesFrom] at h
    obtain ⟨pre, post, rfl, rfl⟩ := mem_matchIndicesFrom h
    exact ⟨c :: pre, post, rfl, by rw [bytes_cons]; omega⟩
  | 0, p, c :: cs, i, h => by
    have later : ∀ {skip}, i ∈ matchIndicesFrom needle skip (p + c.utf8Size) cs →
        ∃ pre post, c :: cs = pre ++ needle ++ post ∧ i = p + bytes pre := by
      intro skip h
      obtain ⟨pre, post, rfl, rfl⟩ := mem_matchIndicesFrom h
      exact ⟨c :: pre, post, rfl, by rw [bytes_cons]; omega⟩
    unfold matchIndicesFrom at h
    split_ifs at h with hp
    · rcases List.mem_cons.mp h with rfl | h
      · obtain ⟨post, hpost⟩ := List.isPrefixOf_iff_prefix.mp hp
        exact ⟨[], post, hpost.symm, rfl⟩
      · exact later h
    · exact later h

theorem exists_of_dropBytes : ∀ {n : ℕ} {cs post : List Char}, dropBytes n cs = some post →
    ∃ pre, cs = pre ++ post ∧ n = bytes pre
  | 0, cs, post, h => ⟨[], by simpa [dropBytes] using h, rfl⟩
  | n + 1, [], post, h => by simp [dropBytes] at h
  | n + 1, c :: cs, post, h => by
    rw [dropBytes] at h
    split_ifs at h with hle
    obtain ⟨pre, rfl, hn⟩ := exists_of_dropBytes h
    exact ⟨c :: pre, rfl, by rw [bytes_cons]; omega⟩

theorem exists_of_takeBytes : ∀ {n : ℕ} {cs pre : List Char}, takeBytes n cs = some pre →
    ∃ post, cs = pre ++ post ∧ n = bytes pre
  | 0, cs, pre, h => by
    cases cs <;> cases h <;> exact ⟨_, rfl, rfl⟩
  | n + 1, [], pre, h => by simp [takeBytes] at h
  | n + 1, c :: cs, pre, h => by
    rw [takeBytes] at h
    split_ifs at h with hle
    obtain ⟨pre', hpre, rfl⟩ := Option.map_eq_some_iff.mp h
    obtain ⟨post, rfl, hn⟩ := exists_of_takeBytes hpre
    exact ⟨post, rfl, by rw [bytes_cons]; omega⟩

theorem exists_of_slice {s t : String} {start stop : ℕ} (h : slice s start stop = some t) :
    ∃ pre post, s.toList = pre ++ t.toList ++ post ∧ start = bytes pre ∧
      stop = start + bytes t.toList := by
  unfold slice at h
  split_ifs at h with hle
  obtain ⟨mid, hmid, rfl⟩ := Option.map_eq_some_iff.mp h
  obtain ⟨rest, hdrop, htake⟩ := Option.bind_eq_some_iff.mp hmid
  obtain ⟨pre, hs, hpre⟩ := exists_of_dropBytes hdrop
  obtain ⟨post, rfl, hlen⟩ := exists_of_takeBytes htake
  refine ⟨pre, post, by rw [hs, String.toList_ofList, List.append_assoc], hpre, ?_⟩
  rw [String.toList_ofList, ← hlen]
  omega

theorem pairwise_matchIndicesFrom {needle : List Char} : ∀ {skip p : ℕ} {cs : List Char},
    (matchIndicesFrom needle skip p cs).Pairwise (· < ·)
  | 0, _, [] => List.Pairwise.nil
  | _ + 1, _, [] => List.Pairwise.nil
  | skip + 1, p, c :: cs => by
    rw [matchIndicesFrom]
    exact pairwise_matchIndicesFrom
  | 0, p, c :: cs => by
    unfold matchIndicesFrom
    split_ifs
    · refine List.pairwise_cons.mpr ⟨fun i hi => ?_, pairwise_matchIndicesFrom⟩
      obtain ⟨pre, post, -, rfl⟩ := mem_matchIndicesFrom hi
      have := c.utf8Size_pos
      omega
    · exact pairwise_matchIndicesFrom

theorem slice_matchIndices {s needle : String} {i : ℕ} (h : i ∈ matchIndices s needle) :
    slice s i (i + len needle) = some needle := by
  obtain ⟨pre, post, hs, rfl⟩ := mem_matchIndicesFrom h
  rw [Nat.zero_add, len, slice_eq hs, String.ofList_toList]

/-! ### What is trimmed -/

theorem mem_dropWhile_of_not {p : Char → Bool} {c : Char} {cs : List Char} (hc : c ∈ cs)
    (hp : p c = false) : c ∈ cs.dropWhile p := by
  rw [← List.takeWhile_append_dropWhile (p := p) (l := cs)] at hc
  rcases List.mem_append.mp hc with h | h
  · rw [List.mem_takeWhile_imp h] at hp
    cases hp
  · exact h

theorem trim_ne_empty {s : String} {c : Char} (hc : c ∈ s.toList) (hw : isWhitespace c = false) :
    trim s ≠ "" := by
  have hend : c ∈ (trimEndMatches isWhitespace s).toList := by
    unfold trimEndMatches
    rw [String.toList_ofList, List.mem_reverse]
    exact mem_dropWhile_of_not (List.mem_reverse.mpr hc) hw
  have hstart : c ∈ (trim s).toList := by
    unfold trim trimStartMatches
    rw [String.toList_ofList]
    exact mem_dropWhile_of_not hend hw
  intro h
  rw [h] at hstart
  cases hstart

theorem exists_trimStartMatches (p : Char → Bool) (s : String) : ∃ pre : List Char,
    s.toList = pre ++ (trimStartMatches p s).toList ∧ ∀ c ∈ pre, p c = true := by
  unfold trimStartMatches
  rw [String.toList_ofList]
  exact ⟨s.toList.takeWhile p, List.takeWhile_append_dropWhile.symm,
    fun c hc => List.mem_takeWhile_imp hc⟩

theorem exists_trimEndMatches (p : Char → Bool) (s : String) : ∃ post : List Char,
    s.toList = (trimEndMatches p s).toList ++ post ∧ ∀ c ∈ post, p c = true := by
  unfold trimEndMatches
  rw [String.toList_ofList]
  refine ⟨(s.toList.reverse.takeWhile p).reverse, ?_, fun c hc => ?_⟩
  · rw [← List.reverse_append, List.takeWhile_append_dropWhile, List.reverse_reverse]
  · exact List.mem_takeWhile_imp (List.mem_reverse.mp hc)

theorem exists_trim (s : String) : ∃ pre post : List Char, s.toList = pre ++ (trim s).toList ++ post ∧
    (∀ c ∈ pre, isWhitespace c = true) ∧ ∀ c ∈ post, isWhitespace c = true := by
  obtain ⟨post, hend, hpost⟩ := exists_trimEndMatches isWhitespace s
  obtain ⟨pre, hstart, hpre⟩ := exists_trimStartMatches isWhitespace (trimEndMatches isWhitespace s)
  exact ⟨pre, post, by rw [hend, hstart]; rfl, hpre, hpost⟩

theorem filter_trim (s : String) : (trim s).toList.filter (fun c => !isWhitespace c) =
    s.toList.filter fun c => !isWhitespace c := by
  obtain ⟨pre, post, hs, hpre, hpost⟩ := exists_trim s
  have hnone : ∀ l : List Char, (∀ c ∈ l, isWhitespace c = true) →
      l.filter (fun c => !isWhitespace c) = [] := by
    intro l hl
    exact List.filter_eq_nil_iff.mpr fun c hc => by simp [hl c hc]
  rw [hs, List.filter_append, List.filter_append, hnone pre hpre, hnone post hpost, List.nil_append,
    List.append_nil]

theorem exists_of_trim_ne_empty {s : String} (h : trim s ≠ "") : ∃ c ∈ s.toList, isWhitespace c = false := by
  by_contra hall
  push Not at hall
  have hend : trimEndMatches isWhitespace s = "" := by
    unfold trimEndMatches
    rw [List.dropWhile_eq_nil_iff.mpr fun c hc => by simpa using hall c (List.mem_reverse.mp hc)]
    rfl
  exact h (by rw [trim, hend]; rfl)

theorem trim_trim_ne_empty {s : String} (h : trim s ≠ "") : trim (trim s) ≠ "" := by
  obtain ⟨c, hc, hw⟩ := exists_of_trim_ne_empty h
  have hkept : c ∈ (trim s).toList.filter fun c => !isWhitespace c := by
    rw [filter_trim]
    exact List.mem_filter.mpr ⟨hc, by simp [hw]⟩
  exact trim_ne_empty (List.mem_of_mem_filter hkept) hw

theorem trim_of_ends {s : String} (hhead : ∀ c ∈ s.toList.head?, isWhitespace c = false)
    (hlast : ∀ c ∈ s.toList.getLast?, isWhitespace c = false) : trim s = s := by
  obtain ⟨pre, post, hs, hpre, hpost⟩ := exists_trim s
  have hpre : pre = [] := by
    rcases pre with _ | ⟨c, pre⟩
    · rfl
    · have hno := hhead c (by rw [hs]; rfl)
      rw [hpre c List.mem_cons_self] at hno
      cases hno
  have hpost : post = [] := by
    rcases List.eq_nil_or_concat' post with h | ⟨init, c, rfl⟩
    · exact h
    · have hno := hlast c (by rw [hs, ← List.append_assoc, List.getLast?_concat]; rfl)
      rw [hpost c (List.mem_append_right _ List.mem_cons_self)] at hno
      cases hno
  rw [hpre, hpost, List.nil_append, List.append_nil] at hs
  exact String.toList_injective hs.symm

theorem length_trim_le (s : String) : (trim s).toList.length ≤ s.toList.length := by
  obtain ⟨pre, post, hs, -, -⟩ := exists_trim s
  rw [hs]
  simp only [List.length_append]
  omega

/-! ### Pieces -/

theorem length_of_cutFirst {sep : List Char} : ∀ {cs piece rest : List Char},
    cutFirst sep cs = some (piece, rest) → piece.length + rest.length ≤ cs.length
  | [], piece, rest, h => by simp [cutFirst] at h
  | c :: cs, piece, rest, h => by
    unfold cutFirst at h
    split_ifs at h
    · simp only [Option.some.injEq, Prod.mk.injEq] at h
      obtain ⟨rfl, rfl⟩ := h
      rw [List.length_drop, List.length_nil]
      omega
    · obtain ⟨⟨piece', rest'⟩, hcut, heq⟩ := Option.map_eq_some_iff.mp h
      simp only [Prod.mk.injEq] at heq
      obtain ⟨rfl, rfl⟩ := heq
      have := length_of_cutFirst hcut
      simp only [List.length_cons]
      omega

theorem stripPrefix_eq_some_iff {pre : String} {cs rest : List Char} :
    stripPrefix pre cs = some rest ↔ cs = pre.toList ++ rest := by
  unfold stripPrefix
  constructor
  · intro h
    split_ifs at h with hpre
    obtain ⟨tail, rfl⟩ := List.isPrefixOf_iff_prefix.mp hpre
    rw [List.drop_left] at h
    rw [Option.some.inj h]
  · rintro rfl
    rw [if_pos (List.isPrefixOf_iff_prefix.mpr (List.prefix_append ..)), List.drop_left]

theorem splitOn_ne_nil (sep : Char → Bool) : ∀ cs : List Char, splitOn sep cs ≠ []
  | [] => List.cons_ne_nil _ _
  | c :: cs => by
    rw [splitOn]
    split
    · exact List.cons_ne_nil _ _
    · split_ifs <;> exact List.cons_ne_nil _ _

theorem splitOn_cons_of_sep {sep : Char → Bool} {c : Char} (hc : sep c = true) (cs : List Char) :
    splitOn sep (c :: cs) = [] :: splitOn sep cs := by
  obtain ⟨w, ws, h⟩ := List.exists_cons_of_ne_nil (splitOn_ne_nil sep cs)
  rw [splitOn, h]
  exact if_pos hc

theorem splitOn_cons_of_not_sep {sep : Char → Bool} {c : Char} {cs w : List Char}
    {ws : List (List Char)} (hc : sep c = false) (h : splitOn sep cs = w :: ws) :
    splitOn sep (c :: cs) = (c :: w) :: ws := by
  rw [splitOn, h]
  exact if_neg (by rw [hc]; decide)

theorem splitOn_of_none {sep : Char → Bool} : ∀ {w : List Char}, (∀ c ∈ w, sep c = false) →
    splitOn sep w = [w]
  | [], _ => rfl
  | _ :: _, h =>
    splitOn_cons_of_not_sep (h _ List.mem_cons_self)
      (splitOn_of_none fun c hc => h c (List.mem_cons_of_mem _ hc))

theorem splitOn_append {sep : Char → Bool} {c : Char} (hc : sep c = true) (rest : List Char) :
    ∀ {w : List Char}, (∀ c ∈ w, sep c = false) → splitOn sep (w ++ c :: rest) = w :: splitOn sep rest
  | [], _ => splitOn_cons_of_sep hc rest
  | _ :: _, h =>
    splitOn_cons_of_not_sep (h _ List.mem_cons_self)
      (splitOn_append hc rest fun c hc => h c (List.mem_cons_of_mem _ hc))

theorem not_mem_of_mem_splitOn {sep : Char → Bool} {c : Char} (hc : sep c = true) :
    ∀ {cs w : List Char}, w ∈ splitOn sep cs → c ∉ w
  | [], w, h => by
    rw [List.mem_singleton.mp h]
    exact List.not_mem_nil
  | d :: cs, w, h => by
    have ih := fun {w} => @not_mem_of_mem_splitOn sep c hc cs w
    by_cases hd : sep d = true
    · rw [splitOn_cons_of_sep hd] at h
      rcases List.mem_cons.mp h with rfl | h
      · exact List.not_mem_nil
      · exact ih h
    · obtain ⟨v, vs, heq⟩ := List.exists_cons_of_ne_nil (splitOn_ne_nil sep cs)
      rw [splitOn_cons_of_not_sep (Bool.eq_false_iff.mpr hd) heq] at h
      rw [heq] at ih
      rcases List.mem_cons.mp h with rfl | h
      · intro hmem
        rcases List.mem_cons.mp hmem with rfl | hmem
        · exact hd hc
        · exact ih List.mem_cons_self hmem
      · exact ih (List.mem_cons_of_mem _ h)

theorem mem_of_mem_splitOn {sep : Char → Bool} {c : Char} : ∀ {cs w : List Char},
    w ∈ splitOn sep cs → c ∈ w → c ∈ cs
  | [], w, h, hc => by
    rw [List.mem_singleton.mp h] at hc
    cases hc
  | d :: cs, w, h, hc => by
    have ih := fun {w} => @mem_of_mem_splitOn sep c cs w
    by_cases hd : sep d = true
    · rw [splitOn_cons_of_sep hd] at h
      rcases List.mem_cons.mp h with rfl | h
      · cases hc
      · exact List.mem_cons_of_mem _ (ih h hc)
    · obtain ⟨v, vs, heq⟩ := List.exists_cons_of_ne_nil (splitOn_ne_nil sep cs)
      rw [splitOn_cons_of_not_sep (Bool.eq_false_iff.mpr hd) heq] at h
      rw [heq] at ih
      rcases List.mem_cons.mp h with rfl | h
      · rcases List.mem_cons.mp hc with rfl | hc
        · exact List.mem_cons_self
        · exact List.mem_cons_of_mem _ (ih List.mem_cons_self hc)
      · exact List.mem_cons_of_mem _ (ih (List.mem_cons_of_mem _ h) hc)

/-! ### Numbers -/

/-- An unsigned decimal below `bound`: an optional plus sign and at least one ASCII digit. -/
def parseUnsigned (bound : Nat) (s : String) : Option Nat :=
  let ds := match s.toList with
    | '+' :: ds => ds
    | ds => ds
  if ds ≠ [] ∧ ds.all Char.isDigit then
    let n := ds.foldl (fun n d => 10 * n + (d.toNat - 48)) 0
    if n < bound then some n else none
  else none

theorem parseUnsigned_lt {bound n : ℕ} {s : String} (h : parseUnsigned bound s = some n) :
    n < bound := by
  unfold parseUnsigned at h
  simp only at h
  split_ifs at h with h1 h2
  cases h
  exact h2

/-- The last `w` decimal digits of a number, leading zeros included. -/
def padded : ℕ → ℕ → List Char
  | 0, _ => []
  | w + 1, n => padded w (n / 10) ++ [Nat.digitChar (n % 10)]

theorem isDigit_of_mem_padded {c : Char} : ∀ {w n : ℕ}, c ∈ padded w n → c.isDigit = true
  | 0, n, h => by cases h
  | w + 1, n, h => by
    rcases List.mem_append.mp h with h | h
    · exact isDigit_of_mem_padded h
    · rw [List.mem_singleton.mp h, Nat.isDigit_digitChar]
      exact decide_eq_true (Nat.mod_lt n (by decide))

theorem foldl_padded : ∀ w n : ℕ,
    (padded w n).foldl (fun n d => 10 * n + (d.toNat - 48)) 0 = n % 10 ^ w
  | 0, n => (Nat.mod_one n).symm
  | w + 1, n => by
    have hdigit : n % 10 < 10 := Nat.mod_lt n (by decide)
    rw [padded, List.foldl_append, foldl_padded w (n / 10), List.foldl_cons, List.foldl_nil,
      Nat.toNat_digitChar_sub_48_of_lt_ten hdigit, Nat.pow_succ', Nat.mod_mul]
    omega

theorem parseUnsigned_padded {w n bound : ℕ} (hw : w ≠ 0) (hn : n < 10 ^ w) (hbound : n < bound) :
    parseUnsigned bound (String.ofList (padded w n)) = some n := by
  have hne : padded w n ≠ [] := by
    cases w with
    | zero => exact absurd rfl hw
    | succ w => simp [padded]
  have hall : (padded w n).all Char.isDigit = true := List.all_eq_true.mpr fun c => isDigit_of_mem_padded
  have hval := foldl_padded w n
  rw [Nat.mod_eq_of_lt hn] at hval
  unfold parseUnsigned
  rw [String.toList_ofList]
  split
  · next ds heq =>
    have hplus : '+' ∈ padded w n := by rw [heq]; exact List.mem_cons_self
    exact absurd (isDigit_of_mem_padded hplus) (by decide)
  · simp only [hval]
    rw [if_pos ⟨hne, hall⟩, if_pos hbound]

theorem not_mem_toDigits {c : Char} (hc : c.isDigit = false) (n : ℕ) : c ∉ Nat.toDigits 10 n := by
  intro h
  rw [Nat.isDigit_of_mem_toDigits (by decide) (by decide) h] at hc
  cases hc

theorem toDigits_inj {m n : ℕ} (h : Nat.toDigits 10 m = Nat.toDigits 10 n) : m = n := by
  rw [← Nat.ofDigitChars_ten_toDigits (n := m), h, Nat.ofDigitChars_ten_toDigits]

/-- A text is cut in one way only at a separator that does not occur before it. -/
theorem cut_first {c : Char} : ∀ {l₁ l₂ r₁ r₂ : List Char}, c ∉ l₁ → c ∉ l₂ →
    l₁ ++ c :: r₁ = l₂ ++ c :: r₂ → l₁ = l₂ ∧ r₁ = r₂
  | [], [], _, _, _, _, h => ⟨rfl, (List.cons.inj h).2⟩
  | [], a :: l₂, _, _, _, h₂, h => absurd (List.cons.inj h).1 fun e => h₂ (by simp [e])
  | a :: l₁, [], _, _, h₁, _, h => absurd (List.cons.inj h).1 fun e => h₁ (by simp [e])
  | a :: l₁, b :: l₂, r₁, r₂, h₁, h₂, h => by
    obtain ⟨rfl, h'⟩ : a = b ∧ l₁ ++ c :: r₁ = l₂ ++ c :: r₂ := List.cons.inj h
    obtain ⟨rfl, hr⟩ := cut_first (fun hm => h₁ (List.mem_cons_of_mem _ hm))
      (fun hm => h₂ (List.mem_cons_of_mem _ hm)) h'
    exact ⟨rfl, hr⟩

theorem number_before_inj {c : Char} (hc : c.isDigit = false) {m n : ℕ} {a b : String}
    (h : toString m ++ String.singleton c ++ a = toString n ++ String.singleton c ++ b) :
    m = n ∧ a = b := by
  have hl := congrArg String.toList h
  simp only [String.toList_append, String.toList_singleton, Nat.toString_eq_repr, Nat.toList_repr,
    List.append_assoc, List.singleton_append] at hl
  obtain ⟨hd, hr⟩ := cut_first (not_mem_toDigits hc m) (not_mem_toDigits hc n) hl
  exact ⟨toDigits_inj hd, String.toList_injective hr⟩

theorem after_inj {c : Char} {a b s t : String} (hs : c ∉ s.toList) (ht : c ∉ t.toList)
    (h : a ++ String.singleton c ++ s = b ++ String.singleton c ++ t) : a = b ∧ s = t := by
  have hl := congrArg (List.reverse ∘ String.toList) h
  simp only [Function.comp, String.toList_append, String.toList_singleton, List.reverse_append,
    List.reverse_singleton, List.singleton_append] at hl
  obtain ⟨hd, hr⟩ := cut_first (by simpa using hs) (by simpa using ht) hl
  exact ⟨String.toList_injective (List.reverse_injective hr),
    String.toList_injective (List.reverse_injective hd)⟩

theorem not_mem_toString_nat {c : Char} (hc : c.isDigit = false) (n : ℕ) : c ∉ (toString n).toList := by
  simpa only [Nat.toString_eq_repr, Nat.toList_repr] using not_mem_toDigits hc n

theorem toString_negSucc (n : ℕ) : toString (Int.negSucc n) = "-" ++ toString (n + 1) := rfl

theorem not_mem_toString_int {c : Char} (hc : c.isDigit = false) (hminus : c ≠ '-') (n : ℤ) :
    c ∉ (toString n).toList := by
  cases n with
  | ofNat k => exact not_mem_toString_nat hc k
  | negSucc k =>
    rw [toString_negSucc, String.toList_append, List.mem_append]
    rintro (h | h)
    · exact hminus (by simpa using h)
    · exact not_mem_toString_nat hc (k + 1) h

theorem toString_nat_inj {m n : ℕ} (h : toString m = toString n) : m = n := by
  simp only [Nat.toString_eq_repr] at h
  exact toDigits_inj (by rw [← Nat.toList_repr, h, Nat.toList_repr])

theorem toString_int_inj {m n : ℤ} (h : toString m = toString n) : m = n := by
  have hminus : ∀ i j : ℕ, toString i ≠ "-" ++ toString j := by
    intro i j hij
    refine not_mem_toString_nat (c := '-') (by decide) i ?_
    rw [hij, String.toList_append]
    exact List.mem_append_left _ (by decide)
  cases m with
  | ofNat i =>
    cases n with
    | ofNat j => exact congrArg Int.ofNat (toString_nat_inj h)
    | negSucc j => exact absurd h (hminus i (j + 1))
  | negSucc i =>
    cases n with
    | ofNat j => exact absurd h.symm (hminus j (i + 1))
    | negSucc j =>
      rw [toString_negSucc, toString_negSucc, String.append_right_inj] at h
      have hij := toString_nat_inj h
      congr 1
      omega

theorem number_after_inj {c : Char} (hc : c.isDigit = false) {m n : ℕ} {a b : String}
    (h : a ++ String.singleton c ++ toString m = b ++ String.singleton c ++ toString n) :
    a = b ∧ m = n := by
  obtain ⟨hab, hmn⟩ := after_inj (not_mem_toString_nat hc m) (not_mem_toString_nat hc n) h
  exact ⟨hab, toString_nat_inj hmn⟩

/-! ### ASCII letters -/

theorem isUpper_iff_toNat {c : Char} : c.isUpper = true ↔ 65 ≤ c.toNat ∧ c.toNat ≤ 90 := by
  show decide (c.val ≥ 'A'.val ∧ c.val ≤ 'Z'.val) = true ↔ _
  rw [decide_eq_true_eq, ge_iff_le, UInt32.le_iff_toNat_le, UInt32.le_iff_toNat_le]
  rfl

theorem isLower_iff_toNat {c : Char} : c.isLower = true ↔ 97 ≤ c.toNat ∧ c.toNat ≤ 122 := by
  show (decide (c.val ≥ 'a'.val) && decide (c.val ≤ 'z'.val)) = true ↔ _
  rw [Bool.and_eq_true, decide_eq_true_eq, decide_eq_true_eq, ge_iff_le, UInt32.le_iff_toNat_le,
    UInt32.le_iff_toNat_le]
  rfl

theorem isAlphanum_iff {c : Char} :
    c.isAlphanum = true ↔ c.isUpper = true ∨ c.isLower = true ∨ c.isDigit = true := by
  show ((c.isUpper || c.isLower) || c.isDigit) = true ↔ _
  rw [Bool.or_eq_true, Bool.or_eq_true, or_assoc]

theorem toNat_toLower {c : Char} (h : c.isUpper = true) : c.toLower.toNat = c.toNat + 32 := by
  have hupper : c.val ≥ 'A'.val ∧ c.val ≤ 'Z'.val := decide_eq_true_eq.mp h
  have hrange := isUpper_iff_toNat.mp h
  unfold Char.toLower
  rw [dif_pos hupper]
  show (c.val + 32).toNat = c.val.toNat + 32
  rw [UInt32.toNat_add]
  have hval : c.val.toNat = c.toNat := rfl
  have h32 : (32 : UInt32).toNat = 32 := rfl
  omega

theorem toLower_of_not_isUpper {c : Char} (h : ¬ c.isUpper = true) : c.toLower = c := by
  unfold Char.toLower
  rw [dif_neg fun hupper => h (decide_eq_true hupper)]

/-! ### Decoding -/

/-- The text a sequence of bytes encodes in UTF-8, if it is one. -/
def decode (bytes : List UInt8) : Option String := String.fromUTF8? ⟨bytes.toArray⟩

end StarStats.Lib.Text
