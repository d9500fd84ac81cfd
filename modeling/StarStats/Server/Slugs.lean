import StarStats.Server.Orgs

/-! # Slugs

The slug of a name consists of words of letters and digits with a dash between them. A name that is taken
gets a number behind its slug, which is cut to make room for it; a long slug that ends in the same number
already is left as it was, and tried again (`suffixLaws_iff`). -/

namespace StarStats.Server.Slugs

open StarStats.Lib.Text StarStats.Server.Orgs

/-- What a slug is made of. -/
def isSlugChar (c : Char) : Bool := c.isLower || c.isDigit || c = '-'

/-- A text that can stand in a path as it is. -/
structure IsSlug (s : List Char) : Prop where
  length_le : s.length ≤ slugMaxLen
  chars : ∀ c ∈ s, isSlugChar c = true
  head : s.head? ≠ some '-'
  last : s.getLast? ≠ some '-'
  single : ¬ ['-', '-'] <:+: s

/-- What `slugify` makes of any name. -/
structure SlugifyLaws (input : String) : Prop where
  slug : IsSlug (slugify input).toList
  empty : slugify input = "" → ∀ c ∈ input.toList, c.isAlphanum = false
  idempotent : slugify (slugify input) = slugify input

/-- `-N` -/
def suffixOf (n : ℕ) : List Char := '-' :: (toString n).toList

/-- `slug_with_suffix` with its slice, which does not return off a boundary of characters. -/
def slugWithSuffixSliced (base : String) (n : ℕ) : Option String :=
  let suffix := "-" ++ toString n
  let maxBase := slugMaxLen - len suffix
  (if maxBase < len base then slice base 0 maxBase else some base).map fun s =>
    String.ofList (trimDashes s.toList) ++ suffix

/-- What is tried for a slug. -/
structure SuffixLaws (base : String) : Prop where
  slug : ∀ n, 2 ≤ n → n ≤ 10 → IsSlug (slugWithSuffix base n).toList
  boundary : ∀ n, 2 ≤ n → n ≤ 10 → slugWithSuffixSliced base n = some (slugWithSuffix base n)
  distinct : (slugCandidates base).Nodup

/-- The slug is long and ends in a number that is tried. -/
def Numbered (base : String) : Prop :=
  63 ≤ base.toList.length ∧ ∃ n, 2 ≤ n ∧ n ≤ 10 ∧ suffixOf n <:+ base.toList

/-! ### Dashes -/

section Dashes
variable {s t : List Char} {c : Char}

theorem not_dashes_concat (h : ¬ ['-', '-'] <:+: s) (hc : c = '-' → s.getLast? ≠ some '-') :
    ¬ ['-', '-'] <:+: s ++ [c] := by
  intro hdashes
  rcases List.infix_concat_iff.mp hdashes with hsuffix | hdashes
  · rcases List.suffix_concat_iff.mp hsuffix with hnil | ⟨u, hu, hlast⟩
    · cases hnil
    · have hu : ['-'] ++ ['-'] = u ++ [c] := hu
      obtain ⟨rfl, hcons⟩ := List.append_inj' hu rfl
      refine hc (List.cons.inj hcons).1.symm ?_
      obtain ⟨v, rfl⟩ := hlast
      rw [List.getLast?_append, List.getLast?_singleton, Option.some_or]
  · exact h hdashes

theorem prefix_trimDashes : trimDashes s <+: s := List.rdropWhile_prefix ..

theorem getLast?_trimDashes : (trimDashes s).getLast? ≠ some '-' := by
  intro h
  have hne : trimDashes s ≠ [] := by
    intro hnil
    rw [hnil] at h
    cases h
  have hlast := List.rdropWhile_last_not (fun c : Char => decide (c = '-')) s hne
  rw [List.getLast?_eq_getLast_of_ne_nil hne] at h
  exact hlast (decide_eq_true (Option.some.inj h))

theorem trimDashes_of_getLast? (h : s.getLast? ≠ some '-') : trimDashes s = s := by
  refine List.rdropWhile_eq_self_iff.mpr fun hne hlast => h ?_
  rw [List.getLast?_eq_getLast_of_ne_nil hne, of_decide_eq_true hlast]

theorem trimDashes_concat_dash : trimDashes (s ++ ['-']) = trimDashes s :=
  List.rdropWhile_concat_pos _ _ _ (by decide)

/-- Where no dash follows another one, at most one is cut off. -/
theorem length_le_trimDashes (h : ¬ ['-', '-'] <:+: s) : s.length ≤ (trimDashes s).length + 1 := by
  induction s using List.reverseRecOn with
  | nil => exact Nat.zero_le _
  | append_singleton s c ih =>
    by_cases hc : c = '-'
    · subst hc
      have hlast : s.getLast? ≠ some '-' := by
        intro hlast
        obtain ⟨u, rfl⟩ := List.getLast?_eq_some_iff.mp hlast
        refine h ⟨u, [], ?_⟩
        simp
      rw [trimDashes_concat_dash, trimDashes_of_getLast? hlast, List.length_append,
        List.length_singleton]
    · have hlast : (s ++ [c]).getLast? ≠ some '-' := by
        rw [List.getLast?_concat]
        exact fun hsome => hc (Option.some.inj hsome)
      rw [trimDashes_of_getLast? hlast]
      omega

theorem trimDashes_ne_nil (hne : s ≠ []) (hhead : s.head? ≠ some '-') : trimDashes s ≠ [] := by
  intro hnil
  obtain ⟨c, l, rfl⟩ := List.exists_cons_of_ne_nil hne
  have hall := List.rdropWhile_eq_nil_iff.mp hnil c (List.mem_cons_self ..)
  refine hhead ?_
  rw [List.head?_cons, of_decide_eq_true hall]

theorem head?_of_start (h : t <+: s) (hne : t ≠ []) : t.head? = s.head? := by
  obtain ⟨u, rfl⟩ := h
  obtain ⟨c, l, rfl⟩ := List.exists_cons_of_ne_nil hne
  rfl

theorem head?_prefix_ne (h : t <+: s) (hs : s.head? ≠ some '-') : t.head? ≠ some '-' := by
  by_cases hne : t = []
  · rw [hne]
    exact fun hsome => by cases hsome
  · rw [head?_of_start h hne]
    exact hs

end Dashes

/-! ### The slug of a name -/

section Slugify
variable {s : List Char} {c : Char}

theorem isSlugChar_toLower (h : c.isAlphanum = true) :
    isSlugChar c.toLower = true ∧ c.toLower ≠ '-' := by
  have hword : c.toLower.isLower = true ∨ c.toLower.isDigit = true := by
    by_cases hupper : c.isUpper = true
    · have hrange := isUpper_iff_toNat.mp hupper
      have hlower := toNat_toLower hupper
      exact Or.inl (isLower_iff_toNat.mpr (by omega))
    · rw [toLower_of_not_isUpper hupper]
      exact (isAlphanum_iff.mp h).resolve_left hupper
  refine ⟨?_, ?_⟩
  · unfold isSlugChar
    rcases hword with hword | hword <;> simp [hword]
  · rintro hdash
    rw [hdash] at hword
    rcases hword with hword | hword <;> cases hword

theorem alphanum_of_isSlugChar (h : isSlugChar c = true) (hne : c ≠ '-') :
    c.isAlphanum = true ∧ c.toLower = c := by
  have hword : c.isLower = true ∨ c.isDigit = true := by
    unfold isSlugChar at h
    simp only [Bool.or_eq_true, decide_eq_true_eq] at h
    exact h.resolve_right hne
  have hupper : ¬ c.isUpper = true := by
    intro hupper
    have hrange := isUpper_iff_toNat.mp hupper
    rcases hword with hword | hword
    · have hlower := isLower_iff_toNat.mp hword
      omega
    · have hdigit := Char.isDigit_iff_toNat.mp hword
      have hnine : '9'.toNat = 57 := rfl
      omega
  exact ⟨isAlphanum_iff.mpr (Or.inr hword), toLower_of_not_isUpper hupper⟩

/-- What has come of a name so far, with what the flag says. -/
structure Collapsed (s : List Char × Bool) : Prop where
  chars : ∀ c ∈ s.1, isSlugChar c = true
  head : s.1.head? ≠ some '-'
  single : ¬ ['-', '-'] <:+: s.1
  flag : s.2 = true ↔ s.1.getLast? = some '-'

theorem Collapsed.slugStep {s : List Char × Bool} (h : Collapsed s) (ch : Char) :
    Collapsed (slugStep s ch) := by
  unfold Orgs.slugStep
  split_ifs with hword hdash
  · obtain ⟨hchar, hne⟩ := isSlugChar_toLower hword
    refine ⟨fun c hc => ?_, ?_, not_dashes_concat h.single fun heq => absurd heq hne, ?_⟩
    · rcases List.mem_append.mp hc with hc | hc
      · exact h.chars c hc
      · rw [List.mem_singleton.mp hc]
        exact hchar
    · by_cases hnil : s.1 = []
      · rw [hnil]
        exact fun heq => hne (Option.some.inj heq)
      · rw [← head?_of_start (List.prefix_append ..) hnil]
        exact h.head
    · rw [List.getLast?_concat]
      exact iff_of_false Bool.false_ne_true fun heq => hne (Option.some.inj heq)
  · simp only [Bool.and_eq_true, Bool.not_eq_true'] at hdash
    obtain ⟨hflag, hne⟩ := hdash
    have hlast : s.1.getLast? ≠ some '-' := by
      intro hlast
      rw [h.flag.mpr hlast] at hflag
      cases hflag
    refine ⟨fun c hc => ?_, ?_, not_dashes_concat h.single fun _ => hlast, ?_⟩
    · rcases List.mem_append.mp hc with hc | hc
      · exact h.chars c hc
      · rw [List.mem_singleton.mp hc]
        rfl
    · have hne : s.1 ≠ [] := by
        intro hnil
        rw [hnil] at hne
        cases hne
      rw [← head?_of_start (List.prefix_append ..) hne]
      exact h.head
    · rw [List.getLast?_concat]
      exact iff_of_true rfl rfl
  · exact h

theorem collapsed_foldl (input : List Char) : Collapsed (input.foldl slugStep ([], false)) := by
  induction input using List.reverseRecOn with
  | nil =>
    refine ⟨fun c hc => absurd hc List.not_mem_nil, Option.some_ne_none _ |>.symm, by simp, ?_⟩
    exact iff_of_false Bool.false_ne_true (Option.some_ne_none _).symm
  | append_singleton input ch ih =>
    rw [List.foldl_append]
    exact ih.slugStep ch

theorem foldl_slugStep_eq_nil {input : List Char} (h : (input.foldl slugStep ([], false)).1 = []) :
    ∀ c ∈ input, c.isAlphanum = false := by
  induction input using List.reverseRecOn with
  | nil => exact fun c hc => absurd hc List.not_mem_nil
  | append_singleton input ch ih =>
    rw [List.foldl_append, List.foldl_cons, List.foldl_nil] at h
    unfold slugStep at h
    split_ifs at h with hword hdash
    · exact absurd h (List.append_ne_nil_of_right_ne_nil _ (List.cons_ne_nil _ _))
    · exact absurd h (List.append_ne_nil_of_right_ne_nil _ (List.cons_ne_nil _ _))
    · intro c hc
      rcases List.mem_append.mp hc with hc | hc
      · exact ih h c hc
      · rw [List.mem_singleton.mp hc]
        exact Bool.eq_false_iff.mpr hword

theorem toList_slugify (input : String) : ∃ out,
    out = trimDashes (input.toList.foldl slugStep ([], false)).1 ∧ (slugify input).toList =
      if slugMaxLen < out.length then trimDashes (out.take slugMaxLen) else out :=
  ⟨_, rfl, String.toList_ofList⟩

theorem isSlug_slugify (input : String) : IsSlug (slugify input).toList := by
  have hcollapsed := collapsed_foldl input.toList
  obtain ⟨out, hout, hslug⟩ := toList_slugify input
  have hpre : out <+: (input.toList.foldl slugStep ([], false)).1 := by
    rw [hout]
    exact prefix_trimDashes
  have hkeep : ∀ t, t <+: out → t.length ≤ slugMaxLen → t.getLast? ≠ some '-' → IsSlug t := by
    intro t ht hlen hlast
    have ht := ht.trans hpre
    exact ⟨hlen, fun c hc => hcollapsed.chars c (ht.subset hc), head?_prefix_ne ht hcollapsed.head, hlast,
      fun hdashes => hcollapsed.single (hdashes.trans ht.isInfix)⟩
  rw [hslug]
  split_ifs with hlong
  · have hcut : trimDashes (out.take slugMaxLen) <+: out := prefix_trimDashes.trans (List.take_prefix ..)
    refine hkeep _ hcut ?_ getLast?_trimDashes
    exact prefix_trimDashes.length_le.trans (List.length_take_le ..)
  · refine hkeep out (List.prefix_refl out) (Nat.le_of_not_lt hlong) ?_
    rw [hout]
    exact getLast?_trimDashes

theorem alphanum_of_slugify_eq_empty {input : String} (h : slugify input = "") :
    ∀ c ∈ input.toList, c.isAlphanum = false := by
  have hcollapsed := collapsed_foldl input.toList
  obtain ⟨out, hout, hslug⟩ := toList_slugify input
  refine foldl_slugStep_eq_nil (by_contra fun hne => ?_)
  have hne' : out ≠ [] := by
    rw [hout]
    exact trimDashes_ne_nil hne hcollapsed.head
  have hpre : out <+: (input.toList.foldl slugStep ([], false)).1 := by
    rw [hout]
    exact prefix_trimDashes
  rw [h, String.toList_empty] at hslug
  split_ifs at hslug with hlong
  · have hcut : out.take slugMaxLen <+: (input.toList.foldl slugStep ([], false)).1 :=
      (List.take_prefix ..).trans hpre
    refine trimDashes_ne_nil ?_ (head?_prefix_ne hcut hcollapsed.head) hslug.symm
    intro hnil
    rcases List.take_eq_nil_iff.mp hnil with hzero | hnil
    · cases hzero
    · exact hne' hnil
  · exact hne' hslug.symm

theorem foldl_slugStep_of_chars (hchars : ∀ c ∈ s, isSlugChar c = true) (hhead : s.head? ≠ some '-')
    (hsingle : ¬ ['-', '-'] <:+: s) : (s.foldl slugStep ([], false)).1 = s := by
  induction s using List.reverseRecOn with
  | nil => rfl
  | append_singleton s c ih =>
    have hpre : s <+: s ++ [c] := List.prefix_append ..
    have ih := ih (fun c' hc' => hchars c' (hpre.subset hc')) (head?_prefix_ne hpre hhead)
      fun hdashes => hsingle (hdashes.trans hpre.isInfix)
    have hflag := (collapsed_foldl s).flag
    rw [ih] at hflag
    rw [List.foldl_append, List.foldl_cons, List.foldl_nil]
    generalize s.foldl slugStep ([], false) = state at ih hflag ⊢
    unfold slugStep
    rw [ih]
    by_cases hc : c = '-'
    · subst hc
      have hlast : state.2 = false := by
        refine Bool.eq_false_iff.mpr fun htrue => ?_
        obtain ⟨u, rfl⟩ := List.getLast?_eq_some_iff.mp (hflag.mp htrue)
        refine hsingle ⟨u, [], ?_⟩
        simp
      have hne : s.isEmpty = false := by
        refine Bool.eq_false_iff.mpr fun hnil => ?_
        rw [List.isEmpty_iff.mp hnil] at hhead
        exact hhead rfl
      rw [if_neg (by decide), hlast, hne]
      rfl
    · have hword := alphanum_of_isSlugChar (hchars c (by simp)) hc
      rw [if_pos hword.1, hword.2]

theorem slugify_of_isSlug {slug : String} (h : IsSlug slug.toList) : slugify slug = slug := by
  unfold slugify
  rw [foldl_slugStep_of_chars h.chars h.head h.single, trimDashes_of_getLast? h.last]
  simp only
  rw [if_neg (Nat.not_lt.mpr h.length_le), String.ofList_toList]

end Slugify

/-! ### The number behind it -/

section Suffix
variable {base : String} {s : List Char} {m n : ℕ}

theorem isDigit_of_mem_toString {c : Char} (hc : c ∈ (toString n).toList) : c.isDigit = true := by
  by_contra hdigit
  exact not_mem_toString_nat (Bool.eq_false_iff.mpr hdigit) n hc

theorem isSlugChar_of_mem_suffixOf {c : Char} (hc : c ∈ suffixOf n) : isSlugChar c = true := by
  unfold isSlugChar
  rcases List.mem_cons.mp hc with rfl | hc
  · rfl
  · simp [isDigit_of_mem_toString hc]

/-- A number up to ten has one or two digits, of which the last one tells it from the others. -/
theorem getLast?_suffixOf (h2 : 2 ≤ n) (h10 : n ≤ 10) :
    (suffixOf n).getLast? = some (Nat.digitChar (n % 10)) ∧
      (suffixOf n).length = if n = 10 then 3 else 2 := by
  have hall : ∀ n < 11, 2 ≤ n → (suffixOf n).getLast? = some (Nat.digitChar (n % 10)) ∧
      (suffixOf n).length = if n = 10 then 3 else 2 := by
    decide
  exact hall n (by omega) h2

theorem toList_slugWithSuffix : (slugWithSuffix base n).toList =
    trimDashes (base.toList.take (slugMaxLen - (suffixOf n).length)) ++ suffixOf n := by
  have hsuffix : ("-" ++ toString n).toList = suffixOf n := by
    rw [String.toList_append]
    rfl
  unfold slugWithSuffix
  simp only
  rw [String.toList_append, String.toList_ofList, ← String.length_toList, hsuffix]

theorem not_dashes_append {digits : List Char} (h : ¬ ['-', '-'] <:+: s)
    (hdigits : ∀ c ∈ digits, c ≠ '-') : ¬ ['-', '-'] <:+: s ++ digits := by
  induction digits using List.reverseRecOn with
  | nil => rwa [List.append_nil]
  | append_singleton digits c ih =>
    have ih := ih fun c' hc' => hdigits c' (List.mem_append_left _ hc')
    rw [← List.append_assoc]
    exact not_dashes_concat ih fun hc => absurd hc (hdigits c (by simp))

theorem isSlug_slugWithSuffix (h : IsSlug base.toList) (hne : base ≠ "") (h2 : 2 ≤ n) (h10 : n ≤ 10) :
    IsSlug (slugWithSuffix base n).toList := by
  obtain ⟨hlast, hlength⟩ := getLast?_suffixOf h2 h10
  have hsuffix : (suffixOf n).length ≤ 3 := by
    rw [hlength]
    split_ifs <;> omega
  have hpre : trimDashes (base.toList.take (slugMaxLen - (suffixOf n).length)) <+: base.toList :=
    prefix_trimDashes.trans (List.take_prefix ..)
  have hcut : base.toList.take (slugMaxLen - (suffixOf n).length) ≠ [] := by
    intro hnil
    rcases List.take_eq_nil_iff.mp hnil with hzero | hnil
    · unfold slugMaxLen at hzero
      omega
    · exact hne (String.toList_eq_nil_iff.mp hnil)
  have hhead : trimDashes (base.toList.take (slugMaxLen - (suffixOf n).length)) ≠ [] :=
    trimDashes_ne_nil hcut (head?_prefix_ne (List.take_prefix ..) h.head)
  rw [toList_slugWithSuffix]
  refine ⟨?_, fun c hc => ?_, ?_, ?_, ?_⟩
  · have hle := (prefix_trimDashes (s := base.toList.take (slugMaxLen - (suffixOf n).length))).length_le
    have htake := List.length_take_le (slugMaxLen - (suffixOf n).length) base.toList
    rw [List.length_append]
    unfold slugMaxLen at hle htake ⊢
    omega
  · rcases List.mem_append.mp hc with hc | hc
    · exact h.chars c (hpre.subset hc)
    · exact isSlugChar_of_mem_suffixOf hc
  · rw [← head?_of_start (List.prefix_append ..) hhead]
    exact head?_prefix_ne hpre h.head
  · rw [List.getLast?_append, hlast, Option.some_or]
    intro hdash
    have hdigit : ∀ k < 10, Nat.digitChar k ≠ '-' := by decide
    exact hdigit (n % 10) (Nat.mod_lt n (by decide)) (Option.some.inj hdash)
  · have hdash := not_dashes_concat (c := '-') (fun hdashes => h.single (hdashes.trans hpre.isInfix))
      fun _ => getLast?_trimDashes
    have hdigits : ∀ c ∈ (toString n).toList, c ≠ '-' := by
      rintro c hc rfl
      cases isDigit_of_mem_toString hc
    have hsingle := not_dashes_append hdash hdigits
    rwa [List.append_assoc] at hsingle

theorem bytes_of_chars (h : ∀ c ∈ s, isSlugChar c = true) : bytes s = s.length := by
  induction s with
  | nil => rfl
  | cons c s ih =>
    have hc := h c (List.mem_cons_self ..)
    have hsize : c.utf8Size = 1 := by
      refine Char.utf8Size_eq_one_iff.mpr ?_
      rw [UInt32.le_iff_toNat_le]
      have hval : c.val.toNat = c.toNat := rfl
      have h127 : (127 : UInt32).toNat = 127 := rfl
      rw [hval, h127]
      unfold isSlugChar at hc
      simp only [Bool.or_eq_true, decide_eq_true_eq] at hc
      rcases hc with (hc | hc) | rfl
      · have hrange := isLower_iff_toNat.mp hc
        omega
      · have hrange := Char.isDigit_iff_toNat.mp hc
        have hnine : '9'.toNat = 57 := rfl
        omega
      · decide
    rw [bytes_cons, ih fun c' hc' => h c' (List.mem_cons_of_mem _ hc'), hsize, List.length_cons]
    omega

theorem slugWithSuffixSliced_eq (h : IsSlug base.toList) :
    slugWithSuffixSliced base n = some (slugWithSuffix base n) := by
  have hsuffix : len ("-" ++ toString n) = ("-" ++ toString n).length := by
    unfold len
    rw [← String.length_toList]
    refine bytes_of_chars fun c hc => isSlugChar_of_mem_suffixOf (n := n) ?_
    rw [String.toList_append] at hc
    exact hc
  have hbase : len base = base.toList.length := bytes_of_chars h.chars
  unfold slugWithSuffixSliced slugWithSuffix
  simp only
  rw [hsuffix, hbase]
  generalize slugMaxLen - ("-" ++ toString n).length = maxBase
  split_ifs with hlong
  · have hcut : base.toList = [] ++ base.toList.take maxBase ++ base.toList.drop maxBase := by
      rw [List.nil_append, List.take_append_drop]
    have hchars : ∀ c ∈ base.toList.take maxBase, isSlugChar c = true :=
      fun c hc => h.chars c (List.mem_of_mem_take hc)
    have hslice := slice_eq hcut
    rw [bytes_of_chars hchars, List.length_take_of_le hlong.le] at hslice
    have hzero : bytes [] + maxBase = maxBase := Nat.zero_add maxBase
    rw [hzero] at hslice
    rw [show bytes [] = 0 from rfl] at hslice
    rw [hslice, Option.map_some, String.toList_ofList]
  · rw [Option.map_some, List.take_of_length_le (Nat.le_of_not_lt hlong)]

/-- A slug with a number is the slug itself if it is long and ends in the number. -/
theorem slugWithSuffix_eq_iff (h : IsSlug base.toList) (h2 : 2 ≤ n) (h10 : n ≤ 10) :
    slugWithSuffix base n = base ↔ 63 ≤ base.toList.length ∧ suffixOf n <:+ base.toList := by
  obtain ⟨-, hlength⟩ := getLast?_suffixOf h2 h10
  have hmax := h.length_le
  rw [← String.toList_inj, toList_slugWithSuffix]
  unfold slugMaxLen at hmax ⊢
  constructor
  · intro heq
    have hsum := congrArg List.length heq
    rw [List.length_append] at hsum
    refine ⟨?_, ⟨_, heq⟩⟩
    by_contra hshort
    rcases Nat.lt_or_ge (64 - (suffixOf n).length) base.toList.length with hcut | hwhole
    · -- two digits behind a slug of 62 letters: the cut takes one letter, and one dash at most
      have htrim : (base.toList.take (64 - (suffixOf n).length)).length ≤
          (trimDashes (base.toList.take (64 - (suffixOf n).length))).length + 1 :=
        length_le_trimDashes fun hdashes => h.single (hdashes.trans (List.take_prefix ..).isInfix)
      rw [List.length_take_of_le hcut.le] at htrim
      split_ifs at hlength <;> omega
    · rw [List.take_of_length_le hwhole, trimDashes_of_getLast? h.last] at hsum
      split_ifs at hlength <;> omega
  · rintro ⟨hlong, front, hfront⟩
    have hsum := congrArg List.length hfront
    rw [List.length_append] at hsum
    -- what stands before the number does not end in a dash
    have hlast : front.getLast? ≠ some '-' := by
      intro hlast
      obtain ⟨u, rfl⟩ := List.getLast?_eq_some_iff.mp hlast
      refine h.single ⟨u, (toString n).toList, ?_⟩
      rw [← hfront]
      simp [suffixOf]
    have htrim : trimDashes (base.toList.take (64 - (suffixOf n).length)) = front := by
      rcases Nat.lt_or_ge 63 base.toList.length with h64 | h63
      · have htake : base.toList.take (64 - (suffixOf n).length) = front := by
          rw [← hfront]
          exact List.take_left' (by omega)
        rw [htake, trimDashes_of_getLast? hlast]
      · have htake : base.toList.take (64 - (suffixOf n).length) = front ++ ['-'] := by
          have hsplit : base.toList = front ++ ['-'] ++ (toString n).toList := by
            rw [← hfront, List.append_assoc]
            rfl
          rw [hsplit]
          refine List.take_left' ?_
          rw [List.length_append, List.length_singleton]
          split_ifs at hlength <;> omega
        rw [htake, trimDashes_concat_dash, trimDashes_of_getLast? hlast]
    rw [htrim, hfront]

theorem slugWithSuffix_inj (h2 : 2 ≤ n) (h10 : n ≤ 10) (h2' : 2 ≤ m) (h10' : m ≤ 10)
    (heq : slugWithSuffix base m = slugWithSuffix base n) : m = n := by
  have hlast := congrArg (fun slug : String => slug.toList.getLast?) heq
  simp only [toList_slugWithSuffix, List.getLast?_append, (getLast?_suffixOf h2 h10).1,
    (getLast?_suffixOf h2' h10').1, Option.some_or, Option.some.injEq] at hlast
  have hdigits : ∀ m < 11, ∀ n < 11, 2 ≤ m → 2 ≤ n →
      Nat.digitChar (m % 10) = Nat.digitChar (n % 10) → m = n := by
    decide
  exact hdigits m (by omega) n (by omega) h2' h2 hlast

theorem nodup_slugCandidates_iff (h : IsSlug base.toList) :
    (slugCandidates base).Nodup ↔ ¬ Numbered base := by
  have hnumbers : ((List.range slugCollisionMax).map fun i => slugWithSuffix base (i + 2)).Nodup := by
    refine List.Nodup.map_on (fun i hi j hj heq => ?_) List.nodup_range
    have hi := List.mem_range.mp hi
    have hj := List.mem_range.mp hj
    unfold slugCollisionMax at hi hj
    have hsame := slugWithSuffix_inj (by omega) (by omega) (by omega) (by omega) heq
    omega
  unfold slugCandidates
  rw [List.nodup_cons, and_iff_left hnumbers, not_iff_not, List.mem_map]
  constructor
  · rintro ⟨i, hi, heq⟩
    have hi := List.mem_range.mp hi
    unfold slugCollisionMax at hi
    obtain ⟨hlong, hsuffix⟩ := (slugWithSuffix_eq_iff h (by omega) (by omega)).mp heq
    exact ⟨hlong, i + 2, by omega, by omega, hsuffix⟩
  · rintro ⟨hlong, n, h2, h10, hsuffix⟩
    refine ⟨n - 2, List.mem_range.mpr ?_, ?_⟩
    · unfold slugCollisionMax
      omega
    · rw [Nat.sub_add_cancel h2]
      exact (slugWithSuffix_eq_iff h h2 h10).mpr ⟨hlong, hsuffix⟩

/-- **Every name has a well-formed slug, and what is tried for a slug is well formed and distinct, exactly
if the slug is not a long one that ends in a number that is tried.** -/
theorem suffixLaws_iff (h : IsSlug base.toList) (hne : base ≠ "") :
    ((∀ input, SlugifyLaws input) ∧ SuffixLaws base) ↔ ¬ Numbered base := by
  constructor
  · rintro ⟨-, hlaws⟩
    exact (nodup_slugCandidates_iff h).mp hlaws.distinct
  · intro hnumbered
    refine ⟨fun input => ⟨isSlug_slugify input, alphanum_of_slugify_eq_empty,
      slugify_of_isSlug (isSlug_slugify input)⟩, fun n h2 h10 => isSlug_slugWithSuffix h hne h2 h10,
      fun n _ _ => slugWithSuffixSliced_eq h, (nodup_slugCandidates_iff h).mpr hnumbered⟩

end Suffix

/-! ### A long name that ends in a number -/

/-- Sixty-two letters, a dash and a two. -/
def longName : String := String.ofList (List.replicate 62 'a') ++ "-2"

theorem suffixLaws_iff_coolOrg : IsSlug "cool-org".toList ∧
    (((∀ input, SlugifyLaws input) ∧ SuffixLaws "cool-org") ↔ ¬ Numbered "cool-org") := by
  have hslug : IsSlug "cool-org".toList :=
    ⟨by decide +kernel, List.all_eq_true.mp (by decide +kernel), by decide +kernel, by decide +kernel,
      by decide +kernel⟩
  exact ⟨hslug, suffixLaws_iff hslug (by decide)⟩

/-- **The second slug that is tried for it is the first one again.** -/
theorem not_suffixLaws_longName : IsSlug longName.toList ∧ slugify longName = longName ∧
    (slugCandidates longName).take 2 = [longName, longName] ∧ ¬ SuffixLaws longName := by
  have hslug : IsSlug longName.toList :=
    ⟨by decide +kernel, List.all_eq_true.mp (by decide +kernel), by decide +kernel, by decide +kernel,
      by decide +kernel⟩
  refine ⟨hslug, slugify_of_isSlug hslug, by decide +kernel, fun h => ?_⟩
  have hnumbered : Numbered longName := ⟨by decide +kernel, 2, by decide, by decide, by decide +kernel⟩
  exact (nodup_slugCandidates_iff hslug).mp h.distinct hnumbered

end StarStats.Server.Slugs
