import Mathlib.Tactic.IntervalCases
import StarStats.Lib.Json
import StarStats.Lib.Text

/-! # What a JSON text says

The compact text of a value is that of no other value (`render_inj`), where the numbers are integers: a
literal ends at its quotation mark, an array or an object at its bracket, and a number where something
comes that no number goes on with. -/

namespace StarStats.Lib.Json

open StarStats.Lib.Text

/-! ### String literals -/

/-- The character that an escape stands for, and what comes after it. -/
def unescape : List Char → Option (Char × List Char)
  | '\\' :: 'n' :: rest => some ('\n', rest)
  | '\\' :: 'r' :: rest => some ('\r', rest)
  | '\\' :: 't' :: rest => some ('\t', rest)
  | '\\' :: 'b' :: rest => some (Char.ofNat 8, rest)
  | '\\' :: 'f' :: rest => some (Char.ofNat 12, rest)
  | '\\' :: 'u' :: '0' :: '0' :: high :: low :: rest =>
    some (Char.ofNat (16 * (high.toNat - 48) + if low.toNat < 58 then low.toNat - 48 else low.toNat - 87),
      rest)
  | '\\' :: c :: rest => some (c, rest)
  | c :: rest => some (c, rest)
  | [] => none

theorem unescape_escapeChar (c : Char) (rest : List Char) :
    unescape (escapeChar c ++ rest) = some (c, rest) := by
  have hcontrol : ∀ n < 32, unescape (escapeChar (Char.ofNat n) ++ rest) = some (Char.ofNat n, rest) := by
    intro n hn
    interval_cases n <;> rfl
  by_cases hc : c.toNat < 32
  · have h := hcontrol c.toNat hc
    rwa [Char.ofNat_toNat] at h
  · unfold escapeChar
    split
    · rfl
    · rfl
    · rfl
    · rfl
    · rfl
    · next hquote hslash _ _ _ =>
      rw [if_neg (by omega), if_neg (by omega), if_neg hc, List.singleton_append]
      unfold unescape
      split <;> simp_all

theorem escapeChar_append_inj {c d : Char} {r r' : List Char} (h : escapeChar c ++ r = escapeChar d ++ r') :
    c = d ∧ r = r' := by
  have hread := unescape_escapeChar c r
  rw [h, unescape_escapeChar d r'] at hread
  obtain ⟨rfl, rfl⟩ := Prod.mk.inj (Option.some.inj hread)
  exact ⟨rfl, rfl⟩

theorem escapeChar_ne_quote (c : Char) (r r' : List Char) : escapeChar c ++ r ≠ '"' :: r' := by
  intro h
  have hread := unescape_escapeChar c r
  have hquote : unescape ('"' :: r') = some ('"', r') := rfl
  rw [h, hquote] at hread
  obtain ⟨rfl, -⟩ := Prod.mk.inj (Option.some.inj hread)
  cases h

theorem literal_append_inj : ∀ {s t r r' : List Char},
    s.flatMap escapeChar ++ '"' :: r = t.flatMap escapeChar ++ '"' :: r' → s = t ∧ r = r'
  | [], [], r, r', h => ⟨rfl, (List.cons.inj h).2⟩
  | [], d :: t, r, r', h => by
    rw [List.flatMap_cons, List.append_assoc] at h
    exact absurd h.symm (escapeChar_ne_quote d _ _)
  | c :: s, [], r, r', h => by
    rw [List.flatMap_cons, List.append_assoc] at h
    exact absurd h (escapeChar_ne_quote c _ _)
  | c :: s, d :: t, r, r', h => by
    rw [List.flatMap_cons, List.flatMap_cons, List.append_assoc, List.append_assoc] at h
    obtain ⟨rfl, hrest⟩ := escapeChar_append_inj h
    obtain ⟨rfl, hr⟩ := literal_append_inj hrest
    exact ⟨rfl, hr⟩

theorem toList_quote (s : String) (r : List Char) :
    (quote s).toList ++ r = '"' :: (s.toList.flatMap escapeChar ++ '"' :: r) := by
  unfold quote
  simp

theorem quote_append_inj {s t : String} {r r' : List Char}
    (h : (quote s).toList ++ r = (quote t).toList ++ r') : s = t ∧ r = r' := by
  rw [toList_quote, toList_quote] at h
  obtain ⟨hst, hr⟩ := literal_append_inj (List.cons.inj h).2
  exact ⟨String.toList_injective hst, hr⟩

/-! ### Numbers -/

/-- What the text of an integer is made of. -/
def isNumberChar (c : Char) : Bool := c.isDigit || c = '-'

/-- A rest that no number goes on with. -/
def Ends (r : List Char) : Prop := ∀ c ∈ r.head?, isNumberChar c = false

/-- Two beginnings of characters of one kind, before rests that do not go on with it, are the same. -/
theorem append_inj_of_all {p : Char → Bool} : ∀ {l l' r r' : List Char}, (∀ c ∈ l, p c = true) →
    (∀ c ∈ l', p c = true) → (∀ c ∈ r.head?, p c = false) → (∀ c ∈ r'.head?, p c = false) →
    l ++ r = l' ++ r' → l = l' ∧ r = r'
  | [], [], r, r', _, _, _, _, h => ⟨rfl, h⟩
  | [], d :: l', r, r', _, hl', hr, _, h => by
    rw [List.nil_append] at h
    rw [h] at hr
    have hd := hr d rfl
    rw [hl' d (List.mem_cons_self ..)] at hd
    cases hd
  | c :: l, [], r, r', hl, _, _, hr', h => by
    rw [List.nil_append] at h
    rw [← h] at hr'
    have hc := hr' c rfl
    rw [hl c (List.mem_cons_self ..)] at hc
    cases hc
  | c :: l, d :: l', r, r', hl, hl', hr, hr', h => by
    obtain ⟨rfl, htail⟩ := List.cons.inj h
    obtain ⟨rfl, hrest⟩ := append_inj_of_all (fun c hc => hl c (List.mem_cons_of_mem _ hc))
      (fun c hc => hl' c (List.mem_cons_of_mem _ hc)) hr hr' htail
    exact ⟨rfl, hrest⟩

theorem isNumberChar_of_mem_toString {n : ℤ} {c : Char} (hc : c ∈ (toString n).toList) :
    isNumberChar c = true := by
  by_contra hno
  unfold isNumberChar at hno
  rw [Bool.or_eq_true, decide_eq_true_eq, not_or] at hno
  exact not_mem_toString_int (Bool.eq_false_iff.mpr hno.1) hno.2 n hc

theorem toString_append_inj {m n : ℤ} {r r' : List Char} (hr : Ends r) (hr' : Ends r')
    (h : (toString m).toList ++ r = (toString n).toList ++ r') : m = n ∧ r = r' := by
  obtain ⟨hmn, hrest⟩ := append_inj_of_all (fun _ => isNumberChar_of_mem_toString)
    (fun _ => isNumberChar_of_mem_toString) hr hr' h
  exact ⟨toString_int_inj (String.toList_injective hmn), hrest⟩

/-! ### Values -/

mutual

/-- Every number in the value is an integer. -/
def Integral : Value → Prop
  | .float _ => False
  | .arr vs => IntegralItems vs
  | .obj fs => IntegralFields fs
  | _ => True

/-- Every number in the array is an integer. -/
def IntegralItems : List Value → Prop
  | [] => True
  | v :: vs => Integral v ∧ IntegralItems vs

/-- Every number under the fields is one. -/
def IntegralFields : List (String × Value) → Prop
  | [] => True
  | (_, v) :: fs => Integral v ∧ IntegralFields fs

end

theorem integralFields_iff : ∀ {fs : List (String × Value)}, IntegralFields fs ↔ ∀ f ∈ fs, Integral f.2
  | [] => iff_of_true trivial fun _ hf => absurd hf List.not_mem_nil
  | (k, v) :: fs => by
    unfold IntegralFields
    rw [integralFields_iff, List.forall_mem_cons]

/-- The kind of a value. -/
def kind : Value → ℕ
  | .null => 0
  | .bool _ => 1
  | .int _ => 2
  | .float _ => 3
  | .str _ => 4
  | .arr _ => 5
  | .obj _ => 6

/-- The kind of the value whose text begins with the character. -/
def kindAt (c : Char) : ℕ :=
  if c = 'n' then 0
  else if c = 't' ∨ c = 'f' then 1
  else if isNumberChar c then 2
  else if c = '"' then 4
  else if c = '[' then 5
  else if c = '\x7b' then 6
  else 3

theorem exists_head_render {v : Value} (hv : Integral v) :
    ∃ c cs, v.render.toList = c :: cs ∧ kindAt c = kind v := by
  cases v with
  | null => exact ⟨'n', _, rfl, rfl⟩
  | bool b =>
    cases b with
    | false => exact ⟨'f', _, rfl, rfl⟩
    | true => exact ⟨'t', _, rfl, rfl⟩
  | int n =>
    have hne : (toString n).toList ≠ [] := by
      intro hnil
      cases n with
      | ofNat k =>
        have hne := @Nat.toDigits_ne_nil k 10
        rw [← Nat.toList_repr] at hne
        exact hne hnil
      | negSucc k =>
        rw [toString_negSucc, String.toList_append] at hnil
        cases hnil
    obtain ⟨c, cs, hcs⟩ := List.exists_cons_of_ne_nil hne
    have hc : isNumberChar c = true := isNumberChar_of_mem_toString (n := n) (by rw [hcs]; simp)
    refine ⟨c, cs, hcs, ?_⟩
    have hn : c ≠ 'n' := by rintro rfl; cases hc
    have htf : ¬ (c = 't' ∨ c = 'f') := by rintro (rfl | rfl) <;> cases hc
    unfold kindAt
    rw [if_neg hn, if_neg htf, if_pos hc]
    rfl
  | float r => exact hv.elim
  | str s =>
    have h := toList_quote s []
    rw [List.append_nil] at h
    exact ⟨'"', _, h, rfl⟩
  | arr vs =>
    refine ⟨'[', (renderItems vs ++ "]").toList, ?_, rfl⟩
    unfold Value.render
    simp
  | obj fs =>
    refine ⟨'\x7b', (renderFields fs ++ "\x7d").toList, ?_, rfl⟩
    unfold Value.render
    simp

theorem kind_eq_of_append {v w : Value} {r r' : List Char} (hv : Integral v) (hw : Integral w)
    (h : v.render.toList ++ r = w.render.toList ++ r') : kind v = kind w := by
  obtain ⟨c, cs, hcs, hc⟩ := exists_head_render hv
  obtain ⟨d, ds, hds, hd⟩ := exists_head_render hw
  rw [hcs, hds] at h
  rw [← hc, ← hd, (List.cons.inj h).1]

theorem render_ne_bracket {v : Value} {r r' : List Char} (hv : Integral v) :
    v.render.toList ++ r ≠ ']' :: r' := by
  intro h
  obtain ⟨c, cs, hcs, hc⟩ := exists_head_render hv
  rw [hcs] at h
  rw [(List.cons.inj h).1] at hc
  cases v with
  | float r => exact hv
  | _ => cases hc

/-- What comes after the first item. -/
def moreItems : List Value → String
  | [] => ""
  | v :: vs => "," ++ renderItems (v :: vs)

/-- The fields behind the first. -/
def moreFields : List (String × Value) → String
  | [] => ""
  | f :: fs => "," ++ renderFields (f :: fs)

theorem renderItems_cons (v : Value) (vs : List Value) :
    renderItems (v :: vs) = v.render ++ moreItems vs := by
  cases vs with
  | nil => simp [renderItems, moreItems]
  | cons w vs => simp [renderItems, moreItems, String.append_assoc]

theorem renderFields_cons (k : String) (v : Value) (fs : List (String × Value)) :
    renderFields ((k, v) :: fs) = quote k ++ ":" ++ v.render ++ moreFields fs := by
  cases fs with
  | nil => simp [renderFields, moreFields]
  | cons f fs => simp [renderFields, moreFields, String.append_assoc]

theorem ends_moreItems (vs : List Value) (r : List Char) : Ends ((moreItems vs).toList ++ ']' :: r) := by
  intro c hc
  cases vs with
  | nil =>
    obtain rfl := Option.some.inj hc
    rfl
  | cons v vs =>
    unfold moreItems at hc
    rw [String.toList_append] at hc
    obtain rfl := Option.some.inj hc
    rfl

theorem ends_moreFields (fs : List (String × Value)) (r : List Char) :
    Ends ((moreFields fs).toList ++ '\x7d' :: r) := by
  intro c hc
  cases fs with
  | nil =>
    obtain rfl := Option.some.inj hc
    rfl
  | cons f fs =>
    unfold moreFields at hc
    rw [String.toList_append] at hc
    obtain rfl := Option.some.inj hc
    rfl

theorem moreItems_append_inj {vs ws : List Value} {r r' : List Char}
    (ih : (renderItems vs).toList ++ ']' :: r = (renderItems ws).toList ++ ']' :: r' → vs = ws ∧ r = r')
    (h : (moreItems vs).toList ++ ']' :: r = (moreItems ws).toList ++ ']' :: r') : vs = ws ∧ r = r' := by
  cases vs with
  | nil =>
    cases ws with
    | nil => exact ih h
    | cons w ws =>
      unfold moreItems at h
      rw [String.toList_append] at h
      cases (List.cons.inj h).1
  | cons v vs =>
    unfold moreItems at h
    cases ws with
    | nil =>
      rw [String.toList_append] at h
      cases (List.cons.inj h).1
    | cons w ws =>
      rw [String.toList_append, String.toList_append, List.append_assoc, List.append_assoc] at h
      exact ih (List.append_cancel_left h)

theorem moreFields_append_inj {fs gs : List (String × Value)} {r r' : List Char}
    (ih : (renderFields fs).toList ++ '\x7d' :: r = (renderFields gs).toList ++ '\x7d' :: r' →
      fs = gs ∧ r = r')
    (h : (moreFields fs).toList ++ '\x7d' :: r = (moreFields gs).toList ++ '\x7d' :: r') :
    fs = gs ∧ r = r' := by
  cases fs with
  | nil =>
    cases gs with
    | nil => exact ih h
    | cons g gs =>
      unfold moreFields at h
      rw [String.toList_append] at h
      cases (List.cons.inj h).1
  | cons f fs =>
    unfold moreFields at h
    cases gs with
    | nil =>
      rw [String.toList_append] at h
      cases (List.cons.inj h).1
    | cons g gs =>
      rw [String.toList_append, String.toList_append, List.append_assoc, List.append_assoc] at h
      exact ih (List.append_cancel_left h)

theorem toList_renderFields_cons (k : String) (v : Value) (fs : List (String × Value)) (r : List Char) :
    (renderFields ((k, v) :: fs)).toList ++ r =
      (quote k).toList ++ (':' :: (v.render.toList ++ ((moreFields fs).toList ++ r))) := by
  rw [renderFields_cons]
  simp

mutual

/-- **The text of a value, and where it ends, tell the value.** -/
theorem render_append_inj : ∀ {v w : Value} {r r' : List Char}, Integral v → Integral w → Ends r →
    Ends r' → v.render.toList ++ r = w.render.toList ++ r' → v = w ∧ r = r'
  | .null, w, r, r', hv, hw, _, _, h => by
    have hkind := kind_eq_of_append hv hw h
    cases w with
    | null => exact ⟨rfl, List.append_cancel_left h⟩
    | _ => cases hkind
  | .bool b, w, r, r', hv, hw, _, _, h => by
    have hkind := kind_eq_of_append hv hw h
    cases w with
    | bool c =>
      unfold Value.render at h
      cases b <;> cases c
      · exact ⟨rfl, List.append_cancel_left h⟩
      · cases (List.cons.inj h).1
      · cases (List.cons.inj h).1
      · exact ⟨rfl, List.append_cancel_left h⟩
    | _ => cases hkind
  | .int n, w, r, r', hv, hw, hr, hr', h => by
    have hkind := kind_eq_of_append hv hw h
    cases w with
    | int m =>
      unfold Value.render at h
      obtain ⟨rfl, hrest⟩ := toString_append_inj hr hr' h
      exact ⟨rfl, hrest⟩
    | _ => cases hkind
  | .float _, w, r, r', hv, _, _, _, _ => hv.elim
  | .str s, w, r, r', hv, hw, _, _, h => by
    have hkind := kind_eq_of_append hv hw h
    cases w with
    | str t =>
      unfold Value.render at h
      obtain ⟨rfl, hrest⟩ := quote_append_inj h
      exact ⟨rfl, hrest⟩
    | _ => cases hkind
  | .arr vs, w, r, r', hv, hw, _, _, h => by
    have hkind := kind_eq_of_append hv hw h
    cases w with
    | arr ws =>
      unfold Value.render at h
      simp only [String.toList_append, List.append_assoc] at h
      obtain ⟨rfl, hrest⟩ := renderItems_append_inj hv hw (List.append_cancel_left h)
      exact ⟨rfl, hrest⟩
    | _ => cases hkind
  | .obj fs, w, r, r', hv, hw, _, _, h => by
    have hkind := kind_eq_of_append hv hw h
    cases w with
    | obj gs =>
      unfold Value.render at h
      simp only [String.toList_append, List.append_assoc] at h
      obtain ⟨rfl, hrest⟩ := renderFields_append_inj hv hw (List.append_cancel_left h)
      exact ⟨rfl, hrest⟩
    | _ => cases hkind

theorem renderItems_append_inj : ∀ {vs ws : List Value} {r r' : List Char}, IntegralItems vs →
    IntegralItems ws → (renderItems vs).toList ++ ']' :: r = (renderItems ws).toList ++ ']' :: r' →
    vs = ws ∧ r = r'
  | [], [], r, r', _, _, h => ⟨rfl, (List.cons.inj h).2⟩
  | [], w :: ws, r, r', _, hws, h => by
    rw [renderItems_cons, String.toList_append, List.append_assoc] at h
    exact absurd h.symm (render_ne_bracket hws.1)
  | v :: vs, [], r, r', hvs, _, h => by
    rw [renderItems_cons, String.toList_append, List.append_assoc] at h
    exact absurd h (render_ne_bracket hvs.1)
  | v :: vs, w :: ws, r, r', hvs, hws, h => by
    rw [renderItems_cons, renderItems_cons, String.toList_append, String.toList_append, List.append_assoc,
      List.append_assoc] at h
    obtain ⟨rfl, hmore⟩ := render_append_inj hvs.1 hws.1 (ends_moreItems vs r) (ends_moreItems ws r') h
    obtain ⟨rfl, hrest⟩ := moreItems_append_inj (renderItems_append_inj hvs.2 hws.2) hmore
    exact ⟨rfl, hrest⟩

theorem renderFields_append_inj : ∀ {fs gs : List (String × Value)} {r r' : List Char},
    IntegralFields fs → IntegralFields gs →
    (renderFields fs).toList ++ '\x7d' :: r = (renderFields gs).toList ++ '\x7d' :: r' → fs = gs ∧ r = r'
  | [], [], r, r', _, _, h => ⟨rfl, (List.cons.inj h).2⟩
  | [], (l, w) :: gs, r, r', _, _, h => by
    rw [toList_renderFields_cons, toList_quote] at h
    cases (List.cons.inj h).1
  | (k, v) :: fs, [], r, r', _, _, h => by
    rw [toList_renderFields_cons, toList_quote] at h
    cases (List.cons.inj h).1
  | (k, v) :: fs, (l, w) :: gs, r, r', hfs, hgs, h => by
    rw [toList_renderFields_cons, toList_renderFields_cons] at h
    obtain ⟨rfl, htail⟩ := quote_append_inj h
    have hvalues := (List.cons.inj htail).2
    obtain ⟨rfl, hmore⟩ :=
      render_append_inj hfs.1 hgs.1 (ends_moreFields fs r) (ends_moreFields gs r') hvalues
    obtain ⟨rfl, hrest⟩ := moreFields_append_inj (renderFields_append_inj hfs.2 hgs.2) hmore
    exact ⟨rfl, hrest⟩

end

theorem render_inj {v w : Value} (hv : Integral v) (hw : Integral w) (h : v.render = w.render) : v = w := by
  have hends : Ends [] := fun c hc => absurd hc (Option.not_mem_none c)
  refine (render_append_inj hv hw hends hends ?_).1
  rw [h]

end StarStats.Lib.Json
