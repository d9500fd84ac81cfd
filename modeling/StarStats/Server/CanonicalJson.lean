import Mathlib.Data.List.Perm.Basic
import StarStats.Lib.JsonText
import StarStats.Server.Audit

/-! # Canonical JSON

The payload of an audit row is hashed as a text in which the fields of every object stand in the order of
their names. Two payloads have the same text exactly if they are the same up to the order of the fields, at
every level (`canonicalizeIn_eq_iff`), whichever order a map keeps them in. -/

namespace StarStats.Server.CanonicalJson

open StarStats.Lib.Json StarStats.Lib.Tables StarStats.Server.Audit

/-- The fields of an object, in their order. -/
abbrev Fields := List (String × Value)

/-! ### Maps -/

/-- What a map keeps its fields in the order of. -/
inductive MapKind where
  | insertion
  | names

/-- A map that keeps the order of insertion; a new value of a field takes the place of the old one. -/
def insertLast (fs : Fields) (f : String × Value) : Fields :=
  if fs.any (·.1 = f.1) then fs.map fun g => if g.1 = f.1 then f else g else fs ++ [f]

/-- A map that keeps the order of the names. -/
def insertSorted : Fields → String × Value → Fields
  | [], f => [f]
  | g :: fs, f => if f.1 < g.1 then f :: g :: fs else if f.1 = g.1 then f :: fs else g :: insertSorted fs f

/-- `serde_json::Map::insert` -/
def MapKind.insert : MapKind → Fields → String × Value → Fields
  | insertion => insertLast
  | names => insertSorted

mutual

/-- `sort_keys`, into maps of a kind. -/
def sortKeysIn (m : MapKind) : Value → Value
  | .obj fs => .obj ((sortBy Prod.fst (sortFieldsIn m fs)).foldl m.insert [])
  | .arr vs => .arr (sortItemsIn m vs)
  | v => v

/-- `sortKeysIn` along an array. -/
def sortItemsIn (m : MapKind) : List Value → List Value
  | [] => []
  | v :: vs => sortKeysIn m v :: sortItemsIn m vs

/-- `sortKeysIn` along the fields of an object. -/
def sortFieldsIn (m : MapKind) : Fields → Fields
  | [] => []
  | (k, v) :: fs => (k, sortKeysIn m v) :: sortFieldsIn m fs

end

/-- The text of a value, with the keys in the order that the map keeps. -/
def canonicalizeIn (m : MapKind) (v : Value) : String := (sortKeysIn m v).render

/-! ### The same up to order -/

mutual

/-- The same up to the order of fields. -/
inductive Same : Value → Value → Prop
  | null : Same .null .null
  | bool (b : Bool) : Same (.bool b) (.bool b)
  | int (n : ℤ) : Same (.int n) (.int n)
  | float (r : String) : Same (.float r) (.float r)
  | str (s : String) : Same (.str s) (.str s)
  | arr {vs ws : List Value} : SameItems vs ws → Same (.arr vs) (.arr ws)
  | obj {fs gs gs' : Fields} : SameFields fs gs' → gs'.Perm gs → Same (.obj fs) (.obj gs)

/-- Arrays of the same values, one by one. -/
inductive SameItems : List Value → List Value → Prop
  | nil : SameItems [] []
  | cons {v w : Value} {vs ws : List Value} : Same v w → SameItems vs ws → SameItems (v :: vs) (w :: ws)

/-- Fields of the same names and values, one by one. -/
inductive SameFields : Fields → Fields → Prop
  | nil : SameFields [] []
  | cons {k : String} {v w : Value} {fs gs : Fields} : Same v w → SameFields fs gs →
      SameFields ((k, v) :: fs) ((k, w) :: gs)

end

mutual

/-- No object has two fields of one name. -/
def DistinctKeys : Value → Prop
  | .arr vs => DistinctItems vs
  | .obj fs => (fs.map Prod.fst).Nodup ∧ DistinctFields fs
  | _ => True

/-- No object in the array has a key twice. -/
def DistinctItems : List Value → Prop
  | [] => True
  | v :: vs => DistinctKeys v ∧ DistinctItems vs

/-- No object under the fields has a key twice. -/
def DistinctFields : Fields → Prop
  | [] => True
  | (_, v) :: fs => DistinctKeys v ∧ DistinctFields fs

end

/-- A payload with integers for numbers, and one field for a name. -/
structure Plain (v : Value) : Prop where
  integral : Integral v
  distinct : DistinctKeys v

/-! ### Sorted fields -/

section Sorted
variable {fs gs : Fields} {f : String × Value}

theorem sortFields_eq_map : ∀ fs : Fields, sortFields fs = fs.map fun f => (f.1, sortKeys f.2)
  | [] => rfl
  | (k, v) :: fs => by
    unfold sortFields
    rw [sortFields_eq_map fs]
    rfl

theorem map_fst_sortFields (fs : Fields) : (sortFields fs).map Prod.fst = fs.map Prod.fst := by
  rw [sortFields_eq_map, List.map_map]
  rfl

theorem sortBy_fst_eq_of_perm (hfs : (fs.map Prod.fst).Nodup) (h : fs.Perm gs) :
    sortBy Prod.fst fs = sortBy Prod.fst gs :=
  sortBy_eq_of_perm (fun _ ha _ hb => List.inj_on_of_nodup_map hfs ha hb) h

theorem pairwise_lt_sortBy (hfs : (fs.map Prod.fst).Nodup) :
    (sortBy Prod.fst fs).Pairwise fun f g => f.1 < g.1 := by
  have hnodup : ((sortBy Prod.fst fs).map Prod.fst).Nodup :=
    ((perm_sortBy Prod.fst fs).map Prod.fst).nodup_iff.mpr hfs
  have hne := List.pairwise_map.mp hnodup
  exact (pairwise_sortBy Prod.fst fs).imp₂ (fun _ _ hle hne => lt_of_le_of_ne hle hne) hne

theorem insertLast_of_lt (h : ∀ g ∈ fs, g.1 < f.1) : insertLast fs f = fs ++ [f] := by
  unfold insertLast
  refine if_neg fun hany => ?_
  obtain ⟨g, hg, heq⟩ := List.any_eq_true.mp hany
  exact (h g hg).ne (of_decide_eq_true heq)

theorem insertSorted_of_lt (h : ∀ g ∈ fs, g.1 < f.1) : insertSorted fs f = fs ++ [f] := by
  induction fs with
  | nil => rfl
  | cons g fs ih =>
    have hg := h g (List.mem_cons_self ..)
    unfold insertSorted
    rw [if_neg hg.not_gt, if_neg hg.ne', ih fun g' hg' => h g' (List.mem_cons_of_mem _ hg')]
    rfl

theorem foldl_insert (m : MapKind) : ∀ {acc fs : Fields}, (acc ++ fs).Pairwise (fun f g => f.1 < g.1) →
    fs.foldl m.insert acc = acc ++ fs
  | acc, [], _ => (List.append_nil acc).symm
  | acc, f :: fs, h => by
    have hlt : ∀ g ∈ acc, g.1 < f.1 :=
      fun g hg => (List.pairwise_append.mp h).2.2 g hg f (List.mem_cons_self ..)
    have hinsert : m.insert acc f = acc ++ [f] := by
      cases m with
      | insertion => exact insertLast_of_lt hlt
      | names => exact insertSorted_of_lt hlt
    have hsplit : acc ++ f :: fs = acc ++ [f] ++ fs := by simp
    rw [hsplit] at h ⊢
    rw [List.foldl_cons, hinsert]
    exact foldl_insert m h

end Sorted

/-! ### Either kind of map -/

mutual

theorem sortKeysIn_eq (m : MapKind) : ∀ {v : Value}, DistinctKeys v → sortKeysIn m v = sortKeys v
  | .null, _ => rfl
  | .bool _, _ => rfl
  | .int _, _ => rfl
  | .float _, _ => rfl
  | .str _, _ => rfl
  | .arr vs, hv => by
    unfold sortKeysIn sortKeys
    rw [sortItemsIn_eq m hv]
  | .obj fs, hv => by
    have hnames : ((sortFields fs).map Prod.fst).Nodup := by
      rw [map_fst_sortFields]
      exact hv.1
    unfold sortKeysIn sortKeys
    rw [sortFieldsIn_eq m hv.2, foldl_insert m (pairwise_lt_sortBy hnames), List.nil_append]

theorem sortItemsIn_eq (m : MapKind) : ∀ {vs : List Value}, DistinctItems vs →
    sortItemsIn m vs = sortItems vs
  | [], _ => rfl
  | v :: vs, hvs => by
    unfold sortItemsIn sortItems
    rw [sortKeysIn_eq m hvs.1, sortItemsIn_eq m hvs.2]

theorem sortFieldsIn_eq (m : MapKind) : ∀ {fs : Fields}, DistinctFields fs →
    sortFieldsIn m fs = sortFields fs
  | [], _ => rfl
  | (k, v) :: fs, hfs => by
    unfold sortFieldsIn sortFields
    rw [sortKeysIn_eq m hfs.1, sortFieldsIn_eq m hfs.2]

end

theorem canonicalizeIn_eq (m : MapKind) {v : Value} (h : DistinctKeys v) :
    canonicalizeIn m v = canonicalize v := by
  unfold canonicalizeIn canonicalize
  rw [sortKeysIn_eq m h]

mutual

theorem integral_sortKeys : ∀ {v : Value}, Integral v → Integral (sortKeys v)
  | .null, _ => trivial
  | .bool _, _ => trivial
  | .int _, _ => trivial
  | .float _, hv => hv.elim
  | .str _, _ => trivial
  | .arr vs, hv => integralItems_sortItems hv
  | .obj fs, hv => by
    have hfields := integralFields_iff.mp (integralFields_sortFields hv)
    exact integralFields_iff.mpr fun f hf => hfields f (mem_sortBy.mp hf)

theorem integralItems_sortItems : ∀ {vs : List Value}, IntegralItems vs → IntegralItems (sortItems vs)
  | [], _ => trivial
  | _ :: _, hvs => ⟨integral_sortKeys hvs.1, integralItems_sortItems hvs.2⟩

theorem integralFields_sortFields : ∀ {fs : Fields}, IntegralFields fs → IntegralFields (sortFields fs)
  | [], _ => trivial
  | (_, _) :: _, hfs => ⟨integral_sortKeys hfs.1, integralFields_sortFields hfs.2⟩

end

/-! ### Invariance -/

mutual

theorem sortKeys_eq_of_same : ∀ {v w : Value}, Same v w → DistinctKeys v → sortKeys v = sortKeys w
  | _, _, .null, _ => rfl
  | _, _, .bool _, _ => rfl
  | _, _, .int _, _ => rfl
  | _, _, .float _, _ => rfl
  | _, _, .str _, _ => rfl
  | _, _, .arr h, hv => by
    unfold sortKeys
    rw [sortItems_eq_of_same h hv]
  | .obj fs, .obj gs, .obj h hperm, hv => by
    have hnames : ((sortFields fs).map Prod.fst).Nodup := by
      rw [map_fst_sortFields]
      exact hv.1
    unfold sortKeys
    rw [sortFields_eq_of_same h hv.2] at hnames ⊢
    refine congrArg Value.obj (sortBy_fst_eq_of_perm hnames ?_)
    rw [sortFields_eq_map, sortFields_eq_map]
    exact hperm.map _

theorem sortItems_eq_of_same : ∀ {vs ws : List Value}, SameItems vs ws → DistinctItems vs →
    sortItems vs = sortItems ws
  | _, _, .nil, _ => rfl
  | _, _, .cons h hs, hvs => by
    unfold sortItems
    rw [sortKeys_eq_of_same h hvs.1, sortItems_eq_of_same hs hvs.2]

theorem sortFields_eq_of_same : ∀ {fs gs : Fields}, SameFields fs gs → DistinctFields fs →
    sortFields fs = sortFields gs
  | _, _, .nil, _ => rfl
  | _, _, .cons h hs, hfs => by
    unfold sortFields
    rw [sortKeys_eq_of_same h hfs.1, sortFields_eq_of_same hs hfs.2]

end

/-! ### Only the order is lost -/

theorem exists_perm_of_sortFields {fs gs : Fields} (h : fs.Perm (sortFields gs)) :
    ∃ gs', gs'.Perm gs ∧ fs = sortFields gs' := by
  have hmap : List.Forall₂ (fun (f g : String × Value) => f = (g.1, sortKeys g.2)) (sortFields gs) gs := by
    rw [sortFields_eq_map, List.forall₂_map_left_iff]
    exact List.forall₂_same.mpr fun _ _ => rfl
  obtain ⟨gs', hfs, hperm⟩ := List.perm_comp_forall₂ h hmap
  refine ⟨gs', hperm, ?_⟩
  rw [sortFields_eq_map, ← List.forall₂_eq_eq_eq, List.forall₂_map_right_iff]
  exact hfs

mutual

theorem same_of_sortKeys_eq : ∀ {v w : Value}, sortKeys v = sortKeys w → Same v w
  | .null, w, h => by
    cases w with
    | null => exact .null
    | _ => cases h
  | .bool b, w, h => by
    cases w with
    | bool c =>
      obtain rfl := Value.bool.inj h
      exact .bool b
    | _ => cases h
  | .int n, w, h => by
    cases w with
    | int m =>
      obtain rfl := Value.int.inj h
      exact .int n
    | _ => cases h
  | .float r, w, h => by
    cases w with
    | float r' =>
      obtain rfl := Value.float.inj h
      exact .float r
    | _ => cases h
  | .str s, w, h => by
    cases w with
    | str t =>
      obtain rfl := Value.str.inj h
      exact .str s
    | _ => cases h
  | .arr vs, w, h => by
    cases w with
    | arr ws => exact .arr (sameItems_of_sortItems_eq (Value.arr.inj h))
    | _ => cases h
  | .obj fs, w, h => by
    cases w with
    | obj gs =>
      have hsorted := Value.obj.inj h
      have hperm : (sortFields fs).Perm (sortFields gs) := by
        refine (perm_sortBy Prod.fst (sortFields fs)).symm.trans ?_
        rw [hsorted]
        exact perm_sortBy Prod.fst (sortFields gs)
      obtain ⟨gs', hgs', heq⟩ := exists_perm_of_sortFields hperm
      exact .obj (sameFields_of_sortFields_eq heq) hgs'
    | _ => cases h

theorem sameItems_of_sortItems_eq : ∀ {vs ws : List Value}, sortItems vs = sortItems ws → SameItems vs ws
  | [], [], _ => .nil
  | [], _ :: _, h => by cases h
  | _ :: _, [], h => by cases h
  | _ :: _, _ :: _, h => by
    obtain ⟨hhead, htail⟩ := List.cons.inj h
    exact .cons (same_of_sortKeys_eq hhead) (sameItems_of_sortItems_eq htail)

theorem sameFields_of_sortFields_eq : ∀ {fs gs : Fields}, sortFields fs = sortFields gs → SameFields fs gs
  | [], [], _ => .nil
  | [], (_, _) :: _, h => by cases h
  | (_, _) :: _, [], h => by cases h
  | (k, v) :: _, (l, w) :: _, h => by
    obtain ⟨hhead, htail⟩ := List.cons.inj h
    obtain ⟨rfl, hvalue⟩ := Prod.mk.inj hhead
    exact .cons (same_of_sortKeys_eq hvalue) (sameFields_of_sortFields_eq htail)

end

/-- **Two payloads have the same canonical text exactly if they are the same up to the order of the
fields**, in a map of either kind. -/
theorem canonicalizeIn_eq_iff {v w : Value} (m : MapKind) (hv : Plain v) (hw : Plain w) :
    canonicalizeIn m v = canonicalizeIn m w ↔ Same v w := by
  rw [canonicalizeIn_eq m hv.distinct, canonicalizeIn_eq m hw.distinct]
  unfold canonicalize
  constructor
  · intro h
    exact same_of_sortKeys_eq
      (render_inj (integral_sortKeys hv.integral) (integral_sortKeys hw.integral) h)
  · intro h
    rw [sortKeys_eq_of_same h hv.distinct]

/-! ### A payload in two orders -/

def payload : Value :=
  .obj [("slug", .str "o"), ("roles", .arr [.obj [("owner", .int 1), ("admin", .int (-2))]])]

def shuffled : Value :=
  .obj [("roles", .arr [.obj [("admin", .int (-2)), ("owner", .int 1)]]), ("slug", .str "o")]

theorem canonicalizeIn_eq_iff_payload :
    canonicalizeIn .names payload = "\x7b\"roles\":[\x7b\"admin\":-2,\"owner\":1\x7d],\"slug\":\"o\"\x7d" ∧
      (canonicalizeIn .insertion payload = canonicalizeIn .insertion shuffled ↔ Same payload shuffled) := by
  have hv : Plain payload := by
    refine ⟨?_, ?_⟩
    · simp [payload, Integral, IntegralFields, IntegralItems]
    · simp [payload, DistinctKeys, DistinctFields, DistinctItems]
  have hw : Plain shuffled := by
    refine ⟨?_, ?_⟩
    · simp [shuffled, Integral, IntegralFields, IntegralItems]
    · simp [shuffled, DistinctKeys, DistinctFields, DistinctItems]
  exact ⟨by decide +kernel, canonicalizeIn_eq_iff .insertion hv hw⟩

end StarStats.Server.CanonicalJson
