import Mathlib.Algebra.BigOperators.Group.List.Lemmas
import Mathlib.Algebra.GroupWithZero.Nat
import Mathlib.Data.List.Dedup
import Mathlib.Data.List.Nodup
import Mathlib.Data.List.Sort

/-! # Tables with an autoincrement id and a unique key

A table holds rows in the order of their ids. Every insert takes a fresh id above all ids ever given
out, and no two rows share a key: an insert under a key that is already there does nothing, as
`INSERT ... ON CONFLICT (key) DO NOTHING` does. The table carries these facts, so an operation that
broke them could not be written down.

A query that sorts rows by a column is a stable sort, so what is left out of its result, or made of
each row, can as well be left out or made before (`filterMap_sortBy`). -/

namespace StarStats.Lib.Tables

/-- The rows of a table, each with its id, and the last id given out. -/
structure Table {ρ κ : Type} (key : ρ → κ) where
  rows : List (ℕ × ρ)
  seq : ℕ
  ascending : rows.Pairwise fun a b => a.1 < b.1
  bounded : ∀ r ∈ rows, 0 < r.1 ∧ r.1 ≤ seq
  unique : (rows.map fun r => key r.2).Nodup

variable {ρ κ : Type} {key : ρ → κ}

namespace Table

/-- A table without rows. -/
def empty : Table key := ⟨[], 0, List.Pairwise.nil, by simp, List.nodup_nil⟩

/-- The keys in use. -/
def keys (t : Table key) : List κ := t.rows.map fun r => key r.2

/-- The rows without their ids. -/
def contents (t : Table key) : List ρ := t.rows.map (·.2)

theorem mem_keys {t : Table key} {k : κ} : k ∈ t.keys ↔ ∃ r ∈ t.rows, key r.2 = k := by
  simp [keys]

theorem mem_contents {t : Table key} {r : ρ} : r ∈ t.contents ↔ ∃ a ∈ t.rows, a.2 = r := by
  simp [contents]

theorem ids_nodup (t : Table key) : (t.rows.map Prod.fst).Nodup :=
  List.pairwise_map.mpr (t.ascending.imp fun hlt => Nat.ne_of_lt hlt)

theorem eq_of_id_eq {t : Table key} {a b : ℕ × ρ} (ha : a ∈ t.rows) (hb : b ∈ t.rows)
    (h : a.1 = b.1) : a = b :=
  List.inj_on_of_nodup_map t.ids_nodup ha hb h

theorem eq_of_key_eq {t : Table key} {a b : ℕ × ρ} (ha : a ∈ t.rows) (hb : b ∈ t.rows)
    (h : key a.2 = key b.2) : a = b :=
  List.inj_on_of_nodup_map t.unique ha hb h

/-! ### Insert -/

/-- The instance has one name for all tables whose keys are two strings. -/
instance lawfulBEq_strings : LawfulBEq (String × String) := inferInstance

section Insert
variable [DecidableEq κ]

/-- Append a row under a fresh id, unless its key is in use. -/
def insert (t : Table key) (r : ρ) : Table key :=
  if h : key r ∈ t.keys then t
  else
    { rows := t.rows ++ [(t.seq + 1, r)]
      seq := t.seq + 1
      ascending := by
        refine List.pairwise_append.mpr ⟨t.ascending, List.pairwise_singleton _ _, ?_⟩
        intro a ha b hb
        rw [List.mem_singleton.mp hb]
        exact Nat.lt_succ_of_le (t.bounded a ha).2
      bounded := by
        intro a ha
        rcases List.mem_append.mp ha with ha | ha
        · have := t.bounded a ha; omega
        · rw [List.mem_singleton.mp ha]; exact ⟨Nat.succ_pos _, Nat.le_refl _⟩
      unique := by
        rw [List.map_append]
        refine List.nodup_append.mpr ⟨t.unique, List.nodup_singleton _, ?_⟩
        rintro a ha b hb rfl
        rw [List.map_singleton, List.mem_singleton] at hb
        exact h (hb ▸ ha) }

theorem insert_of_mem {t : Table key} {r : ρ} (h : key r ∈ t.keys) : t.insert r = t := dif_pos h

theorem rows_insert_of_not_mem {t : Table key} {r : ρ} (h : key r ∉ t.keys) :
    (t.insert r).rows = t.rows ++ [(t.seq + 1, r)] := by
  rw [insert, dif_neg h]

theorem keys_insert_of_not_mem {t : Table key} {r : ρ} (h : key r ∉ t.keys) :
    (t.insert r).keys = t.keys ++ [key r] := by
  simp [keys, rows_insert_of_not_mem h]

theorem mem_rows_insert {t : Table key} {r : ρ} {a : ℕ × ρ} :
    a ∈ (t.insert r).rows ↔ a ∈ t.rows ∨ (key r ∉ t.keys ∧ a = (t.seq + 1, r)) := by
  by_cases h : key r ∈ t.keys
  · simp [insert_of_mem h, h]
  · simp [rows_insert_of_not_mem h, h]

theorem mem_rows_insert_of_mem {t : Table key} {r : ρ} {a : ℕ × ρ} (h : a ∈ t.rows) :
    a ∈ (t.insert r).rows := mem_rows_insert.mpr (Or.inl h)

@[simp] theorem mem_keys_insert {t : Table key} {r : ρ} {k : κ} :
    k ∈ (t.insert r).keys ↔ k ∈ t.keys ∨ k = key r := by
  by_cases h : key r ∈ t.keys
  · rw [insert_of_mem h]
    exact ⟨Or.inl, fun hk => hk.elim id fun e => e ▸ h⟩
  · simp [keys_insert_of_not_mem h]

theorem key_mem_keys_insert (t : Table key) (r : ρ) : key r ∈ (t.insert r).keys :=
  mem_keys_insert.mpr (Or.inr rfl)

theorem insert_insert_self (t : Table key) (r : ρ) : (t.insert r).insert r = t.insert r :=
  insert_of_mem (key_mem_keys_insert t r)

/-- Insert rows one after another. -/
def insertAll (t : Table key) (rs : List ρ) : Table key := rs.foldl insert t

@[simp] theorem insertAll_nil (t : Table key) : t.insertAll [] = t := rfl

@[simp] theorem insertAll_cons (t : Table key) (r : ρ) (rs : List ρ) :
    t.insertAll (r :: rs) = (t.insert r).insertAll rs := rfl

theorem insertAll_append (t : Table key) (rs rs' : List ρ) :
    t.insertAll (rs ++ rs') = (t.insertAll rs).insertAll rs' := List.foldl_append

theorem mem_keys_insertAll {t : Table key} {rs : List ρ} {k : κ} :
    k ∈ (t.insertAll rs).keys ↔ k ∈ t.keys ∨ ∃ r ∈ rs, key r = k := by
  induction rs generalizing t with
  | nil => simp
  | cons r rs ih => simp [ih, or_assoc, eq_comm]

theorem mem_rows_insertAll_of_mem {t : Table key} {rs : List ρ} {a : ℕ × ρ} (h : a ∈ t.rows) :
    a ∈ (t.insertAll rs).rows := by
  induction rs generalizing t with
  | nil => exact h
  | cons r rs ih => exact ih (mem_rows_insert_of_mem h)

/-- A row that no other one inserted shares its key with is there after all are inserted, unless its key
was in use. -/
theorem mem_contents_insertAll {rs : List ρ} {r : ρ} (hr : r ∈ rs)
    (hone : ∀ r' ∈ rs, key r' = key r → r' = r) {t : Table key} (hnew : key r ∉ t.keys) :
    r ∈ (t.insertAll rs).contents := by
  induction rs generalizing t with
  | nil => exact absurd hr List.not_mem_nil
  | cons s rs ih =>
    rw [insertAll_cons]
    by_cases hs : key s = key r
    · obtain rfl := hone s List.mem_cons_self hs
      have hmem : (t.seq + 1, s) ∈ (t.insert s).rows := mem_rows_insert.mpr (Or.inr ⟨hnew, rfl⟩)
      exact mem_contents.mpr ⟨_, mem_rows_insertAll_of_mem hmem, rfl⟩
    · have hmem : r ∈ rs := (List.mem_cons.mp hr).resolve_left fun h => hs (h ▸ rfl)
      refine ih hmem (fun r' hr' => hone r' (List.mem_cons_of_mem _ hr')) ?_
      rw [mem_keys_insert]
      exact fun h => h.elim hnew fun heq => hs heq.symm

theorem insertAll_of_forall_mem {t : Table key} {rs : List ρ} (h : ∀ r ∈ rs, key r ∈ t.keys) :
    t.insertAll rs = t := by
  induction rs with
  | nil => rfl
  | cons r rs ih =>
    rw [insertAll_cons, insert_of_mem (h r (by simp))]
    exact ih fun r' hr' => h r' (by simp [hr'])

theorem insertAll_eq_self_iff {t : Table key} {rs : List ρ} :
    t.insertAll rs = t ↔ ∀ r ∈ rs, key r ∈ t.keys := by
  refine ⟨fun h r hr => ?_, insertAll_of_forall_mem⟩
  have : key r ∈ (t.insertAll rs).keys := mem_keys_insertAll.mpr (Or.inr ⟨r, hr, rfl⟩)
  rwa [h] at this

theorem insert_congr {t u : Table key} (hk : t.keys = u.keys) (hs : t.seq = u.seq) (r : ρ) :
    ∃ new, (t.insert r).rows = t.rows ++ new ∧ (u.insert r).rows = u.rows ++ new ∧
      (∀ a ∈ new, t.seq < a.1 ∧ a.2 = r) ∧ (t.insert r).seq = (u.insert r).seq ∧
      t.seq ≤ (t.insert r).seq := by
  by_cases h : key r ∈ t.keys
  · rw [insert_of_mem h, insert_of_mem (hk ▸ h)]
    exact ⟨[], by simp, by simp, by simp, hs, Nat.le_refl _⟩
  · have hu : key r ∉ u.keys := hk ▸ h
    refine ⟨[(t.seq + 1, r)], rows_insert_of_not_mem h, ?_, by simp, ?_, ?_⟩
    · rw [rows_insert_of_not_mem hu, hs]
    · rw [insert, insert, dif_neg h, dif_neg hu]
      exact congrArg (· + 1) hs
    · rw [insert, dif_neg h]
      exact Nat.le_succ _

/-- **What is appended depends on the keys and the counter alone**: two tables that agree on them get
the same new rows under the same ids. -/
theorem insertAll_congr : ∀ {t u : Table key} (_ : t.keys = u.keys) (_ : t.seq = u.seq) (rs : List ρ),
    ∃ new, (t.insertAll rs).rows = t.rows ++ new ∧ (u.insertAll rs).rows = u.rows ++ new ∧
      ∀ a ∈ new, t.seq < a.1 ∧ a.2 ∈ rs
  | _, _, _, _, [] => ⟨[], by simp, by simp, by simp⟩
  | t, u, hk, hs, r :: rs => by
    obtain ⟨new₁, ht₁, hu₁, hnew₁, hs₁, hle⟩ := insert_congr hk hs r
    have hk₁ : (t.insert r).keys = (u.insert r).keys := by
      rw [keys, ht₁, keys, hu₁, List.map_append, List.map_append]
      exact congrArg (· ++ _) hk
    obtain ⟨new, ht, hu, hnew⟩ := insertAll_congr hk₁ hs₁ rs
    refine ⟨new₁ ++ new, by rw [insertAll_cons, ht, ht₁, List.append_assoc],
      by rw [insertAll_cons, hu, hu₁, List.append_assoc], fun a ha => ?_⟩
    rcases List.mem_append.mp ha with ha | ha
    · exact ⟨(hnew₁ a ha).1, (hnew₁ a ha).2 ▸ List.mem_cons_self⟩
    · exact ⟨hle.trans_lt (hnew a ha).1, List.mem_cons_of_mem _ (hnew a ha).2⟩

theorem rows_insertAll (t : Table key) (rs : List ρ) : ∃ new, (t.insertAll rs).rows = t.rows ++ new ∧
    ∀ a ∈ new, t.seq < a.1 ∧ a.2 ∈ rs := by
  obtain ⟨new, h, -, hnew⟩ := insertAll_congr (t := t) rfl rfl rs
  exact ⟨new, h, hnew⟩

theorem contents_insertAll : ∀ {rs : List ρ} {t : Table key}, (t.keys ++ rs.map key).Nodup →
    (t.insertAll rs).contents = t.contents ++ rs
  | [], t, _ => by simp
  | r :: rs, t, h => by
    have hr : key r ∉ t.keys := fun hm =>
      (List.nodup_append.mp h).2.2 _ hm _ (by simp) rfl
    rw [insertAll_cons, contents_insertAll]
    · simp [contents, rows_insert_of_not_mem hr]
    · rw [keys_insert_of_not_mem hr]
      simpa using h

/-- Where the rows under one key are equal, the rows inserted are those given. -/
theorem mem_contents_insertAll_empty {rs : List ρ}
    (h : ∀ r ∈ rs, ∀ r' ∈ rs, key r = key r' → r = r') {r : ρ} :
    r ∈ ((empty : Table key).insertAll rs).contents ↔ r ∈ rs := by
  obtain ⟨new, hrows, hnew⟩ := rows_insertAll (empty : Table key) rs
  rw [mem_contents, hrows]
  constructor
  · rintro ⟨a, ha, rfl⟩
    exact (hnew a ha).2
  · intro hr
    have hk : key r ∈ ((empty : Table key).insertAll rs).keys :=
      mem_keys_insertAll.mpr (Or.inr ⟨r, hr, rfl⟩)
    obtain ⟨a, ha, hkey⟩ := mem_keys.mp hk
    rw [hrows] at ha
    exact ⟨a, ha, h _ (hnew a ha).2 _ hr hkey⟩

end Insert

/-! ### Lookup -/

/-- The row under a key. -/
def find? [DecidableEq κ] (t : Table key) (k : κ) : Option (ℕ × ρ) :=
  t.rows.find? fun r => key r.2 = k

/-! ### Update and delete -/

/-- Rewrite the row with an id; the key stays. -/
def update (t : Table key) (i : ℕ) (f : ρ → ρ) (hf : ∀ r, key (f r) = key r) : Table key :=
  { rows := t.rows.map fun r => if r.1 = i then (r.1, f r.2) else r
    seq := t.seq
    ascending := by
      rw [List.pairwise_map]
      refine t.ascending.imp fun {a b} h => ?_
      split_ifs <;> exact h
    bounded := by
      intro a ha
      obtain ⟨r, hr, rfl⟩ := List.mem_map.mp ha
      split_ifs <;> exact t.bounded r hr
    unique := by
      rw [List.map_map]
      have : ((fun r : ℕ × ρ => key r.2) ∘ fun r => if r.1 = i then (r.1, f r.2) else r) =
          fun r => key r.2 := by
        funext r
        simp only [Function.comp]
        split_ifs
        · exact hf r.2
        · rfl
      rw [this]; exact t.unique }

/-- Remove the row with an id. -/
def delete (t : Table key) (i : ℕ) : Table key :=
  { rows := t.rows.filter (·.1 ≠ i)
    seq := t.seq
    ascending := t.ascending.filter _
    bounded := fun r hr => t.bounded r (List.mem_of_mem_filter hr)
    unique := t.unique.sublist (List.filter_sublist.map _) }

/-- Remove the rows that satisfy a condition. -/
def deleteWhere (t : Table key) (p : ρ → Bool) : Table key :=
  { rows := t.rows.filter fun r => !p r.2
    seq := t.seq
    ascending := t.ascending.filter _
    bounded := fun r hr => t.bounded r (List.mem_of_mem_filter hr)
    unique := t.unique.sublist (List.filter_sublist.map _) }

/-- Rewrite all rows, under the keys that they have. -/
def mapRows (t : Table key) (f : ρ → ρ) (hf : ∀ r, key (f r) = key r) : Table key :=
  { rows := t.rows.map fun r => (r.1, f r.2)
    seq := t.seq
    ascending := List.pairwise_map.mpr t.ascending
    bounded := by
      intro a ha
      obtain ⟨r, hr, rfl⟩ := List.mem_map.mp ha
      exact t.bounded r hr
    unique := by
      rw [List.map_map]
      have hkeys : ((fun r : ℕ × ρ => key r.2) ∘ fun r : ℕ × ρ => (r.1, f r.2)) =
          fun r => key r.2 :=
        funext fun r => hf r.2
      rw [hkeys]
      exact t.unique }

theorem contents_mapRows (t : Table key) (f : ρ → ρ) (hf : ∀ r, key (f r) = key r) :
    (t.mapRows f hf).contents = t.contents.map f := by
  unfold mapRows contents
  rw [List.map_map, List.map_map]
  rfl

/-- Rewrite all rows at once; `none` where two would then have one key. -/
def rewrite [DecidableEq κ] (t : Table key) (f : ρ → ρ) : Option (Table key) :=
  if h : (t.rows.map fun r => key (f r.2)).Nodup then
    some
      { rows := t.rows.map fun r => (r.1, f r.2)
        seq := t.seq
        ascending := List.pairwise_map.mpr t.ascending
        bounded := by
          intro a ha
          obtain ⟨r, hr, rfl⟩ := List.mem_map.mp ha
          exact t.bounded r hr
        unique := by
          rw [List.map_map]
          exact h }
  else none

theorem rows_rewrite [DecidableEq κ] {t t' : Table key} {f : ρ → ρ} (h : t.rewrite f = some t') :
    t'.rows = t.rows.map fun r => (r.1, f r.2) := by
  unfold rewrite at h
  split_ifs at h
  rw [← Option.some.inj h]

/-- Rows can be rewritten exactly if no two get one key. -/
theorem exists_rewrite [DecidableEq κ] {t : Table key} {f : ρ → ρ} :
    (∃ t', t.rewrite f = some t') ↔
      ∀ a ∈ t.rows, ∀ b ∈ t.rows, key (f a.2) = key (f b.2) → a = b := by
  have hrows : t.rows.Nodup := t.ids_nodup.of_map _
  rw [← List.nodup_map_iff_inj_on hrows]
  unfold rewrite
  constructor
  · rintro ⟨t', h⟩
    by_contra hcon
    rw [dif_neg hcon] at h
    cases h
  · intro h
    exact ⟨_, dif_pos h⟩

theorem rows_update (t : Table key) (i : ℕ) (f : ρ → ρ) (hf : ∀ r, key (f r) = key r) :
    (t.update i f hf).rows = t.rows.map fun r => if r.1 = i then (r.1, f r.2) else r := rfl

@[simp] theorem keys_update (t : Table key) (i : ℕ) (f : ρ → ρ) (hf : ∀ r, key (f r) = key r) :
    (t.update i f hf).keys = t.keys := by
  unfold keys
  rw [rows_update, List.map_map]
  refine List.map_congr_left fun r _ => ?_
  simp only [Function.comp]
  split_ifs
  · exact hf r.2
  · rfl

@[simp] theorem seq_update (t : Table key) (i : ℕ) (f : ρ → ρ) (hf : ∀ r, key (f r) = key r) :
    (t.update i f hf).seq = t.seq := rfl

theorem rows_update_of_split {t : Table key} {before after : List (ℕ × ρ)} {a : ℕ × ρ}
    (h : t.rows = before ++ a :: after) (f : ρ → ρ) (hf : ∀ r, key (f r) = key r) :
    (t.update a.1 f hf).rows = before ++ (a.1, f a.2) :: after := by
  have hnd := t.ids_nodup
  rw [h, List.map_append, List.map_cons, List.nodup_append, List.nodup_cons] at hnd
  obtain ⟨-, ⟨hafter, -⟩, hbefore⟩ := hnd
  rw [rows_update, h, List.map_append, List.map_cons, if_pos rfl]
  congr 1
  · refine (List.map_congr_left fun r hr => if_neg fun he => ?_).trans (List.map_id before)
    exact hbefore r.1 (List.mem_map_of_mem hr) a.1 List.mem_cons_self he
  · congr 1
    refine (List.map_congr_left fun r hr => if_neg fun he => ?_).trans (List.map_id after)
    exact hafter (he ▸ List.mem_map_of_mem hr)

/-- Remove the rows with some ids, one after another. -/
def deleteAll (t : Table key) (is : List ℕ) : Table key := is.foldl delete t

theorem rows_deleteAll {t : Table key} {is : List ℕ} :
    (t.deleteAll is).rows = t.rows.filter (·.1 ∉ is) := by
  induction is generalizing t with
  | nil => simp [deleteAll]
  | cons i is ih =>
    rw [deleteAll, List.foldl_cons, ← deleteAll, ih, delete, List.filter_filter]
    refine List.filter_congr fun a _ => ?_
    simp [not_or, Bool.and_comm]

theorem seq_deleteAll {t : Table key} {is : List ℕ} : (t.deleteAll is).seq = t.seq := by
  induction is generalizing t with
  | nil => rfl
  | cons i is ih => exact ih

theorem mem_rows_delete {t : Table key} {i : ℕ} {a : ℕ × ρ} :
    a ∈ (t.delete i).rows ↔ a ∈ t.rows ∧ a.1 ≠ i := by
  simp [delete]

theorem mem_contents_deleteWhere {t : Table key} {p : ρ → Bool} {r : ρ} :
    r ∈ (t.deleteWhere p).contents ↔ r ∈ t.contents ∧ p r = false := by
  simp only [contents, deleteWhere, List.mem_map, List.mem_filter, Bool.not_eq_true']
  constructor
  · rintro ⟨a, ⟨ha, hp⟩, rfl⟩
    exact ⟨⟨a, ha, rfl⟩, hp⟩
  · rintro ⟨⟨a, ha, rfl⟩, hp⟩
    exact ⟨a, ⟨ha, hp⟩, rfl⟩

/-! ### Upsert -/

section Upsert
variable [DecidableEq κ]

theorem find?_eq_none {t : Table key} {k : κ} : t.find? k = none ↔ k ∉ t.keys := by
  simp [find?, mem_keys]

theorem find?_eq_some {t : Table key} {k : κ} {a : ℕ × ρ} :
    t.find? k = some a ↔ a ∈ t.rows ∧ key a.2 = k := by
  refine ⟨fun h => ⟨List.mem_of_find?_eq_some h, by simpa using List.find?_some h⟩, ?_⟩
  rintro ⟨ha, rfl⟩
  obtain ⟨b, hb⟩ : ∃ b, t.find? (key a.2) = some b := by
    refine Option.ne_none_iff_exists'.mp fun hnone => ?_
    exact find?_eq_none.1 hnone (mem_keys.mpr ⟨a, ha, rfl⟩)
  have hkey : key b.2 = key a.2 := by simpa using List.find?_some hb
  rw [hb, eq_of_key_eq (List.mem_of_find?_eq_some hb) ha hkey]

theorem map_find?_eq_some {t : Table key} {k : κ} {r : ρ} :
    (t.find? k).map (·.2) = some r ↔ r ∈ t.contents ∧ key r = k := by
  rw [Option.map_eq_some_iff]
  constructor
  · rintro ⟨a, ha, rfl⟩
    obtain ⟨hmem, hkey⟩ := find?_eq_some.1 ha
    exact ⟨mem_contents.mpr ⟨a, hmem, rfl⟩, hkey⟩
  · rintro ⟨hr, hkey⟩
    obtain ⟨a, ha, rfl⟩ := mem_contents.mp hr
    exact ⟨a, find?_eq_some.2 ⟨ha, hkey⟩, rfl⟩

/-- A row under a new key is found under it, and the rows under the other keys as before. -/
theorem map_find?_insert {t : Table key} {r : ρ} {k : κ} (h : key r ∉ t.keys) :
    ((t.insert r).find? k).map (·.2) = if k = key r then some r else (t.find? k).map (·.2) := by
  refine Option.ext fun s => ?_
  have hmem : s ∈ (t.insert r).contents ↔ s ∈ t.contents ∨ s = r := by
    simp [contents, rows_insert_of_not_mem h]
  rw [map_find?_eq_some, hmem]
  by_cases hk : k = key r
  · rw [if_pos hk]
    constructor
    · rintro ⟨hs | hs, hkey⟩
      · obtain ⟨a, ha, rfl⟩ := mem_contents.mp hs
        exact absurd (mem_keys.mpr ⟨a, ha, hkey.trans hk⟩) h
      · rw [hs]
    · intro hs
      obtain rfl := Option.some.inj hs
      exact ⟨Or.inr rfl, hk.symm⟩
  · rw [if_neg hk, map_find?_eq_some]
    constructor
    · rintro ⟨hs | hs, hkey⟩
      · exact ⟨hs, hkey⟩
      · exact absurd (hs ▸ hkey.symm) hk
    · rintro ⟨hs, hkey⟩
      exact ⟨Or.inl hs, hkey⟩

theorem map_find?_insertAll {k : κ} : ∀ {rs : List ρ} {t : Table key},
    ((t.insertAll rs).find? k).map (·.2) = ((t.find? k).map (·.2)).or (rs.find? fun r => key r = k)
  | [], t => by rw [insertAll_nil, List.find?_nil, Option.or_none]
  | r :: rs, t => by
    rw [insertAll_cons, map_find?_insertAll, List.find?_cons]
    by_cases hmem : key r ∈ t.keys
    · rw [insert_of_mem hmem]
      by_cases hk : key r = k
      · obtain ⟨a, ha⟩ := Option.ne_none_iff_exists'.mp fun hnone => find?_eq_none.1 hnone (hk ▸ hmem)
        rw [ha]
        rfl
      · simp [hk]
    · rw [map_find?_insert hmem]
      by_cases hk : key r = k
      · have hnone : t.find? k = none := find?_eq_none.2 (hk ▸ hmem)
        simp [hk, hnone]
      · simp [hk, Ne.symm hk]

theorem map_find?_mapRows {t : Table key} {k : κ} {f : ρ → ρ} {hf : ∀ r, key (f r) = key r} :
    ((t.mapRows f hf).find? k).map (·.2) = ((t.find? k).map (·.2)).map f := by
  refine Option.ext fun s => ?_
  rw [map_find?_eq_some, contents_mapRows, List.mem_map, Option.map_eq_some_iff]
  constructor
  · rintro ⟨⟨r, hr, rfl⟩, hkey⟩
    exact ⟨r, map_find?_eq_some.2 ⟨hr, (hf r).symm.trans hkey⟩, rfl⟩
  · rintro ⟨r, hfind, rfl⟩
    obtain ⟨hr, hkey⟩ := map_find?_eq_some.1 hfind
    exact ⟨⟨r, hr, rfl⟩, (hf r).trans hkey⟩

/-- Rewrite the row under a key, if there is one. -/
def updateKey (t : Table key) (k : κ) (f : ρ → ρ) (hf : ∀ r, key (f r) = key r) : Table key :=
  match t.find? k with
  | some a => t.update a.1 f hf
  | none => t

theorem contents_updateKey (t : Table key) (k : κ) (f : ρ → ρ) (hf : ∀ r, key (f r) = key r) :
    (t.updateKey k f hf).contents = t.contents.map fun r => if key r = k then f r else r := by
  unfold updateKey contents
  rw [List.map_map]
  cases hfind : t.find? k with
  | none =>
    refine List.map_congr_left fun a ha => (if_neg fun hk => ?_).symm
    exact find?_eq_none.1 hfind (mem_keys.mpr ⟨a, ha, hk⟩)
  | some b =>
    obtain ⟨hb, hbk⟩ := find?_eq_some.1 hfind
    change List.map _ (t.update b.1 f hf).rows = _
    rw [rows_update, List.map_map]
    refine List.map_congr_left fun a ha => ?_
    simp only [Function.comp]
    by_cases hi : a.1 = b.1
    · obtain rfl := eq_of_id_eq ha hb hi
      rw [if_pos rfl, if_pos hbk]
    · have hk : key a.2 ≠ k := fun hk => hi (congrArg Prod.fst (eq_of_key_eq ha hb (hk.trans hbk.symm)))
      rw [if_neg hi, if_neg hk]

theorem map_find?_updateKey {t : Table key} {k k' : κ} {f : ρ → ρ} {hf : ∀ r, key (f r) = key r} :
    ((t.updateKey k' f hf).find? k).map (·.2) =
      if k = k' then ((t.find? k).map (·.2)).map f else (t.find? k).map (·.2) := by
  refine Option.ext fun s => ?_
  rw [map_find?_eq_some, contents_updateKey, List.mem_map]
  constructor
  · rintro ⟨⟨r, hr, rfl⟩, hs⟩
    by_cases hk : key r = k'
    · rw [if_pos hk, hf] at hs
      obtain rfl := hs
      rw [if_pos hk, if_pos hk, map_find?_eq_some.2 ⟨hr, rfl⟩]
      rfl
    · rw [if_neg hk] at hs ⊢
      obtain rfl := hs
      rw [if_neg hk]
      exact map_find?_eq_some.2 ⟨hr, rfl⟩
  · intro hs
    by_cases hk : k = k'
    · rw [if_pos hk] at hs
      obtain ⟨r, hfind, rfl⟩ := Option.map_eq_some_iff.mp hs
      obtain ⟨hr, hkey⟩ := map_find?_eq_some.1 hfind
      exact ⟨⟨r, hr, if_pos (hkey.trans hk)⟩, (hf r).trans hkey⟩
    · rw [if_neg hk] at hs
      obtain ⟨hr, hkey⟩ := map_find?_eq_some.1 hs
      exact ⟨⟨s, hr, if_neg fun h => hk (hkey.symm.trans h)⟩, hkey⟩

/-- Rewrite the row under the key of `r`, or insert `r` if there is none, as
`INSERT ... ON CONFLICT (key) DO UPDATE` does. -/
def upsert (t : Table key) (r : ρ) (f : ρ → ρ) (hf : ∀ r, key (f r) = key r) : Table key :=
  match t.find? (key r) with
  | some a => t.update a.1 f hf
  | none => t.insert r

/-- The rows after an upsert: those under other keys, and that under its own key, rewritten or
new. -/
theorem mem_contents_upsert {t : Table key} {r s : ρ} {f : ρ → ρ} {hf : ∀ r, key (f r) = key r} :
    s ∈ (t.upsert r f hf).contents ↔ (s ∈ t.contents ∧ key s ≠ key r) ∨
      (∃ s₀ ∈ t.contents, key s₀ = key r ∧ s = f s₀) ∨ (key r ∉ t.keys ∧ s = r) := by
  unfold upsert
  cases hfind : t.find? (key r) with
  | none =>
    have hfree := find?_eq_none.1 hfind
    have hne : ∀ a ∈ t.contents, key a ≠ key r := fun a ha hk => by
      obtain ⟨b, hb, rfl⟩ := mem_contents.mp ha
      exact hfree (mem_keys.mpr ⟨b, hb, hk⟩)
    simp only [contents, rows_insert_of_not_mem hfree, List.map_append, List.map_singleton,
      List.mem_append, List.mem_singleton]
    constructor
    · rintro (h | rfl)
      · exact Or.inl ⟨h, hne s h⟩
      · exact Or.inr (Or.inr ⟨hfree, rfl⟩)
    · rintro (⟨h, -⟩ | ⟨s₀, hs, hk, -⟩ | ⟨-, rfl⟩)
      · exact Or.inl h
      · exact absurd hk (hne s₀ hs)
      · exact Or.inr rfl
  | some a =>
    obtain ⟨ha, hkey⟩ := find?_eq_some.1 hfind
    simp only [mem_contents, rows_update, List.mem_map]
    constructor
    · rintro ⟨_, ⟨b, hb, rfl⟩, rfl⟩
      by_cases hid : b.1 = a.1
      · obtain rfl := eq_of_id_eq hb ha hid
        rw [if_pos rfl]
        exact Or.inr (Or.inl ⟨_, ⟨b, hb, rfl⟩, hkey, rfl⟩)
      · rw [if_neg hid]
        refine Or.inl ⟨⟨b, hb, rfl⟩, fun hk => hid ?_⟩
        rw [eq_of_key_eq hb ha (hk.trans hkey.symm)]
    · rintro (⟨⟨b, hb, rfl⟩, hk⟩ | ⟨_, ⟨b, hb, rfl⟩, hk, rfl⟩ | ⟨hfree, -⟩)
      · refine ⟨b, ⟨b, hb, if_neg fun hid => hk ?_⟩, rfl⟩
        rw [eq_of_id_eq hb ha hid, hkey]
      · obtain rfl := eq_of_key_eq hb ha (hk.trans hkey.symm)
        exact ⟨(b.1, f b.2), ⟨b, hb, if_pos rfl⟩, rfl⟩
      · exact absurd (mem_keys.mpr ⟨a, ha, hkey⟩) hfree

theorem map_find?_upsert_key {t : Table key} {r : ρ} {f : ρ → ρ} {hf : ∀ r, key (f r) = key r} :
    ((t.upsert r f hf).find? (key r)).map (·.2) =
      some (((t.find? (key r)).map (·.2)).elim r f) := by
  by_cases h : key r ∈ t.keys
  · obtain ⟨a, ha, hk⟩ := mem_keys.mp h
    have hold : (t.find? (key r)).map (·.2) = some a.2 :=
      map_find?_eq_some.2 ⟨mem_contents.mpr ⟨a, ha, rfl⟩, hk⟩
    rw [hold]
    refine map_find?_eq_some.2 ⟨mem_contents_upsert.2 ?_, (hf a.2).trans hk⟩
    exact Or.inr (Or.inl ⟨a.2, mem_contents.mpr ⟨a, ha, rfl⟩, hk, rfl⟩)
  · rw [find?_eq_none.2 h]
    exact map_find?_eq_some.2 ⟨mem_contents_upsert.2 (Or.inr (Or.inr ⟨h, rfl⟩)), rfl⟩

theorem map_find?_upsert_self {t : Table key} {r : ρ} {f : ρ → ρ} {hf : ∀ r, key (f r) = key r} :
    ∃ s, ((t.upsert r f hf).find? (key r)).map (·.2) = some s ∧ (s = r ∨ ∃ s₀, s = f s₀) := by
  refine ⟨_, map_find?_upsert_key, ?_⟩
  cases (t.find? (key r)).map (·.2) with
  | none => exact Or.inl rfl
  | some s₀ => exact Or.inr ⟨s₀, rfl⟩

theorem map_find?_upsert_of_ne {t : Table key} {r : ρ} {k : κ} {f : ρ → ρ}
    {hf : ∀ r, key (f r) = key r} (h : k ≠ key r) :
    ((t.upsert r f hf).find? k).map (·.2) = (t.find? k).map (·.2) := by
  refine Option.ext fun s => ?_
  rw [map_find?_eq_some, map_find?_eq_some, mem_contents_upsert]
  constructor
  · rintro ⟨⟨hs, -⟩ | ⟨s₀, -, hk, rfl⟩ | ⟨-, rfl⟩, rfl⟩
    · exact ⟨hs, rfl⟩
    · exact absurd ((hf s₀).trans hk) h
    · exact absurd rfl h
  · rintro ⟨hs, rfl⟩
    exact ⟨Or.inl ⟨hs, h⟩, rfl⟩

theorem map_find?_deleteWhere_key {t : Table key} {k k' : κ} :
    ((t.deleteWhere fun r => key r = k').find? k).map (·.2) =
      if k = k' then none else (t.find? k).map (·.2) := by
  refine Option.ext fun s => ?_
  rw [map_find?_eq_some, mem_contents_deleteWhere, decide_eq_false_iff_not]
  by_cases hk : k = k'
  · rw [if_pos hk]
    refine iff_of_false ?_ nofun
    rintro ⟨⟨-, hne⟩, rfl⟩
    exact hne hk
  · rw [if_neg hk, map_find?_eq_some]
    constructor
    · rintro ⟨⟨hs, -⟩, rfl⟩
      exact ⟨hs, rfl⟩
    · rintro ⟨hs, rfl⟩
      exact ⟨⟨hs, hk⟩, rfl⟩

@[simp] theorem mem_keys_upsert {t : Table key} {r : ρ} {k : κ} {f : ρ → ρ}
    {hf : ∀ r, key (f r) = key r} : k ∈ (t.upsert r f hf).keys ↔ k ∈ t.keys ∨ k = key r := by
  unfold upsert
  cases hfind : t.find? (key r) with
  | none => exact mem_keys_insert
  | some a =>
    obtain ⟨ha, hkey⟩ := find?_eq_some.1 hfind
    rw [keys_update]
    refine ⟨Or.inl, fun h => h.elim id ?_⟩
    rintro rfl
    exact mem_keys.mpr ⟨a, ha, hkey⟩

end Upsert

end Table

/-! ### Reading in order -/

section Order
variable {α β ι : Type} [LinearOrder ι]

/-- Sort by a column; rows that agree on it stay in order. -/
def sortBy (p : α → ι) (l : List α) : List α := l.insertionSort fun a b => p a ≤ p b

variable {p : α → ι} {q : β → ι} {f : α → Option β}

theorem pairwise_sortBy (p : α → ι) (l : List α) : (sortBy p l).Pairwise fun a b => p a ≤ p b := by
  have : Std.Total fun a b : α => p a ≤ p b := ⟨fun a b => le_total (p a) (p b)⟩
  have : IsTrans α fun a b => p a ≤ p b := ⟨fun _ _ _ => le_trans⟩
  exact List.pairwise_insertionSort _ l

theorem perm_sortBy (p : α → ι) (l : List α) : (sortBy p l).Perm l := List.perm_insertionSort _ l

@[simp] theorem mem_sortBy {l : List α} {a : α} : a ∈ sortBy p l ↔ a ∈ l := (perm_sortBy p l).mem_iff

section Relations
variable {r : α → α → Prop} {s : β → β → Prop} [DecidableRel r] [DecidableRel s]

theorem orderedInsert_of_forall {a : β} : ∀ {l : List β}, (∀ b ∈ l, s a b) →
    l.orderedInsert s a = a :: l
  | [], _ => rfl
  | b :: l, h => List.orderedInsert_cons_of_le _ l (h b List.mem_cons_self)

theorem filterMap_orderedInsert [IsTrans α r]
    (hf : ∀ a b c d, f a = some c → f b = some d → (s c d ↔ r a b)) (a : α) : ∀ {l : List α},
    l.Pairwise r → (l.orderedInsert r a).filterMap f = match f a with
      | none => l.filterMap f
      | some b => (l.filterMap f).orderedInsert s b
  | [], _ => by cases h : f a <;> simp [h]
  | c :: l, hl => by
    obtain ⟨hc, hl⟩ := List.pairwise_cons.mp hl
    have ih := filterMap_orderedInsert hf a hl
    by_cases hac : r a c
    · rw [List.orderedInsert_cons_of_le r l hac, List.filterMap_cons]
      cases ha : f a with
      | none => rfl
      | some b =>
        refine (orderedInsert_of_forall fun d hd => ?_).symm
        obtain ⟨e, he, hd⟩ := List.mem_filterMap.mp hd
        refine (hf a e b d ha hd).mpr ?_
        rcases List.mem_cons.mp he with rfl | he
        · exact hac
        · exact trans_of r hac (hc e he)
    · rw [List.orderedInsert_of_not_le r l hac, List.filterMap_cons, List.filterMap_cons, ih]
      cases ha : f a with
      | none => rfl
      | some b =>
        cases hd : f c with
        | none => rfl
        | some d =>
          refine (List.orderedInsert_of_not_le s _ ?_).symm
          rwa [hf a c b d ha hd]

/-- **What is made of each row can be made before a sort**, if it keeps the order. -/
theorem filterMap_insertionSort [Std.Total r] [IsTrans α r]
    (hf : ∀ a b c d, f a = some c → f b = some d → (s c d ↔ r a b)) : ∀ l : List α,
    (l.insertionSort r).filterMap f = (l.filterMap f).insertionSort s
  | [] => rfl
  | a :: l => by
    have ih := filterMap_insertionSort hf l
    rw [List.insertionSort_cons, filterMap_orderedInsert hf a (List.pairwise_insertionSort r l),
      List.filterMap_cons]
    cases ha : f a with
    | none => exact ih
    | some b =>
      simp only
      rw [ih, List.insertionSort_cons]

theorem filter_insertionSort [Std.Total r] [IsTrans α r] (g : α → Bool) (l : List α) :
    (l.insertionSort r).filter g = (l.filter g).insertionSort r := by
  rw [← List.filterMap_eq_filter]
  refine filterMap_insertionSort (fun a b c d hc hd => ?_) l
  rw [Option.guard_eq_some_iff] at hc hd
  rw [hc.1, hd.1]

end Relations

/-- What is made of each row can be made before the sort, if it keeps the column. -/
theorem filterMap_sortBy (hf : ∀ a b, f a = some b → q b = p a) (l : List α) :
    (sortBy p l).filterMap f = sortBy q (l.filterMap f) := by
  have : Std.Total fun a b : α => p a ≤ p b := ⟨fun a b => le_total (p a) (p b)⟩
  have : IsTrans α fun a b => p a ≤ p b := ⟨fun _ _ _ => le_trans⟩
  exact filterMap_insertionSort (fun a b c d hc hd => by rw [hf a c hc, hf b d hd]) l

theorem map_sortBy {g : α → β} (hg : ∀ a, q (g a) = p a) (l : List α) :
    (sortBy p l).map g = sortBy q (l.map g) := by
  rw [← List.filterMap_eq_map]
  refine filterMap_sortBy (fun a b h => ?_) l
  obtain rfl := Option.some.inj h
  exact hg a

theorem sortBy_eq_of_perm {l l' : List α} (hp : ∀ a ∈ l, ∀ b ∈ l, p a = p b → a = b) (h : l.Perm l') :
    sortBy p l = sortBy p l' := by
  have hmem : ∀ a ∈ sortBy p l', a ∈ l := fun a ha => h.symm.subset (mem_sortBy.mp ha)
  refine List.Perm.eq_of_pairwise (fun a b ha hb hab hba => ?_) (pairwise_sortBy p l) (pairwise_sortBy p l')
    ((perm_sortBy p l).trans (h.trans (perm_sortBy p l').symm))
  exact hp a (mem_sortBy.mp ha) b (hmem b hb) (le_antisymm hab hba)

theorem sortBy_eq_self {l : List α} (h : l.Pairwise fun a b => p a ≤ p b) : sortBy p l = l :=
  h.insertionSort_eq

theorem filter_sortBy (r : α → Bool) (l : List α) :
    (sortBy p l).filter r = sortBy p (l.filter r) := by
  have : Std.Total fun a b : α => p a ≤ p b := ⟨fun a b => le_total (p a) (p b)⟩
  have : IsTrans α fun a b => p a ≤ p b := ⟨fun _ _ _ => le_trans⟩
  exact filter_insertionSort r l

end Order

/-! ### Grouping -/

section Group
variable {α : Type} [DecidableEq α]

/-- Each value with how often it occurs, as `GROUP BY` with `COUNT(*)` gives them. -/
def groupCount (l : List α) : List (α × ℕ) := l.dedup.map fun a => (a, l.count a)

theorem filter_dedup (p : α → Bool) : ∀ l : List α, l.dedup.filter p = (l.filter p).dedup
  | [] => rfl
  | a :: l => by
    have ih := filter_dedup p l
    have hmem : a ∈ l.filter p ↔ a ∈ l ∧ p a = true := List.mem_filter
    by_cases ha : a ∈ l
    · rw [List.dedup_cons_of_mem ha, ih]
      by_cases hp : p a = true
      · rw [List.filter_cons_of_pos hp, List.dedup_cons_of_mem (hmem.mpr ⟨ha, hp⟩)]
      · rw [List.filter_cons_of_neg hp]
    · rw [List.dedup_cons_of_notMem ha]
      by_cases hp : p a = true
      · rw [List.filter_cons_of_pos hp, List.filter_cons_of_pos hp, ih,
          List.dedup_cons_of_notMem fun h => ha (hmem.mp h).1]
      · rw [List.filter_cons_of_neg hp, List.filter_cons_of_neg hp, ih]

theorem filter_groupCount (p : α → Bool) (l : List α) :
    ((groupCount l).filter fun g => p g.1) = groupCount (l.filter p) := by
  unfold groupCount
  rw [List.filter_map, ← filter_dedup]
  refine List.map_congr_left fun a ha => ?_
  have hp : p a = true := (List.mem_filter.mp ha).2
  rw [List.count_filter hp]

theorem sum_groupCount (l : List α) : ((groupCount l).map Prod.snd).sum = l.length := by
  unfold groupCount
  rw [List.map_map]
  exact List.sum_map_count_dedup_eq_length l

end Group

end StarStats.Lib.Tables
