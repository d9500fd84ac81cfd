import StarStats.Server.Audit

/-! # Rows that are changed afterwards

Someone changes rows of the log, but not the last one, and leaves the hashes. Whether the hashes are
worked out again as they stand tells whether the change is seen. -/

namespace StarStats.Server.Audit

open StarStats.Lib.Json StarStats.Lib.Tables StarStats.Lib.Chain

/-- Rows are changed; each keeps its hashes, and the last one stays as it is. -/
structure Tampered (rows rows' : List AuditRow) : Prop where
  hashes : (rows'.map fun r => (r.prevHash, r.rowHash)) = rows.map fun r => (r.prevHash, r.rowHash)
  keys : (rows'.map (·.seq)).Nodup
  last : rows'.getLast? = rows.getLast?
  changed : rows' ≠ rows

/-- The rows, by their numbers, are a chain, and each gives the hash that it keeps. -/
def Recomputes (digest : Hash → String → Hash) (rows : List AuditRow) : Prop :=
  Linked AuditRow.prevHash AuditRow.rowHash 0 (sortBy (·.seq) rows) ∧
    ∀ r ∈ rows, r.rowHash = digest r.prevHash r.text

instance (digest : Hash → String → Hash) (rows : List AuditRow) : Decidable (Recomputes digest rows) :=
  inferInstanceAs (Decidable (_ ∧ _))

/-- The rows stay in order, and each gives the text that was hashed for it. -/
structure Unseen (log : Log) (rows' : List AuditRow) : Prop where
  order : rows'.Pairwise (·.seq < ·.seq)
  texts : List.Forall₂ (fun r a => r.text = a.text) rows' log.rows

/-- All that is hashed, when the log was written and when its hashes are worked out again. -/
def messages (log : Log) (rows' : List AuditRow) : List (Hash × String) :=
  (log.rows.map fun a => (a.row.prevHash, a.text)) ++ rows'.map fun r => (r.prevHash, r.text)

section Tampering
variable {digest : Hash → String → Hash} {log : Log} {rows' : List AuditRow}

theorem exists_mem_zip {α β : Type} {l : List α} {l' : List β} (hlen : l.length = l'.length) {a : α}
    (ha : a ∈ l) : ∃ b, (a, b) ∈ l.zip l' := by
  obtain ⟨i, hi, rfl⟩ := List.getElem_of_mem ha
  have hzip : i < (l.zip l').length := by
    rw [List.length_zip]
    omega
  refine ⟨l'[i], ?_⟩
  rw [← List.getElem_zip (h := hzip)]
  exact List.getElem_mem hzip

theorem Tampered.length_eq (h : Tampered log.table rows') : rows'.length = log.rows.length := by
  have hlen := congrArg List.length h.hashes
  simpa [Log.table] using hlen

/-- Each row keeps the hashes that it was written with. -/
theorem Tampered.hashes_eq (h : Tampered log.table rows') {r : AuditRow} {a : Appended}
    (hra : (r, a) ∈ rows'.zip log.rows) :
    r.prevHash = a.row.prevHash ∧ r.rowHash = a.row.rowHash := by
  have hmap : List.Forall₂ Eq (rows'.map fun r => (r.prevHash, r.rowHash))
      (log.table.map fun r => (r.prevHash, r.rowHash)) := by
    rw [h.hashes]
    exact List.forall₂_refl _
  unfold Log.table at hmap
  rw [List.map_map, List.forall₂_map_left_iff, List.forall₂_map_right_iff] at hmap
  exact Prod.mk.inj ((List.forall₂_iff_zip.mp hmap).2 hra)

theorem Tampered.linked (h : Tampered log.table rows') (hlog : Chained digest log) :
    Linked AuditRow.prevHash AuditRow.rowHash 0 rows' :=
  (linked_congr h.hashes).mpr hlog.linked

theorem Tampered.unique (h : Tampered log.table rows') (hlog : Chained digest log) :
    (rows'.map (·.rowHash)).Nodup := by
  have hmap := congrArg (List.map Prod.snd) h.hashes
  rw [List.map_map, List.map_map] at hmap
  exact (show rows'.map (·.rowHash) = log.table.map (·.rowHash) from hmap) ▸ hlog.unique

theorem recomputes_of_unseen (hlog : Chained digest log) (h : Tampered log.table rows')
    (hunseen : Unseen log rows') : Recomputes digest rows' := by
  refine ⟨?_, fun r hr => ?_⟩
  · rw [sortBy_eq_self (hunseen.order.imp le_of_lt)]
    exact h.linked hlog
  · obtain ⟨a, hra⟩ := exists_mem_zip h.length_eq hr
    obtain ⟨hprev, hhash⟩ := h.hashes_eq hra
    have htext := (List.forall₂_iff_zip.mp hunseen.texts).2 hra
    rw [hhash, hprev, htext]
    exact hlog.hashed a (List.of_mem_zip hra).2

/-- Rows that give their hashes stay in order and give their texts. -/
theorem unseen_of_recomputes (hlog : Chained digest log) (h : Tampered log.table rows')
    (hsha : CollisionFree digest (messages log rows')) (hrows : Recomputes digest rows') :
    Unseen log rows' := by
  obtain ⟨hlinked, hown⟩ := hrows
  have hsort : sortBy (·.seq) rows' = rows' := by
    refine eq_of_perm hlinked (h.linked hlog) (perm_sortBy _ _) ?_
    exact ((perm_sortBy _ rows').map _).nodup_iff.mpr (h.unique hlog)
  constructor
  · have hle := pairwise_sortBy (·.seq) rows'
    rw [hsort] at hle
    have hne : rows'.Pairwise fun r s => r.seq ≠ s.seq := List.pairwise_map.mp h.keys
    exact (hle.and hne).imp fun hboth => lt_of_le_of_ne hboth.1 hboth.2
  · refine List.forall₂_iff_zip.mpr ⟨h.length_eq, fun {r a} hra => ?_⟩
    obtain ⟨hprev, hhash⟩ := h.hashes_eq hra
    obtain ⟨hr, ha⟩ := List.of_mem_zip hra
    have hsame : digest r.prevHash r.text = digest a.row.prevHash a.text := by
      rw [← hown r hr, hhash]
      exact hlog.hashed a ha
    have hmem : (r.prevHash, r.text) ∈ messages log rows' :=
      List.mem_append_right _ (List.mem_map.mpr ⟨r, hr, rfl⟩)
    have hmem' : (a.row.prevHash, a.text) ∈ messages log rows' :=
      List.mem_append_left _ (List.mem_map.mpr ⟨a, ha, rfl⟩)
    exact congrArg Prod.snd (hsha _ hmem _ hmem' hsame)

end Tampering

/-- **A change is seen exactly if it moves a row or changes the text that was hashed for one.** -/
theorem seen_iff {digest : Hash → String → Hash} {readBack : Value → Value} {calls : List Call}
    {rows' : List AuditRow} (h : Tampered (appendAll digest readBack calls).table rows')
    (hsha : CollisionFree digest (messages (appendAll digest readBack calls) rows')) :
    ¬ Recomputes digest rows' ↔ ¬ Unseen (appendAll digest readBack calls) rows' :=
  not_congr ⟨unseen_of_recomputes (chained_appendAll calls) h hsha,
    recomputes_of_unseen (chained_appendAll calls) h⟩

/-- Two calls, and the log after them. -/
def twoCalls : Log := appendAll sha256Of id [committedCall true, committedCall false]

/-- The first row is changed. -/
def changeFirst (f : AuditRow → AuditRow) : List AuditRow :=
  (twoCalls.table.take 1).map f ++ twoCalls.table.drop 1

def withPayload (shown : Bool) (r : AuditRow) : AuditRow :=
  { r with payload := .obj [("public", .bool shown)] }

def withHandle (handle : String) (r : AuditRow) : AuditRow := { r with actorHandle := some handle }

theorem tampered_payload : Tampered twoCalls.table (changeFirst (withPayload false)) := by
  refine ⟨by decide +kernel, by decide +kernel, rfl, fun h => ?_⟩
  have hpayloads := congrArg (List.map fun r => canonicalize r.payload) h
  exact absurd hpayloads (by decide +kernel)

/-- Another payload is seen. -/
theorem seen_payload : ¬ Recomputes sha256Of (changeFirst (withPayload false)) := by
  refine (@seen_iff sha256Of id [committedCall true, committedCall false] _ tampered_payload
    (by decide +kernel)).mpr fun h => ?_
  have hfirst := (List.forall₂_cons.mp h.texts).1
  exact absurd hfirst (by decide +kernel)

/-- Another handle is not. -/
theorem not_seen_handle : Tampered twoCalls.table (changeFirst (withHandle "Other")) ∧
    CollisionFree sha256Of (messages twoCalls (changeFirst (withHandle "Other"))) ∧
    Recomputes sha256Of (changeFirst (withHandle "Other")) := by
  refine ⟨⟨by decide +kernel, by decide +kernel, rfl, fun h => ?_⟩, by decide +kernel,
    by decide +kernel⟩
  have hhandles := congrArg (List.map (·.actorHandle)) h
  exact absurd hhandles (by decide +kernel)

end StarStats.Server.Audit
