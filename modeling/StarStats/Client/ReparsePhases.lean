import StarStats.Client.Reparse

/-! # Classifying the store again

What the first two phases of a re-parse do. Phase 1 rewrites every event as it is classified now, with
the zone that the events up to it tell (`reclassifyEvents_spec`). Phase 2 inserts the rows of the
samples that are recognised, and leaves the other samples (`promoteUnknowns_spec`). -/

namespace StarStats.Client.ReparsePhases

open StarStats.Lib StarStats.Lib.Tables
open StarStats.Core.Events StarStats.Core.Crates StarStats.Core.Parser StarStats.Core.ParserDefs
open StarStats.Core.Bursts
open StarStats.Client.Store StarStats.Client.Gamelog StarStats.Client.Ingest
open StarStats.Client.BurstRules StarStats.Client.Reparse

section
variable (x : Externals) (rules : List CompiledRemoteRule)

/-! ### Phase 1 -/

/-- What the line of a row is recognised as. -/
def eventOf (r : EventRow) : Option GameEvent := recognise x rules r.rawLine

/-- The zone that is known behind a row. -/
def zoneBehind (z : Option String) (r : EventRow) : Option String :=
  ((eventOf x rules r).bind zoneSignal).or z

/-- The row as it is classified now, where `z` is the zone known before it. -/
def reclassified (z : Option String) (r : EventRow) : EventRow :=
  match eventOf x rules r with
  | none => r
  | some e =>
    let e := enrichZone (zoneBehind x rules z r) e
    Storage.setClassification e.eventTypeKey e.timestamp e.toValue.render r

/-- The rows after the first phase; each hands its zone on to the next. -/
def reclassifiedAll : Option String → List (ℕ × EventRow) → List (ℕ × EventRow)
  | _, [] => []
  | z, a :: rows =>
    (a.1, reclassified x rules z a.2) :: reclassifiedAll (zoneBehind x rules z a.2) rows

/-- The number of rows that are classified in another way now. -/
def changes : Option String → List (ℕ × EventRow) → ℕ
  | _, [] => 0
  | z, a :: rows =>
    (if reclassified x rules z a.2 = a.2 then 0 else 1) + changes (zoneBehind x rules z a.2) rows

variable {x rules}

theorem changes_eq_zero_iff : ∀ {z : Option String} {rows : List (ℕ × EventRow)},
    changes x rules z rows = 0 ↔ reclassifiedAll x rules z rows = rows
  | _, [] => by simp [changes, reclassifiedAll]
  | z, a :: rows => by
    have ih := @changes_eq_zero_iff (zoneBehind x rules z a.2) rows
    simp only [changes, reclassifiedAll, Nat.add_eq_zero_iff, ih, List.cons.injEq]
    refine and_congr_left fun _ => ?_
    by_cases h : reclassified x rules z a.2 = a.2
    · simp [h]
    · simp only [h, if_false, Nat.one_ne_zero, false_iff]
      exact fun he => h (congrArg Prod.snd he)

/-- A row is updated exactly if it is classified in another way now. -/
theorem setClassification_eq_self_iff {t ts p : String} {r : EventRow} :
    Storage.setClassification t ts p r = r ↔
      ¬ (t ≠ r.eventType ∨ ts ≠ r.timestamp ∨ p ≠ r.payloadJson) := by
  obtain ⟨k, t', ts', raw, p', src, off⟩ := r
  simp only [Storage.setClassification, EventRow.mk.injEq]
  tauto

theorem reclassifyRow_of_none {s : Walk} {a : ℕ × EventRow} (h : eventOf x rules a.2 = none) :
    reclassifyRow x rules s a =
      Walk.kept { s with stats := { s.stats with examined := s.stats.examined + 1 } } := by
  unfold reclassifyRow
  cases hp : structuralParse x a.2.rawLine with
  | none => rfl
  | some parsed =>
    have hr : recogniseParsed x rules parsed = none := by
      simpa [eventOf, recognise, hp] using h
    simp only [hr]

theorem reclassifyRow_of_some {s : Walk} {a : ℕ × EventRow} {e : GameEvent}
    (h : eventOf x rules a.2 = some e) :
    reclassifyRow x rules s a =
      let z := (zoneSignal e).or s.lastZone
      let e := enrichZone z e
      if e.eventTypeKey ≠ a.2.eventType ∨ e.timestamp ≠ a.2.timestamp ∨
          e.toValue.render ≠ a.2.payloadJson then
        ⟨s.storage.updateEventClassification a.1 e.eventTypeKey e.timestamp e.toValue.render, z,
          { s.stats with examined := s.stats.examined + 1, updated := s.stats.updated + 1 }⟩
      else ⟨s.storage, z, { s.stats with examined := s.stats.examined + 1 }⟩ := by
  obtain ⟨parsed, hp, hr⟩ := recognise_eq_some.mp h
  simp only [reclassifyRow, hp, hr, serialiseForReparse, serialiseEvent_eq]

theorem zoneBehind_of_none {z : Option String} {r : EventRow} (h : eventOf x rules r = none) :
    zoneBehind x rules z r = z := by
  rw [zoneBehind, h, Option.bind_none, Option.none_or]

theorem zoneBehind_of_some {z : Option String} {r : EventRow} {e : GameEvent}
    (h : eventOf x rules r = some e) : zoneBehind x rules z r = (zoneSignal e).or z := by
  rw [zoneBehind, h, Option.bind_some]

theorem reclassified_of_none {z : Option String} {r : EventRow} (h : eventOf x rules r = none) :
    reclassified x rules z r = r := by
  rw [reclassified, h]

theorem reclassified_of_some {z : Option String} {r : EventRow} {e : GameEvent}
    (h : eventOf x rules r = some e) :
    reclassified x rules z r =
      Storage.setClassification (enrichZone ((zoneSignal e).or z) e).eventTypeKey
        (enrichZone ((zoneSignal e).or z) e).timestamp
        (enrichZone ((zoneSignal e).or z) e).toValue.render r := by
  simp only [reclassified, h, zoneBehind_of_some h]

/-- **One step of the walk** rewrites its row as it is classified now. -/
theorem reclassifyRow_spec {s : Walk} {before after : List (ℕ × EventRow)} {a : ℕ × EventRow}
    (h : s.storage.events.rows = before ++ a :: after) :
    ∃ events n k, reclassifyRow x rules s a =
        ⟨{ s.storage with events := events }, zoneBehind x rules s.lastZone a.2,
          { s.stats with
            examined := n, keptUnmatched := k
            updated := s.stats.updated +
              if reclassified x rules s.lastZone a.2 = a.2 then 0 else 1 }⟩ ∧
      events.rows = before ++ (a.1, reclassified x rules s.lastZone a.2) :: after ∧
      events.seq = s.storage.events.seq := by
  cases he : eventOf x rules a.2 with
  | none =>
    rw [reclassifyRow_of_none he, zoneBehind_of_none he, reclassified_of_none he, if_pos rfl]
    exact ⟨s.storage.events, _, _, rfl, h, rfl⟩
  | some e =>
    rw [reclassifyRow_of_some he, zoneBehind_of_some he, reclassified_of_some he]
    simp only
    split_ifs with hne heq heq
    · exact absurd (setClassification_eq_self_iff.mp heq) (not_not_intro hne)
    · exact ⟨_, _, _, rfl, Table.rows_update_of_split h _ _, rfl⟩
    · exact ⟨s.storage.events, _, _, rfl, by rw [heq, h], rfl⟩
    · exact absurd (setClassification_eq_self_iff.mpr hne) heq

/-- **The walk** rewrites the rows from where it is on. -/
theorem foldl_reclassifyRow_spec : ∀ {rows before : List (ℕ × EventRow)} {s : Walk},
    s.storage.events.rows = before ++ rows →
    ∃ events z n k, rows.foldl (reclassifyRow x rules) s =
        ⟨{ s.storage with events := events }, z,
          { s.stats with
            examined := n, keptUnmatched := k
            updated := s.stats.updated + changes x rules s.lastZone rows }⟩ ∧
      events.rows = before ++ reclassifiedAll x rules s.lastZone rows ∧
      events.seq = s.storage.events.seq
  | [], before, s, h => ⟨s.storage.events, s.lastZone, s.stats.examined, s.stats.keptUnmatched,
      rfl, h, rfl⟩
  | a :: rows, before, s, h => by
    obtain ⟨ev₁, n₁, k₁, h₁, hrows₁, hseq₁⟩ := reclassifyRow_spec (x := x) h
    obtain ⟨ev, z, n, k, h₂, hrows, hseq⟩ := @foldl_reclassifyRow_spec rows
      (before ++ [(a.1, reclassified x rules s.lastZone a.2)]) (reclassifyRow x rules s a)
      (by rw [h₁, List.append_assoc]; exact hrows₁)
    rw [h₁] at h₂ hrows hseq
    refine ⟨ev, z, n, k, ?_, ?_, hseq.trans hseq₁⟩
    · rw [List.foldl_cons, h₁, h₂]
      simp only [changes, Nat.add_assoc]
    · rw [hrows, List.append_assoc]
      rfl

/-- **Phase 1.** -/
theorem reclassifyEvents_spec (st : Storage) :
    ∃ events z n k, reclassifyEvents x rules st =
        ⟨{ st with events := events }, z, ⟨n, changes x rules none st.events.rows, k, 0, 0, 0⟩⟩ ∧
      events.rows = reclassifiedAll x rules none st.events.rows ∧ events.seq = st.events.seq := by
  obtain ⟨ev, z, n, k, h, hrows, hseq⟩ := @foldl_reclassifyRow_spec x rules
    st.events.rows [] ⟨st, none, .zero⟩ rfl
  exact ⟨ev, z, n, k, by simpa [reclassifyEvents, ReparseStats.zero] using h, hrows, hseq⟩

theorem eventOf_reclassified (z : Option String) (r : EventRow) :
    eventOf x rules (reclassified x rules z r) = eventOf x rules r := by
  cases h : eventOf x rules r with
  | none => rw [reclassified_of_none h, h]
  | some e => rw [reclassified_of_some h]; exact h

/-- The columns that say where a row is from stay. -/
theorem reclassified_frame (z : Option String) (r : EventRow) :
    (reclassified x rules z r).idempotencyKey = r.idempotencyKey ∧
      (reclassified x rules z r).rawLine = r.rawLine ∧
      (reclassified x rules z r).logSource = r.logSource ∧
      (reclassified x rules z r).sourceOffset = r.sourceOffset := by
  cases h : eventOf x rules r with
  | none => rw [reclassified_of_none h]; exact ⟨rfl, rfl, rfl, rfl⟩
  | some e => rw [reclassified_of_some h]; exact ⟨rfl, rfl, rfl, rfl⟩

theorem map_reclassifiedAll {α : Type} {f : ℕ × EventRow → α}
    (hf : ∀ a z, f (a.1, reclassified x rules z a.2) = f a) :
    ∀ (z : Option String) (rows : List (ℕ × EventRow)),
      (reclassifiedAll x rules z rows).map f = rows.map f
  | _, [] => rfl
  | z, a :: rows => by
    rw [reclassifiedAll, List.map_cons, List.map_cons, hf, map_reclassifiedAll hf]

theorem zoneBehind_reclassified (z z' : Option String) (r : EventRow) :
    zoneBehind x rules z (reclassified x rules z' r) = zoneBehind x rules z r := by
  rw [zoneBehind, zoneBehind, eventOf_reclassified]

theorem reclassified_reclassified (z : Option String) (r : EventRow) :
    reclassified x rules z (reclassified x rules z r) = reclassified x rules z r := by
  have he := @eventOf_reclassified x rules z r
  cases h : eventOf x rules r with
  | none => rw [reclassified_of_none (he.trans h)]
  | some e => rw [reclassified_of_some (he.trans h), reclassified_of_some h]; rfl

theorem reclassifiedAll_reclassifiedAll : ∀ (z : Option String) (rows : List (ℕ × EventRow)),
    reclassifiedAll x rules z (reclassifiedAll x rules z rows) = reclassifiedAll x rules z rows
  | _, [] => rfl
  | z, a :: rows => by
    simp only [reclassifiedAll, reclassified_reclassified, zoneBehind_reclassified,
      reclassifiedAll_reclassifiedAll]

variable (x rules) in
/-- The zone that is known behind some rows. -/
def zoneAfter (z : Option String) (rows : List (ℕ × EventRow)) : Option String :=
  rows.foldl (fun z a => zoneBehind x rules z a.2) z

theorem reclassifiedAll_append : ∀ (z : Option String) (rows rows' : List (ℕ × EventRow)),
    reclassifiedAll x rules z (rows ++ rows') =
      reclassifiedAll x rules z rows ++ reclassifiedAll x rules (zoneAfter x rules z rows) rows'
  | _, [], _ => rfl
  | z, a :: rows, rows' => by
    rw [List.cons_append, reclassifiedAll, reclassifiedAll_append]
    rfl

theorem zoneAfter_reclassifiedAll : ∀ (z z' : Option String) (rows : List (ℕ × EventRow)),
    zoneAfter x rules z (reclassifiedAll x rules z' rows) = zoneAfter x rules z rows
  | _, _, [] => rfl
  | z, z', a :: rows => by
    have ih := zoneAfter_reclassifiedAll (zoneBehind x rules z a.2) (zoneBehind x rules z' a.2) rows
    rw [zoneAfter, reclassifiedAll, List.foldl_cons, zoneBehind_reclassified]
    exact ih

/-- No zone is known behind rows that tell none. -/
theorem zoneAfter_eq_none_iff : ∀ {z : Option String} {rows : List (ℕ × EventRow)},
    zoneAfter x rules z rows = none ↔
      z = none ∧ ∀ a ∈ rows, (eventOf x rules a.2).bind zoneSignal = none
  | z, [] => by simp [zoneAfter]
  | z, a :: rows => by
    have ih := @zoneAfter_eq_none_iff (zoneBehind x rules z a.2) rows
    rw [zoneAfter, List.foldl_cons]
    refine ih.trans ?_
    rw [zoneBehind, Option.or_eq_none_iff, List.forall_mem_cons]
    tauto

/-- Rows that tell no zone can be left out of a walk. -/
theorem reclassifiedAll_filter {q : ℕ → Bool} : ∀ {z : Option String} {rows : List (ℕ × EventRow)},
    (∀ a ∈ rows, q a.1 = false → (eventOf x rules a.2).bind zoneSignal = none) →
    reclassifiedAll x rules z (rows.filter (q ·.1)) =
        (reclassifiedAll x rules z rows).filter (q ·.1) ∧
      zoneAfter x rules z (rows.filter (q ·.1)) = zoneAfter x rules z rows
  | _, [], _ => ⟨rfl, rfl⟩
  | z, a :: rows, h => by
    obtain ⟨ha, h⟩ := List.forall_mem_cons.mp h
    cases hq : q a.1 with
    | true =>
      obtain ⟨ih₁, ih₂⟩ := reclassifiedAll_filter (z := zoneBehind x rules z a.2) h
      simp only [List.filter_cons, hq, if_true, reclassifiedAll, ih₁]
      exact ⟨trivial, ih₂⟩
    | false =>
      have hz : zoneBehind x rules z a.2 = z := by rw [zoneBehind, ha hq, Option.none_or]
      obtain ⟨ih₁, ih₂⟩ := reclassifiedAll_filter (z := z) h
      simp only [List.filter_cons, hq, Bool.false_eq_true, if_false, reclassifiedAll, hz, ih₁, ih₂]
      refine ⟨trivial, ?_⟩
      rw [zoneAfter, zoneAfter, List.foldl_cons, hz]

/-- The rows with some ids are classified as they are now exactly if each of them is, with the zone
that is known where it stands. -/
theorem filter_reclassifiedAll_eq_iff {q : ℕ → Bool} : ∀ {z : Option String}
    {rows : List (ℕ × EventRow)},
    (reclassifiedAll x rules z rows).filter (q ·.1) = rows.filter (q ·.1) ↔
      ∀ pre a post, rows = pre ++ a :: post → q a.1 →
        reclassified x rules (zoneAfter x rules z pre) a.2 = a.2
  | _, [] => by simp [reclassifiedAll]
  | z, b :: rows => by
    have ih := @filter_reclassifiedAll_eq_iff q (zoneBehind x rules z b.2) rows
    have hsplit : (∀ pre a post, b :: rows = pre ++ a :: post → q a.1 →
          reclassified x rules (zoneAfter x rules z pre) a.2 = a.2) ↔
        (q b.1 → reclassified x rules z b.2 = b.2) ∧
          ∀ pre a post, rows = pre ++ a :: post → q a.1 →
            reclassified x rules (zoneAfter x rules (zoneBehind x rules z b.2) pre) a.2 = a.2 := by
      constructor
      · intro h
        refine ⟨h [] b rows rfl, fun pre a post he => h (b :: pre) a post (by rw [he]; rfl)⟩
      · rintro ⟨hb, h⟩ pre a post he
        cases pre with
        | nil =>
          obtain ⟨rfl, rfl⟩ := List.cons.inj he
          exact hb
        | cons c pre =>
          obtain ⟨rfl, rfl⟩ := List.cons.inj he
          exact h pre a post rfl
    rw [hsplit, ← ih, reclassifiedAll]
    cases hq : q b.1 with
    | true =>
      simp only [List.filter_cons, hq, if_true, List.cons.injEq, true_implies]
      refine and_congr_left fun _ => ⟨congrArg Prod.snd, fun h => ?_⟩
      rw [h]
    | false =>
      simp only [List.filter_cons, hq, Bool.false_eq_true, if_false, false_implies, true_and]

/-! ### Deaths -/

/-- Is the event one that a zone is added to? -/
def isDeath : GameEvent → Bool
  | .playerDeath _ | .playerIncapacitated _ => true
  | _ => false

theorem enrichZone_none (e : GameEvent) : enrichZone none e = e := by
  cases e with
  | playerDeath d => cases d; simp +contextual [enrichZone, eq_comm]
  | playerIncapacitated i => cases i; simp +contextual [enrichZone, eq_comm]
  | _ => rfl

theorem enrichZone_of_not_isDeath {z : Option String} {e : GameEvent} (h : isDeath e = false) :
    enrichZone z e = e := by
  cases e <;> first | rfl | cases h

theorem zoneSignal_of_isDeath {e : GameEvent} (h : isDeath e) : zoneSignal e = none := by
  cases e <;> first | rfl | cases h

theorem render_some_ne_null (z : String) :
    (Json.Value.ofOption Json.Value.str (some z)).render ≠ Json.Value.null.render := by
  intro h
  have := congrArg String.toList h
  simp [Json.Value.ofOption, Json.Value.render, Json.quote] at this

/-- A zone shows in the text of a death. -/
theorem render_enrichZone_ne {line : LogLine} {e : GameEvent} (hp : Produced line e)
    (hd : isDeath e) (z : String) :
    (enrichZone (some z) e).toValue.render ≠ e.toValue.render := by
  intro h
  cases e with
  | playerDeath d =>
    obtain ⟨ts, bodyClass, bodyId, zone⟩ := d
    obtain rfl : zone = none := hp
    simp only [enrichZone, if_true, GameEvent.toValue, Json.Value.render, String.append_left_inj,
      String.append_right_inj] at h
    exact render_some_ne_null z (@Json.renderFields_concat_inj "zone" _ _ [_, _, _, _] h)
  | playerIncapacitated i =>
    obtain ⟨ts, queueId, zone⟩ := i
    obtain rfl : zone = none := hp
    simp only [enrichZone, if_true, GameEvent.toValue, Json.Value.render, String.append_left_inj,
      String.append_right_inj] at h
    exact render_some_ne_null z (@Json.renderFields_concat_inj "zone" _ _ [_, _, _] h)
  | _ => cases hd

/-- A row as it is first stored stays as it is, unless it is a death and a zone is known. -/
theorem reclassified_eq_self_iff {key logSource line : String} {offset : ℕ} {r : EventRow}
    (h : rowUnder x rules key logSource offset line = some r) (z : Option String) :
    reclassified x rules z r = r ↔ ∀ e, eventOf x rules r = some e → isDeath e → z = none := by
  obtain ⟨e, he, rfl⟩ := Option.map_eq_some_iff.mp h
  obtain ⟨log, -, hlog⟩ := recognise_eq_some.mp he
  have hev : eventOf x rules ⟨key, e.eventTypeKey, e.timestamp, line, e.toValue.render, logSource,
      offset⟩ = some e := he
  rw [reclassified_of_some hev, setClassification_eq_self_iff, hev]
  simp only [not_or, not_not, Option.some.injEq, forall_eq']
  cases hd : isDeath e with
  | false => simp [enrichZone_of_not_isDeath hd]
  | true =>
    rw [zoneSignal_of_isDeath hd, Option.none_or]
    cases z with
    | none => simp [enrichZone_none]
    | some z =>
      have := render_enrichZone_ne (produced_of_recogniseParsed hlog) hd z
      simp [this]

/-! ### Phase 2 -/

variable (x rules) in
/-- The row a sample is promoted to, if it is recognised. -/
def promotion (sample : UnknownSampleRow) : Option EventRow :=
  rowUnder x rules (reparseIdempotencyKey x sample.logSource sample.sampleLine) sample.logSource 0
    sample.sampleLine

variable (x rules) in
/-- The rows that the samples of a store are promoted to. -/
def promotions (st : Storage) : List EventRow := st.recentUnknowns.filterMap (promotion x rules)

theorem promotion_eq_none_iff {sample : UnknownSampleRow} :
    promotion x rules sample = none ↔ recognise x rules sample.sampleLine = none := by
  simp [promotion, rowUnder]

theorem promoteUnknown_of_none {s : Storage × ReparseStats} {sample : UnknownSampleRow}
    (h : promotion x rules sample = none) : promoteUnknown x rules s sample = s := by
  rw [promotion_eq_none_iff] at h
  unfold promoteUnknown
  cases hp : structuralParse x sample.sampleLine with
  | none => rfl
  | some parsed =>
    have hr : recogniseParsed x rules parsed = none := by simpa [recognise, hp] using h
    simp only [hr]

theorem promoteUnknown_of_some {s : Storage × ReparseStats} {sample : UnknownSampleRow}
    {row : EventRow} (h : promotion x rules sample = some row) :
    promoteUnknown x rules s sample =
      ((s.1.insertEvent row).deleteUnknown sample.logSource sample.eventName,
        { s.2 with promotedUnknowns := s.2.promotedUnknowns + 1 }) := by
  obtain ⟨e, he, rfl⟩ := Option.map_eq_some_iff.mp h
  obtain ⟨parsed, hp, hr⟩ := recognise_eq_some.mp he
  simp only [promoteUnknown, hp, hr, serialiseForReparse, serialiseEvent_eq]

/-- A sample that is left was there before, and is none of those promoted. -/
def LeftOver (samples before : Table UnknownSampleRow.key) (done : List UnknownSampleRow) : Prop :=
  ∀ r ∈ samples.contents, r ∈ before.contents ∧
    ∀ l ∈ done, promotion x rules l ≠ none → l.key ≠ r.key

theorem foldl_promoteUnknown_spec : ∀ (ls : List UnknownSampleRow) (s : Storage × ReparseStats),
    ∃ samples, ls.foldl (promoteUnknown x rules) s =
        ({ s.1 with
            events := s.1.events.insertAll (ls.filterMap (promotion x rules))
            unknownSamples := samples },
          { s.2 with
            promotedUnknowns :=
              s.2.promotedUnknowns + (ls.filterMap (promotion x rules)).length }) ∧
      @LeftOver x rules samples s.1.unknownSamples ls
  | [], s => ⟨s.1.unknownSamples, rfl, fun r hr => ⟨hr, by simp⟩⟩
  | l :: ls, s => by
    cases hl : promotion x rules l with
    | none =>
      obtain ⟨samples, h, hleft⟩ := foldl_promoteUnknown_spec ls s
      refine ⟨samples, ?_, fun r hr => ⟨(hleft r hr).1, fun m hm hsome => ?_⟩⟩
      · rw [List.foldl_cons, promoteUnknown_of_none hl, h, List.filterMap_cons_none hl]
      · rcases List.mem_cons.mp hm with rfl | hm
        · exact absurd hl hsome
        · exact (hleft r hr).2 m hm hsome
    | some row =>
      obtain ⟨samples, h, hleft⟩ := foldl_promoteUnknown_spec ls (promoteUnknown x rules s l)
      rw [promoteUnknown_of_some hl] at h hleft
      refine ⟨samples, ?_, fun r hr => ?_⟩
      · rw [List.foldl_cons, promoteUnknown_of_some hl, h, List.filterMap_cons_some hl]
        simp only [Storage.deleteUnknown, Storage.insertEvent, Table.insertAll_cons,
          List.length_cons, Nat.add_assoc, Nat.add_comm 1]
      · obtain ⟨hmem, hall⟩ := hleft r hr
        obtain ⟨a, ha, rfl⟩ := List.mem_map.mp hmem
        obtain ⟨ha, hkey⟩ := List.mem_filter.mp ha
        refine ⟨List.mem_map_of_mem ha, fun m hm hsome => ?_⟩
        rcases List.mem_cons.mp hm with rfl | hm
        · intro he
          simp only [UnknownSampleRow.key, Prod.mk.injEq] at he
          simp [he.1, he.2] at hkey
        · exact hall m hm hsome

/-- **Phase 2.** -/
theorem promoteUnknowns_spec (s : Storage × ReparseStats) :
    ∃ samples, promoteUnknowns x rules s =
        ({ s.1 with
            events := s.1.events.insertAll (promotions x rules s.1), unknownSamples := samples },
          { s.2 with
            promotedUnknowns := s.2.promotedUnknowns + (promotions x rules s.1).length }) ∧
      ∀ r ∈ samples.contents, promotion x rules r = none := by
  obtain ⟨samples, h, hleft⟩ :=
    foldl_promoteUnknown_spec (x := x) s.1.recentUnknowns s
  refine ⟨samples, h, fun r hr => ?_⟩
  obtain ⟨hmem, hall⟩ := hleft r hr
  by_contra hsome
  exact hall r ((List.perm_insertionSort _ _).mem_iff.mpr hmem) hsome rfl

end

end StarStats.Client.ReparsePhases
