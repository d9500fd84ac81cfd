import Mathlib.Data.List.Pairwise
import Mathlib.Data.Rat.Defs
import StarStats.Core.Templates

/-! # Rituals

A template is a sequence of steps, walked in order against a window of lines: each step takes the next
line that it matches, unless the lines skipped so far, over all steps, exceed the slack. A step that
finds none is missing, and the walk goes on from where it was.

The walk is greedy. Where the steps can be assigned to lines in order within the slack, it finds such
an assignment, since taking the earliest line leaves the most slack for the steps behind
(`isSome_of_assignment`). -/

namespace StarStats.Core.Rituals

open List
open StarStats.Core.Parser StarStats.Core.Templates

/-- One step of a template. -/
structure TemplateStep where
  stepMatch : StepMatch
  tags : List String
  optional : Bool
  deriving DecidableEq

/-- A sequence of steps, with gaps between them. -/
structure EventTemplate where
  id : String
  steps : List TemplateStep
  maxSlack : ℕ
  minMatchCount : ℕ
  deriving DecidableEq

/-- A template found in a window. -/
structure TemplateHit where
  templateId : String
  matchedCount : ℕ
  totalSteps : ℕ
  /-- Before it is rounded to a binary32. -/
  confidence : ℚ
  capturedIndices : List (Option ℕ)
  missingSteps : List ℕ
  deriving DecidableEq

/-- The step matches the line, with all its tags. -/
def TemplateStep.matches (step : TemplateStep) (line : LogLine) : Bool :=
  lineMatches line step.stepMatch step.tags

/-- Look for the line of a step, `offset` lines into the rest of the window. -/
def findStep (maxSlack slackUsed : ℕ) (step : TemplateStep) : ℕ → List LogLine → Option ℕ
  | _, [] => none
  | offset, line :: lines =>
    if step.matches line then some offset
    -- the next line would be over the budget
    else if maxSlack ≤ slackUsed + offset then none
    else findStep maxSlack slackUsed step (offset + 1) lines

/-- Walk the steps from the line at `windowPos` on, the first being the step `stepIdx` of the template:
the captured lines, and the required steps without one. -/
def walk (window : List LogLine) (maxSlack : ℕ) :
    ℕ → ℕ → ℕ → List TemplateStep → List (Option ℕ) × List ℕ
  | _, _, _, [] => ([], [])
  | windowPos, slackUsed, stepIdx, step :: steps =>
    match findStep maxSlack slackUsed step 0 (window.drop windowPos) with
    | some localSkip =>
      let (captured, missing) := walk window maxSlack (windowPos + localSkip + 1)
        (slackUsed + localSkip) (stepIdx + 1) steps
      (some (windowPos + localSkip) :: captured, missing)
    | none =>
      let (captured, missing) := walk window maxSlack windowPos slackUsed (stepIdx + 1) steps
      (none :: captured, if step.optional then missing else stepIdx :: missing)

/-- The number of steps that are not optional. -/
def EventTemplate.requiredTotal (tpl : EventTemplate) : ℕ := tpl.steps.countP (!·.optional)

/-- How many of the steps that are not optional have a line. -/
def requiredMatched (captured : List (Option ℕ)) (steps : List TemplateStep) : ℕ :=
  (captured.zip steps).countP fun (c, s) => c.isSome && !s.optional

/-- The share of the required steps that were found. -/
def confidence (requiredMatched requiredTotal : ℕ) : ℚ :=
  if requiredTotal = 0 then 1 else (min requiredMatched requiredTotal : ℕ) / (requiredTotal : ℚ)

/-- An empty window or template gives no hit. -/
def matchOneTemplate (window : List LogLine) (tpl : EventTemplate) : Option TemplateHit :=
  if window = [] ∨ tpl.steps = [] then none
  else
    let (captured, missing) := walk window tpl.maxSlack 0 0 0 tpl.steps
    if requiredMatched captured tpl.steps < tpl.minMatchCount then none
    else some {
      templateId := tpl.id
      matchedCount := captured.countP (·.isSome)
      totalSteps := tpl.steps.length
      confidence := confidence (requiredMatched captured tpl.steps) tpl.requiredTotal
      capturedIndices := captured
      missingSteps := missing }

/-- The hits, in the order of the templates. -/
def matchTemplates (window : List LogLine) (templates : List EventTemplate) : List TemplateHit :=
  templates.filterMap (matchOneTemplate window)

/-! ### One step -/

section Find
variable {maxSlack slackUsed : ℕ} {step : TemplateStep}

theorem findStep_eq_some : ∀ {offset : ℕ} {lines : List LogLine} {o : ℕ},
    findStep maxSlack slackUsed step offset lines = some o →
    offset ≤ o ∧ (∃ line, lines[o - offset]? = some line ∧ step.matches line) ∧
      (o = offset ∨ slackUsed + o ≤ maxSlack)
  | _, [], _, h => by simp [findStep] at h
  | offset, line :: lines, o, h => by
    unfold findStep at h
    split_ifs at h with hm hb
    · cases h
      exact ⟨le_rfl, ⟨line, by simp, hm⟩, Or.inl rfl⟩
    · obtain ⟨hle, ⟨l, hl, hlm⟩, hbudget⟩ := findStep_eq_some h
      have hidx : o - offset = (o - (offset + 1)) + 1 := by omega
      refine ⟨by omega, ⟨l, ?_, hlm⟩, Or.inr ?_⟩
      · rw [hidx, getElem?_cons_succ]
        exact hl
      · omega

/-- **A line within the budget is found, or one before it.** -/
theorem exists_findStep : ∀ {offset j : ℕ} {lines : List LogLine} {line : LogLine},
    lines[j]? = some line → step.matches line → slackUsed + offset + j ≤ maxSlack →
    ∃ o, findStep maxSlack slackUsed step offset lines = some o ∧ o ≤ offset + j
  | _, _, [], _, h, _, _ => by simp at h
  | offset, j, l :: lines, line, h, hm, hbudget => by
    unfold findStep
    by_cases hl : step.matches l
    · exact ⟨offset, by rw [if_pos hl], Nat.le_add_right _ _⟩
    · cases j with
      | zero =>
        rw [getElem?_cons_zero, Option.some.injEq] at h
        exact absurd (h ▸ hm) hl
      | succ j =>
        rw [getElem?_cons_succ] at h
        have hgo : ¬ maxSlack ≤ slackUsed + offset := by omega
        obtain ⟨o, ho, hle⟩ := @exists_findStep (offset + 1) j lines line h hm (by omega)
        exact ⟨o, by rw [if_neg hl, if_neg hgo, ho], by omega⟩

end Find

/-! ### The walk -/

/-- The window lines that the steps have captured, in the order of the steps. -/
def taken (captured : List (Option ℕ)) : List ℕ := captured.filterMap id

/-- Each step that has captured a line matches it. -/
def Fit (window : List LogLine) (captured : List (Option ℕ)) (steps : List TemplateStep) : Prop :=
  Forall₂ (fun c step => ∀ l ∈ c, ∃ line, window[l]? = some line ∧ TemplateStep.matches step line)
    captured steps

section Walk
variable {window : List LogLine} {maxSlack : ℕ}

theorem fit_walk : ∀ (pos used idx : ℕ) (steps : List TemplateStep),
    Fit window (walk window maxSlack pos used idx steps).1 steps
  | _, _, _, [] => Forall₂.nil
  | pos, used, idx, step :: steps => by
    unfold walk
    split
    · next o ho =>
      refine Forall₂.cons (fun l hl => ?_) (fit_walk _ _ _ steps)
      obtain ⟨-, ⟨line, hline, hm⟩, -⟩ := findStep_eq_some ho
      obtain rfl := Option.mem_some_iff.mp hl
      rw [getElem?_drop, Nat.sub_zero] at hline
      exact ⟨line, hline, hm⟩
    · exact Forall₂.cons (fun l hl => absurd hl (by simp)) (fit_walk _ _ _ steps)

/-- **The captured lines are in order, and the skipped ones are within the slack.** -/
theorem taken_walk : ∀ {pos used idx : ℕ} {steps : List TemplateStep}, used ≤ maxSlack →
    (taken (walk window maxSlack pos used idx steps).1).Pairwise (· < ·) ∧
      (∀ l ∈ taken (walk window maxSlack pos used idx steps).1, pos ≤ l) ∧
      ∀ l ∈ taken (walk window maxSlack pos used idx steps).1, l + 1 + used ≤
        pos + maxSlack + (taken (walk window maxSlack pos used idx steps).1).length
  | _, _, _, [], _ => by simp [walk, taken]
  | pos, used, idx, step :: steps, hused => by
    unfold walk
    split
    · next o ho =>
      obtain ⟨-, -, hbudget⟩ := findStep_eq_some ho
      have hused' : used + o ≤ maxSlack := by omega
      obtain ⟨hlt, hle, hslack⟩ :=
        @taken_walk (pos + o + 1) (used + o) (idx + 1) steps hused'
      simp only [taken, filterMap_cons, id_eq, length_cons, mem_cons, forall_eq_or_imp,
        pairwise_cons] at hlt hle hslack ⊢
      refine ⟨⟨fun l hl => ?_, hlt⟩, ⟨by omega, fun l hl => ?_⟩, by omega, fun l hl => ?_⟩
      · have := hle l hl
        omega
      · have := hle l hl
        omega
      · have := hslack l hl
        omega
    · exact taken_walk hused

theorem mem_missing_walk : ∀ {pos used idx : ℕ} {steps : List TemplateStep} {i : ℕ},
    i ∈ (walk window maxSlack pos used idx steps).2 ↔ ∃ j step, i = idx + j ∧
      steps[j]? = some step ∧ step.optional = false ∧
      (walk window maxSlack pos used idx steps).1[j]? = some none
  | _, _, _, [], _ => by simp [walk]
  | pos, used, idx, step :: steps, i => by
    -- the steps behind the first, counted from it
    have hshift : ∀ (captured : List (Option ℕ)) (c : Option ℕ),
        (∃ j s, i = idx + 1 + j ∧ steps[j]? = some s ∧ s.optional = false ∧
          captured[j]? = some none) ↔
        ∃ j s, i = idx + (j + 1) ∧ (step :: steps)[j + 1]? = some s ∧ s.optional = false ∧
          (c :: captured)[j + 1]? = some none := by
      intro captured c
      simp only [getElem?_cons_succ]
      constructor <;> rintro ⟨j, s, hi, h⟩ <;> exact ⟨j, s, by omega, h⟩
    unfold walk
    split
    · next o ho =>
      have ih := @mem_missing_walk (pos + o + 1) (used + o) (idx + 1) steps i
      simp only
      rw [ih, hshift _ (some (pos + o))]
      constructor
      · rintro ⟨j, s, h⟩
        exact ⟨j + 1, s, h⟩
      · rintro ⟨j, s, hi, hs, hopt, hc⟩
        cases j with
        | zero => simp at hc
        | succ j => exact ⟨j, s, hi, hs, hopt, hc⟩
    · have ih := @mem_missing_walk pos used (idx + 1) steps i
      rw [hshift _ none] at ih
      have hhere : i ∈ (if step.optional then (walk window maxSlack pos used (idx + 1) steps).2
          else idx :: (walk window maxSlack pos used (idx + 1) steps).2) ↔
          i = idx ∧ step.optional = false ∨
            i ∈ (walk window maxSlack pos used (idx + 1) steps).2 := by
        cases step.optional <;> simp
      simp only
      rw [hhere, ih]
      constructor
      · rintro (⟨rfl, hopt⟩ | ⟨j, s, h⟩)
        · exact ⟨0, step, by simp, by simp, hopt, by simp⟩
        · exact ⟨j + 1, s, h⟩
      · rintro ⟨j, s, hi, hs, hopt, hc⟩
        cases j with
        | zero =>
          rw [getElem?_cons_zero, Option.some.injEq] at hs
          subst hs
          exact Or.inl ⟨by omega, hopt⟩
        | succ j => exact Or.inr ⟨j, s, hi, hs, hopt, hc⟩

theorem add_length_le_getLast : ∀ {i : ℕ} {is : List ℕ}, (i :: is).Pairwise (· < ·) →
    i + is.length ≤ (i :: is).getLast (by simp)
  | i, [], _ => by simp
  | i, j :: is, h => by
    obtain ⟨hfirst, hrest⟩ := pairwise_cons.mp h
    have hij := hfirst j mem_cons_self
    have ih := add_length_le_getLast hrest
    rw [getLast_cons_cons, length_cons]
    omega

/-- **Where the steps can be assigned to lines in order within the slack, all of them are captured.**
The line captured is not behind the one assigned, and what it leaves of the slack is enough for the
lines assigned to the steps behind. -/
theorem isSome_walk : ∀ {pos used idx : ℕ} {steps : List TemplateStep} {is : List ℕ},
    is.Pairwise (· < ·) → (∀ i ∈ is, pos ≤ i) →
    Forall₂ (fun i step => ∃ line, window[i]? = some line ∧ TemplateStep.matches step line) is steps →
    (∀ i ∈ is, i + 1 + used ≤ pos + maxSlack + is.length) →
    ∀ c ∈ (walk window maxSlack pos used idx steps).1, c.isSome
  | _, _, _, [], _, _, _, _, _ => by simp [walk]
  | pos, used, idx, step :: steps, [], _, _, h, _ => by simp at h
  | pos, used, idx, step :: steps, i :: is, hlt, hpos, h, hslack => by
    obtain ⟨⟨line, hline, hm⟩, hfit⟩ := forall₂_cons.mp h
    have hlast := add_length_le_getLast hlt
    have hend := hslack _ (getLast_mem (cons_ne_nil i is))
    obtain ⟨hfirst, hlt⟩ := pairwise_cons.mp hlt
    have hposi : pos ≤ i := hpos i mem_cons_self
    rw [length_cons] at hend hslack
    have hdrop : (window.drop pos)[i - pos]? = some line := by
      rw [getElem?_drop, Nat.add_sub_cancel' hposi]
      exact hline
    have hroom : used + 0 + (i - pos) ≤ maxSlack := by omega
    obtain ⟨o, ho, hle⟩ := exists_findStep hdrop hm hroom
    have ih := @isSome_walk (pos + o + 1) (used + o) (idx + 1) steps is hlt
      (fun j hj => by have := hfirst j hj; omega) hfit
      (fun j hj => by have := hslack j (mem_cons_of_mem _ hj); omega)
    unfold walk
    simp only [ho]
    intro c hc
    rcases mem_cons.mp hc with rfl | hc
    · rfl
    · exact ih c hc

end Walk

/-! ### Complete rituals -/

/-- How many of the lines before the last of these are none of them. -/
def skipped (is : List ℕ) : ℕ :=
  match is.getLast? with
  | none => 0
  | some l => ((range l).filter (· ∉ is)).length

/-- The lines up to the last one are those of the list and the skipped ones. -/
theorem skipped_add_length {is : List ℕ} (h : is.Pairwise (· < ·)) {l : ℕ}
    (hl : is.getLast? = some l) : skipped is + is.length = l + 1 := by
  obtain ⟨init, rfl⟩ := getLast?_eq_some_iff.mp hl
  have hle : ∀ i ∈ init ++ [l], i < l + 1 := by
    intro i hi
    rcases mem_append.mp hi with hi | hi
    · have := (pairwise_append.mp h).2.2 i hi l (by simp)
      omega
    · rw [mem_singleton.mp hi]
      omega
  have hperm : (range (l + 1)).filter (· ∈ init ++ [l]) ~ init ++ [l] := by
    refine (perm_ext_iff_of_nodup (nodup_range.filter _) (h.imp fun hab => hab.ne)).mpr fun i => ?_
    simp only [mem_filter, mem_range, decide_eq_true_eq]
    exact ⟨fun hi => hi.2, fun hi => ⟨hle i hi, hi⟩⟩
  have hout : (range (l + 1)).filter (· ∉ init ++ [l]) = (range l).filter (· ∉ init ++ [l]) := by
    rw [range_succ, filter_append]
    simp
  have hcount := length_eq_length_filter_add (l := range (l + 1)) (decide <| · ∈ init ++ [l])
  simp only [← decide_not] at hcount
  rw [length_range, hperm.length_eq, hout] at hcount
  simp only [skipped, hl]
  omega

/-- An assignment of the steps to lines of the window, in order and within the slack. -/
structure Assignment (window : List LogLine) (tpl : EventTemplate) (is : List ℕ) : Prop where
  increasing : is.Pairwise (· < ·)
  fit : Forall₂ (fun i step => ∃ line, window[i]? = some line ∧ TemplateStep.matches step line) is
    tpl.steps
  slack : skipped is ≤ tpl.maxSlack

/-- All steps are captured. -/
def TemplateHit.Complete (h : TemplateHit) : Prop :=
  h.missingSteps = [] ∧ ∀ c ∈ h.capturedIndices, c.isSome

/-- What a hit says of the window and the template. -/
structure Sound (window : List LogLine) (tpl : EventTemplate) (h : TemplateHit) : Prop where
  increasing : (taken h.capturedIndices).Pairwise (· < ·)
  fit : Fit window h.capturedIndices tpl.steps
  slack : skipped (taken h.capturedIndices) ≤ tpl.maxSlack
  missing : ∀ i, i ∈ h.missingSteps ↔ ∃ step, tpl.steps[i]? = some step ∧ step.optional = false ∧
    h.capturedIndices[i]? = some none

section Hit
variable {window : List LogLine} {tpl : EventTemplate}

theorem matchOneTemplate_eq_some {h : TemplateHit} :
    matchOneTemplate window tpl = some h ↔ (window ≠ [] ∧ tpl.steps ≠ []) ∧
      tpl.minMatchCount ≤
        requiredMatched (walk window tpl.maxSlack 0 0 0 tpl.steps).1 tpl.steps ∧
      h = {
        templateId := tpl.id
        matchedCount := (walk window tpl.maxSlack 0 0 0 tpl.steps).1.countP (·.isSome)
        totalSteps := tpl.steps.length
        confidence := confidence
          (requiredMatched (walk window tpl.maxSlack 0 0 0 tpl.steps).1 tpl.steps) tpl.requiredTotal
        capturedIndices := (walk window tpl.maxSlack 0 0 0 tpl.steps).1
        missingSteps := (walk window tpl.maxSlack 0 0 0 tpl.steps).2 } := by
  unfold matchOneTemplate
  by_cases hempty : window = [] ∨ tpl.steps = []
  · rw [if_pos hempty]
    have hnot : ¬ (window ≠ [] ∧ tpl.steps ≠ []) := by
      rwa [← not_or, not_not]
    simp [hnot]
  · rw [if_neg hempty]
    have hne : window ≠ [] ∧ tpl.steps ≠ [] := not_or.mp hempty
    by_cases hmin : requiredMatched (walk window tpl.maxSlack 0 0 0 tpl.steps).1 tpl.steps <
        tpl.minMatchCount
    · simp [hmin, hne]
    · simp only [if_neg hmin, Option.some.injEq]
      rw [not_lt] at hmin
      simp only [hne, hmin, ne_eq, not_false_eq_true, true_and, and_self]
      exact eq_comm

theorem skipped_le {is : List ℕ} {slack : ℕ} (hlt : is.Pairwise (· < ·))
    (h : ∀ l ∈ is, l + 1 ≤ slack + is.length) : skipped is ≤ slack := by
  cases hl : is.getLast? with
  | none => simp [skipped, hl]
  | some l =>
    have hsum := skipped_add_length hlt hl
    have hle := h l (mem_of_getLast? hl)
    omega

theorem sound_of_eq_some {h : TemplateHit} (hh : matchOneTemplate window tpl = some h) :
    Sound window tpl h := by
  obtain ⟨-, -, rfl⟩ := matchOneTemplate_eq_some.mp hh
  obtain ⟨hlt, -, hslack⟩ := @taken_walk window tpl.maxSlack 0 0 0 tpl.steps (Nat.zero_le _)
  simp only [Nat.zero_add, Nat.add_zero] at hslack
  refine ⟨hlt, fit_walk 0 0 0 tpl.steps, skipped_le hlt hslack, fun i => ?_⟩
  rw [mem_missing_walk]
  simp only [Nat.zero_add]
  constructor
  · rintro ⟨j, step, rfl, h⟩
    exact ⟨step, h⟩
  · rintro ⟨step, h⟩
    exact ⟨i, step, rfl, h⟩

/-- With all steps captured, all required ones are. -/
theorem requiredMatched_of_isSome : ∀ {captured : List (Option ℕ)} {steps : List TemplateStep},
    captured.length = steps.length → (∀ c ∈ captured, c.isSome) →
    requiredMatched captured steps = steps.countP (!·.optional)
  | [], [], _, _ => rfl
  | c :: captured, s :: steps, hlen, hsome => by
    have ih := @requiredMatched_of_isSome captured steps (by simpa using hlen)
      fun c hc => hsome c (mem_cons_of_mem _ hc)
    have hc := hsome c mem_cons_self
    rw [requiredMatched] at ih ⊢
    simp only [zip_cons_cons, countP_cons, ih, hc, Bool.true_and]

theorem assignment_of_complete {h : TemplateHit} (hs : Sound window tpl h) (hc : h.Complete) :
    Assignment window tpl (taken h.capturedIndices) := by
  have hfit : ∀ {captured : List (Option ℕ)} {steps : List TemplateStep}, Fit window captured steps →
      (∀ c ∈ captured, c.isSome) → Forall₂ (fun i step => ∃ line, window[i]? = some line ∧
        TemplateStep.matches step line) (taken captured) steps := by
    intro captured steps hfit
    induction hfit with
    | nil => exact fun _ => Forall₂.nil
    | @cons c step captured steps hc _ ih =>
      intro hsome
      obtain ⟨l, rfl⟩ := Option.isSome_iff_exists.mp (hsome c mem_cons_self)
      exact Forall₂.cons (hc l rfl) (ih fun c hc => hsome c (mem_cons_of_mem _ hc))
  exact ⟨hs.increasing, hfit hs.fit hc.2, hs.slack⟩

theorem complete_of_assignment (hne : tpl.steps ≠ []) (hmin : tpl.minMatchCount ≤ tpl.requiredTotal)
    {is : List ℕ} (h : Assignment window tpl is) :
    ∃ g, matchOneTemplate window tpl = some g ∧ g.Complete := by
  have hlen := h.fit.length_eq
  have hslack : ∀ i ∈ is, i + 1 + 0 ≤ 0 + tpl.maxSlack + is.length := by
    intro i hi
    cases hl : is.getLast? with
    | none =>
      rw [getLast?_eq_none_iff.mp hl] at hi
      cases hi
    | some l =>
      have hsum := skipped_add_length h.increasing hl
      have hbudget := h.slack
      have hil : i ≤ l := by
        obtain ⟨init, rfl⟩ := getLast?_eq_some_iff.mp hl
        rcases mem_append.mp hi with hi | hi
        · exact ((pairwise_append.mp h.increasing).2.2 i hi l (by simp)).le
        · exact (mem_singleton.mp hi).le
      omega
  have hsome := @isSome_walk window tpl.maxSlack 0 0 0 tpl.steps is h.increasing
    (fun _ _ => Nat.zero_le _) h.fit hslack
  have hfit := @fit_walk window tpl.maxSlack 0 0 0 tpl.steps
  have hrequired := requiredMatched_of_isSome hfit.length_eq hsome
  have hwindow : window ≠ [] := by
    rintro rfl
    cases hsteps : tpl.steps with
    | nil => exact hne hsteps
    | cons step steps =>
      have hfit' := h.fit
      rw [hsteps] at hfit'
      cases hfit' with
      | cons hi _ =>
        obtain ⟨line, hline, -⟩ := hi
        simp at hline
  refine ⟨_, matchOneTemplate_eq_some.mpr ⟨⟨hwindow, hne⟩, hrequired ▸ hmin, rfl⟩, ?_, hsome⟩
  refine eq_nil_iff_forall_not_mem.mpr fun i hi => ?_
  obtain ⟨j, step, -, -, -, hnone⟩ := mem_missing_walk.mp hi
  have := hsome none (mem_of_getElem? hnone)
  simp at this

/-- **A complete hit is an assignment within the slack, and needs a step and enough required ones.**
Every hit, complete or not, is sound. -/
theorem matchOneTemplate_exact (window : List LogLine) (tpl : EventTemplate) :
    ((∃ h, matchOneTemplate window tpl = some h ∧ h.Complete) ↔
      tpl.steps ≠ [] ∧ tpl.minMatchCount ≤ tpl.requiredTotal ∧ ∃ is, Assignment window tpl is) ∧
    ∀ h, matchOneTemplate window tpl = some h → Sound window tpl h := by
  refine ⟨⟨?_, ?_⟩, fun h hh => sound_of_eq_some hh⟩
  · rintro ⟨h, hh, hcomplete⟩
    have hassign := assignment_of_complete (sound_of_eq_some hh) hcomplete
    obtain ⟨⟨-, hne⟩, hmin, rfl⟩ := matchOneTemplate_eq_some.mp hh
    have hlen := (@fit_walk window tpl.maxSlack 0 0 0 tpl.steps).length_eq
    rw [requiredMatched_of_isSome hlen hcomplete.2] at hmin
    exact ⟨hne, hmin, _, hassign⟩
  · rintro ⟨hne, hmin, is, h⟩
    exact complete_of_assignment hne hmin h

end Hit

/-- A template of one step that asks for two: its line is there, and nothing fires. -/
theorem not_exact_minMatchCount :
    ¬ ((∃ h, matchOneTemplate [⟨"t", none, none, "body", []⟩] ⟨"id", [⟨.any, [], false⟩], 0, 2⟩ =
          some h ∧ h.Complete) ↔
        ∃ is, Assignment [⟨"t", none, none, "body", []⟩] ⟨"id", [⟨.any, [], false⟩], 0, 2⟩ is) := by
  intro h
  obtain ⟨hit, hhit, -⟩ := h.2 ⟨[0], pairwise_singleton _ _,
    Forall₂.cons ⟨⟨"t", none, none, "body", []⟩, rfl, rfl⟩ Forall₂.nil, Nat.zero_le _⟩
  simp [matchOneTemplate, walk, findStep, TemplateStep.matches, lineMatches, requiredMatched] at hhit

end StarStats.Core.Rituals
