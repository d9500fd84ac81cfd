import Mathlib.Data.List.Forall2
import StarStats.Core.Inference

/-! # Timeouts in shops

A request of a shop times out if no response is found among the envelopes after it, of which the rule reads
a bounded number. So there is no response in time among as many (`silent_of_timedOut`); there may be one
behind them. -/

namespace StarStats.Core.ShopTimeouts

open StarStats.Core.Events StarStats.Core.Metadata StarStats.Core.Wire StarStats.Core.Inference
open StarStats.Lib.Ints

/-- The row is of the rule for shops. -/
def isTimeout (row : InferredEvent) : Bool :=
  match row.event with
  | .shopRequestTimedOut _ => true
  | _ => false

/-- No response that may be one to the request, at most thirty seconds after it, among the envelopes. -/
def Silent (parseTs : String → Option ℤ) (req : ShopBuyRequest) (later : List EventEnvelope) : Prop :=
  ∀ e ∈ later, ∀ resp, e.event = some (.shopFlowResponse resp) → idMatch req (.shopFlowResponse resp) →
    ∀ s ∈ parseTs req.timestamp, ∀ t ∈ parseTs resp.timestamp,
      ¬ t ≤ s + implicitShopRequestTimeoutSecs * nsPerSec

/-- The row is the timeout of a request. -/
structure TimeoutOf (row : InferredEvent) (env : EventEnvelope) (req : ShopBuyRequest) : Prop where
  request : env.event = some (.shopBuyRequest req)
  event : row.event = timedOut req
  trigger : row.triggerIdempotencyKey = env.idempotencyKey

section Rows
variable {parseTs : String → Option ℤ} {events : List EventEnvelope} {config : InferenceConfig}

theorem filter_isTimeout : (infer parseTs events config).filter isTimeout =
    (ruleImplicitShopRequestTimeout parseTs events config).map (reconcile parseTs events config) := by
  have hkeep : ∀ row row', row.event = row'.event → isTimeout row = isTimeout row' := by
    intro row row' h
    unfold isTimeout
    rw [h]
  have hdeaths : ∀ row ∈ ruleImplicitDeathAfterVehicleDestruction parseTs events config,
      ¬ isTimeout row = true := by
    intro row hrow htimeout
    obtain ⟨f, -, hf⟩ := List.mem_filterMap.mp hrow
    obtain ⟨death, hevent, -⟩ := exists_of_implicitDeath hf
    unfold isTimeout at htimeout
    rw [hevent] at htimeout
    cases htimeout
  have hchanges : ∀ row ∈ ruleImplicitLocationChange events, ¬ isTimeout row = true := by
    intro row hrow htimeout
    obtain ⟨change, hevent, -⟩ := exists_of_mem_ruleImplicitLocationChange hrow
    unfold isTimeout at htimeout
    rw [hevent] at htimeout
    cases htimeout
  have htimeouts : ∀ row ∈ ruleImplicitShopRequestTimeout parseTs events config,
      isTimeout row = true := by
    intro row hrow
    obtain ⟨f, -, hf⟩ := List.mem_filterMap.mp hrow
    obtain ⟨req, reqTs, -, -, -, rfl⟩ := exists_of_implicitTimeout hf
    rfl
  rw [filter_infer hkeep, List.filter_eq_nil_iff.mpr hdeaths, List.filter_eq_nil_iff.mpr hchanges,
    List.filter_eq_self.mpr htimeouts, List.nil_append, List.nil_append]

theorem silent_of_scanForward {req : ShopBuyRequest} {reqTs : ℤ} {env : EventEnvelope}
    {later : List EventEnvelope} (hreq : env.event = some (.shopBuyRequest req))
    (hts : parseTs req.timestamp = some reqTs) (horder : InOrder parseTs (env :: later))
    (hscan : scanForward parseTs implicitShopRequestTimeoutSecs reqTs (idMatch req) later = none) :
    Silent parseTs req later := by
  obtain ⟨hafter, hlater⟩ := List.pairwise_cons.mp horder
  have henv : reqTs ∈ envelopeTs parseTs env := by
    unfold envelopeTs
    rw [hreq]
    exact hts
  intro e he resp hresp hmatch s hs t ht hle
  obtain rfl : reqTs = s := Option.some.inj (hts.symm.trans hs)
  have hte : t ∈ envelopeTs parseTs e := by
    unfold envelopeTs
    rw [hresp]
    exact ht
  have hwanted : e.event.any (idMatch req) = true := by
    rw [hresp]
    exact hmatch
  have hstart := hafter e he reqTs henv t hte
  have hlate := late_of_scanForward (by decide) hlater hscan e he hwanted t hte hstart
  unfold nsPerSec at hle hlate
  omega

/-- What a function yields of a list goes along with the elements it yields it of. -/
theorem forall₂_filterMap {α β : Type} {f : α → Option β} {r : β → α → Prop} {l : List α}
    (h : ∀ a ∈ l, ∀ b, f a = some b → r b a) :
    List.Forall₂ r (l.filterMap f) (l.filter fun a => (f a).isSome) := by
  induction l with
  | nil => exact List.Forall₂.nil
  | cons a l ih =>
    have ih := ih fun a' ha' => h a' (List.mem_cons_of_mem _ ha')
    cases hf : f a with
    | none => simpa [hf] using ih
    | some b =>
      have hb := h a (List.mem_cons_self ..) b hf
      simpa [hf] using And.intro hb ih

/-- **The timeouts, one by one, are those of requests with no response in time** among the envelopes that
the rule reads after each. -/
theorem silent_of_timedOut (h : InOrder parseTs events) : ∃ requests, requests.Sublist (followed events) ∧
    List.Forall₂ (fun row f => ∃ req, TimeoutOf row f.1 req ∧
      Silent parseTs req (f.2.take config.windowSize))
      ((infer parseTs events config).filter isTimeout) requests := by
  refine ⟨(followed events).filter fun f => (implicitTimeout parseTs config f.1 f.2).isSome,
    List.filter_sublist, ?_⟩
  rw [filter_isTimeout, List.forall₂_map_left_iff]
  refine forall₂_filterMap fun f hf row hrow => ?_
  obtain ⟨before, rfl⟩ := mem_followed.mp hf
  obtain ⟨req, reqTs, hreq, hts, hscan, rfl⟩ := exists_of_implicitTimeout hrow
  have horder : InOrder parseTs (f.1 :: f.2.take config.windowSize) := by
    have hrest := (List.pairwise_append.mp h).2.1
    exact hrest.sublist ((List.take_sublist ..).cons_cons _)
  exact ⟨req, ⟨hreq, event_reconcile, triggerIdempotencyKey_reconcile⟩,
    silent_of_scanForward hreq hts horder hscan⟩

end Rows

/-! ### A crowded shop -/

/-- The timestamps below, as nanoseconds since 1970. -/
def readTs (s : String) : Option ℤ :=
  [("2026-05-17T14:00:00Z", (1779026400000000000 : ℤ)), ("2026-05-17T14:00:01Z", 1779026401000000000),
    ("2026-05-17T14:00:15Z", 1779026415000000000), ("2026-05-17T14:00:45Z", 1779026445000000000)].lookup s

def rifle : ShopBuyRequest := ⟨"2026-05-17T14:00:00Z", some "kiosk_1", some "rsi_rifle", none, "r"⟩

def buy : EventEnvelope := makeEnvelope (.shopBuyRequest rifle) "envReq"

def notice : EventEnvelope :=
  makeEnvelope (.hudNotification ⟨"2026-05-17T14:00:01Z", "t", 1, none⟩) "envHud"

def answer (timestamp : String) : EventEnvelope :=
  makeEnvelope (.shopFlowResponse ⟨timestamp, some "kiosk_1", some true, "r"⟩) "envResp"

/-- A response fifteen seconds after the request, behind two hundred notices. -/
def crowd : List EventEnvelope := List.replicate 200 notice ++ [answer "2026-05-17T14:00:15Z"]

/-- A response that comes too late. -/
def late : List EventEnvelope := [buy, answer "2026-05-17T14:00:45Z"]

theorem silent_of_timedOut_late : ((infer readTs late .default).filter isTimeout).length = 1 ∧
    ∃ requests, requests.Sublist (followed late) ∧
      List.Forall₂ (fun row f => ∃ req, TimeoutOf row f.1 req ∧
        Silent readTs req (f.2.take InferenceConfig.default.windowSize))
        ((infer readTs late .default).filter isTimeout) requests := by
  refine ⟨by decide +kernel, silent_of_timedOut ?_⟩
  unfold InOrder
  decide +kernel

/-- **A response in time is not seen behind two hundred envelopes.** -/
theorem not_silent_crowd : InOrder readTs (buy :: crowd) ∧ (buy, crowd) ∈ followed (buy :: crowd) ∧
    ∃ row ∈ infer readTs (buy :: crowd) .default,
      TimeoutOf row buy rifle ∧ ¬ Silent readTs rifle crowd := by
  have hbuy : envelopeTs readTs buy = some 1779026400000000000 := by decide +kernel
  have hnotice : envelopeTs readTs notice = some 1779026401000000000 := by decide +kernel
  have hanswer : envelopeTs readTs (answer "2026-05-17T14:00:15Z") = some 1779026415000000000 := by
    decide +kernel
  have horder : InOrder readTs (buy :: crowd) := by
    refine List.pairwise_cons.mpr ⟨fun e he => ?_, ?_⟩
    · rcases List.mem_append.mp he with he | he
      · rw [List.eq_of_mem_replicate he, hbuy, hnotice]
        simp
      · rw [List.mem_singleton.mp he, hbuy, hanswer]
        simp
    · refine List.pairwise_append.mpr ⟨?_, List.pairwise_singleton _ _, fun e he e' he' => ?_⟩
      · refine List.pairwise_replicate.mpr (Or.inr ?_)
        rw [hnotice]
        simp
      · rw [List.eq_of_mem_replicate he, List.mem_singleton.mp he', hnotice, hanswer]
        simp
  have hscan : scanForward readTs implicitShopRequestTimeoutSecs 1779026400000000000 (idMatch rifle)
      (crowd.take InferenceConfig.default.windowSize) = none := by
    have hread : crowd.take InferenceConfig.default.windowSize = List.replicate 200 notice :=
      List.take_left' List.length_replicate
    refine scanForward_eq_none fun e he => ?_
    rw [hread] at he
    rw [List.eq_of_mem_replicate he]
    rfl
  have hts : readTs rifle.timestamp = some 1779026400000000000 := by decide +kernel
  have hrow := @implicitTimeout_eq readTs .default buy crowd rifle _ rfl hts hscan
  have hlater : (buy, crowd) ∈ followed (buy :: crowd) := List.mem_cons_self ..
  have hmem := mem_rows_of_implicitTimeout hlater hrow
  refine ⟨horder, hlater, _, List.mem_map_of_mem hmem, ?_, ?_⟩
  · exact ⟨rfl, event_reconcile, triggerIdempotencyKey_reconcile⟩
  · intro hsilent
    have hin : answer "2026-05-17T14:00:15Z" ∈ crowd := List.mem_append_right _ (List.mem_singleton_self _)
    refine hsilent _ hin _ rfl rfl 1779026400000000000 (by decide +kernel) 1779026415000000000
      (by decide +kernel) ?_
    decide

end StarStats.Core.ShopTimeouts
