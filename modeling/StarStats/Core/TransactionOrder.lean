import StarStats.Core.Transactions

/-! # The order of the events

The responses are paired in the order in which the events are given, so the transactions depend on it:
of two responses that would both take the same request, the one given first gets it. Where no two
responses have the same first choice, each is paired with its own, in any order, and the transactions
are the same for every order of the events (`orderFree_iff`). -/

namespace StarStats.Core.TransactionOrder

open List
open StarStats.Core.Events StarStats.Core.Ageing StarStats.Lib.Ints StarStats.Lib.Matching
open StarStats.Core.Transactions

/-- The transactions are the same for every order of the events. -/
def OrderFree (events : List GameEvent) : Prop :=
  ∀ events', events' ~ events → ∀ now windowSecs,
    pairTransactions events' now windowSecs = pairTransactions events now windowSecs

/-- The latest request that the response may answer. -/
def latestRequest (requests : List ShopBuyRequest) (resp : ShopFlowResponse) :
    Option ShopBuyRequest :=
  firstChoice (·.timestamp) mayAnswer requests (resp, 0)

/-- No two responses have the same latest request. -/
def ChoicesDiffer (events : List GameEvent) : Prop :=
  ((shopResponses events).filterMap (latestRequest (shopRequests events))).Nodup

instance (events : List GameEvent) : Decidable (ChoicesDiffer events) :=
  inferInstanceAs (Decidable (List.Nodup _))

theorem filterMap_zipIdx_fst {α β : Type} (f : α → Option β) (as : List α) :
    as.zipIdx.filterMap (fun s => f s.1) = as.filterMap f := by
  conv_rhs => rw [← zipIdx_map_fst 0 as]
  rw [filterMap_map]
  rfl

theorem find?_zipIdx_fst {α : Type} (p : α → Bool) (as : List α) :
    (as.zipIdx.find? fun s => p s.1).map (·.1) = as.find? p := by
  conv_rhs => rw [← zipIdx_map_fst 0 as]
  rw [find?_map]
  rfl

section Distinct
variable {events : List GameEvent}

theorem nodup_startedAt (h : (events.map (·.timestamp)).Nodup) (now : String) (windowSecs : ℤ) :
    ((pairTransactions events now windowSecs).map (·.startedAt)).Nodup := by
  have hperm := ((accounted events now windowSecs).requests).map (·.startedAt)
  rw [map_map] at hperm
  exact hperm.nodup_iff.mpr (h.sublist (startedAt_sublist events))

/-- The same transactions are in the same order. -/
theorem pairTransactions_eq_of_perm (h : (events.map (·.timestamp)).Nodup) {events' : List GameEvent}
    {now : String} {windowSecs : ℤ}
    (hperm : transactions events' now windowSecs ~ transactions events now windowSecs) :
    pairTransactions events' now windowSecs = pairTransactions events now windowSecs := by
  have hall := (perm_pairTransactions events' now windowSecs).trans
    (hperm.trans (perm_pairTransactions events now windowSecs).symm)
  refine Perm.eq_of_pairwise (fun a b ha hb hab hba => ?_)
    (sorted_pairTransactions events' now windowSecs) (sorted_pairTransactions events now windowSecs)
    hall
  exact inj_on_of_nodup_map (nodup_startedAt h now windowSecs) (hall.subset ha) hb
    (le_antisymm hab hba)

/-! ### Distinct choices -/

/-- The shop transaction of a request whose response, if any, has it as its latest. -/
def ownTransaction (events : List GameEvent) (nowSecs : Option ℤ) (windowSecs : ℤ)
    (req : ShopBuyRequest) : Transaction :=
  shopTransaction nowSecs windowSecs (req, ((shopResponses events).find? fun resp =>
    latestRequest (shopRequests events) resp = some req).map (·, 0))

theorem pairedResp_eq (h : (events.map (·.timestamp)).Nodup) (hdiff : ChoicesDiffer events) :
    pairedResp events =
      byFirstChoice (·.timestamp) mayAnswer (shopRequests events) (shopResponses events).zipIdx := by
  refine serveAll_eq_byFirstChoice (h.sublist (requests_sublist events)) ?_
  show ((shopResponses events).zipIdx.filterMap fun ref =>
    latestRequest (shopRequests events) ref.1).Nodup
  rw [filterMap_zipIdx_fst (latestRequest (shopRequests events))]
  exact hdiff

/-- The place of the response does not show. -/
theorem shopTransaction_congr {nowSecs : Option ℤ} {windowSecs : ℤ} {req : ShopBuyRequest}
    {o o' : Option ResponseRef} (h : o.map (·.1) = o'.map (·.1)) :
    shopTransaction nowSecs windowSecs (req, o) = shopTransaction nowSecs windowSecs (req, o') := by
  simp only [shopTransaction, h]

theorem map_shopTransaction_pairedResp (h : (events.map (·.timestamp)).Nodup)
    (hdiff : ChoicesDiffer events) (nowSecs : Option ℤ) (windowSecs : ℤ) :
    (pairedResp events).map (shopTransaction nowSecs windowSecs) =
      (shopRequests events).map (ownTransaction events nowSecs windowSecs) := by
  rw [pairedResp_eq h hdiff, byFirstChoice, map_map]
  refine map_congr_left fun req _ => shopTransaction_congr ?_
  rw [Option.map_map, Function.comp_def, Option.map_id']
  exact find?_zipIdx_fst (fun resp => decide (latestRequest (shopRequests events) resp = some req)) _

/-- Each response is found wherever it stands, being the only one with its choice. -/
theorem find?_perm {α β : Type} [DecidableEq β] {f : α → Option β} {as as' : List α}
    (hperm : as' ~ as) (h : (as.filterMap f).Nodup) (b : β) :
    as'.find? (fun a => f a = some b) = as.find? fun a => f a = some b := by
  have hsymm : Std.Symm fun a a' => ∀ b, f a = some b → ∀ b', f a' = some b' → b ≠ b' :=
    ⟨fun _ _ h b hb b' hb' => (h b' hb' b hb).symm⟩
  have hone : ∀ a ∈ as, ∀ a' ∈ as, f a = some b → f a' = some b → a = a' := by
    intro a ha a' ha' hb hb'
    by_contra hne
    exact (pairwise_filterMap.mp h).forall ha ha' hne b hb b hb' rfl
  cases hfind : as.find? fun a => f a = some b with
  | none =>
    rw [find?_eq_none] at hfind ⊢
    exact fun a ha => hfind a (hperm.subset ha)
  | some a =>
    have ha : f a = some b := by simpa using find?_some hfind
    cases hfind' : as'.find? fun a => f a = some b with
    | none =>
      have hmem := hperm.symm.subset (mem_of_find?_eq_some hfind)
      exact absurd (decide_eq_true ha) (find?_eq_none.mp hfind' a hmem)
    | some a' =>
      have ha' : f a' = some b := by simpa using find?_some hfind'
      rw [hone a' (hperm.subset (mem_of_find?_eq_some hfind')) a (mem_of_find?_eq_some hfind) ha' ha]

/-- **Where no two responses have the same latest request, the order of the events does not matter.** -/
theorem orderFree_of_choicesDiffer (h : (events.map (·.timestamp)).Nodup)
    (hdiff : ChoicesDiffer events) : OrderFree events := by
  intro events' hperm now windowSecs
  refine pairTransactions_eq_of_perm h ?_
  have h' : (events'.map (·.timestamp)).Nodup := (hperm.map _).nodup_iff.mpr h
  have hreq : shopRequests events' ~ shopRequests events := hperm.filterMap _
  have hresp : shopResponses events' ~ shopResponses events := hperm.filterMap _
  have hchoice : latestRequest (shopRequests events') = latestRequest (shopRequests events) :=
    funext fun resp => firstChoice_perm hreq.symm (h.sublist (requests_sublist events)) (resp, 0)
  have hdiff' : ChoicesDiffer events' := by
    rw [ChoicesDiffer, hchoice]
    exact (hresp.filterMap _).nodup_iff.mpr hdiff
  have hown : ownTransaction events' = ownTransaction events := by
    funext nowSecs windowSecs req
    rw [ownTransaction, ownTransaction, hchoice, find?_perm hresp hdiff]
  rw [transactions, transactions, map_shopTransaction_pairedResp h' hdiff',
    map_shopTransaction_pairedResp h hdiff, hown]
  exact ((hreq.map _).append ((hperm.filterMap _).map _)).append ((hperm.filterMap _).map _)

/-! ### Equal choices -/

/-- Given first, a response is paired with its latest request. -/
theorem mem_pairTransactions_first (h : (events.map (·.timestamp)).Nodup) (hfree : OrderFree events)
    {resp : ShopFlowResponse} (hresp : resp ∈ shopResponses events) {req : ShopBuyRequest}
    (hreq : latestRequest (shopRequests events) resp = some req) (now : String) (windowSecs : ℤ) :
    shopTransaction (parseIsoSecs now).value windowSecs (req, some (resp, 0)) ∈
      pairTransactions events now windowSecs := by
  obtain ⟨e, he, hresp⟩ := mem_filterMap.mp hresp
  obtain rfl : e = .shopFlowResponse resp := by
    cases e <;> cases hresp
    rfl
  have hperm : .shopFlowResponse resp :: events.erase (.shopFlowResponse resp) ~ events :=
    (perm_cons_erase he).symm
  have hrequests : shopRequests (events.erase (.shopFlowResponse resp)) ~ shopRequests events :=
    hperm.filterMap shopRequest
  have hkeys : ((shopRequests (events.erase (.shopFlowResponse resp))).map (·.timestamp)).Nodup :=
    (hrequests.map _).nodup_iff.mpr (h.sublist (requests_sublist events))
  have hchoice : firstChoice (·.timestamp) mayAnswer
      (shopRequests (events.erase (.shopFlowResponse resp))) (resp, 0) = some req := by
    rw [← hreq]
    exact firstChoice_perm hrequests.symm (h.sublist (requests_sublist events)) (resp, 0)
  have hpaired := mem_serveAll_first hkeys hchoice
    ((shopResponses (events.erase (.shopFlowResponse resp))).zipIdx 1)
  rw [← hfree _ hperm now windowSecs, (perm_pairTransactions _ now windowSecs).mem_iff]
  refine mem_append_left _ (mem_append_left _ (mem_map.mpr ⟨_, hpaired, rfl⟩))

/-- **The order of the events does not matter exactly if no two responses have the same latest
request.** -/
theorem orderFree_iff {events : List GameEvent} (h : (events.map (·.timestamp)).Nodup) :
    OrderFree events ↔ ChoicesDiffer events := by
  refine ⟨fun hfree => ?_, orderFree_of_choicesDiffer h⟩
  have hnd : (shopResponses events).Nodup := (h.sublist (responses_sublist events)).of_map
  rw [ChoicesDiffer, Nodup, pairwise_filterMap]
  refine hnd.imp_of_mem fun {p q} hp hq hne req hreq req' hreq' heq => hne ?_
  subst heq
  have hfirst := mem_pairTransactions_first h hfree hp hreq "" 0
  have hsecond := mem_pairTransactions_first h hfree hq hreq' "" 0
  have hsame := inj_on_of_nodup_map (nodup_startedAt h "" 0) hfirst hsecond rfl
  have htime : p.timestamp = q.timestamp :=
    Option.some.inj (congrArg Transaction.confirmedAt hsame)
  exact inj_on_of_nodup_map (h.sublist (responses_sublist events)) hp hq htime

/-- One request and its answer: the timestamps differ, and so do the choices. -/
theorem orderFree_single : OrderFree [.shopBuyRequest ⟨"t1", some "s", none, none, "q"⟩,
    .shopFlowResponse ⟨"t2", some "s", none, "p"⟩] :=
  (orderFree_iff (by decide)).2 (by decide)

/-- Two responses to one request: the one given first confirms it. -/
theorem not_orderFree : ¬ ((([.shopBuyRequest ⟨"t1", some "s", none, none, "q"⟩,
      .shopFlowResponse ⟨"t2", some "s", some true, "p1"⟩,
      .shopFlowResponse ⟨"t3", some "s", some false, "p2"⟩] : List GameEvent).map
        (·.timestamp)).Nodup →
    OrderFree [.shopBuyRequest ⟨"t1", some "s", none, none, "q"⟩,
      .shopFlowResponse ⟨"t2", some "s", some true, "p1"⟩,
      .shopFlowResponse ⟨"t3", some "s", some false, "p2"⟩]) := by
  intro h
  have hfree := h (by decide) [.shopBuyRequest ⟨"t1", some "s", none, none, "q"⟩,
    .shopFlowResponse ⟨"t3", some "s", some false, "p2"⟩,
    .shopFlowResponse ⟨"t2", some "s", some true, "p1"⟩] ((Perm.swap _ _ _).cons _) "" 0
  have hstatus := congrArg (fun out => out.map (·.status)) hfree
  revert hstatus
  decide +kernel

end Distinct

end StarStats.Core.TransactionOrder
