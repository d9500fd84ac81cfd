import Mathlib.Data.List.Sort
import Mathlib.Data.String.Basic
import StarStats.Core.Ageing
import StarStats.Core.Events
import StarStats.Lib.Matching

/-! # Transactions

The client says what it asks a shop for, and the server whether it agrees, in two lines of the log.
`pairTransactions` joins them: each response, in the order in which the events are given, takes the
latest request not later than it that it may answer and that no response has taken. A request for a
commodity has no response. -/

namespace StarStats.Core.Transactions

open List
open StarStats.Core.Events StarStats.Core.Ageing StarStats.Lib.Ints StarStats.Lib.Matching

inductive TransactionKind where
  | shop
  | commodityBuy
  | commoditySell
  deriving DecidableEq

/-- Joined request and response. -/
structure Transaction where
  kind : TransactionKind
  status : TransactionStatus
  startedAt : String
  confirmedAt : Option String
  shopId : Option String
  item : Option String
  quantity : Option F64
  rawRequest : String
  rawResponse : Option String
  deriving DecidableEq

/-! ### The events by kind -/

/-- The event as a request at a shop. -/
def shopRequest : GameEvent → Option ShopBuyRequest
  | .shopBuyRequest r => some r
  | _ => none

/-- The event as a shop's answer. -/
def shopResponse : GameEvent → Option ShopFlowResponse
  | .shopFlowResponse r => some r
  | _ => none

/-- The event as a purchase of a commodity. -/
def commodityBuy : GameEvent → Option CommodityBuyRequest
  | .commodityBuyRequest r => some r
  | _ => none

/-- The event as a sale of one. -/
def commoditySell : GameEvent → Option CommoditySellRequest
  | .commoditySellRequest r => some r
  | _ => none

/-- The requests, in the order of the events. -/
def shopRequests (events : List GameEvent) : List ShopBuyRequest := events.filterMap shopRequest

/-- The answers, in the order of the events. -/
def shopResponses (events : List GameEvent) : List ShopFlowResponse := events.filterMap shopResponse

/-! ### Pairing -/

/-- A response, told apart from an equal one by its place among the responses. -/
abbrev ResponseRef := ShopFlowResponse × ℕ

/-- A shop that is not named is any shop. -/
def sameShop (resp : ShopFlowResponse) (req : ShopBuyRequest) : Bool :=
  match resp.shopId, req.shopId with
  | some a, some b => a = b
  | _, _ => true

/-- The response may answer the request: the shop is the same, and the request is not later. -/
def mayAnswer (resp : ResponseRef) (req : ShopBuyRequest) : Bool :=
  sameShop resp.1 req && decide (req.timestamp ≤ resp.1.timestamp)

/-- The shop requests, each with its response. -/
def pairedResp (events : List GameEvent) : List (Slot ShopBuyRequest ResponseRef) :=
  serveAll (·.timestamp) mayAnswer (waiting (shopRequests events)) (shopResponses events).zipIdx

/-! ### Transactions -/

/-- A count as a binary64; exact below 2 ^ 53. -/
def countF64 (n : ℕ) : F64 := ⟨toString n ++ ".0"⟩

/-- An answer decides; without one it is a question of age. -/
def shopStatus (nowSecs : Option ℤ) (windowSecs : ℤ) (req : ShopBuyRequest) :
    Option ShopFlowResponse → TransactionStatus
  | some resp =>
    match resp.success with
    | some true => .confirmed
    | some false => .rejected
    | none => .confirmed
  -- what the machine computes, wrapped around where it overflows
  | none => (ageStatus req.timestamp nowSecs windowSecs).value

/-- What is shown of a request and the answer it was paired with. -/
def shopTransaction (nowSecs : Option ℤ) (windowSecs : ℤ)
    (slot : Slot ShopBuyRequest ResponseRef) : Transaction :=
  let req := slot.1
  let resp := slot.2.map (·.1)
  { kind := .shop
    status := shopStatus nowSecs windowSecs req resp
    startedAt := req.timestamp
    confirmedAt := resp.map (·.timestamp)
    shopId := req.shopId
    item := req.itemClass
    quantity := req.quantity.map countF64
    rawRequest := req.raw
    rawResponse := resp.map (·.raw) }

/-- The row of a request that expects no response. -/
def submitted (kind : TransactionKind) (timestamp : String) (commodity : Option String)
    (quantity : Option F64) (raw : String) : Transaction where
  kind := kind
  status := .submitted
  startedAt := timestamp
  confirmedAt := none
  shopId := none
  item := commodity
  quantity := quantity
  rawRequest := raw
  rawResponse := none

/-- A purchase of a commodity is never answered. -/
def buyTransaction (buy : CommodityBuyRequest) : Transaction :=
  submitted .commodityBuy buy.timestamp buy.commodity buy.quantity buy.raw

/-- Nor is a sale. -/
def sellTransaction (sell : CommoditySellRequest) : Transaction :=
  submitted .commoditySell sell.timestamp sell.commodity sell.quantity sell.raw

/-- The transactions before they are sorted. -/
def transactions (events : List GameEvent) (now : String) (windowSecs : ℤ) : List Transaction :=
  let nowSecs := (parseIsoSecs now).value
  (pairedResp events).map (shopTransaction nowSecs windowSecs) ++
    (events.filterMap commodityBuy).map buyTransaction ++
    (events.filterMap commoditySell).map sellTransaction

/-- All of them, in the order of their start. -/
def pairTransactions (events : List GameEvent) (now : String) (windowSecs : ℤ) :
    List Transaction :=
  (transactions events now windowSecs).insertionSort fun a b => a.startedAt ≤ b.startedAt

/-! ### Every record is accounted for -/

/-- What a transaction says of its request. -/
structure Request where
  kind : TransactionKind
  startedAt : String
  shopId : Option String
  item : Option String
  quantity : Option F64
  rawRequest : String

/-- What a transaction shows of its request. -/
def Transaction.request (t : Transaction) : Request :=
  ⟨t.kind, t.startedAt, t.shopId, t.item, t.quantity, t.rawRequest⟩

/-- The request that an event is, if it is one. -/
def eventRequest : GameEvent → Option Request
  | .shopBuyRequest r =>
    some ⟨.shop, r.timestamp, r.shopId, r.itemClass, r.quantity.map countF64, r.raw⟩
  | .commodityBuyRequest r => some ⟨.commodityBuy, r.timestamp, none, r.commodity, r.quantity, r.raw⟩
  | .commoditySellRequest r =>
    some ⟨.commoditySell, r.timestamp, none, r.commodity, r.quantity, r.raw⟩
  | _ => none

/-- The requests with the responses paired when the turn of the response at `k` comes. -/
def pairedBefore (events : List GameEvent) (k : ℕ) : List (Slot ShopBuyRequest ResponseRef) :=
  serveAll (·.timestamp) mayAnswer (waiting (shopRequests events))
    ((shopResponses events).zipIdx.take k)

/-- A transaction shows its request, and the response that is paired with it, which confirms it unless it says
otherwise; without a response it shows its age. -/
structure Shows (nowSecs : Option ℤ) (windowSecs : ℤ) (t : Transaction)
    (slot : Slot ShopBuyRequest ResponseRef) : Prop where
  kind : t.kind = .shop
  startedAt : t.startedAt = slot.1.timestamp
  shopId : t.shopId = slot.1.shopId
  item : t.item = slot.1.itemClass
  quantity : t.quantity = slot.1.quantity.map countF64
  rawRequest : t.rawRequest = slot.1.raw
  confirmedAt : t.confirmedAt = slot.2.map (·.1.timestamp)
  rawResponse : t.rawResponse = slot.2.map (·.1.raw)
  answered : ∀ resp k, slot.2 = some (resp, k) →
    t.status = if resp.success = some false then .rejected else .confirmed
  unanswered : slot.2 = none → t.status = (ageStatus slot.1.timestamp nowSecs windowSecs).value

/-- No record is lost or used twice. -/
structure Accounted (events : List GameEvent) (now : String) (windowSecs : ℤ) : Prop where
  /-- One transaction for each request. -/
  requests : (pairTransactions events now windowSecs).map (·.request) ~ events.filterMap eventRequest
  sorted : (pairTransactions events now windowSecs).Pairwise fun a b => a.startedAt ≤ b.startedAt
  /-- The shop transactions show the paired requests, each its own. -/
  shop : ∃ shown, shown ~ (pairTransactions events now windowSecs).filter (·.kind = .shop) ∧
    Forall₂ (Shows (parseIsoSecs now).value windowSecs) shown (pairedResp events)
  once : served (pairedResp events) <+~ (shopResponses events).zipIdx
  fit : ∀ req resp k, (req, some (resp, k)) ∈ pairedResp events →
    req.timestamp ≤ resp.timestamp ∧
      ∀ a b, resp.shopId = some a → req.shopId = some b → a = b
  /-- A response is left unused only if all requests it may answer were paired at its turn. -/
  unused : ∀ k resp, (shopResponses events)[k]? = some resp →
    (resp, k) ∉ served (pairedResp events) → ∀ req o, (req, o) ∈ pairedBefore events k →
    sameShop resp req → req.timestamp ≤ resp.timestamp → o.isSome

section Accounts
variable (events : List GameEvent) (now : String) (windowSecs : ℤ)

theorem perm_pairTransactions :
    pairTransactions events now windowSecs ~ transactions events now windowSecs :=
  perm_insertionSort _ _

theorem sorted_pairTransactions :
    (pairTransactions events now windowSecs).Pairwise fun a b => a.startedAt ≤ b.startedAt :=
  pairwise_insertionSort _ _

theorem map_fst_pairedResp : (pairedResp events).map (·.1) = shopRequests events := by
  rw [pairedResp, map_fst_serveAll, map_fst_waiting]

/-- The requests of the events, kind by kind. -/
theorem filterMap_eventRequest : events.filterMap eventRequest ~
    (shopRequests events).map (fun r =>
        ⟨.shop, r.timestamp, r.shopId, r.itemClass, r.quantity.map countF64, r.raw⟩) ++
      (events.filterMap commodityBuy).map (buyTransaction · |>.request) ++
      (events.filterMap commoditySell).map (sellTransaction · |>.request) := by
  induction events with
  | nil => exact Perm.nil
  | cons e events ih =>
    cases e
    case shopBuyRequest r => exact ih.cons _
    case commodityBuyRequest r =>
      refine (ih.cons _).trans ?_
      simp only [shopRequests, filterMap_cons, shopRequest, commodityBuy, commoditySell, map_cons,
        append_assoc, cons_append]
      exact perm_middle.symm
    case commoditySellRequest r =>
      refine (ih.cons _).trans ?_
      simp only [shopRequests, filterMap_cons, shopRequest, commodityBuy, commoditySell, map_cons]
      exact perm_middle.symm
    all_goals exact ih

theorem map_request_transactions :
    (transactions events now windowSecs).map (·.request) ~ events.filterMap eventRequest := by
  refine Perm.trans ?_ (filterMap_eventRequest events).symm
  rw [transactions, map_append, map_append, map_map, map_map, map_map, ← map_fst_pairedResp, map_map]
  exact Perm.refl _

theorem filter_shop_transactions : (transactions events now windowSecs).filter (·.kind = .shop) =
    (pairedResp events).map (shopTransaction (parseIsoSecs now).value windowSecs) := by
  have hbuy : ((events.filterMap commodityBuy).map buyTransaction).filter (·.kind = .shop) = [] := by
    rw [filter_eq_nil_iff]
    intro t ht
    obtain ⟨r, -, rfl⟩ := mem_map.mp ht
    simp [buyTransaction, submitted]
  have hsell : ((events.filterMap commoditySell).map sellTransaction).filter (·.kind = .shop) = [] := by
    rw [filter_eq_nil_iff]
    intro t ht
    obtain ⟨r, -, rfl⟩ := mem_map.mp ht
    simp [sellTransaction, submitted]
  have hshop : ((pairedResp events).map (shopTransaction (parseIsoSecs now).value windowSecs)).filter
      (·.kind = .shop) = (pairedResp events).map (shopTransaction (parseIsoSecs now).value windowSecs) := by
    rw [filter_eq_self]
    intro t ht
    obtain ⟨s, -, rfl⟩ := mem_map.mp ht
    rfl
  rw [transactions, filter_append, filter_append, hbuy, hsell, hshop, append_nil, append_nil]

theorem shows_shopTransaction (nowSecs : Option ℤ) (slot : Slot ShopBuyRequest ResponseRef) :
    Shows nowSecs windowSecs (shopTransaction nowSecs windowSecs slot) slot where
  kind := rfl
  startedAt := rfl
  shopId := rfl
  item := rfl
  quantity := rfl
  rawRequest := rfl
  confirmedAt := Option.map_map ..
  rawResponse := Option.map_map ..
  answered resp k hslot := by
    unfold shopTransaction shopStatus
    rw [hslot]
    rcases hsuccess : resp.success with _ | _ | _ <;> simp [hsuccess]
  unanswered hslot := by
    unfold shopTransaction shopStatus
    rw [hslot]
    rfl

/-- **No record is lost or used twice.** -/
theorem accounted : Accounted events now windowSecs where
  requests := ((perm_pairTransactions events now windowSecs).map _).trans
    (map_request_transactions events now windowSecs)
  sorted := sorted_pairTransactions events now windowSecs
  shop := by
    refine ⟨(pairedResp events).map (shopTransaction (parseIsoSecs now).value windowSecs), ?_, ?_⟩
    · rw [← filter_shop_transactions]
      exact ((perm_pairTransactions events now windowSecs).filter _).symm
    · rw [forall₂_map_left_iff, forall₂_same]
      exact fun slot _ => shows_shopTransaction windowSecs (parseIsoSecs now).value slot
  once := by
    have := served_serveAll_subperm (·.timestamp) mayAnswer
      (waiting (shopRequests events)) (shopResponses events).zipIdx
    rwa [served_waiting, nil_append] at this
  fit := by
    intro req resp k h
    have hfit := (allFit_waiting (shopRequests events)).serveAll (shopResponses events).zipIdx _ _ h
    simp only [mayAnswer, Bool.and_eq_true, decide_eq_true_eq] at hfit
    refine ⟨hfit.2, fun a b ha hb => ?_⟩
    simpa [sameShop, ha, hb] using hfit.1
  unused := by
    intro k resp hk hunused req o hreq hshop hle
    have hlt : k < (shopResponses events).zipIdx.length := by
      rw [length_zipIdx]
      exact (List.getElem?_eq_some_iff.mp hk).1
    have hget : (shopResponses events).zipIdx[k] = (resp, k) := by
      simpa using (List.getElem?_eq_some_iff.mp hk).2
    have hsplit := (take_append_drop k (shopResponses events).zipIdx).symm
    rw [drop_eq_getElem_cons hlt, hget] at hsplit
    rw [pairedResp, hsplit] at hunused
    have hnone := noneFits_of_unserved hunused
    cases o with
    | some _ => rfl
    | none =>
      refine absurd ?_ (hnone req hreq)
      simpa [mayAnswer, hshop] using hle

end Accounts

/-! ### Timestamps -/

theorem startedAt_sublist : ∀ events : List GameEvent,
    (events.filterMap eventRequest).map (·.startedAt) <+ events.map (·.timestamp)
  | [] => Sublist.refl _
  | e :: events => by
    have ih := startedAt_sublist events
    cases e
    case shopBuyRequest r => exact ih.cons_cons _
    case commodityBuyRequest r => exact ih.cons_cons _
    case commoditySellRequest r => exact ih.cons_cons _
    all_goals exact ih.cons _

theorem requests_sublist : ∀ events : List GameEvent,
    (shopRequests events).map (·.timestamp) <+ events.map (·.timestamp)
  | [] => Sublist.refl _
  | e :: events => by
    have ih := requests_sublist events
    cases e
    case shopBuyRequest r => exact ih.cons_cons _
    all_goals exact ih.cons _

theorem responses_sublist : ∀ events : List GameEvent,
    (shopResponses events).map (·.timestamp) <+ events.map (·.timestamp)
  | [] => Sublist.refl _
  | e :: events => by
    have ih := responses_sublist events
    cases e
    case shopFlowResponse r => exact ih.cons_cons _
    all_goals exact ih.cons _

end StarStats.Core.Transactions
