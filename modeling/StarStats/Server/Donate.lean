import StarStats.Lib.Json
import StarStats.Server.Accounts

/-! # Donations

A checkout lands the row of an order first, without the id that the payment service is going to give it;
then the service is asked, and its id is attached. The service delivers events about its orders, each
until it is answered. A delivery is recorded before anything else, and one that was recorded before is
answered without a further look.

`log` keeps what has been written of payments; the code has no such record. -/

namespace StarStats.Server.Donate

open StarStats.Lib.Text StarStats.Lib.Json StarStats.Lib.Tables
open StarStats.Server.Auth StarStats.Server.Ingest

/-! ### Orders -/

/-- The states of an order; all but `pending` are final. -/
inductive OrderState where
  | pending
  | completed
  | cancelled
  | failed
  | refunded
  deriving DecidableEq

/-- A row of `revolut_orders`. -/
structure RevolutOrderRow where
  id : String
  userId : String
  revolutOrderId : Option String
  tierKey : String
  amountMinor : ℤ
  currency : String
  namePlateAtCheckout : Option String
  state : OrderState
  checkoutUrl : Option String
  createdAt : ℤ
  completedAt : Option ℤ
  deriving DecidableEq

/-- The orders; no two share their id, nor the id that the service gave them. -/
structure Orders where
  rows : List RevolutOrderRow
  ids : rows.Pairwise fun a b => a.id ≠ b.id
  unique : rows.Pairwise fun a b => a.revolutOrderId = b.revolutOrderId → a.revolutOrderId = none

namespace Orders

/-- No orders. -/
def empty : Orders := ⟨[], List.Pairwise.nil, List.Pairwise.nil⟩

/-- A new order under an id that no other has. -/
def create (o : Orders) (row : RevolutOrderRow) (hfree : ∀ a ∈ o.rows, a.id ≠ row.id)
    (hnone : row.revolutOrderId = none) : Orders where
  rows := o.rows ++ [row]
  ids := by
    refine List.pairwise_append.mpr ⟨o.ids, List.pairwise_singleton _ _, fun a ha b hb => ?_⟩
    obtain rfl := List.mem_singleton.mp hb
    exact hfree a ha
  unique := by
    refine List.pairwise_append.mpr
      ⟨o.unique, List.pairwise_singleton _ _, fun a _ b hb heq => ?_⟩
    obtain rfl := List.mem_singleton.mp hb
    exact heq.trans hnone

/-- `UPDATE` of the rows under a condition, that leaves the ids. -/
def update (o : Orders) (p : RevolutOrderRow → Bool) (f : RevolutOrderRow → RevolutOrderRow)
    (hid : ∀ a, (f a).id = a.id) (hrev : ∀ a, (f a).revolutOrderId = a.revolutOrderId) : Orders where
  rows := o.rows.map fun a => if p a then f a else a
  ids := by
    refine List.pairwise_map.mpr (o.ids.imp fun {a b} h => ?_)
    split_ifs <;> simpa only [hid] using h
  unique := by
    refine List.pairwise_map.mpr (o.unique.imp fun {a b} h => ?_)
    split_ifs <;> simpa only [hrev] using h

/-- Attach the id that the service gave an order, which no other order has. -/
def attach (o : Orders) (id revolutOrderId checkoutUrl : String)
    (hfree : ∀ a ∈ o.rows, a.revolutOrderId = some revolutOrderId → a.id = id) : Orders where
  rows := o.rows.map fun a => if a.id = id then
    { a with revolutOrderId := some revolutOrderId, checkoutUrl := some checkoutUrl } else a
  ids := by
    refine List.pairwise_map.mpr (o.ids.imp fun {a b} h => ?_)
    split_ifs <;> exact h
  unique := by
    refine List.pairwise_map.mpr ((o.ids.and o.unique).imp_of_mem fun {a b} ha hb h heq => ?_)
    obtain ⟨hne, hunique⟩ := h
    by_cases hai : a.id = id
    · by_cases hbi : b.id = id
      · exact absurd (hai.trans hbi.symm) hne
      · rw [if_pos hai, if_neg hbi] at heq
        exact absurd (hfree b hb heq.symm) hbi
    · by_cases hbi : b.id = id
      · rw [if_neg hai, if_pos hbi] at heq
        exact absurd (hfree a ha heq) hai
      · rw [if_neg hai, if_neg hbi] at heq
        rw [if_neg hai]
        exact hunique heq

/-- The order that a delivery names. -/
def findByRevolutId (o : Orders) (revolutOrderId : String) : Option RevolutOrderRow :=
  o.rows.find? (·.revolutOrderId = some revolutOrderId)

theorem eq_of_id_eq {o : Orders} {a b : RevolutOrderRow} (ha : a ∈ o.rows) (hb : b ∈ o.rows)
    (h : a.id = b.id) : a = b := by
  have hsymm : Std.Symm fun x y : RevolutOrderRow => x.id ≠ y.id := ⟨fun _ _ => Ne.symm⟩
  by_contra hne
  exact o.ids.forall ha hb hne h

theorem eq_of_revolutOrderId {o : Orders} {a b : RevolutOrderRow} {r : String} (ha : a ∈ o.rows)
    (hb : b ∈ o.rows) (har : a.revolutOrderId = some r) (hbr : b.revolutOrderId = some r) : a = b := by
  have hsymm : Std.Symm fun x y : RevolutOrderRow =>
      x.revolutOrderId = y.revolutOrderId → x.revolutOrderId = none :=
    ⟨fun _ _ h heq => heq.trans (h heq.symm)⟩
  by_contra hne
  have hnone := o.unique.forall ha hb hne (har.trans hbr.symm)
  rw [har] at hnone
  cases hnone

theorem findByRevolutId_eq_some {o : Orders} {r : String} {a : RevolutOrderRow} :
    o.findByRevolutId r = some a ↔ a ∈ o.rows ∧ a.revolutOrderId = some r := by
  refine ⟨fun h => ⟨List.mem_of_find?_eq_some h, by simpa using List.find?_some h⟩, ?_⟩
  rintro ⟨ha, hr⟩
  obtain ⟨b, hb⟩ : ∃ b, o.findByRevolutId r = some b := by
    refine Option.ne_none_iff_exists'.mp fun hnone => ?_
    exact absurd (by simpa using hr) (List.find?_eq_none.mp hnone a ha)
  rw [hb, eq_of_revolutOrderId (List.mem_of_find?_eq_some hb) ha (by simpa using List.find?_some hb) hr]

end Orders

/-! ### Supporters -/

/-- What the supporter page tells of an account. -/
inductive SupporterState where
  | none
  | active
  | lapsed
  deriving DecidableEq

/-- A row of `supporter_status`. -/
structure SupporterStatus where
  userId : String
  state : SupporterState
  namePlate : Option String
  becameSupporterAt : Option ℤ
  lastPaymentAt : Option ℤ
  graceUntil : Option ℤ
  cancelledAt : Option ℤ
  updatedAt : ℤ
  deriving DecidableEq

/-- What a payment writes for a user without a row. -/
def firstPayment (userId : String) (namePlate : Option String) (coverageUntil now : ℤ) :
    SupporterStatus where
  userId := userId
  state := .active
  namePlate := namePlate
  becameSupporterAt := some now
  lastPaymentAt := some now
  graceUntil := some coverageUntil
  cancelledAt := none
  updatedAt := now

/-- What a payment makes of the row that is there. -/
def furtherPayment (namePlate : Option String) (coverageUntil now : ℤ) (s : SupporterStatus) :
    SupporterStatus where
  userId := s.userId
  state := .active
  namePlate := namePlate.orElse fun _ => s.namePlate
  becameSupporterAt := s.becameSupporterAt.orElse fun _ => some now
  lastPaymentAt := some now
  graceUntil := some coverageUntil
  cancelledAt := none
  updatedAt := now

/-- The table, one row a user. -/
abbrev Supporters := Table SupporterStatus.userId

/-- One statement: a first payment inserts, a later one extends what is there. -/
def markPaymentReceived (t : Supporters) (userId : String) (namePlate : Option String)
    (coverageUntil now : ℤ) : Supporters :=
  t.upsert (firstPayment userId namePlate coverageUntil now)
    (furtherPayment namePlate coverageUntil now) fun _ => rfl

/-! ### The stores -/

/-- A delivery as it is recorded. -/
structure WebhookRow where
  revolutOrderId : String
  eventType : String
  payload : Value

/-- A delivery is told by its order and its type. -/
def WebhookRow.key (w : WebhookRow) : String × String := (w.revolutOrderId, w.eventType)

/-- A write about a payment. -/
inductive Write where
  | marked (revolutOrderId : String) (state : OrderState)
  | paid (revolutOrderId userId : String)
  deriving DecidableEq

/-- The tables of the donations, and the writes made to them. -/
structure Stores where
  orders : Orders
  events : Table WebhookRow.key
  supporters : Supporters
  log : List Write

/-- The calls that can fail. -/
inductive Call where
  | createPending | attach | record | find | markState | markPayment
  deriving DecidableEq

/-- Why the signature of a delivery is not accepted. -/
inductive SignatureError where
  | headerMissing
  | timestampMissing
  | noSupportedScheme
  | timestampOutOfRange
  | mismatch
  deriving DecidableEq

/-- The outside of one request. -/
structure Env where
  now : ℤ
  /-- Is there a client of the payment service? -/
  revolut : Bool
  /-- Is there a secret for its deliveries? -/
  webhookSecret : Bool
  fails : Call → Bool
  isUuid : String → Bool
  /-- What the check of the signature says. -/
  signature : Except SignatureError Unit

/-- What an endpoint answers. -/
inductive Reply where
  | error (status : ℕ) (body : ApiErrorBody)
  | checkout (orderId checkoutUrl : String)
  | ack (status : String)
  deriving DecidableEq

/-- The status of an answer. -/
def Reply.status : Reply → ℕ
  | .error status _ => status
  | _ => 200

/-- An error without a detail. -/
def err (status : ℕ) (code : String) : Reply := .error status ⟨code, none⟩

/-! ### Checkout -/

/-- One of the amounts to choose from. -/
structure Tier where
  key : String
  amountMinor : ℤ
  currency : String
  deriving DecidableEq

/-- The tiers of the source. -/
def tiers : List Tier := [⟨"coffee", 300, "GBP"⟩, ⟨"standard", 500, "GBP"⟩, ⟨"generous", 1500, "GBP"⟩]

/-- What the donor sends. -/
structure CheckoutRequest where
  tierKey : String
  namePlate : Option String

/-- The longest name plate. -/
def namePlateMaxChars : ℕ := 28

/-- The plate of a request; an empty one is none. -/
def plateOf (namePlate : Option String) : Option String := (namePlate.map trim).filter (· ≠ "")

/-- The row of an order nothing is known of yet. -/
def pendingOrder (id userId : String) (tier : Tier) (namePlate : Option String) (now : ℤ) :
    RevolutOrderRow where
  id := id
  userId := userId
  revolutOrderId := none
  tierKey := tier.key
  amountMinor := tier.amountMinor
  currency := tier.currency
  namePlateAtCheckout := namePlate
  state := .pending
  checkoutUrl := none
  createdAt := now
  completedAt := none

/-- A checkout up to the call of the payment service: its row, under a new id. -/
def checkoutPending (st : Stores) (env : Env) (auth : AuthenticatedUser) (req : CheckoutRequest)
    (newId : String) : Stores × Option Reply :=
  if !env.isUuid auth.sub then (st, some (err 401 "invalid_subject"))
  else if !env.revolut then (st, some (err 503 "not_configured"))
  else
    match tiers.find? (·.key = req.tierKey) with
    | none => (st, some (err 400 "unknown_tier"))
    | some tier =>
      if (plateOf req.namePlate).any (namePlateMaxChars < ·.length) then
        (st, some (err 400 "name_plate_too_long"))
      else if env.fails .createPending then (st, some (err 500 "order_create_failed"))
      else if h : ∀ a ∈ st.orders.rows, a.id ≠ newId then
        let row := pendingOrder newId auth.sub tier (plateOf req.namePlate) env.now
        ({ st with orders := st.orders.create row h rfl }, none)
      else (st, some (err 500 "order_create_failed"))

/-- A checkout after the call: the id and the address of the service are attached. -/
def checkoutAttach (st : Stores) (env : Env) (localId revolutOrderId checkoutUrl : String) :
    Stores × Reply :=
  if env.fails .attach then (st, err 500 "order_persist_failed")
  else if ∀ a ∈ st.orders.rows, a.id ≠ localId then (st, err 500 "order_persist_failed")
  else if h : ∀ a ∈ st.orders.rows, a.revolutOrderId = some revolutOrderId → a.id = localId then
    ({ st with orders := st.orders.attach localId revolutOrderId checkoutUrl h },
      .checkout localId checkoutUrl)
  else (st, err 500 "order_persist_failed")

/-! ### Deliveries -/

/-- What is read of a delivery's body. -/
structure WebhookEvent where
  event : String
  orderId : String
  deriving DecidableEq

/-- The reference may be missing or null; any other kind of value is refused. -/
def WebhookEvent.ofValue (v : Value) : Option WebhookEvent := do
  let event ← (v.get "event").bind Value.asStr
  let orderId ← (v.get "order_id").bind Value.asStr
  match v.get "merchant_order_ext_ref" with
  | none | some .null | some (.str _) => return ⟨event, orderId⟩
  | _ => none

/-- How each failure of the signature is answered. -/
def signatureRefusal : SignatureError → Reply
  | .headerMissing | .timestampMissing => err 400 "missing_signature_header"
  | .timestampOutOfRange => err 401 "timestamp_out_of_range"
  | .noSupportedScheme | .mismatch => err 401 "signature_invalid"

/-- The rows of an order with its new state. -/
def marked (st : Stores) (env : Env) (revolutOrderId : String) (state : OrderState) : Stores :=
  { st with
    orders := st.orders.update (·.revolutOrderId = some revolutOrderId)
      (fun a => { a with
        state := state
        completedAt := if state = .completed then some env.now else none })
      (fun _ => rfl) fun _ => rfl
    log := st.log ++ [.marked revolutOrderId state] }

/-- Rewrite the state of an order; `none` if there is none or the call fails. -/
def markState (st : Stores) (env : Env) (revolutOrderId : String) (state : OrderState) :
    Option Stores :=
  if env.fails .markState then none
  else if ∀ a ∈ st.orders.rows, a.revolutOrderId ≠ some revolutOrderId then none
  else some (marked st env revolutOrderId state)

/-- How long a payment lasts. -/
def coverageDays : ℤ := 30

/-- The microseconds of a day. -/
def usPerDay : ℤ := 86400000000

/-- The row of the user after a payment. -/
def paid (st : Stores) (env : Env) (revolutOrderId : String) (row : RevolutOrderRow) : Stores :=
  { st with
    supporters := markPaymentReceived st.supporters row.userId row.namePlateAtCheckout
      (env.now + coverageDays * usPerDay) env.now
    log := st.log ++ [.paid revolutOrderId row.userId] }

/-- What a new event does to its order. -/
def applyEvent (st : Stores) (env : Env) (event : WebhookEvent) (row : RevolutOrderRow) :
    Stores × Reply :=
  match event.event with
  | "ORDER_COMPLETED" =>
    match markState st env event.orderId .completed with
    | none => (st, err 500 "webhook_state_failed")
    | some st =>
      if env.fails .markPayment then (st, err 500 "webhook_supporter_failed")
      else (paid st env event.orderId row, .ack "completed")
  | "ORDER_FAILED" =>
    match markState st env event.orderId .failed with
    | none => (st, err 500 "webhook_state_failed")
    | some st => (st, .ack "failed")
  | "ORDER_CANCELLED" =>
    match markState st env event.orderId .cancelled with
    | none => (st, err 500 "webhook_state_failed")
    | some st => (st, .ack "cancelled")
  | _ => (st, .ack "ignored")

/-- The record of a delivery. -/
def recorded (st : Stores) (payload : Value) (event : WebhookEvent) : Stores :=
  { st with events := st.events.insert ⟨event.orderId, event.event, payload⟩ }

/-- A delivery with an event. -/
def deliver (st : Stores) (env : Env) (payload : Value) (event : WebhookEvent) : Stores × Reply :=
  if env.fails .record then (st, err 500 "webhook_persist_failed")
  else if (event.orderId, event.event) ∈ st.events.keys then (st, .ack "duplicate")
  else if env.fails .find then (recorded st payload event, err 500 "webhook_lookup_failed")
  else
    match st.orders.findByRevolutId event.orderId with
    | none => (recorded st payload event, .ack "ignored")
    | some row => applyEvent (recorded st payload event) env event row

/-- The webhook; a body that is no JSON is `none`. -/
def webhook (st : Stores) (env : Env) (body : Option Value) : Stores × Reply :=
  if !env.webhookSecret then (st, err 503 "not_configured")
  else
    match env.signature with
    | .error e => (st, signatureRefusal e)
    | .ok () =>
      match body with
      | none => (st, err 400 "invalid_body")
      | some payload =>
        match WebhookEvent.ofValue payload with
        | none => (st, err 400 "invalid_event")
        | some event => deliver st env payload event

/-! ### What is kept -/

/-- The orders are the same, but for their states. -/
structure SameOrders (o o' : Orders) : Prop where
  forward : ∀ a ∈ o.rows, ∃ b ∈ o'.rows,
    b.id = a.id ∧ b.userId = a.userId ∧ b.revolutOrderId = a.revolutOrderId
  backward : ∀ b ∈ o'.rows, ∃ a ∈ o.rows,
    b.id = a.id ∧ b.userId = a.userId ∧ b.revolutOrderId = a.revolutOrderId

theorem SameOrders.refl (o : Orders) : SameOrders o o :=
  ⟨fun a ha => ⟨a, ha, rfl, rfl, rfl⟩, fun a ha => ⟨a, ha, rfl, rfl, rfl⟩⟩

theorem mem_rows_marked {st : Stores} {env : Env} {r : String} {state : OrderState}
    {b : RevolutOrderRow} : b ∈ (marked st env r state).orders.rows ↔ ∃ a ∈ st.orders.rows,
      b = if a.revolutOrderId = some r then
        { a with state := state, completedAt := if state = .completed then some env.now else none }
      else a := by
  simp [marked, Orders.update, eq_comm]

theorem sameOrders_marked (st : Stores) (env : Env) (r : String) (state : OrderState) :
    SameOrders st.orders (marked st env r state).orders := by
  constructor
  · intro a ha
    refine ⟨_, mem_rows_marked.mpr ⟨a, ha, rfl⟩, ?_⟩
    split_ifs <;> exact ⟨rfl, rfl, rfl⟩
  · intro b hb
    obtain ⟨a, ha, rfl⟩ := mem_rows_marked.mp hb
    refine ⟨a, ha, ?_⟩
    split_ifs <;> exact ⟨rfl, rfl, rfl⟩

theorem checkoutPending_cases (st : Stores) (env : Env) (auth : AuthenticatedUser)
    (req : CheckoutRequest) (newId : String) : (checkoutPending st env auth req newId).1 = st ∨
      ∃ row h hnone, (checkoutPending st env auth req newId).1 =
        { st with orders := st.orders.create row h hnone } := by
  unfold checkoutPending
  cases tiers.find? (·.key = req.tierKey) with
  | none => split_ifs <;> exact Or.inl rfl
  | some tier =>
    simp only
    split_ifs with _ _ _ _ hfree
    · exact Or.inl rfl
    · exact Or.inl rfl
    · exact Or.inl rfl
    · exact Or.inl rfl
    · exact Or.inr ⟨pendingOrder newId auth.sub tier (plateOf req.namePlate) env.now, hfree, rfl, rfl⟩
    · exact Or.inl rfl

theorem checkoutAttach_cases (st : Stores) (env : Env) (localId r url : String) :
    (checkoutAttach st env localId r url).1 = st ∨ ∃ h, (checkoutAttach st env localId r url).1 =
      { st with orders := st.orders.attach localId r url h } := by
  unfold checkoutAttach
  split_ifs with hfails hnone hfree
  · exact Or.inl rfl
  · exact Or.inl rfl
  · exact Or.inr ⟨hfree, rfl⟩
  · exact Or.inl rfl

/-- A write that an event may lead to. -/
def About (event : WebhookEvent) : Write → Prop
  | .marked r state => r = event.orderId ∧ (state = .completed → event.event = "ORDER_COMPLETED")
  | .paid r _ => r = event.orderId ∧ event.event = "ORDER_COMPLETED"

/-- Orders are kept, deliveries too, and what is logged is about the event. -/
structure Follows (event : WebhookEvent) (st st' : Stores) : Prop where
  orders : SameOrders st.orders st'.orders
  events : st'.events = st.events
  log : ∃ ws, st'.log = st.log ++ ws ∧ ∀ w ∈ ws, About event w

theorem Follows.refl (event : WebhookEvent) (st : Stores) : Follows event st st :=
  ⟨SameOrders.refl _, rfl, [], by simp, nofun⟩

theorem follows_marked {event : WebhookEvent} {st : Stores} {env : Env} {state : OrderState}
    (h : state = .completed → event.event = "ORDER_COMPLETED") :
    Follows event st (marked st env event.orderId state) :=
  ⟨sameOrders_marked .., rfl, [.marked event.orderId state], rfl, by simpa [About] using h⟩

theorem markState_cases {st : Stores} {env : Env} {r : String} {state : OrderState} :
    markState st env r state = none ∨ markState st env r state = some (marked st env r state) := by
  unfold markState
  split_ifs
  · exact Or.inl rfl
  · exact Or.inl rfl
  · exact Or.inr rfl

theorem follows_applyEvent (st : Stores) (env : Env) (event : WebhookEvent) (row : RevolutOrderRow) :
    Follows event st (applyEvent st env event row).1 := by
  obtain ⟨name, r⟩ := event
  unfold applyEvent
  split
  · rename_i hname
    rcases @markState_cases st env r .completed with h | h
    · rw [h]
      exact Follows.refl _ _
    · rw [h]
      obtain ⟨horders, hevents, ws, hlog, hws⟩ :=
        @follows_marked ⟨name, r⟩ st env .completed fun _ => hname
      simp only
      split_ifs
      · exact ⟨horders, hevents, ws, hlog, hws⟩
      · refine ⟨horders, hevents, ws ++ [.paid r row.userId], ?_, ?_⟩
        · simp [paid, hlog]
        · intro w hw
          rcases List.mem_append.mp hw with hw | hw
          · exact hws w hw
          · obtain rfl := List.mem_singleton.mp hw
            exact ⟨rfl, hname⟩
  · rcases @markState_cases st env r .failed with h | h
    · rw [h]
      exact Follows.refl _ _
    · rw [h]
      exact @follows_marked ⟨name, r⟩ _ _ _ nofun
  · rcases @markState_cases st env r .cancelled with h | h
    · rw [h]
      exact Follows.refl _ _
    · rw [h]
      exact @follows_marked ⟨name, r⟩ _ _ _ nofun
  · exact Follows.refl _ _

/-- **A delivery fails, was seen before, or is new and recorded**, and then follows what its event
says. -/
theorem deliver_cases (st : Stores) (env : Env) (payload : Value) (event : WebhookEvent) :
    (env.fails .record = true ∧
        deliver st env payload event = (st, err 500 "webhook_persist_failed")) ∨
      ((event.orderId, event.event) ∈ st.events.keys ∧
        deliver st env payload event = (st, .ack "duplicate")) ∨
      (env.fails .record = false ∧ (event.orderId, event.event) ∉ st.events.keys ∧
        Follows event (recorded st payload event) (deliver st env payload event).1) := by
  unfold deliver
  split_ifs with hrecord hseen hfind
  · exact Or.inl ⟨hrecord, rfl⟩
  · exact Or.inr (Or.inl ⟨hseen, rfl⟩)
  · exact Or.inr (Or.inr ⟨by simpa using hrecord, hseen, Follows.refl _ _⟩)
  · right
    right
    refine ⟨by simpa using hrecord, hseen, ?_⟩
    cases st.orders.findByRevolutId event.orderId with
    | none => exact Follows.refl _ _
    | some row => exact follows_applyEvent ..

/-- A refused delivery changes nothing; another is one with its event. -/
theorem webhook_cases (st : Stores) (env : Env) (body : Option Value) :
    (webhook st env body).1 = st ∨ ∃ payload event, body = some payload ∧
      WebhookEvent.ofValue payload = some event ∧ env.signature = .ok () ∧ env.webhookSecret = true ∧
      webhook st env body = deliver st env payload event := by
  unfold webhook
  split_ifs with hsecret
  · exact Or.inl rfl
  · cases hsig : env.signature with
    | error e => exact Or.inl rfl
    | ok _ =>
      cases body with
      | none => exact Or.inl rfl
      | some payload =>
        cases hev : WebhookEvent.ofValue payload with
        | none => simp [hev]
        | some event => exact Or.inr ⟨payload, event, rfl, hev, rfl, by simpa using hsecret, by simp [hev]⟩

end StarStats.Server.Donate
