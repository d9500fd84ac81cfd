import Mathlib.Data.List.MinMax
import StarStats.Server.OrderStates

/-! # The plate of a supporter with several orders

A checkout takes down the plate of its order, and the completion of the order writes it. So the plate in
the end is that of the order that was completed last, and not of the one that was placed last
(`endTheSame_iff`). -/

namespace StarStats.Server.Donate

open StarStats.Lib.Json StarStats.Lib.Tables

/-- A delivery of the completion of an order. -/
structure Completion where
  order : RevolutOrderRow
  r : String
  known : order.revolutOrderId = some r
  arrival : Arrival r
  completed : arrival.name = "ORDER_COMPLETED"

/-- The orders of a user, before any is completed. -/
structure Placed (st : Stores) (userId : String) (orders : List RevolutOrderRow) : Prop where
  ofUser : ∀ o ∈ orders, o.userId = userId
  found : ∀ o ∈ orders, ∀ r, o.revolutOrderId = some r →
    st.orders.findByRevolutId r = some o ∧ (r, "ORDER_COMPLETED") ∉ st.events.keys
  noSupporter : supporterOf st userId = none

/-- After the deliveries. -/
def completeAll (st : Stores) (ds : List Completion) : Stores :=
  ds.foldl (fun st d => arrive st d.arrival) st

/-- The deliveries that are not of an order seen before. -/
def processed (seen : List String) : List Completion → List Completion
  | [] => []
  | d :: ds => if d.r ∈ seen then processed seen ds else d :: processed (d.r :: seen) ds

/-- The plate of the order placed last, of those that carry one. -/
def newestPlate (orders : List RevolutOrderRow) : Option String :=
  -- The order of the integers is named, since the one that is found depends on what is imported.
  (@List.argmax _ ℤ Int.instLinearOrder.toPreorder _ (·.createdAt)
    (orders.filter (·.namePlateAtCheckout.isSome))).bind (·.namePlateAtCheckout)

/-- The plate of the order completed last, of those that carry one. -/
def lastPlate (ds : List Completion) : Option String :=
  ((processed [] ds).filterMap (·.order.namePlateAtCheckout)).getLast?

/-- **The supporter ends with the plate that was ordered last**, since the first completion, for thirty
days from the last. -/
structure EndsRight (st : Stores) (userId : String) (orders : List RevolutOrderRow)
    (ds : List Completion) : Prop where
  plate : (supporterOf (completeAll st ds) userId).bind (·.namePlate) = newestPlate orders
  since : (supporterOf (completeAll st ds) userId).bind (·.becameSupporterAt) =
    (processed [] ds).head?.map (·.arrival.env.now)
  grace : (supporterOf (completeAll st ds) userId).bind (·.graceUntil) =
    (processed [] ds).getLast?.map (·.arrival.env.now + coverageDays * usPerDay)

/-- Two orders of arrival end right, and so with the same plate. -/
def EndTheSame (st : Stores) (userId : String) (orders : List RevolutOrderRow)
    (ds ds' : List Completion) : Prop :=
  EndsRight st userId orders ds ∧ EndsRight st userId orders ds' ∧
    (supporterOf (completeAll st ds) userId).bind (·.namePlate) =
      (supporterOf (completeAll st ds') userId).bind (·.namePlate)

/-! ### Payments one after the other -/

/-- What a completion makes of the supporter. -/
def pay (s : Option SupporterStatus) (d : Completion) : Option SupporterStatus :=
  some (s.elim
    (firstPayment d.order.userId d.order.namePlateAtCheckout
      (d.arrival.env.now + coverageDays * usPerDay) d.arrival.env.now)
    (furtherPayment d.order.namePlateAtCheckout (d.arrival.env.now + coverageDays * usPerDay)
      d.arrival.env.now))

section Payments
variable {ds : List Completion}

theorem plate_pay (s : Option SupporterStatus) (d : Completion) :
    (pay s d).bind (·.namePlate) =
      d.order.namePlateAtCheckout.orElse fun _ => s.bind (·.namePlate) := by
  cases s with
  | none =>
    show d.order.namePlateAtCheckout = _
    cases d.order.namePlateAtCheckout <;> rfl
  | some s => rfl

theorem plate_payAll (ds : List Completion) : (ds.foldl pay none).bind (·.namePlate) =
    (ds.filterMap (·.order.namePlateAtCheckout)).getLast? := by
  induction ds using List.reverseRecOn with
  | nil => rfl
  | append_singleton ds d ih =>
    rw [List.foldl_append, List.filterMap_append]
    show (pay (ds.foldl pay none) d).bind (·.namePlate) = _
    rw [plate_pay, ih]
    cases hplate : d.order.namePlateAtCheckout with
    | none => simp [hplate]
    | some plate => simp [hplate]

theorem since_payAll (ds : List Completion) : (ds.foldl pay none).bind (·.becameSupporterAt) =
    ds.head?.map (·.arrival.env.now) := by
  induction ds using List.reverseRecOn with
  | nil => rfl
  | append_singleton ds d ih =>
    rw [List.foldl_append]
    show (pay (ds.foldl pay none) d).bind (·.becameSupporterAt) = _
    cases hs : ds.foldl pay none with
    | none =>
      have hnil : ds = [] := by
        rcases List.eq_nil_or_concat ds with hnil | ⟨before, last, rfl⟩
        · exact hnil
        · rw [List.concat_eq_append, List.foldl_append] at hs
          cases hs
      rw [hnil]
      rfl
    | some s =>
      rw [hs] at ih
      cases ds with
      | nil => cases hs
      | cons first rest =>
        have hsince : s.becameSupporterAt = some first.arrival.env.now := ih
        show (s.becameSupporterAt.orElse fun _ => some d.arrival.env.now) = some first.arrival.env.now
        rw [hsince]
        rfl

theorem grace_payAll (ds : List Completion) : (ds.foldl pay none).bind (·.graceUntil) =
    ds.getLast?.map (·.arrival.env.now + coverageDays * usPerDay) := by
  rcases List.eq_nil_or_concat ds with rfl | ⟨before, last, rfl⟩
  · rfl
  · rw [List.concat_eq_append, List.foldl_append, List.getLast?_append]
    show (pay (before.foldl pay none) last).bind (·.graceUntil) = _
    cases before.foldl pay none <;> rfl

end Payments

/-! ### Deliveries one after the other -/

section Deliveries
variable {st : Stores} {userId r : String} {orders : List RevolutOrderRow} {ds : List Completion}
  {seen : List String} {row : RevolutOrderRow}

/-- The orders are there but for their states, and those seen are completed. -/
structure OrdersKnown (st : Stores) (orders : List RevolutOrderRow) (seen : List String) : Prop where
  found : ∀ o ∈ orders, ∀ r, o.revolutOrderId = some r →
    ∃ a, st.orders.findByRevolutId r = some a ∧ a.userId = o.userId ∧
      a.namePlateAtCheckout = o.namePlateAtCheckout
  seen : ∀ o ∈ orders, ∀ r, o.revolutOrderId = some r →
    ((r, "ORDER_COMPLETED") ∈ st.events.keys ↔ r ∈ seen)

theorem find_settle_of_ne {env : Env} {s : OrderState} {r' : String} (hne : r' ≠ r) :
    (settle st env r row s).orders.findByRevolutId r' = st.orders.findByRevolutId r' := by
  have horders : (settle st env r row s).orders = (marked st env r s).orders := by
    unfold settle
    split_ifs <;> rfl
  rw [horders]
  ext a
  rw [Orders.findByRevolutId_eq_some, Orders.findByRevolutId_eq_some]
  refine and_congr_left fun ha => ?_
  rw [mem_rows_marked]
  constructor
  · rintro ⟨b, hb, rfl⟩
    have hother : b.revolutOrderId ≠ some r := by
      intro hr
      rw [if_pos hr] at ha
      exact hne (Option.some.inj (ha.symm.trans hr))
    rw [if_neg hother]
    exact hb
  · intro hmem
    refine ⟨a, hmem, ?_⟩
    rw [if_neg]
    rw [ha]
    exact fun h => hne (Option.some.inj h)

/-- What a delivery does to what is known. -/
theorem OrdersKnown.arrive (h : OrdersKnown st orders seen) (hall : ∀ o ∈ orders, o.userId = userId) {d : Completion}
    (hd : d.order ∈ orders) :
    (d.r ∈ seen → arrive st d.arrival = st) ∧
      (d.r ∉ seen → OrdersKnown (arrive st d.arrival) orders (d.r :: seen) ∧
        supporterOf (Donate.arrive st d.arrival) userId = pay (supporterOf st userId) d) := by
  obtain ⟨a, hfound, huser, hplate⟩ := h.found d.order hd d.r d.known
  have hseen := h.seen d.order hd d.r d.known
  constructor
  · intro hold
    refine arrive_seen ?_
    rw [d.completed]
    exact hseen.mpr hold
  · intro hnew
    have hfresh : (d.r, d.arrival.name) ∉ st.events.keys := by
      rw [d.completed]
      exact fun hk => hnew (hseen.mp hk)
    have harrive : Donate.arrive st d.arrival =
        settle (recorded st d.arrival.payload ⟨d.arrival.name, d.r⟩) d.arrival.env d.r a .completed := by
      rw [arrive_new hfresh hfound, d.completed]
      rfl
    refine ⟨⟨fun o ho r hr => ?_, fun o ho r hr => ?_⟩, ?_⟩
    · obtain ⟨b, hb, hbuser, hbplate⟩ := h.found o ho r hr
      rw [harrive]
      by_cases hsame : r = d.r
      · subst hsame
        obtain rfl : a = b := Option.some.inj (hfound.symm.trans hb)
        exact ⟨_, find_settle hfound, hbuser, hbplate⟩
      · exact ⟨b, (find_settle_of_ne hsame).trans hb, hbuser, hbplate⟩
    · rw [mem_keys_arrive, h.seen o ho r hr, d.completed, Prod.mk.injEq, List.mem_cons]
      tauto
    · have hpaid := @supporterOf_settle (recorded st d.arrival.payload ⟨d.arrival.name, d.r⟩) d.r a
        d.arrival.env .completed
      rw [if_pos rfl, huser, hall d.order hd, hplate] at hpaid
      rw [harrive, hpaid]
      unfold pay
      rw [hall d.order hd]
      rfl

theorem supporterOf_completeAll (h : OrdersKnown st orders seen) (hall : ∀ o ∈ orders, o.userId = userId)
    (hds : ∀ d ∈ ds, d.order ∈ orders) : supporterOf (completeAll st ds) userId =
      (processed seen ds).foldl pay (supporterOf st userId) := by
  induction ds generalizing st seen with
  | nil => rfl
  | cons d ds ih =>
    have hrest := fun d' hd' => hds d' (List.mem_cons_of_mem _ hd')
    obtain ⟨hold, hnew⟩ := h.arrive hall (hds d List.mem_cons_self)
    show supporterOf (completeAll (arrive st d.arrival) ds) userId = _
    unfold processed
    split_ifs with hd
    · rw [hold hd]
      exact ih h hrest
    · obtain ⟨hknown, hpaid⟩ := hnew hd
      rw [ih hknown hrest, hpaid]
      rfl

/-- **The supporter ends right exactly if the last order to be completed with a plate carries the plate of
the last one that was placed with one.** -/
theorem endTheSame_iff {ds' : List Completion} (h : Placed st userId orders)
    (hds : ∀ d ∈ ds, d.order ∈ orders) (hds' : ∀ d ∈ ds', d.order ∈ orders) :
    EndTheSame st userId orders ds ds' ↔
      lastPlate ds = newestPlate orders ∧ lastPlate ds' = newestPlate orders := by
  have hknown : OrdersKnown st orders [] := by
    refine ⟨fun o ho r hr => ⟨o, (h.found o ho r hr).1, rfl, rfl⟩, fun o ho r hr => ?_⟩
    exact iff_of_false (h.found o ho r hr).2 List.not_mem_nil
  have hend : ∀ es : List Completion, (∀ d ∈ es, d.order ∈ orders) →
      supporterOf (completeAll st es) userId = (processed [] es).foldl pay none := by
    intro es hes
    rw [supporterOf_completeAll hknown h.ofUser hes, h.noSupporter]
  have hplate : ∀ es : List Completion, (∀ d ∈ es, d.order ∈ orders) →
      (supporterOf (completeAll st es) userId).bind (·.namePlate) = lastPlate es := by
    intro es hes
    rw [hend es hes]
    exact plate_payAll _
  have hright : ∀ es : List Completion, (∀ d ∈ es, d.order ∈ orders) →
      (EndsRight st userId orders es ↔ lastPlate es = newestPlate orders) := by
    intro es hes
    constructor
    · intro hes'
      rw [← hplate es hes]
      exact hes'.plate
    · intro hlast
      refine ⟨(hplate es hes).trans hlast, ?_, ?_⟩
      · rw [hend es hes]
        exact since_payAll _
      · rw [hend es hes]
        exact grace_payAll _
  unfold EndTheSame
  rw [hright ds hds, hright ds' hds', hplate ds hds, hplate ds' hds']
  constructor
  · rintro ⟨hlast, hlast', -⟩
    exact ⟨hlast, hlast'⟩
  · rintro ⟨hlast, hlast'⟩
    exact ⟨hlast, hlast', hlast.trans hlast'.symm⟩

end Deliveries

/-! ### Two orders -/

/-- An order for a coffee, with its id. -/
def orderAt (id plate : String) (createdAt : ℤ) : RevolutOrderRow :=
  { pendingOrder id "user-1" ⟨"coffee", 300, "GBP"⟩ (some plate) createdAt with
    revolutOrderId := some ("rev-" ++ id), checkoutUrl := some "https://checkout" }

def older : RevolutOrderRow := orderAt "1" "Old" 1

def newer : RevolutOrderRow := orderAt "2" "New" 2

def twoOrders : Stores where
  orders := ⟨[older, newer], by decide, by decide⟩
  events := Table.empty
  supporters := Table.empty
  log := []

def completionOf (id plate : String) (createdAt : ℤ) : Completion :=
  ⟨orderAt id plate createdAt, "rev-" ++ id, rfl, arrivalOf ("rev-" ++ id) "ORDER_COMPLETED", rfl⟩

def olderCompletes : Completion := completionOf "1" "Old" 1

def newerCompletes : Completion := completionOf "2" "New" 2

theorem placed_twoOrders : Placed twoOrders "user-1" [older, newer] := by
  refine ⟨by decide, fun o ho r hr => ?_, rfl⟩
  simp only [List.mem_cons, List.not_mem_nil, or_false] at ho
  rcases ho with rfl | rfl
  · obtain rfl := Option.some.inj hr
    exact ⟨by decide +kernel, List.not_mem_nil⟩
  · obtain rfl := Option.some.inj hr
    exact ⟨by decide +kernel, List.not_mem_nil⟩

theorem endTheSame_inOrder : EndTheSame twoOrders "user-1" [older, newer]
    [olderCompletes, newerCompletes] [olderCompletes, olderCompletes, newerCompletes] := by
  refine (endTheSame_iff placed_twoOrders ?_ ?_).mpr ⟨by decide +kernel, by decide +kernel⟩
  · decide +kernel
  · decide +kernel

/-- The completion of the older order comes last, and its plate stays. -/
theorem not_endTheSame_reversed : ¬ EndTheSame twoOrders "user-1" [older, newer]
    [newerCompletes, olderCompletes] [olderCompletes, newerCompletes] := by
  rintro ⟨hright, -, -⟩
  exact absurd hright.plate (by decide +kernel)

end StarStats.Server.Donate
