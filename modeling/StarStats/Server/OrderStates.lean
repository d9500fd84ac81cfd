import StarStats.Server.PaidOrders

/-! # The events of an order in any order

The events of one order are delivered in some order, each as often as it may be, and no call fails. A
completed order is to stay completed, and where the deliveries end is not to depend on their order, but
for the time of the payment. -/

namespace StarStats.Server.Donate

open StarStats.Lib.Json StarStats.Lib.Tables

/-- A delivery of an event of the order `r`. -/
structure Arrival (r : String) where
  env : Env
  payload : Value
  name : String
  authentic : Authentic env
  parsed : WebhookEvent.ofValue payload = some ⟨name, r⟩
  calm : ∀ c, env.fails c = false

/-- The state that an event is for, if it is for one. -/
def stateOf : String → Option OrderState
  | "ORDER_COMPLETED" => some .completed
  | "ORDER_FAILED" => some .failed
  | "ORDER_CANCELLED" => some .cancelled
  | _ => none

/-- The event for a state. -/
def nameOf : OrderState → String
  | .completed => "ORDER_COMPLETED"
  | .failed => "ORDER_FAILED"
  | _ => "ORDER_CANCELLED"

theorem eq_nameOf {x : String} {s : OrderState} (h : stateOf x = some s) : x = nameOf s := by
  unfold stateOf at h
  split at h
  all_goals first | (obtain rfl := Option.some.inj h; rfl) | cases h

section Arrivals
variable {r : String}

/-- A delivery is handled. -/
def arrive (st : Stores) (d : Arrival r) : Stores := (webhook st d.env (some d.payload)).1

/-- One delivery after the other. -/
def arrived (st : Stores) (ds : List (Arrival r)) : Stores := ds.foldl arrive st

/-- The deliveries have these events, in some order. -/
def Arranges (ds : List (Arrival r)) (names : List String) : Prop := (ds.map (·.name)).Perm names

/-- The status of a user, if there is one. -/
def supporterOf (st : Stores) (userId : String) : Option SupporterStatus :=
  (st.supporters.find? userId).map (·.2)

/-- When the payment is first reported. -/
def paidAt (ds : List (Arrival r)) : Option ℤ :=
  (ds.find? (·.name = "ORDER_COMPLETED")).map (·.env.now)

/-- A supporter without the times. -/
def untimed (s : SupporterStatus) : String × SupporterState × Option String :=
  (s.userId, s.state, s.namePlate)

/-- Once completed the order stays so, since the same time. -/
def StaysCompleted (st : Stores) (ds : List (Arrival r)) : Prop :=
  ∀ n m a, n ≤ m → (arrived st (ds.take n)).orders.findByRevolutId r = some a →
    a.state = .completed → ∃ b, (arrived st (ds.take m)).orders.findByRevolutId r = some b ∧
      b.state = .completed ∧ b.completedAt = a.completedAt

/-- The deliveries end with the same order and the same supporter, but for the time of the payment. -/
def SameEnd (st : Stores) (ds ds' : List (Arrival r)) : Prop :=
  ∃ a b, (arrived st ds).orders.findByRevolutId r = some a ∧
    (arrived st ds').orders.findByRevolutId r = some b ∧ a.state = b.state ∧
    (supporterOf (arrived st ds) a.userId).map untimed =
      (supporterOf (arrived st ds') a.userId).map untimed ∧
    (paidAt ds = paidAt ds' →
      a = b ∧ supporterOf (arrived st ds) a.userId = supporterOf (arrived st ds') a.userId)

end Arrivals

/-- **A completed order is not undone, and the end does not depend on the order of arrival.** -/
def InAnyOrder (st : Stores) (r : String) (names : List String) : Prop :=
  (∀ ds : List (Arrival r), Arranges ds names → StaysCompleted st ds) ∧
    ∀ ds ds' : List (Arrival r), Arranges ds names → Arranges ds' names → SameEnd st ds ds'

/-! ### One delivery -/

section Steps
variable {st st' : Stores} {r : String} {row : RevolutOrderRow} {d : Arrival r}

/-- The orders and the supporters are the same. -/
structure SameRows (st st' : Stores) : Prop where
  orders : st'.orders = st.orders
  supporters : st'.supporters = st.supporters

theorem SameRows.refl (st : Stores) : SameRows st st := ⟨rfl, rfl⟩

theorem SameRows.trans {st st' st'' : Stores} (h : SameRows st st') (h' : SameRows st' st'') :
    SameRows st st'' := ⟨h'.orders.trans h.orders, h'.supporters.trans h.supporters⟩

/-- What an event for a state makes of the stores, when it is new. -/
def settle (st : Stores) (env : Env) (r : String) (row : RevolutOrderRow) (s : OrderState) : Stores :=
  if s = .completed then paid (marked st env r s) env r row else marked st env r s

theorem arrive_eq (st : Stores) (d : Arrival r) :
    arrive st d = (deliver st d.env d.payload ⟨d.name, r⟩).1 := by
  have hdelivers : Delivers (.webhook d.env (some d.payload)) d.env d.payload ⟨d.name, r⟩ :=
    ⟨rfl, d.authentic, d.parsed⟩
  exact (webhook_of_delivers hdelivers).2

theorem arrive_seen (h : (r, d.name) ∈ st.events.keys) : arrive st d = st := by
  rw [arrive_eq]
  rcases deliver_cases st d.env d.payload ⟨d.name, r⟩ with ⟨-, heq⟩ | ⟨-, heq⟩ | ⟨-, hnew, -⟩
  · rw [heq]
  · rw [heq]
  · exact absurd h hnew

theorem mem_keys_arrive {k : String × String} :
    k ∈ (arrive st d).events.keys ↔ k ∈ st.events.keys ∨ k = (r, d.name) := by
  by_cases h : (r, d.name) ∈ st.events.keys
  · rw [arrive_seen h]
    exact ⟨Or.inl, fun hk => hk.elim id fun heq => heq ▸ h⟩
  · rw [arrive_eq]
    rcases deliver_cases st d.env d.payload ⟨d.name, r⟩ with ⟨hfails, -⟩ | ⟨hseen, -⟩ | ⟨-, -, hfollows⟩
    · rw [d.calm] at hfails
      cases hfails
    · exact absurd hseen h
    · rw [hfollows.events]
      exact mem_keys_recorded

theorem arrive_new (h : (r, d.name) ∉ st.events.keys)
    (hrow : st.orders.findByRevolutId r = some row) :
    arrive st d = match stateOf d.name with
      | none => recorded st d.payload ⟨d.name, r⟩
      | some s => settle (recorded st d.payload ⟨d.name, r⟩) d.env r row s := by
  obtain ⟨hmem, hr⟩ := Orders.findByRevolutId_eq_some.mp hrow
  have hmark : ∀ s, markState (recorded st d.payload ⟨d.name, r⟩) d.env r s =
      some (marked (recorded st d.payload ⟨d.name, r⟩) d.env r s) :=
    fun s => markState_of_mem hmem hr (d.calm .markState)
  rw [arrive_eq, deliver_known h (d.calm .record) (d.calm .find) hrow]
  by_cases hcompleted : d.name = "ORDER_COMPLETED"
  · rw [hcompleted] at hmark ⊢
    simp [applyEvent, stateOf, settle, hmark, d.calm .markPayment]
  · by_cases hfailed : d.name = "ORDER_FAILED"
    · rw [hfailed] at hmark ⊢
      simp [applyEvent, stateOf, settle, hmark]
    · by_cases hcancelled : d.name = "ORDER_CANCELLED"
      · rw [hcancelled] at hmark ⊢
        simp [applyEvent, stateOf, settle, hmark]
      · simp [applyEvent, stateOf]

theorem sameRows_arrive (hrow : st.orders.findByRevolutId r = some row)
    (h : (r, d.name) ∈ st.events.keys ∨ stateOf d.name = none) : SameRows st (arrive st d) := by
  by_cases hseen : (r, d.name) ∈ st.events.keys
  · rw [arrive_seen hseen]
    exact SameRows.refl st
  · rw [arrive_new hseen hrow, h.resolve_left hseen]
    exact ⟨rfl, rfl⟩

/-- The rows that an event leads to depend on the rows before and on the time. -/
theorem sameRows_settle {env env' : Env} {s : OrderState} (h : SameRows st st')
    (henv : s = .completed → env.now = env'.now) :
    SameRows (settle st env r row s) (settle st' env' r row s) := by
  unfold settle
  by_cases hs : s = .completed
  · rw [if_pos hs, if_pos hs]
    constructor
    · simp only [paid, marked, h.orders, henv hs]
    · simp only [paid, marked, h.supporters, henv hs]
  · rw [if_neg hs, if_neg hs]
    constructor
    · simp only [marked, h.orders, if_neg hs]
    · exact h.supporters

/-- The row of an order that has been marked. -/
def markedRow (row : RevolutOrderRow) (env : Env) (s : OrderState) : RevolutOrderRow :=
  { row with state := s, completedAt := if s = .completed then some env.now else none }

theorem find_settle {env : Env} {s : OrderState} (hrow : st.orders.findByRevolutId r = some row) :
    (settle st env r row s).orders.findByRevolutId r = some (markedRow row env s) := by
  obtain ⟨hmem, hr⟩ := Orders.findByRevolutId_eq_some.mp hrow
  have horders : (settle st env r row s).orders = (marked st env r s).orders := by
    unfold settle
    split_ifs <;> rfl
  rw [horders]
  refine Orders.findByRevolutId_eq_some.mpr ⟨mem_rows_marked.mpr ⟨row, hmem, ?_⟩, hr⟩
  rw [if_pos hr]
  rfl

theorem supporterOf_settle {env : Env} {s : OrderState} :
    supporterOf (settle st env r row s) row.userId =
      if s = .completed then
        some ((supporterOf st row.userId).elim
          (firstPayment row.userId row.namePlateAtCheckout (env.now + coverageDays * usPerDay) env.now)
          (furtherPayment row.namePlateAtCheckout (env.now + coverageDays * usPerDay) env.now))
      else supporterOf st row.userId := by
  unfold settle
  by_cases hs : s = .completed
  · rw [if_pos hs, if_pos hs]
    exact Table.map_find?_upsert_key
  · rw [if_neg hs, if_neg hs]
    rfl

/-- What is written of a supporter, but for the times, does not depend on the time. -/
theorem untimed_settle {env env' : Env} {s : OrderState} :
    (supporterOf (settle st env r row s) row.userId).map untimed =
      (supporterOf (settle st env' r row s) row.userId).map untimed := by
  rw [supporterOf_settle, supporterOf_settle]
  split_ifs
  · cases supporterOf st row.userId <;> rfl
  · rfl

/-! ### Runs -/

theorem mem_keys_arrived {ds : List (Arrival r)} {k : String × String} :
    k ∈ (arrived st ds).events.keys ↔ k ∈ st.events.keys ∨ ∃ d ∈ ds, k = (r, d.name) := by
  induction ds generalizing st with
  | nil => simp [arrived]
  | cons d ds ih =>
    change k ∈ (arrived (arrive st d) ds).events.keys ↔ _
    rw [ih, mem_keys_arrive]
    simp [or_assoc]

theorem arrived_append (ds ds' : List (Arrival r)) :
    arrived st (ds ++ ds') = arrived (arrived st ds) ds' := List.foldl_append

theorem sameRows_arrived {ds : List (Arrival r)} (hrow : st.orders.findByRevolutId r = some row)
    (h : ∀ d ∈ ds, (r, d.name) ∈ st.events.keys ∨ stateOf d.name = none) :
    SameRows st (arrived st ds) := by
  induction ds generalizing st with
  | nil => exact SameRows.refl st
  | cons d ds ih =>
    have hfirst := sameRows_arrive hrow (h d List.mem_cons_self)
    refine hfirst.trans (ih (by rw [hfirst.orders, hrow]) fun d' hd' => ?_)
    exact (h d' (List.mem_cons_of_mem _ hd')).imp_left fun hseen => mem_keys_arrive.mpr (Or.inl hseen)

theorem find_arrived {ds : List (Arrival r)} (hrow : st.orders.findByRevolutId r = some row) :
    ∃ row', (arrived st ds).orders.findByRevolutId r = some row' := by
  induction ds generalizing st row with
  | nil => exact ⟨row, hrow⟩
  | cons d ds ih =>
    suffices hnext : ∃ row', (arrive st d).orders.findByRevolutId r = some row' from
      hnext.elim fun _ h => ih h
    by_cases hseen : (r, d.name) ∈ st.events.keys
    · rw [arrive_seen hseen]
      exact ⟨row, hrow⟩
    · rw [arrive_new hseen hrow]
      cases stateOf d.name with
      | none => exact ⟨row, hrow⟩
      | some s => exact ⟨_, find_settle hrow⟩

/-- **Deliveries with one event for a state end as that event does**, when it is first delivered. -/
theorem arrived_one {ds : List (Arrival r)} {x : String} {s : OrderState} (hs : stateOf x = some s)
    (hnew : (r, x) ∉ st.events.keys) (hrow : st.orders.findByRevolutId r = some row)
    (hone : ∀ d ∈ ds, stateOf d.name ≠ none → d.name = x) :
    SameRows ((ds.find? (·.name = x)).elim st fun d => settle st d.env r row s) (arrived st ds) := by
  induction ds generalizing st with
  | nil => exact SameRows.refl st
  | cons d ds ih =>
    have hrest : ∀ d' ∈ ds, stateOf d'.name ≠ none → d'.name = x :=
      fun d' hd' => hone d' (List.mem_cons_of_mem _ hd')
    change SameRows _ (arrived (arrive st d) ds)
    by_cases hd : d.name = x
    · rw [List.find?_cons_of_pos (by simpa using hd)]
      have hfirst : arrive st d = settle (recorded st d.payload ⟨d.name, r⟩) d.env r row s := by
        rw [arrive_new (by rwa [hd]) hrow, hd, hs]
      have hsettle : SameRows (settle st d.env r row s) (arrive st d) := by
        rw [hfirst]
        exact sameRows_settle ⟨rfl, rfl⟩ fun _ => rfl
      refine hsettle.trans (@sameRows_arrived _ _ (markedRow row d.env s) _ ?_ fun d' hd' => ?_)
      · rw [hsettle.orders]
        exact find_settle hrow
      · -- What follows has the same event, or one for no state.
        by_cases hstate : stateOf d'.name = none
        · exact Or.inr hstate
        · rw [hrest d' hd' hstate, ← hd]
          exact Or.inl (mem_keys_arrive.mpr (Or.inr rfl))
    · rw [List.find?_cons_of_neg (by simpa using hd)]
      have hquiet : stateOf d.name = none := by
        by_contra hstate
        exact hd (hone d List.mem_cons_self hstate)
      have hfirst := sameRows_arrive hrow (Or.inr hquiet)
      have hfresh : (r, x) ∉ (arrive st d).events.keys := by
        rw [mem_keys_arrive]
        rintro (hseen | heq)
        · exact hnew hseen
        · exact hd (Prod.mk.inj heq).2.symm
      have hrun := ih hfresh (by rw [hfirst.orders, hrow]) hrest
      cases hfind : ds.find? (·.name = x) with
      | none =>
        rw [hfind] at hrun
        exact hfirst.trans hrun
      | some d' =>
        rw [hfind] at hrun
        exact (sameRows_settle hfirst fun _ => rfl).trans hrun

theorem find?_take {ds : List (Arrival r)} {p : Arrival r → Bool} {n m : ℕ} (hnm : n ≤ m)
    (h : (ds.take n).find? p = some d) : (ds.take m).find? p = some d := by
  have htake : ds.take m = ds.take n ++ (ds.take m).drop n := by
    have hsplit := List.take_append_drop n (ds.take m)
    rw [List.take_take, Nat.min_eq_left hnm] at hsplit
    exact hsplit.symm
  rw [htake, List.find?_append, h]
  rfl

/-- Deliveries with one event for a state do not undo it. -/
theorem staysCompleted_one {ds : List (Arrival r)} {x : String} {s : OrderState}
    (hs : stateOf x = some s) (hnew : (r, x) ∉ st.events.keys)
    (hrow : st.orders.findByRevolutId r = some row) (hpending : row.state = .pending)
    (hone : ∀ d ∈ ds, stateOf d.name ≠ none → d.name = x) : StaysCompleted st ds := by
  have hends : ∀ n, SameRows (((ds.take n).find? (·.name = x)).elim st fun d =>
      settle st d.env r row s) (arrived st (ds.take n)) :=
    fun n => arrived_one hs hnew hrow fun d hd => hone d (List.mem_of_mem_take hd)
  intro n m a hnm ha hcompleted
  have hn := hends n
  rw [hn.orders] at ha
  cases hfind : (ds.take n).find? (·.name = x) with
  | none =>
    rw [hfind] at ha
    obtain rfl := Option.some.inj (hrow.symm.trans ha)
    rw [hpending] at hcompleted
    cases hcompleted
  | some d =>
    rw [hfind, Option.elim_some, find_settle hrow] at ha
    obtain rfl := Option.some.inj ha
    refine ⟨markedRow row d.env s, ?_, hcompleted, rfl⟩
    rw [(hends m).orders, find?_take hnm hfind]
    exact find_settle hrow

/-- They end alike in any order. -/
theorem sameEnd_one {ds ds' : List (Arrival r)} {names : List String} {x : String} {s : OrderState}
    (hs : stateOf x = some s) (hnew : (r, x) ∉ st.events.keys)
    (hrow : st.orders.findByRevolutId r = some row)
    (hone : ∀ y ∈ names, stateOf y ≠ none → y = x) (h : Arranges ds names)
    (h' : Arranges ds' names) : SameEnd st ds ds' := by
  have hends : ∀ {ds : List (Arrival r)}, Arranges ds names →
      SameRows ((ds.find? (·.name = x)).elim st fun d => settle st d.env r row s) (arrived st ds) :=
    fun h => arrived_one hs hnew hrow fun d hd =>
      hone d.name (h.mem_iff.mp (List.mem_map.mpr ⟨d, hd, rfl⟩))
  have hsome : ∀ {ds : List (Arrival r)}, Arranges ds names →
      ((ds.find? (·.name = x)).isSome = true ↔ x ∈ names) := by
    intro ds h
    rw [List.find?_isSome, ← h.mem_iff]
    simp
  have hboth : (ds.find? (·.name = x)).isSome = (ds'.find? (·.name = x)).isSome := by
    rw [Bool.eq_iff_iff, hsome h, hsome h']
  have hend := hends h
  have hend' := hends h'
  cases hfind : ds.find? (·.name = x) with
  | none =>
    rw [hfind] at hboth
    have hnone := Option.isNone_iff_eq_none.mp (Option.isSome_eq_false_iff.mp hboth.symm)
    rw [hfind] at hend
    rw [hnone] at hend'
    refine ⟨row, row, by rw [hend.orders]; exact hrow, by rw [hend'.orders]; exact hrow, rfl, ?_⟩
    unfold supporterOf
    rw [hend.supporters, hend'.supporters]
    exact ⟨rfl, fun _ => ⟨rfl, rfl⟩⟩
  | some d =>
    rw [hfind] at hboth
    obtain ⟨d', hfind'⟩ := Option.isSome_iff_exists.mp hboth.symm
    rw [hfind] at hend
    rw [hfind'] at hend'
    refine ⟨markedRow row d.env s, markedRow row d'.env s, ?_, ?_, rfl, ?_, fun hpaid => ?_⟩
    · rw [hend.orders]
      exact find_settle hrow
    · rw [hend'.orders]
      exact find_settle hrow
    · have huntimed := @untimed_settle st r row d.env d'.env s
      unfold supporterOf at huntimed ⊢
      rw [hend.supporters, hend'.supporters]
      exact huntimed
    · have hnow : s = .completed → d.env.now = d'.env.now := by
        rintro rfl
        obtain rfl := eq_nameOf hs
        unfold paidAt at hpaid
        unfold nameOf at hfind hfind'
        rw [hfind, hfind'] at hpaid
        exact Option.some.inj hpaid
      have hrows := @sameRows_settle st st r row d.env d'.env s (SameRows.refl st) hnow
      constructor
      · unfold markedRow
        by_cases hcompleted : s = .completed
        · rw [if_pos hcompleted, if_pos hcompleted, hnow hcompleted]
        · rw [if_neg hcompleted, if_neg hcompleted]
      · unfold supporterOf
        rw [hend.supporters, hend'.supporters]
        simp only [Option.elim_some, hrows.supporters]

/-- A delivery of the event. -/
def arrivalOf (r name : String) : Arrival r where
  env := calm
  payload := .obj [("event", .str name), ("order_id", .str r)]
  name := name
  authentic := authentic_failing _
  parsed := by rfl
  calm := fun _ => rfl

/-- An event for a state that comes last decides the state. -/
theorem exists_last {names : List String} {x : String} {s : OrderState} (hs : stateOf x = some s)
    (hx : x ∈ names) (hnew : (r, x) ∉ st.events.keys)
    (hrow : st.orders.findByRevolutId r = some row) : ∃ ds : List (Arrival r), Arranges ds names ∧
      ∃ a, (arrived st ds).orders.findByRevolutId r = some a ∧ a.state = s := by
  have hnames : ∀ l : List String, (l.map (arrivalOf r)).map (·.name) = l := by
    intro l
    rw [List.map_map]
    exact List.map_id l
  refine ⟨(names.filter (· ≠ x)).map (arrivalOf r) ++ (names.filter (· = x)).map (arrivalOf r),
    ?_, ?_⟩
  · unfold Arranges
    rw [List.map_append, hnames, hnames]
    have hsplit := List.filter_append_perm (fun y => decide (y ≠ x)) names
    simpa using hsplit
  · rw [arrived_append]
    obtain ⟨row', hrow'⟩ : ∃ row', (arrived st ((names.filter (· ≠ x)).map (arrivalOf
        r))).orders.findByRevolutId r = some row' := find_arrived hrow
    have hfresh : (r, x) ∉ (arrived st ((names.filter (· ≠ x)).map (arrivalOf r))).events.keys := by
      rw [mem_keys_arrived]
      rintro (hseen | ⟨d, hd, heq⟩)
      · exact hnew hseen
      · obtain ⟨y, hy, rfl⟩ := List.mem_map.mp hd
        have hne : y ≠ x := by simpa using (List.mem_filter.mp hy).2
        exact hne (Prod.mk.inj heq).2.symm
    have hall : ∀ d ∈ (names.filter (· = x)).map (arrivalOf r), d.name = x := by
      intro d hd
      obtain ⟨y, hy, rfl⟩ := List.mem_map.mp hd
      change y = x
      simpa using (List.mem_filter.mp hy).2
    have hend := arrived_one hs hfresh hrow' fun d hd _ => hall d hd
    obtain ⟨d, hd⟩ : ∃ d, ((names.filter (· = x)).map (arrivalOf r)).find? (·.name = x) = some d := by
      rw [← Option.isSome_iff_exists, List.find?_isSome]
      exact ⟨arrivalOf r x, List.mem_map.mpr ⟨x, List.mem_filter.mpr ⟨hx, by simp⟩, rfl⟩,
        by simp [arrivalOf]⟩
    rw [hd] at hend
    exact ⟨markedRow row' d.env s, by rw [hend.orders]; exact find_settle hrow', rfl⟩

/-- **The events of a pending order do the same in any order exactly if at most one of the events for a
state is among them.** -/
theorem inAnyOrder_iff {names : List String} (hrow : st.orders.findByRevolutId r = some row)
    (hpending : row.state = .pending) (hnew : ∀ x, (r, x) ∉ st.events.keys) :
    InAnyOrder st r names ↔
      ∀ x ∈ names, ∀ y ∈ names, stateOf x ≠ none → stateOf y ≠ none → x = y := by
  constructor
  · rintro ⟨-, hend⟩ x hx y hy hxs hys
    obtain ⟨s, hs⟩ := Option.ne_none_iff_exists'.mp hxs
    obtain ⟨s', hs'⟩ := Option.ne_none_iff_exists'.mp hys
    obtain ⟨ds, hds, a, ha, hstate⟩ := exists_last hs hx (hnew x) hrow
    obtain ⟨ds', hds', b, hb, hstate'⟩ := exists_last hs' hy (hnew y) hrow
    obtain ⟨a', b', ha', hb', hsame, -⟩ := hend ds ds' hds hds'
    obtain rfl := Option.some.inj (ha.symm.trans ha')
    obtain rfl := Option.some.inj (hb.symm.trans hb')
    rw [eq_nameOf hs, eq_nameOf hs', ← hstate, ← hstate', hsame]
  · intro hall
    obtain ⟨x, s, hs, hone⟩ : ∃ x s, stateOf x = some s ∧ ∀ y ∈ names, stateOf y ≠ none → y = x := by
      by_cases hsome : ∃ x ∈ names, stateOf x ≠ none
      · obtain ⟨x, hx, hxs⟩ := hsome
        obtain ⟨s, hs⟩ := Option.ne_none_iff_exists'.mp hxs
        exact ⟨x, s, hs, fun y hy hys => hall y hy x hx hys hxs⟩
      · exact ⟨"ORDER_COMPLETED", .completed, rfl, fun y hy hys => absurd ⟨y, hy, hys⟩ hsome⟩
    refine ⟨fun ds hds => ?_, fun ds ds' => sameEnd_one hs (hnew x) hrow hone⟩
    refine staysCompleted_one hs (hnew x) hrow hpending fun d hd => ?_
    exact hone d.name (hds.mem_iff.mp (List.mem_map.mpr ⟨d, hd, rfl⟩))

end Steps

/-- The order `order-1` with its id. -/
def placedOrder : RevolutOrderRow :=
  { pendingOrder "order-1" "user-1" ⟨"coffee", 300, "GBP"⟩ none 0 with
    revolutOrderId := some "rev-1", checkoutUrl := some "https://checkout" }

theorem find_placed : (after placed 2).orders.findByRevolutId "rev-1" = some placedOrder := by
  decide +kernel

theorem keys_placed : (after placed 2).events.keys = [] := by decide +kernel

theorem inAnyOrder_completed : InAnyOrder (after placed 2) "rev-1"
    ["ORDER_AUTHORISED", "ORDER_COMPLETED", "ORDER_COMPLETED"] := by
  refine (inAnyOrder_iff find_placed rfl fun x => ?_).mpr ?_
  · rw [keys_placed]
    exact List.not_mem_nil
  · decide

/-- A failure that comes after the completion undoes it. -/
theorem not_inAnyOrder_failed :
    ¬ InAnyOrder (after placed 2) "rev-1" ["ORDER_COMPLETED", "ORDER_FAILED"] := by
  rintro ⟨hstays, -⟩
  have hcompleted : ((arrived (after placed 2) [arrivalOf "rev-1" "ORDER_COMPLETED"]).orders
      |>.findByRevolutId "rev-1").map (·.state) = some .completed := by decide +kernel
  have hfailed : ((arrived (after placed 2)
      [arrivalOf "rev-1" "ORDER_COMPLETED", arrivalOf "rev-1" "ORDER_FAILED"]).orders
      |>.findByRevolutId "rev-1").map (·.state) = some .failed := by decide +kernel
  obtain ⟨a, ha, hstate⟩ := Option.map_eq_some_iff.mp hcompleted
  obtain ⟨b, hb, hstate', -⟩ := hstays
    [arrivalOf "rev-1" "ORDER_COMPLETED", arrivalOf "rev-1" "ORDER_FAILED"] (List.Perm.refl _)
    1 2 a (by omega) ha hstate
  have hb' : ((arrived (after placed 2)
      [arrivalOf "rev-1" "ORDER_COMPLETED", arrivalOf "rev-1" "ORDER_FAILED"]).orders
      |>.findByRevolutId "rev-1").map (·.state) = some b.state := congrArg (Option.map _) hb
  rw [hfailed, hstate'] at hb'
  cases hb'

end StarStats.Server.Donate
