import StarStats.Lib.Runs
import StarStats.Server.Donate

/-! # No paid order is lost

Orders are placed, get their ids and have their events delivered, in any order and with any failures of
the calls. An order that the service reports as completed is settled when it is marked so and its user
has the payment. Once a report has been answered with 200 its order is to be settled. -/

namespace StarStats.Server.Donate

open StarStats.Lib.Text StarStats.Lib.Json StarStats.Lib.Tables StarStats.Lib.Runs
open StarStats.Server.Auth StarStats.Server.Ingest

/-- What happens to the tables of the donations. -/
inductive Step where
  | place (env : Env) (auth : AuthenticatedUser) (req : CheckoutRequest) (newId : String)
  | attach (env : Env) (localId revolutOrderId checkoutUrl : String)
  | webhook (env : Env) (body : Option Value)

def step (st : Stores) : Step → Stores
  | .place env auth req newId => (checkoutPending st env auth req newId).1
  | .attach env localId revolutOrderId checkoutUrl =>
    (checkoutAttach st env localId revolutOrderId checkoutUrl).1
  | .webhook env body => (webhook st env body).1

/-- No order, no delivery, no supporter. -/
def start : Stores := ⟨.empty, .empty, .empty, []⟩

/-- The states after the first steps. -/
def after (steps : List Step) (n : ℕ) : Stores := (steps.take n).foldl step start

/-- A delivery that the service has signed. -/
structure Authentic (env : Env) : Prop where
  secret : env.webhookSecret = true
  signature : env.signature = .ok ()

/-- The delivery has this event. -/
def Delivers (a : Step) (env : Env) (payload : Value) (event : WebhookEvent) : Prop :=
  a = .webhook env (some payload) ∧ Authentic env ∧ WebhookEvent.ofValue payload = some event

def completed (r : String) : WebhookEvent := ⟨"ORDER_COMPLETED", r⟩

/-- The order is marked and its user has the payment. -/
def Settled (st : Stores) (r userId : String) : Prop :=
  .marked r .completed ∈ st.log ∧ .paid r userId ∈ st.log

section Service
variable (ext : String → Option String)

/-- What the service does: it answers a call with an id of its own for the order it was called for, and
has events only of orders that it was called for. -/
def Sound (st : Stores) : Step → Prop
  | .place .. => True
  | .attach _ localId r _ => ext r = some localId
  | .webhook env body => ∀ payload event, Delivers (.webhook env body) env payload event →
      ∀ id, ext event.orderId = some id → ∃ a ∈ st.orders.rows, a.id = id

/-- A report of a known order that is answered with 200 leaves it settled. -/
def Settles (st : Stores) (a : Step) : Prop :=
  ∀ env payload r, Delivers a env payload (completed r) →
    ∀ row ∈ st.orders.rows, ext r = some row.id →
      (webhook st env (some payload)).2.status = 200 → Settled (step st a) r row.userId

/-- A new report of a known order comes when its id is attached, and none of the calls after its record
fails. -/
def Undisturbed (st : Stores) (a : Step) : Prop :=
  ∀ env payload r, Delivers a env payload (completed r) →
    ∀ row ∈ st.orders.rows, ext r = some row.id →
      (r, "ORDER_COMPLETED") ∈ st.events.keys ∨ env.fails .record = true ∨
        (row.revolutOrderId = some r ∧ env.fails .find = false ∧ env.fails .markState = false ∧
          env.fails .markPayment = false)

end Service

/-- What is not answered with 200 is delivered again. -/
def Redelivered (steps : List Step) : Prop :=
  ∀ n a env payload event, steps[n]? = some a → Delivers a env payload event →
    (webhook (after steps n) env (some payload)).2.status ≠ 200 →
    ∃ m, n < m ∧ ∃ a' env' payload', steps[m]? = some a' ∧ Delivers a' env' payload' event

/-- **Every report of a known order that is answered with 200 leaves it settled.** -/
def AllSettle (ext : String → Option String) (steps : List Step) : Prop :=
  ∀ n a, steps[n]? = some a → Settles ext (after steps n) a

/-! ### Single deliveries -/

section Deliveries
variable {st : Stores} {env : Env} {payload : Value} {event : WebhookEvent} {r : String}
  {row : RevolutOrderRow}

theorem webhook_of_delivers {a : Step} (h : Delivers a env payload event) :
    webhook st env (some payload) = deliver st env payload event ∧
      step st a = (deliver st env payload event).1 := by
  obtain ⟨rfl, ⟨hsecret, hsig⟩, hev⟩ := h
  have heq : webhook st env (some payload) = deliver st env payload event := by
    unfold webhook
    simp [hsecret, hsig, hev]
  exact ⟨heq, congrArg Prod.fst heq⟩

/-- A delivery changes nothing, or it is new and recorded. -/
theorem webhook_follows (st : Stores) (env : Env) (body : Option Value) :
    (webhook st env body).1 = st ∨ ∃ payload event,
      Delivers (.webhook env body) env payload event ∧ env.fails .record = false ∧
      (event.orderId, event.event) ∉ st.events.keys ∧
      Follows event (recorded st payload event) (webhook st env body).1 := by
  rcases webhook_cases st env body with h | ⟨payload, event, rfl, hev, hsig, hsecret, heq⟩
  · exact Or.inl h
  · rw [heq]
    rcases deliver_cases st env payload event with ⟨-, h⟩ | ⟨-, h⟩ | hnew
    · exact Or.inl (congrArg Prod.fst h)
    · exact Or.inl (congrArg Prod.fst h)
    · exact Or.inr ⟨payload, event, ⟨rfl, ⟨hsecret, hsig⟩, hev⟩, hnew⟩

theorem mem_keys_recorded {k : String × String} :
    k ∈ (recorded st payload event).events.keys ↔
      k ∈ st.events.keys ∨ k = (event.orderId, event.event) :=
  Table.mem_keys_insert

theorem seen_of_follows {st' : Stores} (h : Follows event (recorded st payload event) st') :
    (event.orderId, event.event) ∈ st'.events.keys := by
  rw [h.events]
  exact mem_keys_recorded.mpr (Or.inr rfl)

theorem seen_of_answered (h : (deliver st env payload event).2.status = 200) :
    (event.orderId, event.event) ∈ (deliver st env payload event).1.events.keys := by
  rcases deliver_cases st env payload event with ⟨-, heq⟩ | ⟨hseen, heq⟩ | ⟨-, -, hfollows⟩
  · rw [heq] at h
    cases h
  · rwa [heq]
  · exact seen_of_follows hfollows

theorem markState_of_mem {state : OrderState} (hrow : row ∈ st.orders.rows)
    (hr : row.revolutOrderId = some r) (h : env.fails .markState = false) :
    markState st env r state = some (marked st env r state) := by
  unfold markState
  rw [if_neg (by simp [h]), if_neg fun hnone => hnone row hrow hr]

theorem deliver_known (hnew : (event.orderId, event.event) ∉ st.events.keys)
    (hrecord : env.fails .record = false) (hfind : env.fails .find = false)
    (hfound : st.orders.findByRevolutId event.orderId = some row) :
    deliver st env payload event = applyEvent (recorded st payload event) env event row := by
  unfold deliver
  rw [if_neg (by simp [hrecord]), if_neg hnew, if_neg (by simp [hfind]), hfound]

/-- A new report of an order with its id attached, and no failures after the record, settles it. -/
theorem settled_deliver (hnew : (r, "ORDER_COMPLETED") ∉ st.events.keys)
    (hrecord : env.fails .record = false) (hrow : row ∈ st.orders.rows)
    (hr : row.revolutOrderId = some r) (hfind : env.fails .find = false)
    (hstate : env.fails .markState = false) (hpay : env.fails .markPayment = false) :
    Settled (deliver st env payload (completed r)).1 r row.userId := by
  have hfound := Orders.findByRevolutId_eq_some.mpr ⟨hrow, hr⟩
  have hmark : markState (recorded st payload (completed r)) env r .completed =
      some (marked (recorded st payload (completed r)) env r .completed) :=
    markState_of_mem hrow hr hstate
  rw [deliver_known hnew hrecord hfind hfound]
  unfold completed at hmark ⊢
  simp only [applyEvent, hmark, hpay, Bool.false_eq_true, if_false]
  constructor <;> simp [paid, marked]

/-- Without its id attached, or with a failure after the record, it leaves the user without. -/
theorem unpaid_deliver (hunpaid : ∀ u, .paid r u ∉ st.log)
    (h : (∀ row ∈ st.orders.rows, row.revolutOrderId ≠ some r) ∨ env.fails .find = true ∨
      env.fails .markState = true ∨ env.fails .markPayment = true) (u : String) :
    .paid r u ∉ (deliver st env payload (completed r)).1.log := by
  unfold deliver
  split_ifs with hrecord hseen hfind
  · exact hunpaid u
  · exact hunpaid u
  · exact hunpaid u
  · cases hfound : st.orders.findByRevolutId (completed r).orderId with
    | none => exact hunpaid u
    | some row =>
      obtain ⟨hrow, hr⟩ := Orders.findByRevolutId_eq_some.mp hfound
      have hcalls : env.fails .markState = true ∨ env.fails .markPayment = true := by
        rcases h with hnone | hfails | hfails
        · exact absurd hr (hnone row hrow)
        · exact absurd hfails hfind
        · exact hfails
      unfold completed
      simp only [applyEvent]
      rcases hcalls with hfails | hfails
      · have hnone : markState (recorded st payload ⟨"ORDER_COMPLETED", r⟩) env r .completed =
            none := if_pos hfails
        rw [hnone]
        exact hunpaid u
      · rcases @markState_cases (recorded st payload ⟨"ORDER_COMPLETED", r⟩) env r .completed with
          hmark | hmark
        · rw [hmark]
          exact hunpaid u
        · rw [hmark]
          simp only [hfails, if_true]
          simpa [marked, recorded] using hunpaid u

end Deliveries

/-! ### Runs -/

section Runs
variable {ext : String → Option String} {st st' : Stores} {env : Env} {payload : Value}
  {event : WebhookEvent} {r : String} {row : RevolutOrderRow} {a : Step}

/-- What the theorem carries along a run. -/
structure Inv (ext : String → Option String) (st : Stores) : Prop where
  paidSeen : ∀ r u, .paid r u ∈ st.log → (r, "ORDER_COMPLETED") ∈ st.events.keys
  seenKnown : ∀ r id, (r, "ORDER_COMPLETED") ∈ st.events.keys → ext r = some id →
    ∃ a ∈ st.orders.rows, a.id = id
  attached : ∀ a ∈ st.orders.rows, ∀ r, a.revolutOrderId = some r → ext r = some a.id

/-- Every known order with a report is settled. -/
def AllSettled (ext : String → Option String) (st : Stores) : Prop :=
  ∀ r, (r, "ORDER_COMPLETED") ∈ st.events.keys → ∀ row ∈ st.orders.rows, ext r = some row.id →
    Settled st r row.userId

/-- A step places an order, attaches an id or follows a new event, if it does anything. -/
theorem step_cases (st : Stores) (a : Step) : step st a = st ∨
    (∃ row h hnone, step st a = { st with orders := st.orders.create row h hnone }) ∨
    (∃ env localId r url h, a = .attach env localId r url ∧
      step st a = { st with orders := st.orders.attach localId r url h }) ∨
    ∃ env payload event, Delivers a env payload event ∧ env.fails .record = false ∧
      (event.orderId, event.event) ∉ st.events.keys ∧
      Follows event (recorded st payload event) (step st a) := by
  cases a with
  | place env auth req newId =>
    rcases checkoutPending_cases st env auth req newId with h | h
    · exact Or.inl h
    · exact Or.inr (Or.inl h)
  | attach env localId r url =>
    rcases checkoutAttach_cases st env localId r url with h | ⟨hfree, h⟩
    · exact Or.inl h
    · exact Or.inr (Or.inr (Or.inl ⟨env, localId, r, url, hfree, rfl, h⟩))
  | webhook env body =>
    rcases webhook_follows st env body with h | ⟨payload, event, hdelivers, h⟩
    · exact Or.inl h
    · exact Or.inr (Or.inr (Or.inr ⟨env, payload, event, hdelivers, h⟩))

theorem mem_rows_attach {o : Orders} {localId url : String} (hfree) {b : RevolutOrderRow} :
    b ∈ (o.attach localId r url hfree).rows ↔ ∃ a ∈ o.rows, b = if a.id = localId then
      { a with revolutOrderId := some r, checkoutUrl := some url } else a := by
  simp [Orders.attach, eq_comm]

theorem mem_rows_create {o : Orders} (hfree) (hnone) {b : RevolutOrderRow} :
    b ∈ (o.create row hfree hnone).rows ↔ b ∈ o.rows ∨ b = row := by
  simp [Orders.create]

theorem rows_step (a : Step) (hrow : row ∈ st.orders.rows) :
    ∃ row' ∈ (step st a).orders.rows, row'.id = row.id ∧ row'.userId = row.userId := by
  rcases step_cases st a with h | ⟨new, hfree, hnone, h⟩ | ⟨_, localId, r, url, hfree, -, h⟩ |
    ⟨_, _, event, -, -, -, h⟩
  · rw [h]
    exact ⟨row, hrow, rfl, rfl⟩
  · rw [h]
    exact ⟨row, (mem_rows_create hfree hnone).mpr (Or.inl hrow), rfl, rfl⟩
  · rw [h]
    refine ⟨_, (mem_rows_attach hfree).mpr ⟨row, hrow, rfl⟩, ?_⟩
    split_ifs <;> exact ⟨rfl, rfl⟩
  · obtain ⟨row', hrow', hid, huser, -⟩ := h.orders.forward row hrow
    exact ⟨row', hrow', hid, huser⟩

theorem inv_step (h : Inv ext st) (hsound : Sound ext st a) : Inv ext (step st a) := by
  rcases step_cases st a with heq | ⟨new, hfree, hnone, heq⟩ |
    ⟨_, localId, r, url, hfree, rfl, heq⟩ | ⟨env, payload, event, hdelivers, -, -, hfollows⟩
  · rwa [heq]
  · rw [heq]
    refine ⟨h.paidSeen, fun r id hseen hext => ?_, fun b hb r hr => ?_⟩
    · obtain ⟨b, hb, hid⟩ := h.seenKnown r id hseen hext
      exact ⟨b, (mem_rows_create hfree hnone).mpr (Or.inl hb), hid⟩
    · rcases (mem_rows_create hfree hnone).mp hb with hb | rfl
      · exact h.attached b hb r hr
      · rw [hnone] at hr
        cases hr
  · rw [heq]
    refine ⟨h.paidSeen, fun r' id hseen hext => ?_, fun b hb r' hr => ?_⟩
    · obtain ⟨b, hb, hid⟩ := h.seenKnown r' id hseen hext
      refine ⟨_, (mem_rows_attach hfree).mpr ⟨b, hb, rfl⟩, ?_⟩
      split_ifs <;> exact hid
    · obtain ⟨c, hc, rfl⟩ := (mem_rows_attach hfree).mp hb
      split_ifs at hr ⊢ with hid
      · obtain rfl := Option.some.inj hr
        exact hsound.trans (congrArg some hid.symm)
      · exact h.attached c hc r' hr
  · refine ⟨fun r u hpaid => ?_, fun r id hseen hext => ?_, fun b hb r hr => ?_⟩
    · obtain ⟨ws, hlog, hws⟩ := hfollows.log
      rw [hlog] at hpaid
      rw [hfollows.events]
      rcases List.mem_append.mp hpaid with hpaid | hpaid
      · exact mem_keys_recorded.mpr (Or.inl (h.paidSeen r u hpaid))
      · obtain ⟨rfl, hname⟩ := hws _ hpaid
        exact mem_keys_recorded.mpr (Or.inr (by rw [hname]))
    · rw [hfollows.events] at hseen
      have hknown : ∃ b ∈ st.orders.rows, b.id = id := by
        rcases mem_keys_recorded.mp hseen with hseen | hkey
        · exact h.seenKnown r id hseen hext
        · obtain ⟨hr, -⟩ := Prod.mk.inj hkey
          obtain ⟨rfl, hauth, hev⟩ := hdelivers
          exact hsound payload event ⟨rfl, hauth, hev⟩ id (hr ▸ hext)
      obtain ⟨b, hb, hid⟩ := hknown
      obtain ⟨b', hb', hid', -⟩ := hfollows.orders.forward b hb
      exact ⟨b', hb', hid'.trans hid⟩
    · obtain ⟨b', hb', hid, -, hrev⟩ := hfollows.orders.backward b hb
      rw [hid]
      exact h.attached b' hb' r (hrev ▸ hr)

theorem allSettled_step (hinv : Inv ext st) (h : AllSettled ext st)
    (hcond : Undisturbed ext st a) : AllSettled ext (step st a) := by
  intro r hseen row hrow hext
  rcases step_cases st a with heq | ⟨new, hfree, hnone, heq⟩ |
    ⟨_, localId, r', url, hfree, -, heq⟩ | ⟨env, payload, event, hdelivers, hrecord, hnew, hfollows⟩
  · rw [heq] at hseen hrow ⊢
    exact h r hseen row hrow hext
  · rw [heq] at hseen hrow ⊢
    rcases (mem_rows_create hfree hnone).mp hrow with hrow | rfl
    · exact h r hseen row hrow hext
    · -- A report of an order that was not there yet.
      obtain ⟨b, hb, hid⟩ := hinv.seenKnown r _ hseen hext
      exact absurd hid (hfree b hb)
  · rw [heq] at hseen hrow ⊢
    obtain ⟨c, hc, rfl⟩ := (mem_rows_attach hfree).mp hrow
    have hsettled := h r hseen c hc (by split_ifs at hext <;> exact hext)
    split_ifs <;> exact hsettled
  · obtain ⟨b, hb, hid, huser, -⟩ := hfollows.orders.backward row hrow
    rw [hid] at hext
    rw [huser]
    rw [hfollows.events] at hseen
    rcases mem_keys_recorded.mp hseen with hseen | hkey
    · obtain ⟨ws, hlog, -⟩ := hfollows.log
      obtain ⟨hmarked, hpaid⟩ := h r hseen b hb hext
      constructor <;> rw [hlog]
      · exact List.mem_append_left _ hmarked
      · exact List.mem_append_left _ hpaid
    · obtain ⟨name, r'⟩ := event
      obtain ⟨rfl, rfl⟩ := Prod.mk.inj hkey
      rw [(webhook_of_delivers hdelivers).2]
      rcases hcond env payload _ hdelivers b hb hext with hseen | hfails | ⟨hr, hfind, hstate, hpay⟩
      · exact absurd hseen hnew
      · rw [hfails] at hrecord
        cases hrecord
      · exact settled_deliver hnew hrecord hb hr hfind hstate hpay

theorem settles_of_allSettled (h : AllSettled ext (step st a)) : Settles ext st a := by
  intro env payload r hdelivers row hrow hext hstatus
  obtain ⟨heq, hstep⟩ := @webhook_of_delivers st _ _ _ _ hdelivers
  rw [heq] at hstatus
  obtain ⟨row', hrow', hid, huser⟩ := rows_step a hrow
  rw [← huser]
  refine h r ?_ row' hrow' (by rw [hid, hext])
  rw [hstep]
  exact seen_of_answered hstatus

/-- The payment service knows the order by its id here. -/
def Known (ext : String → Option String) (r : String) (st : Stores) : Prop :=
  ∃ row ∈ st.orders.rows, ext r = some row.id

theorem known_step (h : Known ext r st) (a : Step) : Known ext r (step st a) := by
  obtain ⟨row, hrow, hext⟩ := h
  obtain ⟨row', hrow', hid, -⟩ := rows_step a hrow
  exact ⟨row', hrow', by rw [hid, hext]⟩

/-- A report was recorded, and nobody has its payment. -/
def Lost (r : String) (st : Stores) : Prop :=
  (r, "ORDER_COMPLETED") ∈ st.events.keys ∧ ∀ u, .paid r u ∉ st.log

theorem lost_step (h : Lost r st) (a : Step) : Lost r (step st a) := by
  obtain ⟨hseen, hunpaid⟩ := h
  rcases step_cases st a with heq | ⟨_, _, _, heq⟩ | ⟨_, _, _, _, _, -, heq⟩ |
    ⟨_, _, event, -, -, hnew, hfollows⟩
  · rw [heq]
    exact ⟨hseen, hunpaid⟩
  · rw [heq]
    exact ⟨hseen, hunpaid⟩
  · rw [heq]
    exact ⟨hseen, hunpaid⟩
  · refine ⟨?_, fun u hpaid => ?_⟩
    · rw [hfollows.events]
      exact mem_keys_recorded.mpr (Or.inl hseen)
    · obtain ⟨ws, hlog, hws⟩ := hfollows.log
      rw [hlog] at hpaid
      rcases List.mem_append.mp hpaid with hpaid | hpaid
      · exact hunpaid u hpaid
      · obtain ⟨rfl, hname⟩ := hws _ hpaid
        exact hnew (hname ▸ hseen)

/-- A disturbed step loses the payment of an order. -/
theorem lost_of_disturbed (hinv : Inv ext st) (h : ¬ Undisturbed ext st a) :
    ∃ env payload r, Delivers a env payload (completed r) ∧ Known ext r st ∧ Lost r (step st a) := by
  unfold Undisturbed at h
  push Not at h
  obtain ⟨env, payload, r, hdelivers, row, hrow, hext, hnew, hrecord, hcalls⟩ := h
  refine ⟨env, payload, r, hdelivers, ⟨row, hrow, hext⟩, ?_⟩
  have hunpaid : ∀ u, .paid r u ∉ st.log := fun u hpaid => hnew (hinv.paidSeen r u hpaid)
  rw [(webhook_of_delivers hdelivers).2]
  refine ⟨?_, unpaid_deliver hunpaid ?_⟩
  · rcases deliver_cases st env payload (completed r) with ⟨hfails, -⟩ | ⟨hseen, -⟩ | ⟨-, -, hfollows⟩
    · exact absurd hfails hrecord
    · exact absurd hseen hnew
    · exact seen_of_follows hfollows
  · by_cases hr : row.revolutOrderId = some r
    · right
      by_cases hfind : env.fails .find = true
      · exact Or.inl hfind
      · right
        by_cases hstate : env.fails .markState = true
        · exact Or.inl hstate
        · exact Or.inr (by simpa using hcalls hr (by simpa using hfind) (by simpa using hstate))
    · left
      intro b hb hbr
      have hid : b.id = row.id := Option.some.inj ((hinv.attached b hb r hbr).symm.trans hext)
      obtain rfl := Orders.eq_of_id_eq hb hrow hid
      exact hr hbr

/-- Some delivery of an event that was delivered is answered with 200. -/
theorem answered_of_redelivered {steps : List Step} (h : Redelivered steps) {n : ℕ}
    (ha : steps[n]? = some a) (hdelivers : Delivers a env payload event) :
    ∃ m, n ≤ m ∧ ∃ a env payload, steps[m]? = some a ∧ Delivers a env payload event ∧
      (webhook (after steps m) env (some payload)).2.status = 200 := by
  induction hk : steps.length - n using Nat.strong_induction_on generalizing n a env payload with
  | _ k ih =>
    by_cases hstatus : (webhook (after steps n) env (some payload)).2.status = 200
    · exact ⟨n, le_rfl, a, env, payload, ha, hdelivers, hstatus⟩
    · obtain ⟨m, hnm, a', env', payload', ha', hdelivers'⟩ :=
        h n a env payload event ha hdelivers hstatus
      obtain ⟨hm, -⟩ := List.getElem?_eq_some_iff.mp ha'
      obtain ⟨l, hml, hl⟩ := ih (steps.length - m) (by omega) ha' hdelivers' rfl
      exact ⟨l, by omega, hl⟩

theorem inv_start : Inv ext start :=
  ⟨fun _ _ hpaid => absurd hpaid List.not_mem_nil, fun _ _ hseen => absurd hseen List.not_mem_nil,
    fun _ hb => absurd hb List.not_mem_nil⟩

theorem after_succ {steps : List Step} {n : ℕ} (ha : steps[n]? = some a) :
    after steps (n + 1) = step (after steps n) a := run_take_succ ha

theorem after_of_le (P : Stores → Prop) (hstep : ∀ st a, P st → P (step st a)) {steps : List Step}
    {n m : ℕ} (hnm : n ≤ m) (h : P (after steps n)) : P (after steps m) :=
  invariant_take_from hstep hnm h

/-- **No paid order is lost in a run exactly if no report is disturbed.** -/
theorem allSettle_iff {steps : List Step}
    (hsound : ∀ n a, steps[n]? = some a → Sound ext (after steps n) a)
    (hredelivered : Redelivered steps) :
    AllSettle ext steps ↔ ∀ n a, steps[n]? = some a → Undisturbed ext (after steps n) a := by
  have hinv : ∀ n, Inv ext (after steps n) :=
    invariant_take_of inv_start (fun _ _ h hs => inv_step h hs) hsound
  constructor
  · intro hall n a ha
    by_contra hdisturbed
    obtain ⟨env, payload, r, hdelivers, hknown, hlost⟩ := lost_of_disturbed (hinv n) hdisturbed
    rw [← after_succ ha] at hlost
    -- The report comes again until it is answered, and by then the payment is lost.
    obtain ⟨m, hnm, a', env', payload', ha', hdelivers', hstatus⟩ :=
      answered_of_redelivered hredelivered ha hdelivers
    obtain ⟨row, hrow, hext⟩ : Known ext r (after steps m) :=
      after_of_le (Known ext r) (fun _ a h => known_step h a) hnm hknown
    obtain ⟨-, hunpaid⟩ : Lost r (after steps (m + 1)) :=
      after_of_le (Lost r) (fun _ a h => lost_step h a) (by omega) hlost
    have hsettled := hall m a' ha' env' payload' r hdelivers' row hrow hext hstatus
    rw [← after_succ ha'] at hsettled
    exact hunpaid _ hsettled.2
  · intro hall n a ha
    have hsettled : ∀ m, Inv ext (after steps m) ∧ AllSettled ext (after steps m) := by
      refine @invariant_take_of _ _ step start (fun st => Inv ext st ∧ AllSettled ext st)
        (fun st a => Sound ext st a ∧ Undisturbed ext st a) ⟨inv_start, ?_⟩ (fun st a h hc => ?_)
        steps (fun m a ha => ⟨hsound m a ha, hall m a ha⟩)
      · exact fun _ hseen => absurd hseen List.not_mem_nil
      · exact ⟨inv_step h.1 hc.1, allSettled_step h.1 h.2 hc.2⟩
    have hnext := (hsettled (n + 1)).2
    rw [after_succ ha] at hnext
    exact settles_of_allSettled hnext

end Runs

/-! ### A run that loses a payment -/

/-- All is set up; the calls in `fails` fail. -/
def failing (fails : Call → Bool) : Env where
  now := 0
  revolut := true
  webhookSecret := true
  fails := fails
  isUuid := fun _ => true
  signature := .ok ()

def donor : AuthenticatedUser := ⟨"user-1", "Donor", .user, none⟩

/-- The service's id `rev-1` is for the order `order-1`. -/
def extOf (r : String) : Option String := if r = "rev-1" then some "order-1" else none

def report : Value := .obj [("event", .str "ORDER_COMPLETED"), ("order_id", .str "rev-1")]

/-- A placed order with its id. -/
def placed : List Step :=
  [.place (failing fun _ => false) donor ⟨"coffee", none⟩ "order-1",
    .attach (failing fun _ => false) "order-1" "rev-1" "https://checkout"]

/-- The order is reported, again and again. -/
def reported (envs : List Env) : List Step := placed ++ envs.map (.webhook · (some report))

theorem delivers_report {env env' : Env} {payload : Value} {event : WebhookEvent} :
    Delivers (.webhook env (some report)) env' payload event ↔
      env' = env ∧ payload = report ∧ Authentic env ∧ event = completed "rev-1" := by
  have hev : WebhookEvent.ofValue report = some (completed "rev-1") := by decide +kernel
  constructor
  · rintro ⟨heq, hauth, h⟩
    cases heq
    rw [hev] at h
    exact ⟨rfl, rfl, hauth, (Option.some.inj h).symm⟩
  · rintro ⟨rfl, rfl, hauth, rfl⟩
    exact ⟨rfl, hauth, hev⟩

theorem authentic_failing (fails : Call → Bool) : Authentic (failing fails) := ⟨rfl, rfl⟩

theorem sound_placed {envs : List Env} (n : ℕ) (a : Step)
    (ha : (reported envs)[n]? = some a) : Sound extOf (after (reported envs) n) a := by
  match n with
  | 0 =>
    obtain rfl := Option.some.inj ha
    trivial
  | 1 =>
    obtain rfl := Option.some.inj ha
    exact (by decide : extOf "rev-1" = some "order-1")
  | n + 2 =>
    obtain ⟨env, -, rfl⟩ : ∃ env ∈ envs, Step.webhook env (some report) = a := by
      simpa using List.mem_of_getElem? (show (envs.map (.webhook · (some report)))[n]? = some a from ha)
    intro payload event hdelivers id hid
    obtain ⟨-, -, -, rfl⟩ := delivers_report.mp hdelivers
    obtain rfl : "order-1" = id := Option.some.inj hid
    refine after_of_le (fun st => ∃ b ∈ st.orders.rows, b.id = "order-1") (fun st a h => ?_)
      (Nat.le_add_left 2 n) ?_
    · obtain ⟨b, hb, hb'⟩ := h
      obtain ⟨c, hc, hid, -⟩ := rows_step a hb
      exact ⟨c, hc, hid.trans hb'⟩
    · have hstart : after (reported envs) 2 = placed.foldl step start := rfl
      rw [hstart]
      decide +kernel

def calm : Env := failing fun _ => false

theorem allSettle_calm : AllSettle extOf (reported [calm]) := by
  refine (allSettle_iff sound_placed ?_).mpr ?_
  · intro n a env payload event ha hdelivers hstatus
    match n with
    | 0 | 1 =>
      obtain rfl := Option.some.inj ha
      cases hdelivers.1
    | 2 =>
      obtain rfl := Option.some.inj ha
      obtain ⟨rfl, rfl, -, -⟩ := delivers_report.mp hdelivers
      exact absurd (by decide +kernel) hstatus
    | n + 3 => cases ha
  · intro n a ha env payload r hdelivers row hrow hext
    match n with
    | 0 | 1 =>
      obtain rfl := Option.some.inj ha
      cases hdelivers.1
    | 2 =>
      obtain rfl := Option.some.inj ha
      obtain ⟨rfl, rfl, -, hr⟩ := delivers_report.mp hdelivers
      obtain rfl : r = "rev-1" := congrArg WebhookEvent.orderId hr
      have hattached : ∀ b ∈ (after (reported [calm]) 2).orders.rows,
          b.revolutOrderId = some "rev-1" := by decide +kernel
      exact Or.inr (Or.inr ⟨hattached row hrow, rfl, rfl, rfl⟩)
    | n + 3 => cases ha

/-- The payment cannot be written when the order is reported; the next report is taken for settled. -/
theorem not_allSettle : (∀ n a, (reported [failing (· = .markPayment), calm])[n]? = some a →
      Sound extOf (after (reported [failing (· = .markPayment), calm]) n) a) ∧
    Redelivered (reported [failing (· = .markPayment), calm]) ∧
    ¬ AllSettle extOf (reported [failing (· = .markPayment), calm]) := by
  refine ⟨sound_placed, ?_, fun hall => ?_⟩
  · intro n a env payload event ha hdelivers hstatus
    match n with
    | 0 | 1 =>
      obtain rfl := Option.some.inj ha
      cases hdelivers.1
    | 2 =>
      obtain rfl := Option.some.inj ha
      obtain ⟨-, -, -, rfl⟩ := delivers_report.mp hdelivers
      exact ⟨3, by omega, _, calm, report, rfl,
        delivers_report.mpr ⟨rfl, rfl, authentic_failing _, rfl⟩⟩
    | 3 =>
      obtain rfl := Option.some.inj ha
      obtain ⟨rfl, rfl, -, -⟩ := delivers_report.mp hdelivers
      exact absurd (by decide +kernel) hstatus
    | n + 4 => cases ha
  · have hrows : ∃ row ∈ (after (reported [failing (· = .markPayment), calm]) 3).orders.rows,
        row.id = "order-1" ∧ row.userId = "user-1" := by decide +kernel
    obtain ⟨row, hrow, hid, huser⟩ := hrows
    have hdelivers : Delivers (.webhook calm (some report)) calm report (completed "rev-1") :=
      delivers_report.mpr ⟨rfl, rfl, authentic_failing _, rfl⟩
    have hsettled := (hall 3 _ rfl calm report "rev-1" hdelivers row hrow (by rw [hid]; decide)
      (by decide +kernel)).2
    rw [huser] at hsettled
    exact absurd hsettled (by decide +kernel)

end StarStats.Server.Donate
