import StarStats.Core.Transactions

/-! # Open requests

At one shop, with the events in the order of their timestamps, the requests that no response has taken
yet are a stack: a request is put on it, and a response takes the one on top (`mem_pairedResp_iff`). So
the latest request is answered first. An earlier request is answered by an earlier response exactly if
no response directly follows another while a request is still open (`inArrivalOrder_iff`): then every
response that takes a request directly follows it. -/

namespace StarStats.Core.OpenRequests

open List
open StarStats.Core.Events StarStats.Lib.Matching StarStats.Core.Transactions

/-- Requests to one shop and its responses, in the order of their timestamps. -/
structure Arrivals (shop : String) (events : List GameEvent) : Prop where
  kind : ∀ e ∈ events, (∃ q, e = .shopBuyRequest q ∧ q.shopId = some shop) ∨
    ∃ p, e = .shopFlowResponse p ∧ p.shopId = some shop
  ordered : events.Pairwise fun a b => a.timestamp < b.timestamp

/-- The earlier of two requests is paired with the earlier response. -/
def InArrivalOrder (events : List GameEvent) : Prop :=
  ∀ q₁ p₁ k₁ q₂ p₂ k₂, (q₁, some (p₁, k₁)) ∈ pairedResp events →
    (q₂, some (p₂, k₂)) ∈ pairedResp events → q₁.timestamp < q₂.timestamp →
    p₁.timestamp < p₂.timestamp

/-- The number of open requests after one more event: a response closes one, if there is one. -/
def countOpen (n : ℕ) : GameEvent → ℕ
  | .shopBuyRequest _ => n + 1
  | .shopFlowResponse _ => n - 1
  | _ => n

/-- The number of open requests after the events. -/
def openAfter (events : List GameEvent) : ℕ := events.foldl countOpen 0

/-- No response directly follows another while a request is open. -/
def NoResponseInRow (events : List GameEvent) : Prop :=
  ∀ pre p p' post, events = pre ++ .shopFlowResponse p :: .shopFlowResponse p' :: post →
    openAfter (pre ++ [.shopFlowResponse p]) = 0

/-! ### The stack -/

/-- An answer takes the request made last. -/
def stackStep (stack : List ShopBuyRequest) : GameEvent → List ShopBuyRequest
  | .shopBuyRequest q => q :: stack
  | .shopFlowResponse _ => stack.tail
  | _ => stack

/-- The open requests after the events, the latest on top. -/
def stackAfter (events : List GameEvent) : List ShopBuyRequest := events.foldl stackStep []

/-- What the event takes from the stack. -/
def taken (stack : List ShopBuyRequest) : GameEvent → List (ShopBuyRequest × ShopFlowResponse)
  | .shopFlowResponse p => stack.head?.toList.map (·, p)
  | _ => []

/-- The pairs made on the way through the events. -/
def stackRun : List ShopBuyRequest → List GameEvent → List (ShopBuyRequest × ShopFlowResponse)
  | _, [] => []
  | stack, e :: events => taken stack e ++ stackRun (stackStep stack e) events

theorem length_stackAfter (events : List GameEvent) :
    (stackAfter events).length = openAfter events := by
  have hstep : ∀ stack e, countOpen (length stack) e = (stackStep stack e).length := by
    intro stack e
    cases e <;> simp [countOpen, stackStep]
  exact (foldl_hom length hstep).symm

theorem stackAfter_append_singleton (events : List GameEvent) (e : GameEvent) :
    stackAfter (events ++ [e]) = stackStep (stackAfter events) e := by
  rw [stackAfter, foldl_append]
  rfl

theorem stackRun_append (stack : List ShopBuyRequest) : ∀ pre post : List GameEvent,
    stackRun stack (pre ++ post) =
      stackRun stack pre ++ stackRun (pre.foldl stackStep stack) post := by
  intro pre
  induction pre generalizing stack with
  | nil => exact fun _ => rfl
  | cons e pre ih =>
    intro post
    rw [cons_append, stackRun, stackRun, ih, append_assoc]
    rfl

theorem reverse_stackAfter_sublist (events : List GameEvent) :
    (stackAfter events).reverse <+ shopRequests events := by
  induction events using reverseRecOn with
  | nil => exact nil_sublist _
  | append_singleton events e ih =>
    rw [stackAfter_append_singleton, shopRequests, filterMap_append]
    have hkeep : (stackAfter events).reverse <+ events.filterMap shopRequest ++
        [e].filterMap shopRequest := ih.trans (sublist_append_left _ _)
    cases e
    case shopBuyRequest q =>
      rw [stackStep, reverse_cons]
      exact ih.append_right [q]
    case shopFlowResponse p =>
      exact (tail_sublist _).reverse.trans hkeep
    all_goals exact hkeep

/-! ### The code pairs like the stack -/

/-- The requests that no response has taken. -/
def free (slots : List (Slot ShopBuyRequest ResponseRef)) : List ShopBuyRequest :=
  slots.filterMap fun s => if s.2.isNone then some s.1 else none

theorem mem_free {slots : List (Slot ShopBuyRequest ResponseRef)} {q : ShopBuyRequest} :
    q ∈ free slots ↔ (q, none) ∈ slots := by
  simp only [free, mem_filterMap, Option.ite_none_right_eq_some, Option.isNone_iff_eq_none,
    Option.some.injEq]
  constructor
  · rintro ⟨⟨q', o⟩, hs, rfl, rfl⟩
    exact hs
  · intro h
    exact ⟨_, h, rfl, rfl⟩

@[simp] theorem free_append (l r : List (Slot ShopBuyRequest ResponseRef)) :
    free (l ++ r) = free l ++ free r := filterMap_append

@[simp] theorem free_cons_none (q : ShopBuyRequest) (slots : List (Slot ShopBuyRequest ResponseRef)) :
    free ((q, none) :: slots) = q :: free slots := rfl

@[simp] theorem free_cons_some (q : ShopBuyRequest) (ref : ResponseRef)
    (slots : List (Slot ShopBuyRequest ResponseRef)) :
    free ((q, some ref) :: slots) = free slots := rfl

@[simp] theorem free_waiting (requests : List ShopBuyRequest) : free (waiting requests) = requests := by
  simp [free, waiting, filterMap_map]

theorem Arrivals.tail {shop : String} {e : GameEvent} {events : List GameEvent}
    (h : Arrivals shop (e :: events)) : Arrivals shop events :=
  ⟨fun e' he' => h.kind e' (mem_cons_of_mem _ he'), h.ordered.of_cons⟩

/-- The free requests when the open ones are a stack: those still to come are all free. -/
structure Stacked (shop : String) (slots : List (Slot ShopBuyRequest ResponseRef))
    (stack : List ShopBuyRequest) (todo : List GameEvent) : Prop where
  free_eq : free slots = stack.reverse ++ shopRequests todo
  ordered : (free slots).Pairwise fun a b => a.timestamp < b.timestamp
  shop : ∀ q ∈ free slots, q.shopId = some shop
  earlier : ∀ q ∈ stack, ∀ e ∈ todo, q.timestamp < e.timestamp

section Refinement
variable {shop : String} {slots : List (Slot ShopBuyRequest ResponseRef)}
  {stack : List ShopBuyRequest} {todo : List GameEvent}

theorem Stacked.request {q : ShopBuyRequest} (h : Stacked shop slots stack (.shopBuyRequest q :: todo))
    (hall : Arrivals shop (.shopBuyRequest q :: todo)) : Stacked shop slots (q :: stack) todo := by
  refine ⟨?_, h.ordered, h.shop, fun r hr e he => ?_⟩
  · rw [h.free_eq, reverse_cons, append_assoc]
    rfl
  · rcases mem_cons.mp hr with rfl | hr
    · exact (pairwise_cons.mp hall.ordered).1 e he
    · exact h.earlier r hr e (mem_cons_of_mem _ he)

/-- A free request that the response may answer is on the stack. -/
theorem Stacked.mem_stack {p : ShopFlowResponse} {n : ℕ}
    (h : Stacked shop slots stack (.shopFlowResponse p :: todo))
    (hall : Arrivals shop (.shopFlowResponse p :: todo)) {q : ShopBuyRequest}
    (hq : (q, none) ∈ slots) (hfit : mayAnswer (p, n) q) : q ∈ stack := by
  have hmem : q ∈ stack.reverse ++ shopRequests todo := by
    rw [mem_free.symm, h.free_eq] at hq
    exact hq
  rcases mem_append.mp hmem with hin | hlater
  · exact mem_reverse.mp hin
  · obtain ⟨e, he, heq⟩ := mem_filterMap.mp hlater
    obtain rfl : e = .shopBuyRequest q := by
      cases e <;> cases heq
      rfl
    have hlt : p.timestamp < q.timestamp := (pairwise_cons.mp hall.ordered).1 _ he
    simp only [mayAnswer, Bool.and_eq_true, decide_eq_true_eq] at hfit
    exact absurd hfit.2 (not_le_of_gt hlt)

/-- A response may answer every request on the stack. -/
theorem Stacked.mayAnswer {p : ShopFlowResponse} {n : ℕ}
    (h : Stacked shop slots stack (.shopFlowResponse p :: todo))
    (hall : Arrivals shop (.shopFlowResponse p :: todo)) {q : ShopBuyRequest} (hq : q ∈ stack) :
    (q, none) ∈ slots ∧ Transactions.mayAnswer (p, n) q := by
  have hfree : q ∈ free slots := by
    rw [h.free_eq]
    exact mem_append_left _ (mem_reverse.mpr hq)
  have hp : p.shopId = some shop := by
    rcases hall.kind _ mem_cons_self with ⟨_, he, _⟩ | ⟨p', he, hp⟩
    · cases he
    · cases he
      exact hp
  have hle : q.timestamp ≤ p.timestamp := (h.earlier q hq _ mem_cons_self).le
  refine ⟨mem_free.1 hfree, ?_⟩
  simp [Transactions.mayAnswer, sameShop, h.shop q hfree, hp, hle]

/-- **A response takes what is on top of the stack.** -/
theorem Stacked.response {p : ShopFlowResponse} {n : ℕ}
    (h : Stacked shop slots stack (.shopFlowResponse p :: todo))
    (hall : Arrivals shop (.shopFlowResponse p :: todo)) :
    Stacked shop (serve (·.timestamp) Transactions.mayAnswer slots (p, n)) stack.tail todo ∧
      ∀ q p', (∃ k, (q, some (p', k)) ∈ serve (·.timestamp) Transactions.mayAnswer slots (p, n)) ↔
        (∃ k, (q, some (p', k)) ∈ slots) ∨ (q, p') ∈ taken stack (.shopFlowResponse p) := by
  rcases serve_cases (·.timestamp) Transactions.mayAnswer slots (p, n) with
    ⟨heq, hnone⟩ | ⟨l, a, r, hslots, heq, hfit, hmax⟩
  · -- the stack is empty
    have hempty : stack = [] := by
      refine eq_nil_iff_forall_not_mem.mpr fun q hq => ?_
      obtain ⟨hfree, hfit⟩ := h.mayAnswer (n := n) hall hq
      exact hnone q hfree hfit
    subst hempty
    rw [heq]
    refine ⟨⟨h.free_eq, h.ordered, h.shop, fun q hq => absurd hq not_mem_nil⟩, fun q p' => ?_⟩
    simp [taken]
  · have hstack : a ∈ stack := h.mem_stack hall (by rw [hslots]; simp) hfit
    cases stack with
    | nil => exact absurd hstack not_mem_nil
    | cons q stack =>
      have hfree : free slots = (q :: stack).reverse ++ shopRequests todo := h.free_eq
      have hordered := h.ordered
      rw [reverse_cons, append_assoc, singleton_append] at hfree
      -- the stack is in order, and the top is not after the one taken
      obtain rfl : a = q := by
        obtain ⟨hqfree, hqfit⟩ := h.mayAnswer (n := n) hall (mem_cons_self (a := q))
        have hle := hmax q hqfree hqfit
        rcases mem_cons.mp hstack with heq | hlow
        · exact heq
        · rw [hfree] at hordered
          have hlt := (pairwise_append.mp hordered).2.2 a (mem_reverse.mpr hlow) q mem_cons_self
          exact absurd hle (not_le_of_gt hlt)
      have hnd : (free slots).Nodup := hordered.imp fun hab heq => absurd (heq ▸ hab) (lt_irrefl _)
      have hsplit : free slots = free l ++ a :: free r := by rw [hslots, free_append, free_cons_none]
      obtain ⟨-, hcons, hdisj⟩ := nodup_append.mp (hsplit ▸ hnd)
      have hl : a ∉ free l := fun hmem => hdisj a hmem a mem_cons_self rfl
      obtain ⟨hbefore, -, hafter⟩ :=
        (append_cons_inj_of_notMem hl (nodup_cons.mp hcons).1).1 (hsplit.symm.trans hfree)
      have hnew : free (serve (·.timestamp) Transactions.mayAnswer slots (p, n)) =
          stack.reverse ++ shopRequests todo := by
        rw [heq, free_append, free_cons_some, hbefore, hafter]
      have hsub : stack.reverse ++ shopRequests todo <+ free slots := by
        rw [hfree]
        exact (sublist_cons_self a _).append_left _
      refine ⟨⟨hnew, ?_, ?_, ?_⟩, fun q p' => ?_⟩
      · rw [hnew]
        exact hordered.sublist hsub
      · intro q hq
        rw [hnew] at hq
        exact h.shop q (hsub.subset hq)
      · exact fun q hq e he => h.earlier q (mem_cons_of_mem _ hq) e (mem_cons_of_mem _ he)
      · rw [heq, hslots]
        simp only [taken, mem_append, mem_cons, Prod.mk.injEq, Option.some.injEq, reduceCtorEq,
          and_false, false_or, head?_cons, Option.toList_some, map_cons, map_nil, not_mem_nil,
          or_false]
        constructor
        · rintro ⟨k, hin | ⟨rfl, rfl, -⟩ | hin⟩
          · exact Or.inl ⟨k, Or.inl hin⟩
          · exact Or.inr ⟨rfl, rfl⟩
          · exact Or.inl ⟨k, Or.inr hin⟩
        · rintro (⟨k, hin | hin⟩ | ⟨rfl, rfl⟩)
          · exact ⟨k, Or.inl hin⟩
          · exact ⟨k, Or.inr (Or.inr hin)⟩
          · exact ⟨n, Or.inr (Or.inl ⟨rfl, rfl, rfl⟩)⟩

/-- **Through all events, the code pairs like the stack.** -/
theorem Stacked.run : ∀ {todo : List GameEvent} {slots : List (Slot ShopBuyRequest ResponseRef)}
    {stack : List ShopBuyRequest} {n : ℕ}, Stacked shop slots stack todo → Arrivals shop todo →
    ∀ q p, (∃ k, (q, some (p, k)) ∈
        serveAll (·.timestamp) Transactions.mayAnswer slots ((shopResponses todo).zipIdx n)) ↔
      (∃ k, (q, some (p, k)) ∈ slots) ∨ (q, p) ∈ stackRun stack todo
  | [], slots, stack, n, _, _, q, p => by simp [shopResponses, stackRun]
  | e :: todo, slots, stack, n, h, hall, q, p => by
    rcases hall.kind e mem_cons_self with ⟨r, rfl, -⟩ | ⟨r, rfl, -⟩
    · exact (h.request hall).run hall.tail q p
    · obtain ⟨hnext, hpairs⟩ := h.response (n := n) hall
      have ih := @Stacked.run todo _ stack.tail (n + 1) hnext hall.tail q p
      rw [hpairs q p, or_assoc] at ih
      rw [stackRun, mem_append]
      exact ih

/-- **The pairs of the code are those of the stack.** -/
theorem mem_pairedResp_iff {events : List GameEvent} (h : Arrivals shop events) (q : ShopBuyRequest)
    (p : ShopFlowResponse) :
    (∃ k, (q, some (p, k)) ∈ pairedResp events) ↔ (q, p) ∈ stackRun [] events := by
  have hstart : Stacked shop (waiting (shopRequests events)) [] events := by
    refine ⟨by simp, ?_, fun q hq => ?_, fun q hq => absurd hq not_mem_nil⟩
    · rw [free_waiting, ← pairwise_map (R := (· < ·))]
      exact (pairwise_map.mpr h.ordered).sublist (requests_sublist events)
    · rw [free_waiting] at hq
      obtain ⟨e, he, heq⟩ := mem_filterMap.mp hq
      rcases h.kind e he with ⟨r, rfl, hr⟩ | ⟨r, rfl, -⟩
      · cases heq
        exact hr
      · cases heq
  have hrun := hstart.run (n := 0) h q p
  rw [pairedResp, hrun]
  simp [waiting]

end Refinement

/-! ### Responses in a row -/

section Order
variable {shop : String} {events : List GameEvent}

/-- Where no response directly follows another while a request is open, a response that takes a request
directly follows it. -/
theorem exists_adjacent (h : Arrivals shop events) (hrow : NoResponseInRow events) :
    ∀ {done todo : List GameEvent}, events = done ++ todo → ∀ {q : ShopBuyRequest}
    {p : ShopFlowResponse}, (q, p) ∈ stackRun (stackAfter done) todo →
    ∃ pre post, events = pre ++ .shopBuyRequest q :: .shopFlowResponse p :: post
  | _, [], _, _, _, hmem => by simp [stackRun] at hmem
  | done, e :: todo, hsplit, q, p, hmem => by
    rw [stackRun, mem_append, ← stackAfter_append_singleton] at hmem
    rcases hmem with htaken | hlater
    · -- the stack is not empty, so something came before, and it was no response
      obtain ⟨p', rfl⟩ : ∃ p', e = .shopFlowResponse p' := by
        cases e
        case shopFlowResponse p' => exact ⟨p', rfl⟩
        all_goals simp [taken] at htaken
      obtain ⟨htop, rfl⟩ : (stackAfter done).head? = some q ∧ p' = p := by
        simpa [taken] using htaken
      obtain ⟨pre, last, rfl⟩ : ∃ pre last, done = pre ++ [last] := by
        rcases eq_nil_or_concat done with rfl | hlast
        · simp [stackAfter] at htop
        · simpa using hlast
      have hlast : last ∈ events := by
        rw [hsplit]
        simp
      rcases h.kind last hlast with ⟨r, rfl, -⟩ | ⟨r, rfl, -⟩
      · rw [stackAfter_append_singleton, stackStep, head?_cons, Option.some.injEq] at htop
        exact ⟨pre, todo, by rw [hsplit, htop]; simp⟩
      · have hzero := hrow pre r p' todo (by rw [hsplit]; simp)
        rw [← length_stackAfter, length_eq_zero_iff] at hzero
        rw [hzero] at htop
        cases htop
    · exact exists_adjacent h hrow (by rw [hsplit]; simp) hlater

/-- Of two pairs of neighbours, the one with the earlier request has the earlier response. -/
theorem inArrivalOrder_of_noResponseInRow (h : Arrivals shop events) (hrow : NoResponseInRow events) :
    InArrivalOrder events := by
  intro q₁ p₁ k₁ q₂ p₂ k₂ h₁ h₂ hlt
  have hrun₁ := (mem_pairedResp_iff h q₁ p₁).1 ⟨k₁, h₁⟩
  have hrun₂ := (mem_pairedResp_iff h q₂ p₂).1 ⟨k₂, h₂⟩
  obtain ⟨pre₁, post₁, hsplit₁⟩ := @exists_adjacent shop events h hrow [] events rfl q₁ p₁ hrun₁
  obtain ⟨pre₂, post₂, hsplit₂⟩ := @exists_adjacent shop events h hrow [] events rfl q₂ p₂ hrun₂
  have hordered₁ := h.ordered
  have hordered₂ := h.ordered
  rw [hsplit₁] at hordered₁
  rw [hsplit₂] at hordered₂
  -- the second request comes after the first response
  have hq₂ : GameEvent.shopBuyRequest q₂ ∈
      pre₁ ++ .shopBuyRequest q₁ :: .shopFlowResponse p₁ :: post₁ := by
    rw [← hsplit₁, hsplit₂]
    simp
  have hpq : p₁.timestamp < q₂.timestamp := by
    obtain ⟨-, hrest, hbefore⟩ := pairwise_append.mp hordered₁
    rcases mem_append.mp hq₂ with hin | hin
    · have := hbefore _ hin _ mem_cons_self
      exact absurd hlt (not_lt_of_gt this)
    · rcases mem_cons.mp hin with heq | hin
      · cases heq
        exact absurd hlt (lt_irrefl _)
      · rcases mem_cons.mp hin with heq | hin
        · cases heq
        · exact (pairwise_cons.mp (pairwise_cons.mp hrest).2).1 _ hin
  obtain ⟨-, hrest, -⟩ := pairwise_append.mp hordered₂
  exact hpq.trans ((pairwise_cons.mp hrest).1 _ mem_cons_self)

/-- Two responses in a row, with two requests open, are given to them the wrong way round. -/
theorem noResponseInRow_of_inArrivalOrder (h : Arrivals shop events) (horder : InArrivalOrder events) :
    NoResponseInRow events := by
  intro pre p p' post hsplit
  by_contra hopen
  have hlen := length_stackAfter (pre ++ [.shopFlowResponse p])
  rw [stackAfter_append_singleton, stackStep] at hlen
  obtain ⟨q₂, q₁, stack, hstack⟩ : ∃ q₂ q₁ stack, stackAfter pre = q₂ :: q₁ :: stack := by
    cases hs : stackAfter pre with
    | nil =>
      rw [hs] at hlen
      exact absurd hlen.symm hopen
    | cons q₂ rest =>
      cases rest with
      | nil =>
        rw [hs] at hlen
        exact absurd hlen.symm hopen
      | cons q₁ stack => exact ⟨q₂, q₁, stack, rfl⟩
  have hrun : stackRun [] events = stackRun [] pre ++ stackRun (q₂ :: q₁ :: stack)
      (.shopFlowResponse p :: .shopFlowResponse p' :: post) := by
    rw [hsplit, stackRun_append, ← hstack]
    rfl
  have h₂ : (q₂, p) ∈ stackRun [] events := by
    rw [hrun]
    simp [stackRun, taken]
  have h₁ : (q₁, p') ∈ stackRun [] events := by
    rw [hrun]
    simp [stackRun, taken, stackStep]
  obtain ⟨k₂, hpair₂⟩ := (mem_pairedResp_iff h q₂ p).2 h₂
  obtain ⟨k₁, hpair₁⟩ := (mem_pairedResp_iff h q₁ p').2 h₁
  have hordered := h.ordered
  have hlt : q₁.timestamp < q₂.timestamp := by
    have hsub : (q₂ :: q₁ :: stack).reverse.map (·.timestamp) <+ events.map (·.timestamp) := by
      refine Sublist.trans ?_ (requests_sublist events)
      rw [← hstack, hsplit, shopRequests, filterMap_append]
      exact ((reverse_stackAfter_sublist pre).trans (sublist_append_left _ _)).map _
    have hpw := (pairwise_map.mpr hordered).sublist hsub
    rw [reverse_cons, reverse_cons, append_assoc, map_append, pairwise_append] at hpw
    simpa using hpw.2.1
  have hgt : p.timestamp < p'.timestamp := by
    rw [hsplit] at hordered
    exact (pairwise_cons.mp (pairwise_append.mp hordered).2.1).1 _ mem_cons_self
  exact absurd (horder q₁ p' k₁ q₂ p k₂ hpair₁ hpair₂ hlt) (not_lt_of_gt hgt)

/-- **The earlier request gets the earlier response exactly if no response directly follows another
while a request is open.** -/
theorem inArrivalOrder_iff (h : Arrivals shop events) :
    InArrivalOrder events ↔ NoResponseInRow events :=
  ⟨noResponseInRow_of_inArrivalOrder h, inArrivalOrder_of_noResponseInRow h⟩

/-- The request at a time, to the one shop. -/
def requestAt (t : String) : ShopBuyRequest := ⟨t, some "kiosk", none, none, "request"⟩

/-- The response at a time, from the one shop. -/
def responseAt (t : String) : ShopFlowResponse := ⟨t, some "kiosk", some true, "response"⟩

/-- Two requests answered one after the other: each response directly follows its request. -/
theorem inArrivalOrder_alternating : InArrivalOrder [.shopBuyRequest (requestAt "1"),
    .shopFlowResponse (responseAt "2"), .shopBuyRequest (requestAt "3"),
    .shopFlowResponse (responseAt "4")] := by
  have h : Arrivals "kiosk" [.shopBuyRequest (requestAt "1"), .shopFlowResponse (responseAt "2"),
      .shopBuyRequest (requestAt "3"), .shopFlowResponse (responseAt "4")] := by
    refine ⟨fun e he => ?_, by decide⟩
    simp only [mem_cons, not_mem_nil, or_false] at he
    rcases he with rfl | rfl | rfl | rfl
    · exact Or.inl ⟨_, rfl, rfl⟩
    · exact Or.inr ⟨_, rfl, rfl⟩
    · exact Or.inl ⟨_, rfl, rfl⟩
    · exact Or.inr ⟨_, rfl, rfl⟩
  refine (inArrivalOrder_iff h).2 fun pre p p' post hsplit => ?_
  rcases pre with _ | ⟨a, _ | ⟨b, _ | ⟨c, _ | ⟨d, pre⟩⟩⟩⟩ <;> simp at hsplit

/-- Two requests, then two responses: the first response goes to the second request. -/
theorem arrivals_not_inArrivalOrder :
    Arrivals "kiosk" [.shopBuyRequest (requestAt "1"), .shopBuyRequest (requestAt "2"),
      .shopFlowResponse (responseAt "3"), .shopFlowResponse (responseAt "4")] ∧
    ¬ InArrivalOrder [.shopBuyRequest (requestAt "1"), .shopBuyRequest (requestAt "2"),
      .shopFlowResponse (responseAt "3"), .shopFlowResponse (responseAt "4")] := by
  refine ⟨⟨fun e he => ?_, by decide⟩, fun h => ?_⟩
  · simp only [mem_cons, not_mem_nil, or_false] at he
    rcases he with rfl | rfl | rfl | rfl
    · exact Or.inl ⟨_, rfl, rfl⟩
    · exact Or.inl ⟨_, rfl, rfl⟩
    · exact Or.inr ⟨_, rfl, rfl⟩
    · exact Or.inr ⟨_, rfl, rfl⟩
  · have hlt := h (requestAt "1") (responseAt "4") 1 (requestAt "2") (responseAt "3") 0
      (by decide +kernel) (by decide +kernel) (by decide)
    revert hlt
    decide

end Order

end StarStats.Core.OpenRequests
