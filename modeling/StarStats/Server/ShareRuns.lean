import StarStats.Lib.Runs
import StarStats.Server.Sharing

/-! # Histories of grants, revocations and reads

Requests come one after the other, each with a token of some account. All but a grant only take
relations and metadata away (`shrinks_serve`); a grant adds one relation and writes one row. -/

namespace StarStats.Server.Sharing

open StarStats.Lib.Text StarStats.Lib.Tables StarStats.Lib.Runs
open StarStats.Server.Auth StarStats.Server.Accounts StarStats.Server.Queries

/-- The requests on shares. -/
inductive Request where
  | add (auth : AuthenticatedUser) (req : ShareRequest)
  | delete (auth : AuthenticatedUser) (recipientHandle : String)
  | summary (auth : AuthenticatedUser) (handle : String)
  | timeline (auth : AuthenticatedUser) (handle : String) (days : Option ℕ)

/-- The token of a request. -/
def Request.auth : Request → AuthenticatedUser
  | .add auth _ | .delete auth _ | .summary auth _ | .timeline auth _ _ => auth

def serve (st : Stores) (env : Env) : Request → Stores × Reply
  | .add auth req => addShare st env auth req
  | .delete auth recipientHandle => deleteShare st env auth recipientHandle
  | .summary auth handle => friendSummary st env auth handle
  | .timeline auth handle days => friendTimeline st env auth handle days

def step (st : Stores) (a : Env × Request) : Stores := (serve st a.1 a.2).1

def run (st : Stores) (as : List (Env × Request)) : Stores := as.foldl step st

/-- Before anything was shared. -/
def fresh (users : Users) (events : List EventRow) : Stores := ⟨users, ∅, Table.empty, events⟩

/-! ### What a request changes -/

/-- Relations and rows of metadata may have gone; nothing else has changed. -/
structure Shrinks (st st' : Stores) : Prop where
  users : st'.users = st.users
  events : st'.events = st.events
  relations : st'.relations ⊆ st.relations
  metadata : ∀ owner viewer, findMeta st'.metadata owner viewer = findMeta st.metadata owner viewer ∨
    findMeta st'.metadata owner viewer = none

theorem Shrinks.refl (st : Stores) : Shrinks st st :=
  ⟨rfl, rfl, Finset.Subset.refl _, fun _ _ => Or.inl rfl⟩

theorem findMeta_deleteMeta_or (t : Table ShareMeta.key) (owner recipient owner' recipient' : String) :
    findMeta (deleteMeta t owner' recipient') owner recipient = findMeta t owner recipient ∨
      findMeta (deleteMeta t owner' recipient') owner recipient = none := by
  rw [findMeta_deleteMeta]
  split_ifs
  · exact Or.inr rfl
  · exact Or.inl rfl

theorem shrinks_deleteShare (st : Stores) (env : Env) (auth : AuthenticatedUser) (text : String) :
    Shrinks st (deleteShare st env auth text).1 := by
  unfold deleteShare
  split_ifs
  · exact Shrinks.refl st
  · exact Shrinks.refl st
  · exact Shrinks.refl st
  · exact ⟨rfl, rfl, Finset.erase_subset _ _, fun _ _ => Or.inl rfl⟩
  · exact ⟨rfl, rfl, Finset.erase_subset _ _, fun _ _ => findMeta_deleteMeta_or ..⟩

theorem shrinks_lazyRevoke (st : Stores) (env : Env) (owner viewer : String) :
    Shrinks st (lazyRevoke st env owner viewer) := by
  unfold lazyRevoke
  refine ⟨rfl, rfl, ?_, fun o v => ?_⟩
  · change (if env.fails .deleteShare then st.relations else st.relations.erase (owner, viewer)) ⊆
      st.relations
    split_ifs
    · exact Finset.Subset.refl _
    · exact Finset.erase_subset _ _
  · change findMeta (if env.fails .deleteMeta then _ else _) o v = _ ∨
      findMeta (if env.fails .deleteMeta then _ else _) o v = none
    split_ifs
    · exact Or.inl rfl
    · exact findMeta_deleteMeta_or ..

theorem shrinks_checkViewWithExpiry (st : Stores) (env : Env) (owner viewer : String) :
    Shrinks st (checkViewWithExpiry st env owner viewer).1 := by
  unfold checkViewWithExpiry
  split
  · exact Shrinks.refl st
  · exact Shrinks.refl st
  · split_ifs
    · exact Shrinks.refl st
    · split
      · exact Shrinks.refl st
      · split_ifs
        · exact Shrinks.refl st
        · exact shrinks_lazyRevoke st env owner viewer

theorem friendRead_fst (st : Stores) (env : Env) (auth : AuthenticatedUser) (handle : String)
    (allows : ShareScope → Bool) (render : Stores → Option ShareScope → Reply) :
    (friendRead st env auth handle allows render).1 =
      if env.spicedb then (checkViewWithExpiry st env handle auth.preferredUsername).1 else st := by
  unfold friendRead
  cases env.spicedb with
  | false => rfl
  | true =>
    simp only [Bool.not_true, Bool.false_eq_true, if_false, if_true]
    split_ifs <;> rfl

theorem shrinks_friendRead (st : Stores) (env : Env) (auth : AuthenticatedUser) (handle : String)
    (allows : ShareScope → Bool) (render : Stores → Option ShareScope → Reply) :
    Shrinks st (friendRead st env auth handle allows render).1 := by
  rw [friendRead_fst]
  split_ifs
  · exact shrinks_checkViewWithExpiry st env handle auth.preferredUsername
  · exact Shrinks.refl st

/-- **A request that grants nothing only takes away.** -/
theorem serve_cases (st : Stores) (env : Env) (r : Request) :
    (∃ auth req u, r = .add auth req ∧ grantee st env auth req = .ok u) ∨
      Shrinks st (serve st env r).1 := by
  cases r with
  | add auth req =>
    rcases addShare_cases st env auth req with ⟨reply, heq, -⟩ | ⟨u, hu, -⟩
    · right
      change Shrinks st (addShare st env auth req).1
      rw [heq]
      exact Shrinks.refl st
    · exact Or.inl ⟨auth, req, u, rfl, hu⟩
  | delete auth text => exact Or.inr (shrinks_deleteShare st env auth text)
  | summary auth handle =>
    right
    change Shrinks st (friendSummary st env auth handle).1
    unfold friendSummary
    split_ifs
    · exact Shrinks.refl st
    · exact shrinks_friendRead ..
  | timeline auth handle days =>
    right
    change Shrinks st (friendTimeline st env auth handle days).1
    unfold friendTimeline
    split_ifs
    · exact Shrinks.refl st
    · split
      · exact Shrinks.refl st
      · exact shrinks_friendRead ..

theorem serve_add {st : Stores} {env : Env} {auth : AuthenticatedUser} {req : ShareRequest} {u : User}
    (h : grantee st env auth req = .ok u) : serve st env (.add auth req) =
      (writeGrant st env auth.preferredUsername u.claimedHandle req, .granted u.claimedHandle) := by
  change addShare st env auth req = _
  unfold addShare
  rw [h]

/-! ### Accounts and relations -/

/-- The handle is that of an account, letter by letter. -/
def IsAccount (users : Users) (handle : String) : Prop :=
  ∃ u ∈ users.contents, u.claimedHandle = handle

theorem IsAccount.eq {users : Users} {handle handle' : String} (h : IsAccount users handle)
    (h' : IsAccount users handle') (heq : lower handle = lower handle') : handle = handle' := by
  obtain ⟨u, hu, rfl⟩ := h
  obtain ⟨v, hv, rfl⟩ := h'
  rw [eq_of_lower_eq hu hv heq]

/-- The token of a request is one of an account. -/
def FromAccount (users : Users) (a : Env × Request) : Prop :=
  IsAccount users a.2.auth.preferredUsername

/-- Every relation is one between accounts. -/
structure Known (users : Users) (st : Stores) : Prop where
  eq : st.users = users
  relations : ∀ o v, (o, v) ∈ st.relations → IsAccount users o ∧ IsAccount users v

theorem known_fresh (users : Users) (events : List EventRow) : Known users (fresh users events) :=
  ⟨rfl, fun _ _ h => absurd h (Finset.notMem_empty _)⟩

theorem Known.shrinks {users : Users} {st st' : Stores} (h : Known users st) (hs : Shrinks st st') :
    Known users st' :=
  ⟨hs.users.trans h.eq, fun o v hov => h.relations o v (hs.relations hov)⟩

theorem Known.step {users : Users} {st : Stores} {a : Env × Request} (h : Known users st)
    (ha : FromAccount users a) : Known users (step st a) := by
  obtain ⟨env, r⟩ := a
  rcases serve_cases st env r with ⟨auth, req, u, rfl, hu⟩ | hs
  · have hst : Sharing.step st (env, .add auth req) =
        writeGrant st env auth.preferredUsername u.claimedHandle req := by
      change (serve st env (.add auth req)).1 = _
      rw [serve_add hu]
    rw [hst]
    refine ⟨h.eq, fun o v hov => ?_⟩
    rcases Finset.mem_insert.mp hov with heq | hov
    · obtain ⟨rfl, rfl⟩ := Prod.mk.inj heq
      exact ⟨ha, u, h.eq ▸ (grantee_eq_ok hu).1, rfl⟩
    · exact h.relations o v hov
  · exact h.shrinks hs

theorem Known.run {users : Users} {st : Stores} (h : Known users st) {as : List (Env × Request)}
    (ha : ∀ a ∈ as, FromAccount users a) : Known users (run st as) := by
  refine @invariant_run_of _ _ Sharing.step st (Known users) (fun _ a => FromAccount users a) h
    (fun _ _ hk hf => hk.step hf) as fun n a hn => ?_
  exact ha a (List.mem_of_getElem? hn)

/-! ### Grants and reads -/

/-- The owner grants the viewer a share. -/
def Grants (st : Stores) (a : Env × Request) (owner viewer : String) : Prop :=
  ∃ auth req, a.2 = .add auth req ∧ auth.preferredUsername = owner ∧
    (serve st a.1 a.2).2 = .granted viewer

/-- No request grants the viewer a share. -/
def NoGrant (st : Stores) (as : List (Env × Request)) (owner viewer : String) : Prop :=
  ∀ n a, as[n]? = some a → ¬ Grants (run st (as.take n)) a owner viewer

/-- The viewer reads the record of the owner. -/
def Reads (r : Request) (owner viewer : String) : Prop :=
  match r with
  | .summary auth handle => auth.preferredUsername = viewer ∧ lower handle = lower owner
  | .timeline auth handle days => auth.preferredUsername = viewer ∧ lower handle = lower owner ∧
      resolveTimelineDays days ≠ none
  | _ => False

/-- The permission service answers, and nothing but shares gives access. -/
structure SharesDecide (env : Env) : Prop where
  spicedb : env.spicedb = true
  checks : env.fails .checkPermission = false
  otherAccess : env.otherAccess = false

theorem checkViewWithExpiry_of_not_mem {st : Stores} {env : Env} {owner viewer : String}
    (henv : SharesDecide env) (h : (owner, viewer) ∉ st.relations) :
    checkViewWithExpiry st env owner viewer = (st, some false) := by
  have hview : checkView st env owner viewer = some false := by
    simp [checkView, henv.checks, henv.otherAccess, h]
  unfold checkViewWithExpiry
  rw [hview]

theorem friendRead_of_not_mem {st : Stores} {env : Env} {auth : AuthenticatedUser} {handle : String}
    (allows : ShareScope → Bool) (render : Stores → Option ShareScope → Reply)
    (henv : SharesDecide env) (h : (handle, auth.preferredUsername) ∉ st.relations) :
    friendRead st env auth handle allows render = (st, .notFound) := by
  unfold friendRead
  rw [checkViewWithExpiry_of_not_mem henv h, henv.spicedb]
  simp only [Bool.not_true, Bool.false_eq_true, if_false, renderOr404, ite_self]

end StarStats.Server.Sharing
