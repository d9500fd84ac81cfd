import StarStats.Server.Revocation

/-! # Expiry

The time at which a share ends stands in its metadata, and a read asks for it. A share whose metadata
is missing, or cannot be read, counts as one without end: a failed upsert, a failed lookup, or a row that
went while its relation stayed, and it serves on (`not_neverServed`). Without these it does not
(`neverServedWhileKept`). -/

namespace StarStats.Server.Sharing

open StarStats.Lib.Text StarStats.Lib.Tables StarStats.Lib.Runs
open StarStats.Server.Auth StarStats.Server.Accounts StarStats.Server.Queries

/-- A request that takes the metadata of a share away and leaves its relation. -/
def Separates (st : Stores) (a : Env × Request) (owner viewer : String) : Prop :=
  (owner, viewer) ∈ (step st a).relations ∧ findMeta (step st a).metadata owner viewer = none ∧
    findMeta st.metadata owner viewer ≠ none

/-- A history in which the owner grants the viewer a share until an instant, and after that grants them
none; then the viewer reads the owner's record after that instant, with nothing but shares to give
access. -/
structure ExpiredRead (users : Users) (events : List EventRow) (owner viewer : String) where
  before : List (Env × Request)
  grantEnv : Env
  auth : AuthenticatedUser
  req : ShareRequest
  later : List (Env × Request)
  readEnv : Env
  read : Request
  expiresAt : ℤ
  fromAccounts : ∀ a ∈ before ++ later, FromAccount users a
  ofOwner : auth.preferredUsername = owner
  account : IsAccount users owner
  granted : (addShare (run (fresh users events) before) grantEnv auth req).2 = .granted viewer
  expires : req.expiresAt = some expiresAt
  latest : NoGrant (addShare (run (fresh users events) before) grantEnv auth req).1 later owner viewer
  reads : Reads read owner viewer
  otherAccess : readEnv.otherAccess = false
  late : expiresAt < readEnv.now

namespace ExpiredRead
variable {users : Users} {events : List EventRow} {owner viewer : String}

/-- After the grant. -/
def start (h : ExpiredRead users events owner viewer) : Stores :=
  (addShare (run (fresh users events) h.before) h.grantEnv h.auth h.req).1

/-- The answer to the read. -/
def reply (h : ExpiredRead users events owner viewer) : Reply :=
  (serve (run h.start h.later) h.readEnv h.read).2

end ExpiredRead

/-- **An expired share never serves again.** -/
def NeverServed (users : Users) (events : List EventRow) (owner viewer : String) : Prop :=
  ∀ h : ExpiredRead users events owner viewer, h.reply.status ≠ 200

/-- While the relation is there, so is the row that says when it ends. -/
def Dated (st : Stores) (owner viewer : String) (expiresAt : ℤ) : Prop :=
  (owner, viewer) ∈ st.relations →
    ∃ m, findMeta st.metadata owner viewer = some m ∧ m.expiresAt = some expiresAt

theorem dated_writeGrant {st : Stores} {env : Env} {owner viewer : String} {req : ShareRequest} {t : ℤ}
    (hupsert : env.fails .upsert = false) (ht : req.expiresAt = some t) :
    Dated (writeGrant st env owner viewer req) owner viewer t := by
  intro _
  have hmeta : (writeGrant st env owner viewer req).metadata =
      upsertMeta st.metadata (grantMeta owner viewer req) := by
    simp [writeGrant, hupsert]
  have hkey : (grantMeta owner viewer req).key = (lower owner, lower viewer) := rfl
  obtain ⟨m, hm, hexp, -⟩ := @findMeta_upsertMeta_self st.metadata _ _ _ hkey
  exact ⟨m, by rw [hmeta, hm], hexp.trans ht⟩

theorem Dated.step {users : Users} {st : Stores} {a : Env × Request} {owner viewer : String} {t : ℤ}
    (h : Dated st owner viewer t) (hknown : Known users st) (howner : IsAccount users owner)
    (hviewer : IsAccount users viewer) (ha : FromAccount users a)
    (hno : ¬ Grants st a owner viewer) (hkept : ¬ Separates st a owner viewer) :
    Dated (step st a) owner viewer t := by
  intro hmem
  obtain ⟨env, r⟩ := a
  rcases serve_cases st env r with ⟨auth, req, u, rfl, hu⟩ | hs
  · have hst : Sharing.step st (env, .add auth req) =
        writeGrant st env auth.preferredUsername u.claimedHandle req := by
      change (serve st env (.add auth req)).1 = _
      rw [serve_add hu]
    have hne : (auth.preferredUsername, u.claimedHandle) ≠ (owner, viewer) := by
      intro heq
      obtain ⟨rfl, rfl⟩ := Prod.mk.inj heq
      exact hno ⟨auth, req, rfl, rfl, by rw [serve_add hu]⟩
    have hkey : (grantMeta auth.preferredUsername u.claimedHandle req).key ≠
        (lower owner, lower viewer) := by
      intro heq
      obtain ⟨ho, hv⟩ := Prod.mk.inj heq
      have hu' : IsAccount users u.claimedHandle := ⟨u, hknown.eq ▸ (grantee_eq_ok hu).1, rfl⟩
      exact hne (Prod.ext (IsAccount.eq ha howner ho) (hu'.eq hviewer hv))
    rw [hst] at hmem ⊢
    obtain ⟨m, hm, ht⟩ := h ((Finset.mem_insert.mp hmem).resolve_left (Ne.symm hne))
    refine ⟨m, ?_, ht⟩
    unfold writeGrant
    split_ifs
    · exact hm
    · rwa [findMeta_upsertMeta_of_ne hkey]
  · obtain ⟨m, hm, ht⟩ := h (hs.relations hmem)
    rcases hs.metadata owner viewer with heq | hnone
    · exact ⟨m, heq.trans hm, ht⟩
    · exact absurd ⟨hmem, hnone, by simp [hm]⟩ hkept

/-- What a read that is answered has passed. -/
theorem of_checkViewWithExpiry {st : Stores} {env : Env} {owner viewer : String}
    (h : (checkViewWithExpiry st env owner viewer).2 = some true) :
    ((owner, viewer) ∈ st.relations ∨ env.otherAccess = true) ∧ (env.fails .findExpiry = true ∨
      ∀ t ∈ (findMeta st.metadata owner viewer).bind (·.expiresAt), env.now < t) := by
  unfold checkViewWithExpiry at h
  cases hview : checkView st env owner viewer with
  | none => simp [hview] at h
  | some allowed =>
    have hallowed : allowed = ((owner, viewer) ∈ st.relations || env.otherAccess) := by
      unfold checkView at hview
      split_ifs at hview
      exact (Option.some.inj hview).symm
    cases allowed with
    | false => simp [hview] at h
    | true =>
      refine ⟨by simpa using hallowed.symm, ?_⟩
      simp only [hview] at h
      by_cases hfind : env.fails .findExpiry = true
      · exact Or.inl hfind
      · right
        intro t ht
        rw [if_neg hfind, Option.mem_def.mp ht] at h
        by_contra hlate
        simp [hlate] at h

theorem of_friendRead {st : Stores} {env : Env} {auth : AuthenticatedUser} {handle : String}
    {allows : ShareScope → Bool} {render : Stores → Option ShareScope → Reply}
    (h : (friendRead st env auth handle allows render).2.status = 200) :
    (checkViewWithExpiry st env handle auth.preferredUsername).2 = some true := by
  unfold friendRead at h
  cases hspice : env.spicedb with
  | false => simp [hspice, err, Reply.status] at h
  | true =>
    simp only [hspice, Bool.not_true, Bool.false_eq_true, if_false] at h
    split_ifs at h with hscope
    · simp [Reply.status] at h
    · cases hcheck : (checkViewWithExpiry st env handle auth.preferredUsername).2 with
      | none => simp [hcheck, renderOr404, err, Reply.status] at h
      | some allowed =>
        cases allowed with
        | false => simp [hcheck, renderOr404, Reply.status] at h
        | true => rfl

theorem of_read {st : Stores} {env : Env} {r : Request} {owner viewer : String}
    (hread : Reads r owner viewer) (h : (serve st env r).2.status = 200) :
    ∃ handle, lower handle = lower owner ∧
      (checkViewWithExpiry st env handle viewer).2 = some true := by
  cases r with
  | add auth req => exact hread.elim
  | delete auth text => exact hread.elim
  | summary auth handle =>
    obtain ⟨rfl, heq⟩ := hread
    refine ⟨handle, heq, ?_⟩
    change (friendSummary st env auth handle).2.status = 200 at h
    unfold friendSummary at h
    split_ifs at h
    · cases h
    · exact of_friendRead h
  | timeline auth handle days =>
    obtain ⟨rfl, heq, hdays⟩ := hread
    refine ⟨handle, heq, ?_⟩
    obtain ⟨d, hd⟩ := Option.ne_none_iff_exists'.mp hdays
    change (friendTimeline st env auth handle days).2.status = 200 at h
    unfold friendTimeline at h
    split_ifs at h
    · cases h
    · simp only [hd] at h
      exact of_friendRead h

theorem of_granted {st : Stores} {env : Env} {auth : AuthenticatedUser} {req : ShareRequest}
    {viewer : String} (h : (addShare st env auth req).2 = .granted viewer) :
    (∃ u ∈ st.users.contents, u.claimedHandle = viewer) ∧
      addShare st env auth req = (writeGrant st env auth.preferredUsername viewer req, .granted viewer) := by
  rcases addShare_cases st env auth req with ⟨reply, heq, hne⟩ | ⟨u, hu, heq⟩
  · rw [heq] at h
    obtain rfl : reply = .granted viewer := h
    exact absurd rfl hne
  · rw [heq] at h
    obtain rfl := Reply.granted.inj h
    exact ⟨⟨u, (grantee_eq_ok hu).1, rfl⟩, heq⟩

/-- From the grant on, the share has its date. -/
theorem ExpiredRead.dated {users : Users} {events : List EventRow} {owner viewer : String}
    (h : ExpiredRead users events owner viewer) (hupsert : h.grantEnv.fails .upsert = false)
    (hkept : ∀ n a, h.later[n]? = some a → ¬ Separates (run h.start (h.later.take n)) a owner viewer) :
    Known users (run h.start h.later) ∧ Dated (run h.start h.later) owner viewer h.expiresAt := by
  have hbefore : Known users (run (fresh users events) h.before) :=
    (known_fresh users events).run fun a ha => h.fromAccounts a (List.mem_append_left _ ha)
  obtain ⟨⟨u, hu, hview⟩, hgrant⟩ := of_granted h.granted
  have hviewer : IsAccount users viewer := ⟨u, hbefore.eq ▸ hu, hview⟩
  have hstart : h.start =
      writeGrant (run (fresh users events) h.before) h.grantEnv owner viewer h.req := by
    have hfst := congrArg Prod.fst hgrant
    rwa [h.ofOwner] at hfst
  have hknown : Known users h.start := by
    refine Known.step (a := (h.grantEnv, .add h.auth h.req)) hbefore ?_
    change IsAccount users h.auth.preferredUsername
    rw [h.ofOwner]
    exact h.account
  have hdated : Dated h.start owner viewer h.expiresAt :=
    hstart ▸ dated_writeGrant hupsert h.expires
  refine @invariant_run_of _ _ Sharing.step h.start
    (fun st => Known users st ∧ Dated st owner viewer h.expiresAt)
    (fun st a => FromAccount users a ∧ ¬ Grants st a owner viewer ∧ ¬ Separates st a owner viewer)
    ⟨hknown, hdated⟩ (fun st a hinv hc => ?_) h.later fun n a hn => ?_
  · obtain ⟨hfrom, hno, hsep⟩ := hc
    exact ⟨hinv.1.step hfrom, hinv.2.step hinv.1 h.account hviewer hfrom hno hsep⟩
  · exact ⟨h.fromAccounts a (List.mem_append_right _ (List.mem_of_getElem? hn)), h.latest n a hn,
      hkept n a hn⟩

/-- **An expired share is not served**, when the row of its grant was written and looked up, and no
request took it away and left the relation. -/
theorem neverServedWhileKept {users : Users} {events : List EventRow} {owner viewer : String}
    (h : ExpiredRead users events owner viewer) (hupsert : h.grantEnv.fails .upsert = false)
    (hfind : h.readEnv.fails .findExpiry = false)
    (hkept : ∀ n a, h.later[n]? = some a → ¬ Separates (run h.start (h.later.take n)) a owner viewer) :
    h.reply.status ≠ 200 := by
  intro hserved
  obtain ⟨hknown, hdated⟩ := h.dated hupsert hkept
  obtain ⟨handle, heq, hcheck⟩ := of_read h.reads hserved
  obtain ⟨haccess, hdate⟩ := of_checkViewWithExpiry hcheck
  have hrel : (handle, viewer) ∈ (run h.start h.later).relations :=
    haccess.resolve_right (by simp [h.otherAccess])
  obtain rfl := (hknown.relations handle viewer hrel).1.eq h.account heq
  obtain ⟨m, hm, ht⟩ := hdated hrel
  have hnow := hdate.resolve_left (by simp [hfind]) h.expiresAt (by simp [hm, ht])
  have hlate := h.late
  omega

/-! ### One share that ends -/

/-- A share without end, then a grant until 10, what comes later, and a read after that. -/
def friendReads (later : List (Env × Request)) (grantEnv readEnv : Env)
    (hlater : ∀ a ∈ later, FromAccount pair a ∧ ∀ auth req, a.2 ≠ .add auth req)
    (hgranted : (addShare (run (fresh pair []) [(calm 0, grantFriend none none)]) grantEnv owner
      ⟨"Friend", some 10, none, none⟩).2 = .granted "Friend")
    (hother : readEnv.otherAccess = false) (hlate : 10 < readEnv.now) :
    ExpiredRead pair [] "Owner" "Friend" where
  before := [(calm 0, grantFriend none none)]
  grantEnv := grantEnv
  auth := owner
  req := ⟨"Friend", some 10, none, none⟩
  later := later
  readEnv := readEnv
  read := .summary friend "Owner"
  expiresAt := 10
  fromAccounts _ ha := (List.mem_append.mp ha).elim (fromAccount_grantFriend _) fun h => (hlater _ h).1
  ofOwner := rfl
  account := isAccount_owner
  granted := hgranted
  expires := rfl
  latest n a hn := by
    rintro ⟨auth, req, hadd, -⟩
    exact (hlater a (List.mem_of_getElem? hn)).2 auth req hadd
  reads := ⟨rfl, rfl⟩
  otherAccess := hother
  late := hlate

/-- An environment in which one kind of call fails. -/
def failing (now : ℤ) (c : Call) : Env := { calm now with fails := (· = c) }

/-- A read before the end, and a deletion that fails. -/
def inBetween : List (Env × Request) :=
  [(calm 5, .summary friend "Owner"), (failing 6 .deleteShare, .delete owner "Friend")]

theorem fromAccount_inBetween :
    ∀ a ∈ inBetween, FromAccount pair a ∧ ∀ auth req, a.2 ≠ .add auth req := by
  simp only [inBetween, List.forall_mem_cons, List.not_mem_nil, false_imp_iff, implies_true, and_true]
  exact ⟨⟨isAccount_friend, nofun⟩, isAccount_owner, nofun⟩

/-- Nothing fails of the grant and of the read. -/
def calmReads : ExpiredRead pair [] "Owner" "Friend" :=
  friendReads inBetween (calm 0) (calm 20) fromAccount_inBetween (by decide +kernel) rfl (by decide)

theorem isSome_inBetween : ∀ m ∈ [1, 2],
    (findMeta (run calmReads.start (inBetween.take m)).metadata "Owner" "Friend").isSome = true := by
  decide +kernel

theorem neverServedWhileKept_calm : calmReads.reply.status ≠ 200 := by
  refine neverServedWhileKept calmReads rfl rfl fun n a hn hseparates => ?_
  have hlater : inBetween[n]? = some a := hn
  have hlt : n < 2 := (List.getElem?_eq_some_iff.mp hlater).1
  have hnone :
      findMeta (run calmReads.start (inBetween.take (n + 1))).metadata "Owner" "Friend" = none := by
    rw [run, run_take_succ hlater]
    exact hseparates.2.1
  have hsome := isSome_inBetween (n + 1) (by simp only [List.mem_cons]; omega)
  rw [hnone] at hsome
  cases hsome

/-- The write of the metadata fails. -/
def failedReads : ExpiredRead pair [] "Owner" "Friend" :=
  friendReads [] (failing 0 .upsert) (calm 20) (fun _ h => absurd h List.not_mem_nil) (by decide +kernel) rfl
    (by decide)

/-- The share is served after its end. -/
theorem not_neverServed : ¬ NeverServed pair [] "Owner" "Friend" := by
  intro h
  have hserved : failedReads.reply.status = 200 := by decide +kernel
  exact h failedReads hserved

end StarStats.Server.Sharing
