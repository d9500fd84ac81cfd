import StarStats.Server.OwnReads

/-! # Tokens that outlive their account

A token names its account twice: by the id, which is the account's alone, and by the handle, which another
account may take after a deletion. The record of a request is found by the handle. So a token that is still
good when its handle is signed up again works on the record of the new account (`not_onlyOwn_taken`);
where no such handle is taken, a token works on the account that it was minted for, and sees of others what
they have opened to it (`onlyOwn_of_unclaimed`). -/

namespace StarStats.Server.OwnRecord

open StarStats.Lib.Text StarStats.Lib.Tables StarStats.Lib.Runs StarStats.Core.Wire
open StarStats.Server.Auth StarStats.Server.Accounts StarStats.Server.Queries StarStats.Server.Sharing
open StarStats.Server.Spicedb StarStats.Server.Orgs
open StarStats.Server.SecondFactor (Claims)

/-! ### Histories -/

/-- What can happen at the site. -/
inductive Step where
  | signUp (u : User) (env : SiteEnv)
  /-- A login, or the first half of one. -/
  | login (userId : String) (half : Bool)
  /-- A pairing code is redeemed, for the account that has made it. -/
  | redeem (userId deviceId : String)
  | revokeDevice (deviceId : String)
  | expire (c : Claims)
  | request (c : Claims) (env : SiteEnv) (req : Request)

/-- The claims of a token for an account. -/
def mint (u : User) (tokenType : TokenType) (deviceId : Option String) : Claims :=
  ⟨u.id, u.claimedHandle, tokenType, deviceId⟩

/-- The new account is logged in. -/
def signUp (s : Site) (u : User) (env : SiteEnv) : Site :=
  match Directory.signUp s.world env.world u with
  | (w, .signedUp) => { s.set w with users := w.stores.users, tokens := mint u .user none :: s.tokens }
  | (_, _) => s

def login (s : Site) (userId : String) (half : Bool) : Site :=
  match findById s.users userId with
  | none => s
  | some u => { s with tokens := mint u (if half then .loginInterim else .user) none :: s.tokens }

/-- A device gets a token of its own. -/
def redeem (s : Site) (userId deviceId : String) : Site :=
  match findById s.users userId with
  | none => s
  | some u =>
    { s with
      devices := insert (deviceId, userId) s.devices
      tokens := mint u .device (some deviceId) :: s.tokens }

def step (s : Site) : Step → Site
  | .signUp u env => signUp s u env
  | .login userId half => login s userId half
  | .redeem userId deviceId => redeem s userId deviceId
  | .revokeDevice deviceId => { s with devices := s.devices.filter (·.1 ≠ deviceId) }
  | .expire c => { s with tokens := s.tokens.filter (· ≠ c) }
  | .request c env req => (serve s env c req).1

/-- The state after the first steps. -/
def state (as : List Step) (n : ℕ) : Site := (as.take n).foldl step Site.start

/-! ### Statement -/

/-- The handle is that of the account, up to case. -/
def under (handle h : String) : Bool := lower h = lower handle

/-- The rows that are not under the handle. -/
def besides (handle h : String) : Bool := !under handle h

/-- The request reads the record of the account, and a share of it with the reader has expired; the share
is revoked, and nothing else is changed. -/
structure Lapsed (s s' : Site) (env : SiteEnv) (auth : AuthenticatedUser) (owner : String) (req : Request) :
    Prop where
  asks : req.Asks (besides owner)
  expired : ∃ handle row expiresAt, under owner handle = true ∧
    findMeta s.metadata handle auth.preferredUsername = some row ∧ row.expiresAt = some expiresAt ∧
    expiresAt ≤ env.now ∧
    s' = s.set { s.world with
      stores := lazyRevoke s.world.stores env.world.share handle auth.preferredUsername }

/-- **A token works on its own account**: whatever a request with it does, the events, the visibility and
the shares of any other account are neither changed nor read. -/
structure OnlyOwn (s : Site) : Prop where
  /-- But for a share with the reader that has expired. -/
  writes : ∀ c env req, s.Unused env → ∀ u ∈ s.users.contents, u.id ≠ c.sub →
    SameData (under u.claimedHandle) s (serve s env c req).1 ∨
      Lapsed s (serve s env c req).1 env c.user u.claimedHandle req
  /-- The answer is the same whatever the data of the other account are; only who asks for what others
  have shared is answered from it, if something of it is open to them. -/
  reads : ∀ c env req s', s.Unused env → s'.Unused env → ∀ u ∈ s.users.contents, u.id ≠ c.sub →
    SameRest s s' → SameData (besides u.claimedHandle) s s' →
    (req.Asks (besides u.claimedHandle) → Closed (besides u.claimedHandle) s c.preferredUsername ∧
      Closed (besides u.claimedHandle) s' c.preferredUsername) →
    (serve s' env c req).2 = (serve s env c req).2

/-- The extractor lets the token through. -/
def Accepted (s : Site) (c : Claims) : Prop :=
  c ∈ s.tokens ∧ (c.tokenType = .device → ∃ id ∈ c.deviceId, ∃ d ∈ s.devices, d.1 = id)

/-- The ids of devices are drawn anew. -/
def FreshDevices (as : List Step) : Prop :=
  ∀ n userId deviceId, as[n]? = some (.redeem userId deviceId) →
    ∀ c ∈ (state as n).tokens, c.deviceId ≠ some deviceId

/-- Whenever an account signs up with a handle that is free, no token with the handle, up to case, is let
through. -/
def Unclaimed (as : List Step) : Prop :=
  ∀ n u env, as[n]? = some (.signUp u env) → u.key ∉ (state as n).users.keys →
    ∀ c, Accepted (state as n) c → lower c.preferredUsername ≠ lower u.claimedHandle

/-- The handle of a token that is let through is that of its account, or of none. -/
def Owned (s : Site) : Prop :=
  ∀ c, Accepted s c → ∀ u ∈ s.users.contents, lower c.preferredUsername = lower u.claimedHandle →
    u.id = c.sub

section Proof
variable {s s' : Site} {env : SiteEnv} {auth : AuthenticatedUser} {c : Claims} {u : User}
  {handle : String}

/-! ### Tokens and accounts -/

theorem accepted_of_authenticate (h : authenticate s c = .ok auth) : auth = c.user ∧ Accepted s c := by
  obtain ⟨hauth, hminted, hdevice⟩ := authenticate_eq_ok h
  exact ⟨hauth, hminted, hdevice⟩

theorem Owned.fewer (h : Owned s) (htokens : ∀ c ∈ s'.tokens, c ∈ s.tokens)
    (hdevices : s'.devices ⊆ s.devices) (husers : ∀ u ∈ s'.users.contents, u ∈ s.users.contents) :
    Owned s' := by
  rintro c ⟨hminted, hactive⟩ u hu hname
  refine h c ⟨htokens c hminted, fun hdevice => ?_⟩ u (husers u hu) hname
  obtain ⟨id, hid, d, hd, hrow⟩ := hactive hdevice
  exact ⟨id, hid, d, hdevices hd, hrow⟩

/-- What a new token names is its account. -/
theorem Owned.mint (h : Owned s) (hu : u ∈ s.users.contents) {tokenType : TokenType}
    {deviceId : Option String} {devices : Finset (String × String)}
    (hdevices : ∀ c ∈ s.tokens, ∀ id ∈ c.deviceId, (∃ d ∈ devices, d.1 = id) → ∃ d ∈ s.devices, d.1 = id) :
    Owned { s with devices := devices, tokens := mint u tokenType deviceId :: s.tokens } := by
  rintro c ⟨hminted, hactive⟩ v hv hname
  rcases List.mem_cons.mp hminted with rfl | hold
  · rw [eq_of_lower_eq hv hu hname.symm]
    rfl
  · refine h c ⟨hold, fun hdevice => ?_⟩ v hv hname
    obtain ⟨id, hid, hrow⟩ := hactive hdevice
    exact ⟨id, hid, hdevices c hold id hid hrow⟩

theorem mem_of_findById {users : Users} {id : String} (h : findById users id = some u) :
    u ∈ users.contents ∧ u.id = id :=
  ⟨List.mem_of_find?_eq_some h, by simpa using List.find?_some h⟩

/-- A sign-up that goes through makes an account with a free handle. -/
theorem signUp_cases (s : Site) (u : User) (env : SiteEnv) : signUp s u env = s ∨
    u.key ∉ s.users.keys ∧ (signUp s u env).users = s.users.insert u ∧
      (signUp s u env).devices = s.devices ∧
      (signUp s u env).tokens = OwnRecord.mint u .user none :: s.tokens := by
  unfold signUp
  split
  · rename_i w heq
    have hjoined := Directory.joined_signUp s.world env.world (congrArg Prod.snd heq)
    have husers := hjoined.users
    rw [heq] at husers
    exact Or.inr ⟨hjoined.new, husers, rfl, rfl⟩
  · exact Or.inl rfl

theorem mem_users_insert {users : Users} {v : User} (h : v ∈ (users.insert u).contents) :
    v ∈ users.contents ∨ v = u := by
  obtain ⟨row, hrow, rfl⟩ := Table.mem_contents.mp h
  rcases Table.mem_rows_insert.mp hrow with hold | ⟨-, rfl⟩
  · exact Or.inl (Table.mem_contents.mpr ⟨row, hold, rfl⟩)
  · exact Or.inr rfl

theorem Owned.signUp (h : Owned s)
    (hfree : u.key ∉ s.users.keys → ∀ c, Accepted s c → lower c.preferredUsername ≠ lower u.claimedHandle) :
    Owned (signUp s u env) := by
  rcases signUp_cases s u env with heq | ⟨hnew, husers, hdevices, htokens⟩
  · rw [heq]
    exact h
  · rintro c ⟨hminted, hactive⟩ v hv hname
    rw [htokens] at hminted
    rw [hdevices] at hactive
    rw [husers] at hv
    rcases List.mem_cons.mp hminted with rfl | hold
    · rcases mem_users_insert hv with hbefore | rfl
      · exact absurd (Table.mem_keys.mpr ((Table.mem_contents.mp hbefore).imp fun row hrow =>
          ⟨hrow.1, (congrArg User.key hrow.2).trans hname.symm⟩)) hnew
      · rfl
    · rcases mem_users_insert hv with hbefore | rfl
      · exact h c ⟨hold, hactive⟩ v hbefore hname
      · exact absurd hname (hfree hnew c ⟨hold, hactive⟩)

/-- No token is new, no device and no account. -/
structure Fewer (s s' : Site) : Prop where
  tokens : s'.tokens = s.tokens
  devices : s'.devices ⊆ s.devices
  users : ∀ u ∈ s'.users.contents, u ∈ s.users.contents

theorem Fewer.refl (s : Site) : Fewer s s := ⟨rfl, Finset.Subset.refl _, fun _ hu => hu⟩

theorem Fewer.did (s : Site) (r : World × Orgs.Answer) : Fewer s (s.did r).1 :=
  ⟨rfl, Finset.Subset.refl _, fun _ hu => hu⟩

theorem Fewer.shared (s : Site) (r : Stores × Sharing.Reply) : Fewer s (s.shared r).1 := .did s _

theorem fewer_ingest (batch : IngestBatch) : Fewer s (ingest s env auth batch).1 :=
  ⟨rfl, Finset.Subset.refl _, fun _ hu => hu⟩

theorem fewer_toggleHidden (seq : ℤ) (hide : Bool) : Fewer s (toggleHidden s env auth seq hide).1 := by
  unfold toggleHidden
  split_ifs
  · exact .refl s
  · simp only [setEventHidden]
    split
    · exact .refl s
    · exact ⟨rfl, Finset.Subset.refl _, fun _ hu => hu⟩

theorem fewer_deleteAccount (confirmHandle : String) :
    Fewer s (deleteAccount s env auth confirmHandle).1 := by
  rcases deleteAccount_cases s env auth confirmHandle with hsame | ⟨u, events, -, -, hdeleted⟩
  · rw [hsame]
    exact .refl s
  · rw [hdeleted]
    exact ⟨rfl, Finset.filter_subset _ _, fun v hv => (Table.mem_contents_deleteWhere.mp hv).1⟩

/-- A request mints no token, activates no device and adds no account. -/
theorem fewer_handler (s : Site) (env : SiteEnv) (auth : AuthenticatedUser) (req : Request) :
    Fewer s (handler s env auth req).1 := by
  cases req with
  | deleteAccount confirmHandle => exact fewer_deleteAccount confirmHandle
  | ingest batch => exact fewer_ingest batch
  | hideEvent seq => exact fewer_toggleHidden seq true
  | unhideEvent seq => exact fewer_toggleHidden seq false
  | setVisibility _ | shareWithOrg _ | unshareWithOrg _ => exact .did s _
  | addShare _ | deleteShare _ | friendSummary _ | friendTimeline _ _ => exact .shared s _
  | listEvents _ | timeline _ | summary | readRows _ | getVisibility | listShares | listSharedWithMe
  | previewSummary _ | previewTimeline _ _ => exact .refl s

theorem Owned.serve (h : Owned s) (c : Claims) (env : SiteEnv) (req : Request) :
    Owned (serve s env c req).1 := by
  unfold OwnRecord.serve
  split
  · exact h
  · rename_i auth hauth
    have hfewer := fewer_handler s env auth req
    exact h.fewer (fun c hc => hfewer.tokens ▸ hc) hfewer.devices hfewer.users

theorem owned_start : Owned Site.start := by
  rintro c ⟨hminted, -⟩
  cases hminted

/-- **In a history where no handle of a token is taken, tokens are owned.** -/
theorem owned_state {as : List Step} (hfresh : FreshDevices as) (h : Unclaimed as) (n : ℕ) :
    Owned (state as n) := by
  induction n with
  | zero => exact owned_start
  | succ n ih =>
    cases ha : as[n]? with
    | none =>
      have hsame : state as (n + 1) = state as n := by
        unfold state
        rw [run_take_of_none ha]
      rw [hsame]
      exact ih
    | some a =>
      have hstep : state as (n + 1) = step (state as n) a := run_take_succ ha
      rw [hstep]
      cases a with
      | signUp u env =>
        show Owned (signUp (state as n) u env)
        exact ih.signUp (h n u env ha)
      | login userId half =>
        show Owned (login (state as n) userId half)
        unfold login
        split
        · exact ih
        · rename_i u hu
          exact ih.mint (mem_of_findById hu).1 fun _ _ _ _ hrow => hrow
      | redeem userId deviceId =>
        show Owned (redeem (state as n) userId deviceId)
        unfold redeem
        split
        · exact ih
        · rename_i u hu
          refine ih.mint (mem_of_findById hu).1 fun c hc id hid => ?_
          rintro ⟨d, hd, hrow⟩
          rcases Finset.mem_insert.mp hd with rfl | hold
          · obtain rfl : deviceId = id := hrow
            exact absurd hid (hfresh n userId deviceId ha c hc)
          · exact ⟨d, hold, hrow⟩
      | revokeDevice deviceId =>
        exact ih.fewer (fun _ hc => hc) (Finset.filter_subset _ _) fun _ hu => hu
      | expire c =>
        exact ih.fewer (fun _ hc => (List.mem_filter.mp hc).1) (Finset.Subset.refl _) fun _ hu => hu
      | request c env req =>
        show Owned (serve (state as n) env c req).1
        exact ih.serve c env req

/-! ### Other accounts -/

theorem off_under {h : String} (hne : lower h ≠ lower handle) : Off (under handle) h := by
  intro h' heq
  unfold under
  rw [heq]
  exact decide_eq_false hne

theorem on_besides {h : String} (hne : lower h ≠ lower handle) : On (besides handle) h := by
  intro h' heq
  unfold besides
  rw [off_under hne h' heq]
  rfl

/-- What a token that is let through names is none of another account. -/
theorem Owned.ne (h : Owned s) (hc : Accepted s c) (hu : u ∈ s.users.contents) (hother : u.id ≠ c.sub) :
    lower c.preferredUsername ≠ lower u.claimedHandle :=
  fun hname => hother (h c hc u hu hname)

theorem ne_of_findById {v : User} (hv : findById s.users c.sub = some v) (hu : u ∈ s.users.contents)
    (hother : u.id ≠ c.sub) : lower v.claimedHandle ≠ lower u.claimedHandle := by
  obtain ⟨hmem, hid⟩ := mem_of_findById hv
  intro hname
  rw [eq_of_lower_eq hmem hu hname] at hid
  exact hother hid

/-- A read of another's record revokes a share that has expired, or changes nothing. -/
theorem friendRead_cases (st : Stores) (e : Env) (auth : AuthenticatedUser) (handle : String)
    (allows : ShareScope → Bool) (render : Stores → Option ShareScope → Reply) :
    (friendRead st e auth handle allows render).1 = st ∨
      ∃ row expiresAt, findMeta st.metadata handle auth.preferredUsername = some row ∧
        row.expiresAt = some expiresAt ∧ expiresAt ≤ e.now ∧
        (friendRead st e auth handle allows render).1 =
          lazyRevoke st e handle auth.preferredUsername := by
  rw [friendRead_fst]
  split_ifs
  · unfold checkViewWithExpiry
    split
    · exact Or.inl rfl
    · exact Or.inl rfl
    · split_ifs
      · exact Or.inl rfl
      · cases hfind : findMeta st.metadata handle auth.preferredUsername with
        | none => exact Or.inl rfl
        | some row =>
          cases hexpires : row.expiresAt with
          | none =>
            refine Or.inl ?_
            simp only [Option.bind_some, hexpires]
          | some expiresAt =>
            simp only [Option.bind_some, hexpires]
            split_ifs with hnow
            · exact Or.inl rfl
            · exact Or.inr ⟨row, expiresAt, rfl, hexpires, not_lt.mp hnow, rfl⟩
  · exact Or.inl rfl

/-- The same of a request that reads a record of the account. -/
theorem writes_of_friend {req : Request} {st : Stores} (hunder : under u.claimedHandle handle = true)
    (hasks : req.Asks (besides u.claimedHandle))
    (h : st = s.world.stores ∨
      ∃ row expiresAt, findMeta s.metadata handle auth.preferredUsername = some row ∧
        row.expiresAt = some expiresAt ∧ expiresAt ≤ env.now ∧
        st = lazyRevoke s.world.stores env.world.share handle auth.preferredUsername) :
    SameData (under u.claimedHandle) s (s.set { s.world with stores := st }) ∨
      Lapsed s (s.set { s.world with stores := st }) env auth u.claimedHandle req := by
  rcases h with rfl | ⟨row, expiresAt, hfind, hexpires, hnow, rfl⟩
  · exact Or.inl (.refl s)
  · exact Or.inr ⟨hasks, handle, row, expiresAt, hunder, hfind, hexpires, hnow, rfl⟩

/-- A token that is let through writes its own record. -/
theorem Owned.writes (h : Owned s) (hc : Accepted s c) {req : Request} (hunused : s.Unused env)
    (hu : u ∈ s.users.contents) (hother : u.id ≠ c.sub) :
    SameData (under u.claimedHandle) s (handler s env c.user req).1 ∨
      Lapsed s (handler s env c.user req).1 env c.user u.claimedHandle req := by
  have hown := off_under (h.ne hc hu hother)
  have hdelete : ∀ confirmHandle v, req = .deleteAccount confirmHandle →
      findById s.users c.user.sub = some v → Off (under u.claimedHandle) v.claimedHandle ∧
        Off (under u.claimedHandle) (Erasure.pseudonymOf env.world.uuid) := by
    intro confirmHandle v _ hv
    exact ⟨off_under (ne_of_findById hv hu hother), off_under (hunused.users u hu).symm⟩
  cases req with
  | friendSummary handle =>
    cases hunder : under u.claimedHandle handle with
    | false => exact Or.inl (sameData_handler (off_under (of_decide_eq_false hunder)) hdelete)
    | true =>
      refine writes_of_friend hunder (by simp [Request.Asks, besides, hunder]) ?_
      unfold friendSummary
      split_ifs
      · exact Or.inl rfl
      · exact friendRead_cases ..
  | friendTimeline handle days =>
    cases hunder : under u.claimedHandle handle with
    | false => exact Or.inl (sameData_handler (off_under (of_decide_eq_false hunder)) hdelete)
    | true =>
      refine writes_of_friend hunder (by simp [Request.Asks, besides, hunder]) ?_
      unfold friendTimeline
      split_ifs
      · exact Or.inl rfl
      · cases resolveTimelineDays days with
        | none => exact Or.inl rfl
        | some days => exact friendRead_cases ..
  | _ => exact Or.inl (sameData_handler hown hdelete)

/-- **Where tokens are owned, each works on its own account.** -/
theorem Owned.onlyOwn (h : Owned s) : OnlyOwn s where
  writes c env req hunused u hu hother := by
    unfold OwnRecord.serve
    cases hauth : authenticate s c with
    | error r => exact Or.inl (.refl s)
    | ok auth =>
      obtain ⟨rfl, hc⟩ := accepted_of_authenticate hauth
      exact h.writes hc hunused hu hother
  reads c env req s' hunused hunused' u hu hother hrest hdata hasks := by
    unfold OwnRecord.serve
    rw [hrest.authenticate]
    cases hauth : authenticate s c with
    | error r => rfl
    | ok auth =>
      obtain ⟨rfl, hc⟩ := accepted_of_authenticate hauth
      refine answer_handler hrest hdata (on_besides (h.ne hc hu hother)) ?_ hasks
      intro confirmHandle _
      exact ⟨fun v hv => on_besides (ne_of_findById hv hu hother), hunused, hunused'⟩

/-- **In a history where no handle of a token that is let through is signed up, each token works on its own
account only, in every state.** -/
theorem onlyOwn_of_unclaimed {as : List Step} (hfresh : FreshDevices as) (h : Unclaimed as) (n : ℕ) :
    OnlyOwn (state as n) :=
  (owned_state hfresh h n).onlyOwn

end Proof

/-! ### The next Jim -/

/-- Nothing fails. -/
def calm : SiteEnv :=
  ⟨⟨⟨0, true, fun _ => false, fun _ => true, fun _ => "", 0, false⟩, fun _ => false, "0"⟩, fun _ => none,
    fun _ => false, false, fun _ => false, fun _ => none, fun _ => none⟩

def jim (id : String) : User := ⟨id, "Jim", none, none⟩

def kim : User := ⟨"2", "Kim", none, none⟩

def oneLine : IngestBatch := ⟨2, "b", none, "Jim", [⟨"k", "line", none, .live, 0, none⟩]⟩

/-- Jim signs up and logs in again, Kim signs up, and Jim sends a line. -/
def twoAccounts : List Step :=
  [.signUp (jim "1") calm, .login "1" false, .signUp kim calm,
    .request (mint (jim "1") .user none) calm (.ingest oneLine)]

theorem onlyOwn_twoAccounts : OnlyOwn (state twoAccounts 4) := by
  refine onlyOwn_of_unclaimed ?_ ?_ 4
  · intro n userId deviceId ha
    have hmem := List.mem_of_getElem? ha
    simp [twoAccounts] at hmem
  · intro n u env ha _ c hc
    rcases n with _ | _ | _ | _ | n
    · cases hc.1
    · cases ha
    · cases ha
      have hnames : ∀ c ∈ (state twoAccounts 2).tokens, lower c.preferredUsername ≠ lower kim.claimedHandle := by
        decide +kernel
      exact hnames c hc.1
    · cases ha
    · cases ha

/-- Jim is deleted, another takes the handle, and sends a line. -/
def taken : List Step :=
  [.signUp (jim "1") calm, .request (mint (jim "1") .user none) calm (.deleteAccount "Jim"),
    .signUp (jim "2") calm, .request (mint (jim "2") .user none) calm (.ingest oneLine)]

/-- With the token of the first the line of the second is hidden. -/
theorem not_onlyOwn_taken : ¬ ∀ n, OnlyOwn (state taken n) := by
  intro h
  have hunused : (state taken 4).Unused calm := ⟨by decide +kernel, by decide +kernel⟩
  have hjim : jim "2" ∈ (state taken 4).users.contents := by decide +kernel
  rcases (h 4).writes (mint (jim "1") .user none) calm (.hideEvent 1) hunused (jim "2") hjim
    (by decide) with hsame | hlapsed
  · have hhidden := congrArg (List.map fun r => r.hiddenAt.isSome) hsame.events
    revert hhidden
    decide +kernel
  · exact hlapsed.asks

end StarStats.Server.OwnRecord
