import Mathlib.Tactic.IntervalCases
import StarStats.Server.Directory

/-! # A handle that is signed up again

Relations go by the text of a handle, and outlive the account. Whoever signs up with the handle of a
deleted account finds what was shared with it, and with whom it shared. An account starts clean in every
run in which all tokens are of accounts that exist, and no account is deleted while a grant names its
handle (`startsClean_tidy`). -/

namespace StarStats.Server.Directory

open StarStats.Lib.Text StarStats.Lib.Tables StarStats.Lib.Runs
open StarStats.Server.Auth StarStats.Server.Accounts StarStats.Server.Queries
open StarStats.Server.Sharing StarStats.Server.Spicedb StarStats.Server.Orgs

/-! ### Statement -/

/-- Who reads which record; without a token it is everyone. -/
def readOf : Request → Option (Option AuthenticatedUser × String)
  | .share (.summary auth handle) | .share (.timeline auth handle _) => some (some auth, handle)
  | .publicSummary handle | .publicTimeline handle _ => some (none, handle)
  | _ => none

/-- The answer has a summary or a timeline in it. -/
def shows : Answer → Bool
  | .share (.summary _) | .share (.timeline _) => true
  | _ => false

section Histories
variable (events : List EventRow) (as : List (WorldEnv × Request))

/-- The `j`-th request deletes an account. -/
def Deletes (j : ℕ) (u : User) : Prop :=
  ∃ env auth confirmHandle, as[j]? = some (env, .deleteAccount auth confirmHandle) ∧
    findById (run events (as.take j)).stores.users auth.sub = some u ∧
    Directory.answer (run events (as.take j)) (env, .deleteAccount auth confirmHandle) =
      .accountDeleted

/-- The `k`-th request signs an account up. -/
def SignsUp (k : ℕ) (u : User) : Prop :=
  ∃ env, as[k]? = some (env, .signUp u) ∧
    Directory.answer (run events (as.take k)) (env, .signUp u) = .signedUp

/-- The account exists from a sign-up on. -/
def Lives (u : User) (k n : ℕ) : Prop :=
  ∀ m, k < m → m ≤ n → u ∈ (run events (as.take m)).stores.users.contents

/-- The account grants something in between. -/
def GrantsBetween (u : User) (k n : ℕ) : Prop :=
  ∃ m a auth g, k < m ∧ m < n ∧ as[m]? = some a ∧ a.2.auth = some auth ∧ auth.sub = u.id ∧
    grantOf (run events (as.take m)) a = some g

/-- A relation that lets the account see a record as one that it was shared with. -/
def LetsSee (w : World) (u : User) (record : String) (g : Grant) : Prop :=
  g = .view record u.claimedHandle ∨
    ∃ slug role, g = .role slug role u.claimedHandle ∧ Holds w (.org record slug)

/-- **A handle that is signed up again starts clean**: until the new account grants something, no one
else sees its record, in whatever case its handle is written; and it sees no record of another but those
that are public, or that it was let see since. -/
structure StartsClean : Prop where
  unseen : ∀ j k n u v a reader record, j < k → Deletes events as j u → SignsUp events as k v →
    lower u.claimedHandle = lower v.claimedHandle → k < n → Lives events as v k n →
    ¬ GrantsBetween events as v k n → as[n]? = some a → readOf a.2 = some (reader, record) →
    (∀ auth ∈ reader, auth.sub ≠ v.id) → lower record = lower v.claimedHandle →
      shows (Directory.answer (run events (as.take n)) a) = false
  inherits : ∀ j k n u v a auth record, j < k → Deletes events as j u → SignsUp events as k v →
    lower u.claimedHandle = lower v.claimedHandle → k < n → Lives events as v k n →
    as[n]? = some a → readOf a.2 = some (some auth, record) → auth.sub = v.id →
    lower record ≠ lower v.claimedHandle →
    shows (Directory.answer (run events (as.take n)) a) = true →
      Holds (run events (as.take n)) (.everyone record) ∨
        ∃ g m b, LetsSee (run events (as.take n)) v record g ∧ k < m ∧ m < n ∧ as[m]? = some b ∧
          grantOf (run events (as.take m)) b = some g

end Histories

/-- The handles in a grant. -/
def Grant.Names (handle : String) : Grant → Prop
  | .view record viewer => record = handle ∨ viewer = handle
  | .everyone record => record = handle
  | .org record _ => record = handle
  | .role _ _ user => user = handle

/-- The token is of an account that exists. -/
def Current (w : World) (auth : AuthenticatedUser) : Prop :=
  ∃ u ∈ w.stores.users.contents, u.id = auth.sub ∧ u.claimedHandle = auth.preferredUsername

/-- The token is current, and an account is not deleted while a grant names it. -/
structure Tidy (w : World) (a : WorldEnv × Request) : Prop where
  current : ∀ auth, a.2.auth = some auth → Current w auth
  ungranted : ∀ auth confirmHandle u, a.2 = .deleteAccount auth confirmHandle →
    findById w.stores.users auth.sub = some u → ∀ g, Holds w g → ¬ g.Names u.claimedHandle

/-! ### Grants are of accounts -/

/-- What holds of all states of a tidy run. -/
structure Placed (w : World) : Prop where
  grants : ∀ g, Holds w g → ∀ handle, g.Names handle → IsAccount w.stores.users handle
  owners : ∀ record user, (record, user) ∈ w.rel.owners → record = user
  ids : ∀ u ∈ w.stores.users.contents, ∀ v ∈ w.stores.users.contents, u.id = v.id → u = v

theorem placed_start (events : List EventRow) : Placed (start events) := by
  refine ⟨fun g hg => ?_, fun record user h => ?_, fun u hu => ?_⟩
  · cases g <;> simp [Holds, start, Relations.empty] at hg
  · simp [start, Relations.empty] at h
  · simp [start, Table.contents, Table.empty] at hu

section Placing
variable {w w' : World} {u : User}

theorem Fewer.placed (h : Fewer w w') (hw : Placed w) : Placed w' := by
  refine ⟨fun g hg handle hname => ?_, fun record user hmem => hw.owners record user (h.owners hmem), ?_⟩
  · rw [h.users]
    exact hw.grants g (h.holds g hg) handle hname
  · rw [h.users]
    exact hw.ids

theorem mem_users_joined (h : Joined w w' u) {v : User} :
    v ∈ w'.stores.users.contents ↔ v ∈ w.stores.users.contents ∨ v = u := by
  have hkeys : u.key ∉ w.stores.users.keys := h.new
  rw [h.users]
  unfold Table.contents
  rw [Table.rows_insert_of_not_mem hkeys]
  simp

theorem Joined.placed (h : Joined w w' u) (hw : Placed w) : Placed w' := by
  have hnew : ∀ v ∈ w.stores.users.contents, v.id ≠ u.id := by
    intro v hv heq
    have hnone := List.find?_eq_none.mp h.newId v hv
    simp [heq] at hnone
  refine ⟨fun g hg handle hname => ?_, fun record user hmem => ?_, fun v hv v' hv' hid => ?_⟩
  · obtain ⟨v, hv, hhandle⟩ := hw.grants g (h.holds g hg) handle hname
    exact ⟨v, (mem_users_joined h).mpr (Or.inl hv), hhandle⟩
  · rcases Finset.mem_insert.mp (h.owners hmem) with heq | hold
    · obtain ⟨rfl, rfl⟩ := Prod.mk.inj heq
      rfl
    · exact hw.owners record user hold
  · rcases (mem_users_joined h).mp hv with hold | rfl
    · rcases (mem_users_joined h).mp hv' with hold' | rfl
      · exact hw.ids v hold v' hold' hid
      · exact absurd hid (hnew v hold)
    · rcases (mem_users_joined h).mp hv' with hold' | rfl
      · exact absurd hid.symm (hnew v' hold')
      · rfl

theorem mem_users_deleteUser {env : WorldEnv} {v : User} :
    v ∈ (deleteUser w env u).stores.users.contents ↔ v ∈ w.stores.users.contents ∧ v.id ≠ u.id := by
  have hmem := @Table.mem_contents_deleteWhere _ _ _ w.stores.users (fun x => decide (x.id = u.id)) v
  refine hmem.trans (and_congr_right fun _ => ?_)
  simp

theorem Placed.deleteUser {env : WorldEnv} (hw : Placed w) (hu : u ∈ w.stores.users.contents)
    (hfree : ∀ g, Holds w g → ¬ g.Names u.claimedHandle) : Placed (deleteUser w env u) := by
  refine ⟨fun g hg handle hname => ?_, hw.owners, fun v hv v' hv' hid => ?_⟩
  · have hbefore := holds_deleteUser.mp hg
    obtain ⟨v, hv, hhandle⟩ := hw.grants g hbefore handle hname
    refine ⟨v, mem_users_deleteUser.mpr ⟨hv, fun hid => ?_⟩, hhandle⟩
    have hsame := hw.ids v hv u hu hid
    rw [← hhandle, hsame] at hname
    exact hfree g hbefore hname
  · exact hw.ids v (mem_users_deleteUser.mp hv).1 v' (mem_users_deleteUser.mp hv').1 hid

theorem Granted.placed {auth : AuthenticatedUser} {g : Grant} (h : Granted w w' auth g)
    (hw : Placed w) (hcurrent : Current w auth) : Placed w' := by
  have hsender : IsAccount w.stores.users auth.preferredUsername := by
    obtain ⟨v, hv, -, hhandle⟩ := hcurrent
    exact ⟨v, hv, hhandle⟩
  refine ⟨fun g' hg' handle hname => ?_, fun record user hmem => ?_, ?_⟩
  · rw [h.users]
    rcases h.holds g' hg' with hold | rfl
    · exact hw.grants g' hold handle hname
    · have hable := h.able
      cases g' with
      | view record viewer =>
        rcases hname with rfl | rfl
        · exact hable.1 ▸ hsender
        · exact hable.2
      | everyone record =>
        obtain rfl : record = handle := hname
        exact (show record = auth.preferredUsername from hable) ▸ hsender
      | org record slug =>
        obtain rfl : record = handle := hname
        exact (show record = auth.preferredUsername from hable) ▸ hsender
      | role slug role user =>
        obtain rfl : user = handle := hname
        rcases hable with heq | haccount
        · exact heq ▸ hsender
        · exact haccount
  · rw [h.owners] at hmem
    exact hw.owners record user hmem
  · rw [h.users]
    exact hw.ids

theorem Placed.step {a : WorldEnv × Request} (hw : Placed w) (ha : Tidy w a) : Placed (step w a) := by
  rcases step_cases w a with hfewer | ⟨u, -, -, hjoined⟩ | ⟨auth, confirmHandle, u, hreq, hfind, -, hdelete⟩ |
    ⟨auth, g, hauth, -, hgranted⟩
  · exact hfewer.placed hw
  · exact hjoined.placed hw
  · rw [hdelete]
    exact hw.deleteUser (List.mem_of_find?_eq_some hfind)
      (ha.ungranted auth confirmHandle u hreq hfind)
  · exact hgranted.placed hw (ha.current auth hauth)

end Placing

/-! ### Reads -/

section Reads
variable {w : World} {a : WorldEnv × Request} {record : String}

theorem shows_renderOr404 {check : Option Bool} {reply : Sharing.Reply}
    (h : shows (.share (renderOr404 check reply)) = true) : check = some true := by
  rcases check with _ | _ | _
  · simp [renderOr404, err, shows] at h
  · simp [renderOr404, shows] at h
  · rfl

theorem checkView_of_expiry {st : Stores} {env : Env} {owner viewer : String}
    (h : (checkViewWithExpiry st env owner viewer).2 = some true) :
    (owner, viewer) ∈ st.relations ∨ env.otherAccess = true := by
  have hview : checkView st env owner viewer = some true := by
    unfold checkViewWithExpiry at h
    cases hcheck : checkView st env owner viewer with
    | none => simp [hcheck] at h
    | some allowed =>
      cases allowed with
      | true => rfl
      | false => simp [hcheck] at h
  unfold checkView at hview
  split_ifs at hview
  simpa using hview

theorem shows_friendRead {st : Stores} {env : Env} {auth : AuthenticatedUser} {handle : String}
    {allows : ShareScope → Bool} {render : Stores → Option ShareScope → Sharing.Reply}
    (h : shows (.share (friendRead st env auth handle allows render).2) = true) :
    (handle, auth.preferredUsername) ∈ st.relations ∨ env.otherAccess = true := by
  unfold friendRead at h
  split_ifs at h with hspice
  · simp [err, shows] at h
  · simp only at h
    split_ifs at h
    · simp [shows] at h
    · exact checkView_of_expiry (shows_renderOr404 h)

/-- Who is shown a record of another has it shared with them, or sees it by the other relations. -/
theorem shows_friend {auth : AuthenticatedUser} (hread : readOf a.2 = some (some auth, record))
    (h : shows (answer w a) = true) : a.2.auth = some auth ∧
      (Holds w (.view record auth.preferredUsername) ∨
        w.rel.otherView record auth.preferredUsername = true) := by
  obtain ⟨env, r⟩ := a
  cases r with
  | share req =>
    cases req with
    | summary auth' handle =>
      obtain ⟨heq, rfl⟩ := Prod.mk.inj (Option.some.inj hread)
      obtain rfl := Option.some.inj heq
      refine ⟨rfl, ?_⟩
      change shows (.share (friendSummary _ _ _ _).2) = true at h
      unfold friendSummary at h
      split_ifs at h
      · simp [shows] at h
      · exact shows_friendRead h
    | timeline auth' handle days =>
      obtain ⟨heq, rfl⟩ := Prod.mk.inj (Option.some.inj hread)
      obtain rfl := Option.some.inj heq
      refine ⟨rfl, ?_⟩
      change shows (.share (friendTimeline _ _ _ _ _).2) = true at h
      unfold friendTimeline at h
      split_ifs at h
      · simp [shows] at h
      · cases hdays : resolveTimelineDays days with
        | none => simp [hdays, err, shows] at h
        | some d =>
          simp only [hdays] at h
          exact shows_friendRead h
    | _ => cases hread
  | publicSummary handle => simp [readOf] at hread
  | publicTimeline handle days => simp [readOf] at hread
  | _ => cases hread

theorem checkPublic_eq {env : WorldEnv} (h : checkPublic w env record = some true) :
    Holds w (.everyone record) := by
  unfold checkPublic at h
  split_ifs at h
  simpa [Holds] using h

theorem shows_public (hread : readOf a.2 = some (none, record)) (h : shows (answer w a) = true) :
    Holds w (.everyone record) := by
  obtain ⟨env, r⟩ := a
  cases r with
  | share req => cases req <;> simp [readOf] at hread
  | publicSummary handle =>
    obtain rfl := (Prod.mk.inj (Option.some.inj hread)).2
    change shows (.share (Directory.publicSummary _ _ _)) = true at h
    unfold Directory.publicSummary at h
    split_ifs at h
    · simp [shows] at h
    · simp [err, shows] at h
    · exact checkPublic_eq (shows_renderOr404 h)
  | publicTimeline handle days =>
    obtain rfl := (Prod.mk.inj (Option.some.inj hread)).2
    change shows (.share (Directory.publicTimeline _ _ _ _)) = true at h
    unfold Directory.publicTimeline at h
    cases hdays : resolveTimelineDays days with
    | none =>
      rw [hdays] at h
      simp only at h
      split_ifs at h
      · simp [shows] at h
      · simp [err, shows] at h
    | some d =>
      rw [hdays] at h
      simp only at h
      split_ifs at h
      · simp [shows] at h
      · simp [err, shows] at h
      · exact checkPublic_eq (shows_renderOr404 h)
  | _ => cases hread

end Reads

/-! ### Tidy runs -/

section Runs
variable {events : List EventRow} {as : List (WorldEnv × Request)}

/-- Every request of the run is tidy. -/
def AllTidy (events : List EventRow) (as : List (WorldEnv × Request)) : Prop :=
  ∀ n a, as[n]? = some a → Tidy (run events (as.take n)) a

theorem placed_run (h : AllTidy events as) (n : ℕ) : Placed (run events (as.take n)) :=
  invariant_take_of (placed_start events) (fun _ _ hw ha => hw.step ha) h n

theorem run_succ {n : ℕ} {a : WorldEnv × Request} (ha : as[n]? = some a) :
    run events (as.take (n + 1)) = step (run events (as.take n)) a := run_take_succ ha

/-- A handle that is signed up was no account's before, so no grant named it. -/
theorem not_holds_signUp (h : AllTidy events as) {k : ℕ} {v : User} (hv : SignsUp events as k v)
    {g : Grant} {handle : String} (hname : g.Names handle)
    (hhandle : lower handle = lower v.claimedHandle) : ¬ Holds (run events (as.take (k + 1))) g := by
  obtain ⟨env, hk, hanswer⟩ := hv
  intro hg
  rw [run_succ hk] at hg
  have hjoined : Joined _ (step (run events (as.take k)) (env, .signUp v)) v :=
    joined_signUp _ env hanswer
  obtain ⟨u, hu, hclaimed⟩ := (placed_run h k).grants g (hjoined.holds g hg) handle hname
  obtain ⟨row, hrow, rfl⟩ := Table.mem_contents.mp hu
  refine hjoined.new (Table.mem_keys.mpr ⟨row, hrow, ?_⟩)
  show lower row.2.claimedHandle = lower v.claimedHandle
  rw [hclaimed, hhandle]

/-- What names it later was granted since. -/
theorem granted_since (h : AllTidy events as) {k n : ℕ} {v : User} (hv : SignsUp events as k v)
    (hkn : k < n) {g : Grant} {handle : String} (hname : g.Names handle)
    (hhandle : lower handle = lower v.claimedHandle) (hg : Holds (run events (as.take n)) g) :
    ∃ m a, k < m ∧ m < n ∧ as[m]? = some a ∧ grantOf (run events (as.take m)) a = some g := by
  have hmade := @holds_or_made _ _ step (start events) (fun w => Holds w g)
    (fun w a => grantOf w a = some g) (fun _ _ hs => holds_step hs) as (k + 1) n hkn hg
  exact hmade.resolve_left (not_holds_signUp h hv hname hhandle)

/-- A grant on a record is its owner's. -/
def Grant.OnRecord (record : String) : Grant → Prop
  | .view r _ | .everyone r | .org r _ => r = record
  | .role .. => False

theorem grantOf_record {w : World} {a : WorldEnv × Request} {g : Grant} {record : String}
    (h : grantOf w a = some g) (hg : g.OnRecord record) :
    ∃ auth, a.2.auth = some auth ∧ record = auth.preferredUsername := by
  unfold grantOf at h
  split at h
  · rename_i auth body viewer hreq _
    obtain rfl := Option.some.inj h
    exact ⟨auth, by rw [hreq]; rfl, hg.symm⟩
  · rename_i auth hreq _
    obtain rfl := Option.some.inj h
    exact ⟨auth, by rw [hreq]; rfl, hg.symm⟩
  · rename_i auth orgSlug slug hreq _
    obtain rfl := Option.some.inj h
    exact ⟨auth, by rw [hreq]; rfl, hg.symm⟩
  · obtain rfl := Option.some.inj h
    cases hg
  · split at h
    · obtain rfl := Option.some.inj h
      cases hg
    · cases h
  · cases h

/-- What is granted on the record of an account that exists is granted by it. -/
theorem grantsBetween (h : AllTidy events as) {k n : ℕ} {v : User} (hv : SignsUp events as k v)
    (hkn : k < n) (hlives : Lives events as v k n) {g : Grant} {record : String}
    (hg : g.OnRecord record) (hrecord : lower record = lower v.claimedHandle)
    (hholds : Holds (run events (as.take n)) g) : GrantsBetween events as v k n := by
  have hname : g.Names record := by
    cases g with
    | view r viewer => exact Or.inl hg
    | role => cases hg
    | _ => exact hg
  obtain ⟨m, a, hkm, hmn, ha, hgrant⟩ := granted_since h hv hkn hname hrecord hholds
  obtain ⟨auth, hauth, rfl⟩ := grantOf_record hgrant hg
  obtain ⟨u, hu, hid, hclaimed⟩ := (h m a ha).current auth hauth
  have hsame : u = v := eq_of_lower_eq hu (hlives m hkm (le_of_lt hmn)) (by rw [hclaimed, hrecord])
  rw [hsame] at hid
  exact ⟨m, a, auth, g, hkm, hmn, ha, hauth, hid.symm, hgrant⟩

/-- **In a tidy run every handle that is signed up again starts clean.** -/
theorem startsClean_tidy (h : AllTidy events as) : StartsClean events as := by
  constructor
  · intro j k n u v a reader record _ _ hv _ hkn hlives hnone ha hread hother hrecord
    have hno : ∀ g : Grant, g.OnRecord record → ¬ Holds (run events (as.take n)) g :=
      fun g hg hholds => hnone (grantsBetween h hv hkn hlives hg hrecord hholds)
    refine Bool.eq_false_iff.mpr fun hshows => ?_
    cases reader with
    | none => exact hno (.everyone record) rfl (shows_public hread hshows)
    | some auth =>
      obtain ⟨hauth, hview | hview⟩ := shows_friend hread hshows
      · exact hno (.view record auth.preferredUsername) rfl hview
      · rcases Relations.otherView_iff.mp hview with howner | hpublic | ⟨slug, role, horg, -⟩
        · -- The owner of the record is the new account itself.
          obtain rfl := (placed_run h n).owners record auth.preferredUsername howner
          obtain ⟨x, hx, hid, hclaimed⟩ := (h n a ha).current auth hauth
          have hsame : x = v := eq_of_lower_eq hx (hlives n hkn (le_refl n)) (by rw [hclaimed, hrecord])
          rw [hsame] at hid
          exact hother auth rfl hid.symm
        · exact hno (.everyone record) rfl hpublic
        · exact hno (.org record slug) rfl horg
  · intro j k n u v a auth record _ _ hv _ hkn hlives ha hread hid hrecord hshows
    obtain ⟨hauth, hview⟩ := shows_friend hread hshows
    obtain ⟨x, hx, hxid, hclaimed⟩ := (h n a ha).current auth hauth
    have hsame : x = v := (placed_run h n).ids x hx v (hlives n hkn (le_refl n)) (hxid.trans hid)
    have hhandle : auth.preferredUsername = v.claimedHandle := by rw [← hclaimed, hsame]
    rw [hhandle] at hview
    rcases hview with hview | hview
    · obtain ⟨m, b, hkm, hmn, hb, hgrant⟩ := granted_since h hv hkn
        (show Grant.Names v.claimedHandle (.view record v.claimedHandle) from Or.inr rfl) rfl hview
      exact Or.inr ⟨_, m, b, Or.inl rfl, hkm, hmn, hb, hgrant⟩
    · rcases Relations.otherView_iff.mp hview with howner | hpublic | ⟨slug, role, horg, hrole⟩
      · have hsame := (placed_run h n).owners record v.claimedHandle howner
        exact absurd (congrArg lower hsame) hrecord
      · exact Or.inl hpublic
      · obtain ⟨m, b, hkm, hmn, hb, hgrant⟩ := granted_since h hv hkn
          (show Grant.Names v.claimedHandle (.role slug role v.claimedHandle) from rfl) rfl hrole
        exact Or.inr ⟨_, m, b, Or.inr ⟨slug, role, rfl, horg⟩, hkm, hmn, hb, hgrant⟩

end Runs

/-! ### Jim, and Jim again -/

def calm : WorldEnv :=
  ⟨⟨0, true, fun _ => false, fun _ => true, fun _ => "", 0, false⟩, fun _ => false, "0"⟩

def jim (id : String) : User := ⟨id, "Jim", some 0, none⟩

def kim : User := ⟨"2", "Kim", some 0, none⟩

def tokenOf (u : User) : AuthenticatedUser := ⟨u.id, u.claimedHandle, .user, none⟩

def shareJimWithKim : Request := .share (.add (tokenOf (jim "1")) ⟨"Kim", none, none, none⟩)

def readJim : Request := .share (.summary (tokenOf kim) "Jim")

/-- Jim shares with Kim and revokes it, is deleted, and comes again. -/
def revokedFirst : List (WorldEnv × Request) :=
  [.signUp (jim "1"), .signUp kim, shareJimWithKim, .share (.delete (tokenOf (jim "1")) "Kim"),
    .deleteAccount (tokenOf (jim "1")) "Jim", .signUp (jim "3"), readJim].map (calm, ·)

instance (w : World) (auth : AuthenticatedUser) : Decidable (Current w auth) :=
  inferInstanceAs (Decidable (∃ u ∈ w.stores.users.contents, u.id = auth.sub ∧
    u.claimedHandle = auth.preferredUsername))

theorem not_holds_of_empty {w : World} (h : w.stores.relations = ∅) (hrel : w.rel.publicView = ∅)
    (horg : w.rel.shareWithOrg = ∅) (hrole : w.rel.roles = ∅) (g : Grant) : ¬ Holds w g := by
  cases g <;> simp [Holds, h, hrel, horg, hrole]

theorem allTidy_revokedFirst : AllTidy [] revokedFirst := by
  intro n a ha
  have hcurrent : ∀ m ∈ List.range 7, ∀ auth ∈ (revokedFirst[m]?.bind fun b => b.2.auth),
      Current (run [] (revokedFirst.take m)) auth := by decide +kernel
  have hn : n < 7 := (List.getElem?_eq_some_iff.mp ha).1
  refine ⟨fun auth hauth => hcurrent n (List.mem_range.mpr hn) auth ?_, fun auth confirmHandle u hreq => ?_⟩
  · rw [ha]
    exact hauth
  · have hfour : n = 4 := by
      by_contra hne
      interval_cases n <;> first | omega | (obtain rfl := Option.some.inj ha; cases hreq)
    subst hfour
    exact fun _ g hg => absurd hg (not_holds_of_empty (by decide +kernel) (by decide +kernel)
      (by decide +kernel) (by decide +kernel) g)

theorem startsClean_revokedFirst : StartsClean [] revokedFirst :=
  startsClean_tidy allTidy_revokedFirst

/-- Jim shares with Kim, is deleted, and comes again. -/
def neverRevoked : List (WorldEnv × Request) :=
  [.signUp (jim "1"), .signUp kim, shareJimWithKim, .deleteAccount (tokenOf (jim "1")) "Jim",
    .signUp (jim "3"), readJim].map (calm, ·)

/-- Kim sees what Jim, who is another now, has shared with no one. -/
theorem not_startsClean_neverRevoked : ¬ StartsClean [] neverRevoked := by
  intro h
  have hunseen := h.unseen 3 4 5 (jim "1") (jim "3") (calm, readJim) (some (tokenOf kim)) "Jim"
    (by omega) ⟨calm, _, _, rfl, by decide +kernel, by decide +kernel⟩
    ⟨calm, rfl, by decide +kernel⟩ rfl (by omega) (fun m hm hm' => ?_) ?_ rfl rfl ?_ rfl
  · exact absurd hunseen (by decide +kernel)
  · obtain rfl : m = 5 := by omega
    decide +kernel
  · rintro ⟨m, a, auth, g, hm, hm', -⟩
    omega
  · rintro auth ⟨⟩
    decide

end StarStats.Server.Directory
