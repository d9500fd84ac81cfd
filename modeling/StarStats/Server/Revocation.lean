import StarStats.Server.ShareRuns

/-! # Revocation

A revocation removes the relation with the text of its path, as it was typed, while the grant wrote the
handle of the account. So a share stays revoked exactly if the two are the same text, or if nothing was
there to remove (`staysRevoked_iff`). -/

namespace StarStats.Server.Sharing

open StarStats.Lib.Text StarStats.Lib.Tables StarStats.Lib.Runs
open StarStats.Server.Auth StarStats.Server.Accounts StarStats.Server.Queries

/-- **A revoked share stays revoked**: as long as it is not granted again, every read is a 404. -/
def StaysRevoked (users : Users) (st : Stores) (owner viewer : String) : Prop :=
  ∀ later : List (Env × Request), (∀ a ∈ later, FromAccount users a) →
    NoGrant st later owner viewer → ∀ n a, later[n]? = some a → Reads a.2 owner viewer →
      SharesDecide a.1 → (serve (run st (later.take n)) a.1 a.2).2.status = 404

/-- Under no spelling of the owner there is a relation to the viewer. -/
def Gone (st : Stores) (owner viewer : String) : Prop :=
  ∀ handle, lower handle = lower owner → (handle, viewer) ∉ st.relations

theorem Known.gone {users : Users} {st : Stores} {owner viewer : String} (h : Known users st)
    (howner : IsAccount users owner) (hrel : (owner, viewer) ∉ st.relations) :
    Gone st owner viewer := by
  intro handle heq hmem
  obtain rfl := (h.relations handle viewer hmem).1.eq howner heq
  exact hrel hmem

theorem Gone.step {users : Users} {st : Stores} {a : Env × Request} {owner viewer : String}
    (h : Gone st owner viewer) (howner : IsAccount users owner) (ha : FromAccount users a)
    (hno : ¬ Grants st a owner viewer) : Gone (step st a) owner viewer := by
  intro handle heq hmem
  obtain ⟨env, r⟩ := a
  change (handle, viewer) ∈ (serve st env r).1.relations at hmem
  rcases serve_cases st env r with ⟨auth, req, u, rfl, hu⟩ | hs
  · rw [serve_add hu] at hmem
    rcases Finset.mem_insert.mp hmem with hpair | hmem
    · obtain ⟨rfl, rfl⟩ := Prod.mk.inj hpair
      refine hno ⟨auth, req, rfl, IsAccount.eq ha howner heq, ?_⟩
      rw [serve_add hu]
    · exact h handle heq hmem
  · exact h handle heq (hs.relations hmem)

theorem Gone.read {st : Stores} {a : Env × Request} {owner viewer : String}
    (h : Gone st owner viewer) (hread : Reads a.2 owner viewer) (henv : SharesDecide a.1) :
    (serve st a.1 a.2).2.status = 404 := by
  obtain ⟨env, r⟩ := a
  cases r with
  | add auth req => exact hread.elim
  | delete auth text => exact hread.elim
  | summary auth handle =>
    obtain ⟨rfl, heq⟩ := hread
    change (friendSummary st env auth handle).2.status = 404
    unfold friendSummary
    split_ifs
    · rfl
    · rw [friendRead_of_not_mem _ _ henv (h handle heq)]
      rfl
  | timeline auth handle days =>
    obtain ⟨rfl, heq, hdays⟩ := hread
    change (friendTimeline st env auth handle days).2.status = 404
    unfold friendTimeline
    split_ifs
    · rfl
    · obtain ⟨d, hd⟩ := Option.ne_none_iff_exists'.mp hdays
      simp only [hd]
      rw [friendRead_of_not_mem _ _ henv (h handle heq)]
      rfl

theorem Gone.staysRevoked {users : Users} {st : Stores} {owner viewer : String}
    (h : Gone st owner viewer) (howner : IsAccount users owner) :
    StaysRevoked users st owner viewer := by
  intro later hfrom hno n a hn hread henv
  refine Gone.read ?_ hread henv
  refine @invariant_take_of _ _ Sharing.step st (fun st => Gone st owner viewer)
    (fun st a => FromAccount users a ∧ ¬ Grants st a owner viewer) h
    (fun _ _ hg hc => hg.step howner hc.1 hc.2) later (fun m b hb => ?_) n
  exact ⟨hfrom b (List.mem_of_getElem? hb), hno m b hb⟩

theorem relations_deleteShare {st : Stores} {env : Env} {auth : AuthenticatedUser} {text : String}
    (h : (deleteShare st env auth text).2 = .revoked true) : (deleteShare st env auth text).1.relations =
      st.relations.erase (auth.preferredUsername, trim text) := by
  unfold deleteShare at h ⊢
  split_ifs at h ⊢ <;> first | rfl | cases h

/-- While a relation is there, and its metadata cannot be read, it gives access. -/
def relationOnly : Env where
  now := 0
  spicedb := true
  fails c := c = .findExpiry || c = .findScope
  isUuid _ := true
  rfc3339 _ := ""
  recentGrants := 0
  otherAccess := false

theorem serve_relationOnly {st : Stores} {owner viewer : String} (hvalid : validateHandle owner = true)
    (h : (owner, viewer) ∈ st.relations) :
    (serve st relationOnly (.summary ⟨"", viewer, .user, none⟩ owner)).2.status = 200 := by
  change (friendSummary st relationOnly ⟨"", viewer, .user, none⟩ owner).2.status = 200
  have hview : checkViewWithExpiry st relationOnly owner viewer = (st, some true) := by
    simp [checkViewWithExpiry, checkView, relationOnly, h]
  have hscope : scopeOf st relationOnly owner viewer = none := rfl
  simp only [friendSummary, hvalid, friendRead, hview, hscope]
  rfl

theorem StaysRevoked.not_mem {users : Users} {st : Stores} {owner viewer : String}
    (h : StaysRevoked users st owner viewer) (hknown : Known users st)
    (hvalid : validateHandle owner = true) : (owner, viewer) ∉ st.relations := by
  intro hmem
  have hread := h [(relationOnly, .summary ⟨"", viewer, .user, none⟩ owner)] ?_ ?_ 0 _ rfl ⟨rfl, rfl⟩
    ⟨rfl, rfl, rfl⟩
  · have hserve := serve_relationOnly hvalid hmem
    rw [show run st (List.take 0 _) = st from rfl, hserve] at hread
    cases hread
  · intro a ha
    obtain rfl := List.mem_singleton.mp ha
    exact (hknown.relations owner viewer hmem).2
  · rintro n a hn ⟨auth, req, hreq, -⟩
    obtain rfl := List.mem_singleton.mp (List.mem_of_getElem? hn)
    cases hreq

/-- **A share that was revoked stays so exactly if it was revoked under the handle of the account as it
is written there**, or if there was none. -/
theorem staysRevoked_iff {users : Users} {events : List EventRow} {before : List (Env × Request)}
    {env : Env} {auth : AuthenticatedUser} {text viewer : String}
    (hbefore : ∀ a ∈ before, FromAccount users a)
    (howner : IsAccount users auth.preferredUsername)
    (hvalid : validateHandle auth.preferredUsername = true)
    (hanswer : (deleteShare (run (fresh users events) before) env auth text).2 = .revoked true) :
    StaysRevoked users (deleteShare (run (fresh users events) before) env auth text).1
        auth.preferredUsername viewer ↔
      trim text = viewer ∨
        (auth.preferredUsername, viewer) ∉ (run (fresh users events) before).relations := by
  have hknown := (known_fresh users events).run hbefore
  have hknown' := hknown.shrinks (shrinks_deleteShare _ env auth text)
  have hrel : (auth.preferredUsername, viewer) ∉
        (deleteShare (run (fresh users events) before) env auth text).1.relations ↔
      trim text = viewer ∨
        (auth.preferredUsername, viewer) ∉ (run (fresh users events) before).relations := by
    rw [relations_deleteShare hanswer, Finset.mem_erase, not_and_or, not_not, Prod.mk.injEq]
    simp only [true_and, eq_comm]
  rw [← hrel]
  constructor
  · exact fun h => h.not_mem hknown' hvalid
  · exact fun h => (hknown'.gone howner h).staysRevoked howner

/-! ### One share -/

def owner : AuthenticatedUser := ⟨"o", "Owner", .user, none⟩

def friend : AuthenticatedUser := ⟨"f", "Friend", .user, none⟩

/-- Two accounts. -/
def pair : Users :=
  (Table.empty.insert ⟨"o", "Owner", some 0, none⟩).insert ⟨"f", "Friend", some 0, none⟩

/-- Nothing fails. -/
def calm (now : ℤ) : Env := ⟨now, true, fun _ => false, fun _ => true, fun _ => "", 0, false⟩

/-- A share with the friend. -/
def grantFriend (expiresAt : Option ℤ) (scope : Option ShareScope) : Request :=
  .add owner ⟨"Friend", expiresAt, none, scope⟩

theorem contents_pair :
    pair.contents = [⟨"o", "Owner", some 0, none⟩, ⟨"f", "Friend", some 0, none⟩] := by
  have hfree : User.key ⟨"f", "Friend", some 0, none⟩ ∉
      (Table.empty.insert ⟨"o", "Owner", some 0, none⟩ : Users).keys := by decide +kernel
  rw [pair, Table.contents, Table.rows_insert_of_not_mem hfree]
  rfl

theorem isAccount_owner : IsAccount pair "Owner" := by
  refine ⟨⟨"o", "Owner", some 0, none⟩, ?_, rfl⟩
  rw [contents_pair]
  exact List.mem_cons_self

theorem isAccount_friend : IsAccount pair "Friend" := by
  refine ⟨⟨"f", "Friend", some 0, none⟩, ?_, rfl⟩
  rw [contents_pair]
  exact List.mem_cons_of_mem _ List.mem_cons_self

theorem fromAccount_grantFriend {env : Env} {expiresAt : Option ℤ} {scope : Option ShareScope} :
    ∀ a ∈ [(env, grantFriend expiresAt scope)], FromAccount pair a := by
  intro a ha
  obtain rfl := List.mem_singleton.mp ha
  exact isAccount_owner

theorem staysRevoked_friend :
    StaysRevoked pair (deleteShare (run (fresh pair []) [(calm 0, grantFriend none none)]) (calm 1)
      owner "Friend").1 "Owner" "Friend" :=
  (staysRevoked_iff fromAccount_grantFriend isAccount_owner (by decide +kernel)
    (by decide +kernel)).mpr (Or.inl (by decide +kernel))

/-- Revoked in lower case, the share is still there. -/
theorem not_staysRevoked_lowerCase :
    lower (trim "friend") = lower "Friend" ∧
      (deleteShare (run (fresh pair []) [(calm 0, grantFriend none none)]) (calm 1) owner
        "friend").2 = .revoked true ∧
      ¬ StaysRevoked pair (deleteShare (run (fresh pair []) [(calm 0, grantFriend none none)]) (calm 1)
        owner "friend").1 "Owner" "Friend" := by
  refine ⟨by decide +kernel, by decide +kernel, fun h => ?_⟩
  have hreads : Reads (.summary friend "Owner") "Owner" "Friend" := ⟨rfl, rfl⟩
  have hread := h [(calm 2, .summary friend "Owner")] ?_ ?_ 0 _ rfl hreads ⟨rfl, rfl, rfl⟩
  · exact absurd hread (by decide +kernel)
  · intro a ha
    obtain rfl := List.mem_singleton.mp ha
    exact isAccount_friend
  · rintro n a hn ⟨auth, req, hreq, -⟩
    obtain rfl := List.mem_singleton.mp (List.mem_of_getElem? hn)
    cases hreq

end StarStats.Server.Sharing
