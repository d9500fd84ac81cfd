import StarStats.Server.OrgOwners

/-! # Organisations with the slug of another

A slug is free again when the row of its organisation is gone. The relations may be there still: the
cleanup stops at the first call that fails and the row goes all the same, and no relation goes with the
row of an organisation whose creator is deleted. A new organisation starts with its creator alone exactly
in those runs in which nothing of this is left when its slug is given out again (`startsEmpty_iff`). -/

namespace StarStats.Server.Directory

open StarStats.Lib.Text StarStats.Lib.Tables StarStats.Lib.Runs
open StarStats.Server.Auth StarStats.Server.Accounts StarStats.Server.Queries
open StarStats.Server.Sharing StarStats.Server.Spicedb StarStats.Server.Orgs

/-! ### Statement -/

/-- A role in the organisation, or a record shared with it. -/
def Grant.OnOrg (slug : String) : Grant → Prop
  | .org _ s | .role s _ _ => s = slug
  | .view .. | .everyone _ => False

/-- The same, but for the roles of its creator. -/
def Grant.Foreign (slug creator : String) : Grant → Prop
  | .org _ s => s = slug
  | .role s _ user => s = slug ∧ user ≠ creator
  | .view .. | .everyone _ => False

/-- The request creates an organisation. -/
def Creates (w : World) (a : WorldEnv × Request) (auth : AuthenticatedUser) (org : Org) : Prop :=
  ∃ name, a.2 = .createOrg auth name ∧ answer w a = .created org

section Histories
variable (events : List EventRow) (as : List (WorldEnv × Request))

/-- Nobody is made a member, and nothing is shared, between two states of a run. -/
def Untouched (slug : String) (n m : ℕ) : Prop :=
  ∀ k b g, n < k → k < m → as[k]? = some b → grantOf (run events (as.take k)) b = some g →
    ¬ g.OnOrg slug

/-- **A new organisation starts with its creator alone**, whatever had its slug before. -/
structure StartsEmpty : Prop where
  owner : ∀ n a auth org, as[n]? = some a → Creates (run events (as.take n)) a auth org →
    Holds (run events (as.take (n + 1))) (.role org.slug .owner auth.preferredUsername)
  members : ∀ n a auth org m role user, as[n]? = some a →
    Creates (run events (as.take n)) a auth org → n < m → Untouched events as org.slug n m →
      Holds (run events (as.take m)) (.role org.slug role user) → user = auth.preferredUsername
  shares : ∀ n a auth org m record, as[n]? = some a →
    Creates (run events (as.take n)) a auth org → n < m → Untouched events as org.slug n m →
      ¬ Holds (run events (as.take m)) (.org record org.slug)

end Histories

/-- The row is one that the request deletes; rows go by their ids. -/
def Drops (w : World) (a : WorldEnv × Request) (org : Org) : Prop :=
  match a.2 with
  | .deleteOrg auth slug => ∃ o, reached w a.1 auth w.rel.manageOrg slug = some o ∧
      a.1.fails .deleteOrg = false ∧ org.id = o.id
  | .createOrg auth name => ∃ o, newOrg w a.1 auth name = some o ∧
      ¬ (a.1.share.spicedb = true ∧ a.1.fails .writeRole = false) ∧ a.1.fails .rollback = false ∧
        org.id = o.id
  | .deleteAccount auth _ => ∃ u, findById w.stores.users auth.sub = some u ∧
      answer w a = .accountDeleted ∧ org.ownerUserId = u.id
  | _ => False

/-- A call of the cleanup that the grant waits for fails. -/
def Missed (env : WorldEnv) : Grant → Prop
  | .role _ role _ => ∃ r ∈ Relations.upTo role, env.fails (.deleteRole r) = true
  | .org _ _ => env.fails .deleteShares = true ∨ ∃ r, env.fails (.deleteRole r) = true
  | .view .. | .everyone _ => True

/-- The request cleans the grant up. -/
def Cleans (a : WorldEnv × Request) (g : Grant) : Prop :=
  ∃ auth slug, a.2 = .deleteOrg auth slug ∧ g.OnOrg slug ∧ ¬ Missed a.1 g

/-- The row goes and the grant is left. -/
structure Leaves (w : World) (a : WorldEnv × Request) (slug : String) (g : Grant) : Prop where
  holds : Holds w g
  onOrg : g.OnOrg slug
  drops : ∃ org ∈ w.orgs.contents, org.slug = slug ∧ Drops w a org
  uncleaned : ¬ Cleans a g

/-- What was left of an organisation does not stand when its slug is given out again. -/
def CleanedUp (events : List EventRow) (as : List (WorldEnv × Request)) : Prop :=
  ∀ k n a b auth org g, k < n → as[k]? = some a → Leaves (run events (as.take k)) a org.slug g →
    as[n]? = some b → Creates (run events (as.take n)) b auth org →
      g.Foreign org.slug auth.preferredUsername → ¬ Holds (run events (as.take n)) g

/-! ### One request -/

section Steps
variable {w : World} {env : WorldEnv} {auth : AuthenticatedUser} {slug : String} {g : Grant}

theorem Grant.Foreign.onOrg {creator : String} (h : g.Foreign slug creator) : g.OnOrg slug := by
  cases g with
  | org record s => exact h
  | role s role user => exact h.1
  | _ => exact h

/-- Grants of organisations go by two sets of relations. -/
theorem holds_congr {w' : World} (hon : g.OnOrg slug) (hroles : w'.rel.roles = w.rel.roles)
    (hshares : w'.rel.shareWithOrg = w.rel.shareWithOrg) : Holds w' g ↔ Holds w g := by
  cases g with
  | org record s =>
    unfold Holds
    rw [hshares]
  | role s role user =>
    unfold Holds
    rw [hroles]
  | _ => cases hon

theorem Creates.exists_eq {a : WorldEnv × Request} {org : Org} (h : Creates w a auth org) :
    ∃ env name, a = (env, .createOrg auth name) ∧ (createOrg w env auth name).2 = .created org := by
  obtain ⟨env, r⟩ := a
  obtain ⟨name, hreq, hanswer⟩ := h
  obtain rfl : r = .createOrg auth name := hreq
  exact ⟨env, name, rfl, hanswer⟩

theorem createOrg_created {name : String} {org : Org} :
    (createOrg w env auth name).2 = .created org ↔ newOrg w env auth name = some org ∧
      env.share.spicedb = true ∧ env.fails .writeRole = false := by
  cases hnew : newOrg w env auth name with
  | none => exact iff_of_false ((createOrg_of_none hnew).2 org) fun h => by simp at h
  | some o =>
    rw [createOrg_of_some hnew]
    by_cases hwritten : env.share.spicedb = true ∧ env.fails .writeRole = false
    · rw [if_pos hwritten]
      simp [hwritten]
    · rw [if_neg hwritten]
      refine iff_of_false ?_ fun h => hwritten h.2
      simp only
      split_ifs <;> simp

theorem holds_created {name : String} {org : Org}
    (h : (createOrg w env auth name).2 = .created org) (hold : Holds w g) :
    Holds (createOrg w env auth name).1 g := by
  obtain ⟨hnew, hwritten⟩ := createOrg_created.mp h
  rw [createOrg_of_some hnew, if_pos hwritten]
  cases g with
  | role s role user => exact Finset.mem_insert_of_mem hold
  | _ => exact hold

theorem holds_owner {name : String} {org : Org} (h : (createOrg w env auth name).2 = .created org)
    (hg : g = .role org.slug .owner auth.preferredUsername) : Holds (createOrg w env auth name).1 g := by
  obtain ⟨hnew, hwritten⟩ := createOrg_created.mp h
  have hgranted : (⟨org.slug, .owner, auth.preferredUsername⟩ : String × OrgRole × String) ∈
      (w.rel.writeOrgRole org.slug auth.preferredUsername .owner).roles := Finset.mem_insert_self _ _
  rw [createOrg_of_some hnew, if_pos hwritten, hg]
  exact hgranted

/-- What a cleanup leaves waited for a call that failed. -/
theorem missed_of_holds {orgs : OrgTable} (hon : g.OnOrg slug)
    (h : Holds { w with
      rel := (Relations.deleteAllOrgRelationships (fun role => env.fails (.deleteRole role))
        (env.fails .deleteShares) w.rel slug).1
      orgs := orgs } g) : Missed env g := by
  cases g with
  | role s role user =>
    obtain rfl : s = slug := hon
    simp only [Holds, Relations.roles_deleteAllOrgRelationships, Relations.mem_roles_deleteRoles,
      Relations.mem_calledRoles] at h
    by_contra hmissed
    refine h.2 ⟨fun r hr => ?_, by simp⟩
    by_contra hfails
    exact hmissed ⟨r, hr, by simpa using hfails⟩
  | org record s =>
    obtain rfl : s = slug := hon
    simp only [Holds, Relations.mem_shareWithOrg_deleteAllOrgRelationships] at h
    by_contra hmissed
    simp only [Missed, not_or, not_exists, Bool.not_eq_true] at hmissed
    exact h.2 ⟨trivial, hmissed.1, fun role _ => hmissed.2 role⟩
  | _ => cases hon

theorem deleted_of_not_mem {orgs : OrgTable} {p : Org → Bool} {org : Org} (horg : org ∈ orgs.contents)
    (h : org.slug ∉ (orgs.deleteWhere p).keys) : p org = true := by
  by_contra hp
  refine h ?_
  obtain ⟨row, hrow, rfl⟩ := Table.mem_contents.mp
    (Table.mem_contents_deleteWhere.mpr ⟨horg, by simpa using hp⟩)
  exact Table.mem_keys.mpr ⟨row, hrow, rfl⟩

theorem mem_keys_orgs_insert {org : Org} {orgs : OrgTable} (h : slug ∈ orgs.keys) :
    slug ∈ (orgs.insert org).keys := Table.mem_keys_insert.mpr (Or.inl h)

/-- A row that goes, and a grant that stays. -/
theorem leaves_of_deleteWhere {r : Request} {p : Org → Bool} {orgs : OrgTable}
    (horgs : ∀ org ∈ w.orgs.contents, org ∈ orgs.contents) (hon : g.OnOrg slug) (hg : Holds w g)
    (hdrops : ∀ org ∈ w.orgs.contents, p org = true → Drops w (env, r) org)
    (hcleans : ¬ Cleans (env, r) g) (hkeys : slug ∉ (orgs.deleteWhere p).keys) :
    Leaves w (env, r) slug g ∨ Holds w g ∧ slug ∉ w.orgs.keys := by
  by_cases hrow : slug ∈ w.orgs.keys
  · obtain ⟨org, horg, rfl⟩ := mem_keys_orgs.mp hrow
    have hdeleted : p org = true := deleted_of_not_mem (horgs org horg) hkeys
    exact Or.inl ⟨hg, hon, ⟨org, horg, rfl, hdrops org horg hdeleted⟩, hcleans⟩
  · exact Or.inr ⟨hg, hrow⟩

theorem created_or_before {name : String} {org : Org} (hnew : newOrg w env auth name = some org)
    (hon : g.OnOrg slug) (h : Holds (createOrg w env auth name).1 g)
    (hkeys : slug ∉ (createOrg w env auth name).1.orgs.keys) :
    Leaves w (env, .createOrg auth name) slug g ∨ Holds w g ∧ slug ∉ w.orgs.keys := by
  have hcleans : ¬ Cleans (env, .createOrg auth name) g := by
    rintro ⟨_, _, hreq, -⟩
    cases hreq
  rw [createOrg_of_some hnew] at h hkeys
  by_cases hwritten : env.share.spicedb = true ∧ env.fails .writeRole = false
  · rw [if_pos hwritten] at h hkeys
    have hne : slug ≠ org.slug := by
      rintro rfl
      exact hkeys (Table.key_mem_keys_insert _ _)
    refine Or.inr ⟨?_, fun hrow => hkeys (mem_keys_orgs_insert hrow)⟩
    cases g with
    | role s role user =>
      obtain rfl : s = slug := hon
      have hmem : (s, role, user) ∈
          (w.rel.writeOrgRole org.slug auth.preferredUsername .owner).roles := h
      rcases Finset.mem_insert.mp hmem with heq | hold
      · exact absurd (Prod.mk.inj heq).1 hne
      · exact hold
    | _ => exact h
  · rw [if_neg hwritten] at h hkeys
    unfold rollback at h hkeys
    simp only at h hkeys
    split_ifs at h hkeys with hfails
    · exact Or.inr ⟨(holds_congr hon rfl rfl).mp h, fun hrow => hkeys (mem_keys_orgs_insert hrow)⟩
    · refine leaves_of_deleteWhere (fun o ho => ?_) hon ((holds_congr hon rfl rfl).mp h)
        (fun o _ hid => ?_) hcleans hkeys
      · exact (mem_orgs_insert (newOrg_slug hnew).1).mpr (Or.inl ho)
      · exact ⟨org, hnew, hwritten, by simpa using hfails, by simpa using hid⟩

theorem deleted_or_before {s : String} {org : Org}
    (hreach : reached w env auth w.rel.manageOrg s = some org) (hon : g.OnOrg slug)
    (h : Holds (deleteOrg w env auth s).1 g) (hkeys : slug ∉ (deleteOrg w env auth s).1.orgs.keys) :
    Leaves w (env, .deleteOrg auth s) slug g ∨ Holds w g ∧ slug ∉ w.orgs.keys := by
  have hbefore : Holds w g := (fewer_deleteOrg w env auth s).holds g h
  obtain ⟨-, hs⟩ := mem_of_findBySlug (reached_eq_some.mp hreach).2.1
  rw [deleteOrg_of_some hreach, hs] at h hkeys
  simp only at h hkeys
  split_ifs at h hkeys with hfails
  · exact Or.inr ⟨hbefore, hkeys⟩
  · have hcleans : ¬ Cleans (env, .deleteOrg auth s) g := by
      rintro ⟨auth', s', hreq, hon', hmissed⟩
      obtain ⟨-, rfl⟩ := Request.deleteOrg.inj hreq
      exact hmissed (missed_of_holds hon' h)
    refine leaves_of_deleteWhere (fun o ho => ho) hon hbefore (fun o _ hid => ?_) hcleans hkeys
    exact ⟨org, hreach, by simpa using hfails, by simpa using hid⟩

theorem accountDeleted_or_before {confirmHandle : String} {u : User}
    (hfind : findById w.stores.users auth.sub = some u)
    (heq : deleteAccount w env auth confirmHandle = (deleteUser w env u, .accountDeleted))
    (hon : g.OnOrg slug) (h : Holds (deleteAccount w env auth confirmHandle).1 g)
    (hkeys : slug ∉ (deleteAccount w env auth confirmHandle).1.orgs.keys) :
    Leaves w (env, .deleteAccount auth confirmHandle) slug g ∨ Holds w g ∧ slug ∉ w.orgs.keys := by
  rw [heq] at h hkeys
  have hcleans : ¬ Cleans (env, .deleteAccount auth confirmHandle) g := by
    rintro ⟨_, _, hreq, -⟩
    cases hreq
  have hanswer : answer w (env, .deleteAccount auth confirmHandle) = .accountDeleted :=
    congrArg Prod.snd heq
  refine leaves_of_deleteWhere (fun o ho => ho) hon (holds_deleteUser.mp h) (fun o _ hid => ?_) hcleans
    hkeys
  exact ⟨u, hfind, hanswer, by simpa using hid⟩

/-- A request that writes a relation for a row leaves the row where it is. -/
theorem before_of_row {w' : World} {org : Org} (h : Holds w' g) (horg : org ∈ w.orgs.contents)
    (horgs : w'.orgs = w.orgs) (hholds : Holds w' g → Holds w g ∨ g.OnOrg org.slug)
    (hon : g.OnOrg slug) (hkeys : slug ∉ w'.orgs.keys) : Holds w g ∧ slug ∉ w.orgs.keys := by
  rw [horgs] at hkeys
  refine ⟨(hholds h).resolve_right fun hon' => hkeys ?_, hkeys⟩
  have hslug : org.slug = slug := by
    cases g with
    | org record s => exact hon'.symm.trans hon
    | role s role user => exact hon'.symm.trans hon
    | _ => cases hon
  exact mem_keys_orgs.mpr ⟨org, horg, hslug⟩

/-- **What stands for a slug without a row** was left by the request, or stood without a row before. -/
theorem leaves_or_before {a : WorldEnv × Request} (hon : g.OnOrg slug) (h : Holds (step w a) g)
    (hkeys : slug ∉ (step w a).orgs.keys) :
    Leaves w a slug g ∨ Holds w g ∧ slug ∉ w.orgs.keys := by
  obtain ⟨env, r⟩ := a
  unfold step at h hkeys
  rcases orgChange w env r with hsame | ⟨hfind, heq⟩ | ⟨horg, heq⟩ | heq | hnew | hreach | ⟨horg, heq⟩ |
    ⟨hvalid, hreach⟩
  · rw [hsame.orgs] at hkeys
    exact Or.inr ⟨(holds_congr hon hsame.roles hsame.shares).mp h, hkeys⟩
  · rename_i auth confirmHandle u
    simp only [serve] at h hkeys
    exact accountDeleted_or_before hfind heq hon h hkeys
  · simp only [serve, heq] at h hkeys
    refine Or.inr (before_of_row h horg rfl (fun hg => ?_) hon hkeys)
    cases g with
    | org record s =>
      rcases Finset.mem_insert.mp hg with hnew | hold
      · exact Or.inr (Prod.mk.inj hnew).2
      · exact Or.inl hold
    | role s role user => exact Or.inl hg
    | _ => cases hon
  · simp only [serve, heq] at h hkeys
    exact Or.inr ⟨(fewer_of_le (Relations.le_deleteShareWithOrg _ _ _)).holds g h, hkeys⟩
  · rename_i auth name org
    simp only [serve] at h hkeys
    exact created_or_before hnew hon h hkeys
  · rename_i auth s org
    simp only [serve] at h hkeys
    exact deleted_or_before hreach hon h hkeys
  · simp only [serve, heq] at h hkeys
    refine Or.inr (before_of_row h horg rfl (fun hg => ?_) hon hkeys)
    cases g with
    | org record s => exact Or.inl hg
    | role s role user =>
      rcases Finset.mem_insert.mp hg with hnew | hold
      · exact Or.inr (Prod.mk.inj hnew).1
      · exact Or.inl hold
    | _ => cases hon
  · rename_i auth s handle org
    have hbefore : Holds w g := (fewer_removeMember w env auth s handle).holds g h
    simp only [serve, removeMember_of_some hvalid hreach] at hkeys
    exact Or.inr ⟨hbefore, hkeys⟩

end Steps

/-! ### Runs -/

section Runs
variable {events : List EventRow} {as : List (WorldEnv × Request)}

/-- What stands for a slug without a row was left by a request of the run. -/
theorem left_of_holds {slug : String} {g : Grant} (hon : g.OnOrg slug) :
    ∀ n, Holds (run events (as.take n)) g → slug ∉ (run events (as.take n)).orgs.keys →
      ∃ k a, k < n ∧ as[k]? = some a ∧ Leaves (run events (as.take k)) a slug g
  | 0, h, _ => by
    have hstart : ¬ Holds (start events) g := by cases g <;> simp [Holds, start, Relations.empty]
    exact absurd h hstart
  | n + 1, h, hkeys => by
    cases ha : as[n]? with
    | none =>
      rw [run_take_of_none ha] at h hkeys
      obtain ⟨k, a, hk, hak, hleaves⟩ := left_of_holds hon n h hkeys
      exact ⟨k, a, by omega, hak, hleaves⟩
    | some a =>
      rw [run_succ ha] at h hkeys
      rcases leaves_or_before hon h hkeys with hleaves | ⟨hbefore, hrow⟩
      · exact ⟨n, a, by omega, ha, hleaves⟩
      · obtain ⟨k, b, hk, hb, hleaves⟩ := left_of_holds hon n hbefore hrow
        exact ⟨k, b, by omega, hb, hleaves⟩

theorem untouched_succ (slug : String) (n : ℕ) : Untouched events as slug n (n + 1) := by
  intro k b g hnk hk
  omega

/-- In a run that cleans up, what stands for a new organisation before anybody touches it is its
creator's. -/
theorem not_holds_foreign (h : CleanedUp events as) {n m : ℕ} {a : WorldEnv × Request}
    {auth : AuthenticatedUser} {org : Org} {g : Grant} (ha : as[n]? = some a)
    (hcreates : Creates (run events (as.take n)) a auth org) (hnm : n < m)
    (hnone : Untouched events as org.slug n m) (hg : g.Foreign org.slug auth.preferredUsername) :
    ¬ Holds (run events (as.take m)) g := by
  intro hholds
  have hmade := @holds_or_made _ _ step (start events) (fun w => Holds w g)
    (fun w a => grantOf w a = some g) (fun _ _ hs => holds_step hs) as (n + 1) m hnm hholds
  rcases hmade with hnext | ⟨k, b, hk, hkm, hb, hgrant⟩
  swap
  · exact hnone k b g hk hkm hb hgrant hg.onOrg
  obtain ⟨env, name, rfl, hcreated⟩ := hcreates.exists_eq
  have hstep : Holds (step (run events (as.take n)) (env, .createOrg auth name)) g := by
    rw [← run_succ ha]
    exact hnext
  rcases holds_step hstep with hbefore | hgrant
  · have hfree := (newOrg_slug (createOrg_created.mp hcreated).1).1
    obtain ⟨k, b, hk, hb, hleaves⟩ := left_of_holds hg.onOrg n hbefore hfree
    exact h k n b _ auth org g hk hb hleaves ha hcreates hg hbefore
  · have hanswer : answer (run events (as.take n)) (env, .createOrg auth name) = .created org := hcreated
    unfold grantOf at hgrant
    simp only [hanswer] at hgrant
    obtain rfl := Option.some.inj hgrant
    exact hg.2 rfl

theorem holds_owner_next {n : ℕ} {a : WorldEnv × Request} {auth : AuthenticatedUser} {org : Org}
    {g : Grant} (ha : as[n]? = some a) (hcreates : Creates (run events (as.take n)) a auth org)
    (hg : g = .role org.slug .owner auth.preferredUsername) :
    Holds (run events (as.take (n + 1))) g := by
  obtain ⟨env, name, rfl, hcreated⟩ := hcreates.exists_eq
  have howner := holds_owner hcreated hg
  rw [run_succ ha]
  unfold step
  simp only [serve]
  exact howner

theorem holds_next {n : ℕ} {a : WorldEnv × Request} {auth : AuthenticatedUser} {org : Org} {g : Grant}
    (ha : as[n]? = some a) (hcreates : Creates (run events (as.take n)) a auth org)
    (h : Holds (run events (as.take n)) g) : Holds (run events (as.take (n + 1))) g := by
  obtain ⟨env, name, rfl, hcreated⟩ := hcreates.exists_eq
  have hnext := holds_created hcreated h
  rw [run_succ ha]
  unfold step
  simp only [serve]
  exact hnext

theorem startsEmpty_iff (events : List EventRow) (as : List (WorldEnv × Request)) :
    StartsEmpty events as ↔ CleanedUp events as := by
  constructor
  · rintro h k n a b auth org g - - - hb hcreates hg hholds
    have hnext := holds_next hb hcreates hholds
    cases g with
    | org record s =>
      obtain rfl : s = org.slug := hg
      exact h.shares n b auth org (n + 1) record hb hcreates (by omega) (untouched_succ _ _) hnext
    | role s role user =>
      obtain ⟨hs, hne⟩ := hg
      rw [hs] at hnext
      exact hne (h.members n b auth org (n + 1) role user hb hcreates (by omega) (untouched_succ _ _)
        hnext)
    | _ => cases hg
  · intro h
    refine ⟨fun n a auth org ha hcreates => holds_owner_next ha hcreates rfl,
      fun n a auth org m role user ha hcreates hnm hnone hholds => ?_,
      fun n a auth org m record ha hcreates hnm hnone => ?_⟩
    · by_contra hne
      have hforeign : Grant.Foreign org.slug auth.preferredUsername (.role org.slug role user) := ⟨rfl, hne⟩
      exact not_holds_foreign h ha hcreates hnm hnone hforeign hholds
    · have hforeign : Grant.Foreign org.slug auth.preferredUsername (.org record org.slug) := rfl
      exact not_holds_foreign h ha hcreates hnm hnone hforeign

end Runs

/-! ### Two crews -/

/-- A cleanup that fails at its first call. -/
def calmButCleanup : WorldEnv := { calm with fails := fun c => c = .deleteRole .owner }

/-- Ann's organisation with Bob in it is deleted, and Bob makes one of the same name. -/
def crewTwice : List (WorldEnv × Request) :=
  [(calm, .signUp ann), (calm, .signUp bob), (calm, .createOrg (tokenOf ann) "Crew"),
    (calmButCleanup, .deleteOrg (tokenOf ann) "crew"), (calm, .createOrg (tokenOf bob) "Crew")]

/-- Ann owns Bob's organisation. -/
theorem not_startsEmpty_crewTwice : ¬ StartsEmpty [] crewTwice := by
  intro h
  have hann := h.members 4 (calm, .createOrg (tokenOf bob) "Crew") (tokenOf bob) ⟨"0", "Crew", "crew", "2"⟩
    5 .owner "Ann" rfl ⟨"Crew", rfl, by decide +kernel⟩ (by omega) (fun k b g hk hk' => by omega)
    (by unfold Holds; decide +kernel)
  exact absurd hann (by decide)

end StarStats.Server.Directory
