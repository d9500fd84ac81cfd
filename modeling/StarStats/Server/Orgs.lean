import Mathlib.Data.List.DropRight
import StarStats.Server.Spicedb

/-! # Organisations

A row of the table of organisations gives a slug its name and creator; who belongs to an organisation is
known to the permission service only. The slug is made from the name, with a number behind it where it
is taken, and names the organisation in both. -/

namespace StarStats.Server.Orgs

open StarStats.Lib.Text StarStats.Lib.Tables
open StarStats.Server.Auth StarStats.Server.Accounts StarStats.Server.Queries
open StarStats.Server.Sharing StarStats.Server.Spicedb

/-! ### Slugs -/

/-- The longest slug. -/
def slugMaxLen : ℕ := 64

/-- One letter of a name: what has come so far, and whether it ends in a dash. -/
def slugStep (s : List Char × Bool) (ch : Char) : List Char × Bool :=
  if ch.isAlphanum then (s.1 ++ [ch.toLower], false)
  else if !s.2 && !s.1.isEmpty then (s.1 ++ ['-'], true)
  else s

/-- No dash at the end. -/
def trimDashes (out : List Char) : List Char := out.rdropWhile (· = '-')

/-- A dash for each run of other characters, none at the ends, and cut to the longest. -/
def slugify (input : String) : String :=
  let out := trimDashes (input.toList.foldl slugStep ([], false)).1
  String.ofList (if slugMaxLen < out.length then trimDashes (out.take slugMaxLen) else out)

/-- The base gives way so that the suffix fits. -/
def slugWithSuffix (base : String) (n : ℕ) : String :=
  let suffix := "-" ++ toString n
  String.ofList (trimDashes (base.toList.take (slugMaxLen - suffix.length))) ++ suffix

/-- The last suffix tried. -/
def slugCollisionMax : ℕ := 9

/-- The slugs that are tried for a name, in order. -/
def slugCandidates (base : String) : List String :=
  base :: (List.range slugCollisionMax).map fun i => slugWithSuffix base (i + 2)

/-- Lower case, digits and dashes. -/
def validateSlug (slug : String) : Bool :=
  slug ≠ "" && slug.utf8ByteSize ≤ slugMaxLen &&
    slug.toList.all fun c => c.isLower || c.isDigit || c = '-'

/-! ### The stores -/

/-- A row of `orgs`. -/
structure Org where
  id : String
  name : String
  slug : String
  ownerUserId : String
  deriving DecidableEq

/-- The table; a slug is given once. -/
abbrev OrgTable := Table Org.slug

/-- The organisation of a slug. -/
def findBySlug (orgs : OrgTable) (slug : String) : Option Org := (orgs.find? slug).map (·.2)

/-- The stores of the server, as far as it is about who may see what. -/
structure World where
  stores : Stores
  rel : Relations
  orgs : OrgTable

/-- The calls of a request that may fail, besides those of shares. -/
inductive OrgCall where
  | findBySlug | create | rollback | writeRole | deleteRole (role : OrgRole) | deleteShares
  | deleteOrg | writeOwner | publicView | shareWithOrg | deleteUser | audit
  deriving DecidableEq

/-- The environment of a request; `uuid` is the id that it draws. -/
structure WorldEnv where
  share : Env
  fails : OrgCall → Bool
  uuid : String

inductive Answer where
  | share (reply : Reply)
  | error (status : ℕ) (code : String)
  /-- A 404 without a body. -/
  | notFound
  | signedUp
  | accountDeleted
  | visibility (isPublic : Bool)
  | sharedWithOrg (slug : String)
  | unsharedWithOrg
  | created (org : Org)
  | added
  | removed
  | orgDeleted
  deriving DecidableEq

/-! ### Handlers -/

section Handlers
variable (w : World) (env : WorldEnv) (auth : AuthenticatedUser)

/-- The row of an organisation whose owner could not be written is taken away again. -/
def rollback (org : Org) : World :=
  if env.fails .rollback then w else { w with orgs := w.orgs.deleteWhere (·.id = org.id) }

/-- The row comes first; it is taken back if its creator cannot be made the owner. -/
def createOrg (name : String) : World × Answer :=
  let name := trim name
  if name = "" then (w, .error 400 "invalid_name")
  else if slugify name = "" then (w, .error 400 "invalid_name")
  else if !env.share.isUuid auth.sub then (w, .error 401 "invalid_subject")
  else if env.fails .create then (w, .error 500 "internal")
  else
    match (slugCandidates (slugify name)).find? (· ∉ w.orgs.keys) with
    | none => (w, .error 409 "slug_collision")
    | some slug =>
      -- The creator is a foreign key.
      if findById w.stores.users auth.sub = none then (w, .error 500 "internal")
      else
        let org : Org := ⟨env.uuid, name, slug, auth.sub⟩
        let w' := { w with orgs := w.orgs.insert org }
        if !env.share.spicedb then (rollback w' env org, .error 503 "spicedb_unavailable")
        else if env.fails .writeRole then (rollback w' env org, .error 500 "spicedb_error")
        else
          ({ w' with rel := w'.rel.writeOrgRole slug auth.preferredUsername .owner }, .created org)

/-- A check of a permission, or the answer to a request that does not pass it. -/
def gate (allowed : Bool) : Option Answer :=
  if env.share.fails .checkPermission then some (.error 500 "spicedb_error")
  else if !allowed then some (.error 403 "forbidden")
  else none

/-- The relations are cleaned up before the row goes, whatever becomes of the cleaning. -/
def deleteOrg (slug : String) : World × Answer :=
  if !validateSlug slug then (w, .notFound)
  else if !env.share.spicedb then (w, .error 503 "spicedb_unavailable")
  else if env.fails .findBySlug then (w, .error 500 "internal")
  else
    match findBySlug w.orgs slug with
    | none => (w, .notFound)
    | some org =>
      match gate env (w.rel.manageOrg org.slug auth.preferredUsername) with
      | some answer => (w, answer)
      | none =>
        -- What the cleanup leaves is let go.
        let w' := { w with rel := (Relations.deleteAllOrgRelationships
          (fun role => env.fails (.deleteRole role)) (env.fails .deleteShares) w.rel org.slug).1 }
        if env.fails .deleteOrg then (w', .error 500 "internal")
        else ({ w' with orgs := w'.orgs.deleteWhere (·.id = org.id) }, .orgDeleted)

/-- The roles that can be given. -/
def parseRole (role : String) : Option OrgRole :=
  let role := (trim role).toList.map Char.toLower
  if role = "admin".toList then some .admin
  else if role = "member".toList then some .member
  else none

/-- A member gets a role of the organisation. -/
def addMember (slug handle role : String) : World × Answer :=
  if !validateSlug slug then (w, .error 404 "not_found")
  else if !validateHandle (trim handle) then (w, .error 400 "invalid_handle")
  else
    match parseRole role with
    | none => (w, .error 400 "invalid_role")
    | some role =>
      if env.share.fails .findByHandle then (w, .error 500 "internal")
      else
        match findByHandle w.stores.users (trim handle) with
        | none => (w, .error 404 "recipient_not_found")
        | some recipient =>
          if !env.share.spicedb then (w, .error 503 "spicedb_unavailable")
          else if env.fails .findBySlug then (w, .error 500 "internal")
          else
            match findBySlug w.orgs slug with
            | none => (w, .error 404 "org_not_found")
            | some org =>
              match gate env (w.rel.manageMembers org.slug auth.preferredUsername) with
              | some answer => (w, answer)
              | none =>
                if env.fails .writeRole then (w, .error 500 "spicedb_error")
                else
                  ({ w with rel := w.rel.writeOrgRole org.slug recipient.claimedHandle role }, .added)

/-- The handle is taken as it is in the path. -/
def removeMember (slug handle : String) : World × Answer :=
  if !validateSlug slug then (w, .error 404 "not_found")
  else if !validateHandle handle then (w, .error 400 "invalid_handle")
  else if !env.share.spicedb then (w, .error 503 "spicedb_unavailable")
  else if env.fails .findBySlug then (w, .error 500 "internal")
  else
    match findBySlug w.orgs slug with
    | none => (w, .error 404 "org_not_found")
    | some org =>
      match gate env (w.rel.manageMembers org.slug auth.preferredUsername) with
      | some answer => (w, answer)
      | none =>
        match Relations.deleteOrgMemberAllRoles (fun role => env.fails (.deleteRole role)) w.rel org.slug
          handle with
        | (rel, true) => ({ w with rel := rel }, .removed)
        | (rel, false) => ({ w with rel := rel }, .error 500 "spicedb_error")

end Handlers

end StarStats.Server.Orgs
