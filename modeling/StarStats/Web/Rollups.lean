import StarStats.Lib.Groups
import StarStats.Lib.Tables
import StarStats.Web.ClassNames

/-! # Roll-ups

The counts of identifiers that the journey page shows are grouped in a tree: weapons and items by
manufacturer and model, locations by system, body and place, and those that no system is known for by
the first token of their identifiers. No count is lost or shown twice, whatever the names are
(`conserves_rollUps`): the maps the loops fill are groups of groups, and what is made of them is sorted,
summed up and at times collapsed, but never dropped. -/

namespace StarStats.Web.Rollups

open StarStats.Lib.Text StarStats.Lib.Groups StarStats.Lib.Tables
open StarStats.Web.ClassNames

/-! ### Nodes -/

/-- One row of a ranking: a raw value of the game and how often it was seen. -/
structure Bucket where
  value : String
  count : ℕ
  deriving DecidableEq

/-- A size with its count, shown beside a weapon. -/
structure Badge where
  text : String
  count : ℕ

/-- A line of the tree that the page shows, with the lines under it. -/
structure RollupNode where
  label : String
  count : ℕ
  badges : Option (List Badge)
  children : Option (List RollupNode)
  title : Option String
  subtitle : Option String
  defaultOpen : Bool

/-- The reduction over the counts of siblings. -/
def totalCount (nodes : List RollupNode) : ℕ := (nodes.map RollupNode.count).sum

/-- Sort by descending counts; nodes of one count stay in order. -/
def byCount (nodes : List RollupNode) : List RollupNode :=
  sortBy (fun node => OrderDual.toDual node.count) nodes

/-- A group with its children. -/
def groupNode (label : String) (children : List RollupNode) : RollupNode where
  label
  count := totalCount children
  badges := none
  children := some children
  title := none
  subtitle := none
  defaultOpen := false

/-- The count of a group and the identifiers in it. -/
structure Entry where
  count : ℕ
  raws : List String

/-- What a `Map` starts an entry from. -/
def Entry.empty : Entry := ⟨0, []⟩

/-- A bucket counts towards the entry and leaves its raw value there. -/
def Entry.add (e : Entry) (b : Bucket) : Entry := ⟨e.count + b.count, e.raws ++ [b.value]⟩

/-- The raw values of a leaf, for its tooltip. -/
def joinRaws (raws : List String) : String := join " · " raws

section Rollups

variable (js : Strings)

/-- A catalog name often starts with the manufacturer, which the group above it shows already. -/
def stripDuplicateMfr (label mfr : String) : String :=
  if startsWith (js.toLowerCase label) (js.toLowerCase mfr ++ " ") then
    String.ofList (label.toList.drop (mfr.length + 1))
  else label

/-- The catalog's name of the first identifier, without the manufacturer, or else the group's own. -/
def displayName (catalog : String → Option String) (mfr : String) (raws : List String) (own : String) :
    String :=
  let first := raws.headD ""
  let catalogLabel := prettyClass js first catalog
  if catalogLabel ≠ "" ∧ catalogLabel ≠ first then stripDuplicateMfr js catalogLabel mfr else own

/-- The group of a class without a manufacturer. -/
def mfrOrUnknown (manufacturer : Option String) : String := manufacturer.getD "Unknown manufacturer"

/-! ### Weapons -/

/-- What the buckets of one weapon family add up to. -/
structure WeaponEntry where
  count : ℕ
  sizes : List (String × ℕ)
  raws : List String

/-- A family no bucket has been counted into. -/
def WeaponEntry.empty : WeaponEntry := ⟨0, [], []⟩

/-- A bucket without a size, or with an empty one, leaves the sizes as they are. -/
def WeaponEntry.add (e : WeaponEntry) (b : Bucket) : WeaponEntry where
  count := e.count + b.count
  sizes :=
    match (parseWeaponClass js b.value).size.filter fun s => decide (s ≠ "") with
    | none => e.sizes
    | some size => alter size 0 (fun n => n + b.count) e.sizes
  raws := e.raws ++ [b.value]

/-- The group a weapon is counted in. -/
def weaponMfr (b : Bucket) : String := mfrOrUnknown (parseWeaponClass js b.value).manufacturer

/-- Its entry within the group. -/
def weaponFamily (b : Bucket) : String := (parseWeaponClass js b.value).family

/-- The loop over the buckets: manufacturers, and under each its families. -/
def weaponTree (buckets : List Bucket) : List (String × List (String × WeaponEntry)) :=
  gather (weaponMfr js) []
    (fun fams b => alter (weaponFamily js b) .empty (fun e => e.add js b) fams) buckets

/-- The line of a family, with a badge for each of its sizes. -/
def weaponLeaf (catalog : String → Option String) (mfr family : String) (entry : WeaponEntry) :
    RollupNode :=
  let badges := (entry.sizes.mergeSort fun a b => js.localeLe a.1 b.1).map fun (size, n) => ⟨size, n⟩
  { label := displayName js catalog mfr entry.raws family
    count := entry.count
    badges := if badges = [] then none else some badges
    children := none
    title := some (joinRaws entry.raws)
    subtitle := none
    defaultOpen := false }

/-- The tree of the weapons, most used first at every level. -/
def rollUpWeapons (buckets : List Bucket) (catalog : String → Option String) : List RollupNode :=
  byCount ((weaponTree js buckets).map fun (mfr, fams) =>
    groupNode mfr (byCount (fams.map fun (family, entry) => weaponLeaf js catalog mfr family entry)))

/-! ### Items -/

/-- The group an item is counted in. -/
def itemMfr (b : Bucket) : String := mfrOrUnknown (parseItemClass js b.value).manufacturer

/-- Its entry within the group. -/
def itemModel (b : Bucket) : String := (parseItemClass js b.value).model

/-- The loop over the buckets: manufacturers, and under each its models. -/
def itemTree (buckets : List Bucket) : List (String × List (String × Entry)) :=
  gather (itemMfr js) [] (fun models b => alter (itemModel js b) .empty (fun e => e.add b) models) buckets

/-- The line of a model. -/
def itemLeaf (catalog : String → Option String) (mfr model : String) (entry : Entry) : RollupNode where
  label := displayName js catalog mfr entry.raws model
  count := entry.count
  badges := none
  children := none
  title := some (joinRaws entry.raws)
  subtitle := none
  defaultOpen := false

/-- The tree of the items, most used first at both levels. -/
def rollUpItems (buckets : List Bucket) (catalog : String → Option String) : List RollupNode :=
  byCount ((itemTree js buckets).map fun (mfr, models) =>
    groupNode mfr (byCount (models.map fun (model, entry) => itemLeaf js catalog mfr model entry)))

/-! ### Locations -/

/-- The tree of the locations whose system is known, and the places of the others. -/
structure LocationMaps where
  tree : List (String × List (String × List (String × Entry)))
  unknownPlaces : List (String × Entry)

section Catalog

variable (catalog : LocationCatalog)

/-- What the class name of a bucket says of its place. -/
def locationOf (b : Bucket) : LocationParts := parseLocationClass js b.value catalog

/-- The system of a location; an empty one counts as none. -/
def systemOf (b : Bucket) : Option String := (locationOf js catalog b).system.filter fun s => decide (s ≠ "")

/-- The entry of a bucket among the bodies of its system. -/
def bodyKey (b : Bucket) : String := (locationOf js catalog b).body.getD "(unknown body)"

/-- Its entry among the places of the body: a body named without a place is its own place. -/
def placeKey (b : Bucket) : String := (locationOf js catalog b).place.getD (bodyKey js catalog b)

/-- Its entry among the places of no known system. -/
def unknownKey (b : Bucket) : String :=
  (locationOf js catalog b).place.getD (prettyClass js b.value catalog.display)

/-- A bucket is counted at its place. -/
def addBody (places : List (String × Entry)) (b : Bucket) : List (String × Entry) :=
  alter (placeKey js catalog b) .empty (fun e => e.add b) places

/-- A bucket is counted under its body. -/
def addSystem (bodies : List (String × List (String × Entry))) (b : Bucket) :
    List (String × List (String × Entry)) :=
  alter (bodyKey js catalog b) [] (fun places => addBody js catalog places b) bodies

/-- One round of the loop: a bucket goes into the tree or among the unknown places, never both. -/
def LocationMaps.add (maps : LocationMaps) (b : Bucket) : LocationMaps :=
  match systemOf js catalog b with
  | none =>
    { maps with
      unknownPlaces := alter (unknownKey js catalog b) .empty (fun e => e.add b) maps.unknownPlaces }
  | some system =>
    { maps with tree := alter system [] (fun bodies => addSystem js catalog bodies b) maps.tree }

/-- The loop over the buckets. -/
def locationMaps (cleaned : List Bucket) : LocationMaps := cleaned.foldl (.add js catalog) ⟨[], []⟩

/-- The line of a place, under the name of its first raw value where that has one. -/
def placeLeaf (place : String) (entry : Entry) : RollupNode where
  label :=
    let label := prettyClass js (entry.raws.headD "") catalog.display
    if label = "" then place else label
  count := entry.count
  badges := none
  children := none
  title := some (joinRaws entry.raws)
  subtitle := none
  defaultOpen := false

/-- A body with one place of its own name is shown without it. -/
def isSinglePlaceMatchingBody (body : String) (placeChildren : List RollupNode) : Bool :=
  match placeChildren with
  | [place] => js.toLowerCase place.label = js.toLowerCase body
  | _ => false

/-- The line of a body, which shows no children when its one place is the body itself. -/
def bodyNode (body : String) (places : List (String × Entry)) : RollupNode :=
  let placeChildren := byCount (places.map fun (place, entry) => placeLeaf js catalog place entry)
  { groupNode body placeChildren with
    children := if isSinglePlaceMatchingBody js body placeChildren then none else some placeChildren }

/-- The line of a system. -/
def systemNode (system : String) (bodies : List (String × List (String × Entry))) : RollupNode :=
  groupNode system (byCount (bodies.map fun (body, places) => bodyNode js catalog body places))

/-- Of a snake-case token, for display. -/
def titleCaseSnake (s : String) : String :=
  if s = "" then "(no name)"
  else join " " (((splitAt '_' s).filter fun p => decide (p ≠ "")).map (capitalise js))

/-- The line of a place of no known system. -/
def orphanLeaf (place : String) (entry : Entry) : RollupNode where
  label := place
  count := entry.count
  badges := none
  children := none
  title := some (joinRaws entry.raws)
  subtitle := some (join ", " (entry.raws.take 3) ++
    if 3 < entry.raws.length then " (+" ++ toString (entry.raws.length - 3) ++ " more)" else "")
  defaultOpen := false

/-- The first token of the first identifier. -/
def orphanKey (entry : Entry) : String :=
  (stripAndSplit (entry.raws.headD "")).headD "(no leading token)"

/-- The unknown places by the first word of their class. -/
def orphanMap (unknownPlaces : List (String × Entry)) : List (String × List RollupNode) :=
  gather (fun e : String × Entry => orphanKey e.2) [] (fun leaves e => leaves ++ [orphanLeaf e.1 e.2])
    unknownPlaces

/-- A line for each of these words. -/
def orphanGroups (unknownPlaces : List (String × Entry)) : List RollupNode :=
  byCount ((orphanMap unknownPlaces).map fun (token, places) =>
    { groupNode (titleCaseSnake js token) (byCount places) with count := totalCount places })

/-- The group at the end of the tree, open from the start. -/
def unmappedNode (unknownPlaces : List (String × Entry)) : RollupNode :=
  { groupNode "Other / unmapped" (orphanGroups js unknownPlaces) with defaultOpen := true }

/-- The tree of the places; class names that are no destination are left out of it. -/
def rollUpLocations (buckets : List Bucket) : List RollupNode :=
  let maps := locationMaps js catalog (buckets.filter fun b => !isNonDestination b.value)
  byCount ((maps.tree.map fun (system, bodies) => systemNode js catalog system bodies) ++
    if maps.unknownPlaces = [] then [] else [unmappedNode js maps.unknownPlaces])

end Catalog

end Rollups

/-! ### Trees -/

mutual

/-- The leaves under a node, or the node itself if it has no children. -/
def RollupNode.leaves : RollupNode → List RollupNode
  | ⟨label, count, badges, none, title, subtitle, defaultOpen⟩ =>
    [⟨label, count, badges, none, title, subtitle, defaultOpen⟩]
  | ⟨_, _, _, some children, _, _, _⟩ => leavesAll children

/-- The leaves under a list of lines. -/
def leavesAll : List RollupNode → List RollupNode
  | [] => []
  | node :: nodes => node.leaves ++ leavesAll nodes

end

mutual

/-- A node and all nodes under it. -/
def RollupNode.subtree : RollupNode → List RollupNode
  | ⟨label, count, badges, none, title, subtitle, defaultOpen⟩ =>
    [⟨label, count, badges, none, title, subtitle, defaultOpen⟩]
  | ⟨label, count, badges, some children, title, subtitle, defaultOpen⟩ =>
    ⟨label, count, badges, some children, title, subtitle, defaultOpen⟩ :: subtreeAll children

/-- The lines of a list of trees. -/
def subtreeAll : List RollupNode → List RollupNode
  | [] => []
  | node :: nodes => node.subtree ++ subtreeAll nodes

end

variable {node : RollupNode} {nodes nodes' children : List RollupNode}

theorem leaves_of_none (h : node.children = none) : node.leaves = [node] := by
  obtain ⟨label, count, badges, children, title, subtitle, defaultOpen⟩ := node
  obtain rfl : children = none := h
  rfl

theorem leaves_of_some (h : node.children = some children) : node.leaves = leavesAll children := by
  obtain ⟨label, count, badges, children', title, subtitle, defaultOpen⟩ := node
  obtain rfl : children' = some children := h
  rfl

theorem subtree_of_none (h : node.children = none) : node.subtree = [node] := by
  obtain ⟨label, count, badges, children, title, subtitle, defaultOpen⟩ := node
  obtain rfl : children = none := h
  rfl

theorem subtree_of_some (h : node.children = some children) :
    node.subtree = node :: subtreeAll children := by
  obtain ⟨label, count, badges, children', title, subtitle, defaultOpen⟩ := node
  obtain rfl : children' = some children := h
  rfl

theorem leavesAll_eq : ∀ nodes : List RollupNode, leavesAll nodes = nodes.flatMap RollupNode.leaves
  | [] => rfl
  | node :: nodes => by
    rw [leavesAll, leavesAll_eq nodes, List.flatMap_cons]

theorem subtreeAll_eq : ∀ nodes : List RollupNode, subtreeAll nodes = nodes.flatMap RollupNode.subtree
  | [] => rfl
  | node :: nodes => by
    rw [subtreeAll, subtreeAll_eq nodes, List.flatMap_cons]

theorem perm_byCount (nodes : List RollupNode) : (byCount nodes).Perm nodes := perm_sortBy _ nodes

theorem totalCount_perm (h : nodes.Perm nodes') : totalCount nodes = totalCount nodes' :=
  (h.map RollupNode.count).sum_eq

theorem totalCount_flatMap {α : Type} (under : α → List RollupNode) (l : List α) :
    totalCount (l.flatMap under) = (l.map fun a => totalCount (under a)).sum := by
  unfold totalCount
  rw [List.map_flatMap, List.flatMap_def, List.sum_flatten, List.map_map]
  rfl

/-- Ordered by count, the highest first. -/
def Descending (nodes : List RollupNode) : Prop := nodes.Pairwise fun a b => b.count ≤ a.count

theorem descending_byCount (nodes : List RollupNode) : Descending (byCount nodes) :=
  pairwise_sortBy (fun node : RollupNode => OrderDual.toDual node.count) nodes

/-! ### What a tree accounts for -/

/-- The sum the page is handed. -/
def total (buckets : List Bucket) : ℕ := (buckets.map Bucket.count).sum

/-- The leaves share out the buckets, each getting some that `Q` says it may; the children of every node
make up its count and descend; and so does the whole. -/
structure Accounts (Q : RollupNode → List Bucket → Prop) (nodes : List RollupNode)
    (buckets : List Bucket) : Prop where
  leaves : ∃ groups : List (RollupNode × List Bucket), (groups.map Prod.fst).Perm (leavesAll nodes) ∧
    (groups.flatMap Prod.snd).Perm buckets ∧ ∀ g ∈ groups, Q g.1 g.2
  inner : ∀ node ∈ subtreeAll nodes, ∀ children, node.children = some children →
    node.count = totalCount children ∧ Descending children
  whole : totalCount nodes = total buckets

section Accounts

variable {Q : RollupNode → List Bucket → Prop} {buckets buckets' : List Bucket}

theorem accounts_nil : Accounts Q [] [] where
  leaves := ⟨[], List.Perm.refl _, List.Perm.refl _, fun _ h => absurd h List.not_mem_nil⟩
  inner := fun _ h => absurd h List.not_mem_nil
  whole := rfl

theorem Accounts.append (h : Accounts Q nodes buckets) (h' : Accounts Q nodes' buckets') :
    Accounts Q (nodes ++ nodes') (buckets ++ buckets') := by
  obtain ⟨groups, hleaves, hbuckets, hQ⟩ := h.leaves
  obtain ⟨groups', hleaves', hbuckets', hQ'⟩ := h'.leaves
  refine ⟨⟨groups ++ groups', ?_, ?_, fun g hg => ?_⟩, fun node hnode => ?_, ?_⟩
  · rw [leavesAll_eq, List.flatMap_append, List.map_append, ← leavesAll_eq, ← leavesAll_eq]
    exact hleaves.append hleaves'
  · rw [List.flatMap_append]
    exact hbuckets.append hbuckets'
  · rcases List.mem_append.mp hg with hg | hg
    · exact hQ g hg
    · exact hQ' g hg
  · rw [subtreeAll_eq, List.flatMap_append, ← subtreeAll_eq, ← subtreeAll_eq] at hnode
    rcases List.mem_append.mp hnode with hnode | hnode
    · exact h.inner node hnode
    · exact h'.inner node hnode
  · have hnodes := h.whole
    have hnodes' := h'.whole
    unfold totalCount total at *
    rw [List.map_append, List.map_append, List.sum_append, List.sum_append, hnodes, hnodes']

/-- Neither the order of the nodes nor that of the buckets matters. -/
theorem Accounts.perm (h : Accounts Q nodes buckets) (hnodes : nodes'.Perm nodes)
    (hbuckets : buckets.Perm buckets') : Accounts Q nodes' buckets' := by
  obtain ⟨groups, hleaves, hshared, hQ⟩ := h.leaves
  refine ⟨⟨groups, ?_, hshared.trans hbuckets, hQ⟩, fun node hnode => h.inner node ?_, ?_⟩
  · refine hleaves.trans ?_
    rw [leavesAll_eq, leavesAll_eq]
    exact hnodes.symm.flatMap_right _
  · rw [subtreeAll_eq] at hnode ⊢
    exact (hnodes.flatMap_right _).subset hnode
  · rw [totalCount_perm hnodes, h.whole]
    exact (hbuckets.map Bucket.count).sum_eq

theorem Accounts.byCount (h : Accounts Q nodes buckets) : Accounts Q (byCount nodes) buckets :=
  h.perm (perm_byCount nodes) (List.Perm.refl _)

theorem accounts_leaf (hchildren : node.children = none) (hcount : node.count = total buckets)
    (hQ : Q node buckets) : Accounts Q [node] buckets where
  leaves := by
    refine ⟨[(node, buckets)], ?_, by simp, fun g hg => ?_⟩
    · rw [leavesAll_eq, List.flatMap_singleton, leaves_of_none hchildren]
      exact List.Perm.refl _
    · rw [List.mem_singleton.mp hg]
      exact hQ
  inner := by
    intro node' hnode children hsome
    rw [subtreeAll_eq, List.flatMap_singleton, subtree_of_none hchildren, List.mem_singleton] at hnode
    rw [hnode, hchildren] at hsome
    cases hsome
  whole := by
    rw [← hcount]
    simp [totalCount]

/-- Nodes put under parents are accounted for by the parents. -/
theorem Accounts.wrap {α : Type} {l : List α} {mk : α → RollupNode} {under : α → List RollupNode}
    (h : Accounts Q nodes buckets) (hperm : (l.flatMap under).Perm nodes)
    (hchildren : ∀ a ∈ l, (mk a).children = some (under a))
    (hcount : ∀ a ∈ l, (mk a).count = totalCount (under a)) (hdesc : ∀ a ∈ l, Descending (under a)) :
    Accounts Q (l.map mk) buckets where
  leaves := by
    obtain ⟨groups, hleaves, hshared, hQ⟩ := h.leaves
    refine ⟨groups, hleaves.trans ?_, hshared, hQ⟩
    have hunder : leavesAll (l.map mk) = (l.flatMap under).flatMap RollupNode.leaves := by
      rw [leavesAll_eq, List.flatMap_map, List.flatMap_assoc]
      refine List.flatMap_congr fun a ha => ?_
      rw [leaves_of_some (hchildren a ha), leavesAll_eq]
    rw [hunder, leavesAll_eq]
    exact hperm.symm.flatMap_right _
  inner := by
    intro node hnode children hsome
    rw [subtreeAll_eq, List.flatMap_map] at hnode
    obtain ⟨a, ha, hnode⟩ := List.mem_flatMap.mp hnode
    rw [subtree_of_some (hchildren a ha)] at hnode
    rcases List.mem_cons.mp hnode with rfl | hnode
    · obtain rfl := Option.some.inj ((hchildren a ha).symm.trans hsome)
      exact ⟨hcount a ha, hdesc a ha⟩
    · refine h.inner node ?_ children hsome
      rw [subtreeAll_eq] at hnode ⊢
      obtain ⟨c, hc, hnode⟩ := List.mem_flatMap.mp hnode
      exact List.mem_flatMap.mpr ⟨c, hperm.subset (List.mem_flatMap.mpr ⟨a, ha, hc⟩), hnode⟩
  whole := by
    rw [← h.whole, ← totalCount_perm hperm, totalCount_flatMap]
    unfold totalCount
    rw [List.map_map]
    exact congrArg List.sum (List.map_congr_left fun a ha => hcount a ha)

theorem accounts_group (hchildren : node.children = some children)
    (hcount : node.count = totalCount children) (hdesc : Descending children)
    (h : Accounts Q children buckets) : Accounts Q [node] buckets := by
  have hperm : ([node].flatMap fun _ => children).Perm children := by
    rw [List.flatMap_singleton]
  have hnodes : [node] = [node].map id := rfl
  rw [hnodes]
  refine h.wrap hperm (fun a ha => ?_) (fun a ha => ?_) fun _ _ => hdesc
  · rw [List.mem_singleton.mp ha]
    exact hchildren
  · rw [List.mem_singleton.mp ha]
    exact hcount

theorem accounts_map {α : Type} {mk : α → RollupNode} {part : α → List Bucket} : ∀ {l : List α},
    (∀ a ∈ l, Accounts Q [mk a] (part a)) → Accounts Q (l.map mk) (l.flatMap part)
  | [], _ => accounts_nil
  | a :: l, h => by
    rw [List.map_cons, List.flatMap_cons]
    exact (h a List.mem_cons_self).append (accounts_map fun b hb => h b (List.mem_cons_of_mem _ hb))

/-- Nodes made of the groups of the buckets account for the buckets. -/
theorem accounts_map_group {key : Bucket → String} {mk : String × List Bucket → RollupNode}
    (h : ∀ e ∈ group key buckets, Accounts Q [mk e] e.2) :
    Accounts Q ((group key buckets).map mk) buckets :=
  (accounts_map h).perm (List.Perm.refl _) (perm_group key buckets)

end Accounts

/-! ### Weapons and items -/

/-- The leaf has the count and the identifiers of its group, the buckets of one path of keys. -/
structure LeafGroup (path : Bucket → List String) (buckets : List Bucket) (leaf : RollupNode)
    (part : List Bucket) : Prop where
  nonempty : part ≠ []
  path : ∃ p, part = buckets.filter fun b => path b = p
  count : leaf.count = total part
  title : ∀ t, leaf.title = some t → t = joinRaws (part.map Bucket.value)

/-- Every bucket is in the group of one leaf, which has the buckets of one path; the counts of children
make up that of their node, and those at the top the total; and siblings descend. -/
structure Conserves (path : Bucket → List String) (nodes : List RollupNode) (buckets : List Bucket) :
    Prop where
  accounts : Accounts (LeafGroup path buckets) nodes buckets
  descending : Descending nodes

theorem foldl_add (l : List Bucket) : ∀ e : Entry,
    l.foldl Entry.add e = ⟨e.count + total l, e.raws ++ l.map Bucket.value⟩ := by
  induction l with
  | nil => intro e; simp [total]
  | cons b l ih =>
    intro e
    rw [List.foldl_cons, ih]
    simp [Entry.add, total, add_assoc]

theorem foldl_add_empty (l : List Bucket) : l.foldl Entry.add .empty = ⟨total l, l.map Bucket.value⟩ := by
  rw [foldl_add]
  simp [Entry.empty]

section Rollups

variable {js : Strings} {buckets : List Bucket}

theorem foldl_addWeapon (js : Strings) (l : List Bucket) : ∀ e : WeaponEntry,
    (l.foldl (WeaponEntry.add js) e).count = e.count + total l ∧
      (l.foldl (WeaponEntry.add js) e).raws = e.raws ++ l.map Bucket.value := by
  induction l with
  | nil => intro e; simp [total]
  | cons b l ih =>
    intro e
    obtain ⟨hcount, hraws⟩ := ih (e.add js b)
    rw [List.foldl_cons, hcount, hraws]
    simp [WeaponEntry.add, total, add_assoc]

variable {Q : RollupNode → List Bucket → Prop} {k₁ k₂ : Bucket → String}

/-- A tree over groups of groups accounts for the buckets if its leaves do. -/
theorem accounts_groups (leaf : String → String × List Bucket → RollupNode)
    (h : ∀ e ∈ group k₁ buckets, ∀ e' ∈ group k₂ e.2, Accounts Q [leaf e.1 e'] e'.2) :
    Accounts Q ((group k₁ buckets).map fun e =>
      groupNode e.1 (byCount ((group k₂ e.2).map (leaf e.1)))) buckets :=
  accounts_map_group fun e he =>
    accounts_group rfl rfl (descending_byCount _) (accounts_map_group (h e he)).byCount

theorem eq_filter_of_mem_groups {e e' : String × List Bucket} (he : e ∈ group k₁ buckets)
    (he' : e' ∈ group k₂ e.2) : e'.2 = buckets.filter fun b => [k₁ b, k₂ b] = [e.1, e'.1] := by
  rw [eq_filter_of_mem_group he', eq_filter_of_mem_group he, List.filter_filter]
  refine List.filter_congr fun b _ => ?_
  simp [Bool.and_comm]

theorem weaponTree_eq : weaponTree js buckets = (group (weaponMfr js) buckets).map fun e =>
    (e.1, (group (weaponFamily js) e.2).map fun e' => (e'.1, e'.2.foldl (WeaponEntry.add js) .empty)) := by
  unfold weaponTree
  rw [gather_eq]
  refine List.map_congr_left fun e _ => ?_
  rw [← gather_eq]
  rfl

/-- The roll-up of weapons conserves the counts. -/
theorem conserves_weapons (js : Strings) (buckets : List Bucket) (catalog : String → Option String) :
    Conserves (fun b => [weaponMfr js b, weaponFamily js b]) (rollUpWeapons js buckets catalog) buckets := by
  refine ⟨Accounts.byCount ?_, descending_byCount _⟩
  rw [weaponTree_eq, List.map_map]
  simp only [Function.comp_def, List.map_map]
  refine accounts_groups (fun mfr e' => weaponLeaf js catalog mfr e'.1
    (e'.2.foldl (WeaponEntry.add js) .empty)) fun e he e' he' => ?_
  obtain ⟨hcount, hraws⟩ := foldl_addWeapon js e'.2 .empty
  have hleaf : (weaponLeaf js catalog e.1 e'.1 (e'.2.foldl (WeaponEntry.add js) .empty)).count =
      total e'.2 := hcount.trans (Nat.zero_add _)
  refine accounts_leaf rfl hleaf
    ⟨ne_nil_of_mem_group he', ⟨_, eq_filter_of_mem_groups he he'⟩, hleaf, fun t ht => ?_⟩
  rw [← Option.some.inj ht, hraws]
  rfl

theorem itemTree_eq : itemTree js buckets = (group (itemMfr js) buckets).map fun e =>
    (e.1, (group (itemModel js) e.2).map fun e' => (e'.1, e'.2.foldl Entry.add .empty)) := by
  unfold itemTree
  rw [gather_eq]
  refine List.map_congr_left fun e _ => ?_
  rw [← gather_eq]
  rfl

/-- The roll-up of items conserves the counts. -/
theorem conserves_items (js : Strings) (buckets : List Bucket) (catalog : String → Option String) :
    Conserves (fun b => [itemMfr js b, itemModel js b]) (rollUpItems js buckets catalog) buckets := by
  refine ⟨Accounts.byCount ?_, descending_byCount _⟩
  rw [itemTree_eq, List.map_map]
  simp only [Function.comp_def, List.map_map]
  refine accounts_groups (fun mfr e' => itemLeaf js catalog mfr e'.1
    (e'.2.foldl Entry.add .empty)) fun e he e' he' => ?_
  have hentry := foldl_add_empty e'.2
  have hleaf : (itemLeaf js catalog e.1 e'.1 (e'.2.foldl Entry.add .empty)).count = total e'.2 := by
    rw [hentry]
    rfl
  refine accounts_leaf rfl hleaf
    ⟨ne_nil_of_mem_group he', ⟨_, eq_filter_of_mem_groups he he'⟩, hleaf, fun t ht => ?_⟩
  rw [← Option.some.inj ht, hentry]

/-! ### Locations -/

section Catalog

variable {catalog : LocationCatalog} {cleaned part : List Bucket}

/-- Is the system of a location known? -/
def known (js : Strings) (catalog : LocationCatalog) (b : Bucket) : Bool := (systemOf js catalog b).isSome

/-- The system of a bucket as a plain key. -/
def systemKey (js : Strings) (catalog : LocationCatalog) (b : Bucket) : String :=
  (systemOf js catalog b).getD ""

/-- The keys on the way to the leaf of a location. -/
def locationPath (js : Strings) (catalog : LocationCatalog) (b : Bucket) : List String :=
  match systemOf js catalog b with
  | some system => [system, bodyKey js catalog b, placeKey js catalog b]
  | none => [unknownKey js catalog b]

/-- The maps are those of two loops, one over the locations of known systems and one over the others. -/
theorem locationMaps_eq (cleaned : List Bucket) : locationMaps js catalog cleaned =
    ⟨gather (systemKey js catalog) [] (addSystem js catalog) (cleaned.filter (known js catalog)),
      gather (unknownKey js catalog) .empty Entry.add (cleaned.filter (!known js catalog ·))⟩ := by
  induction cleaned using List.reverseRecOn with
  | nil => rfl
  | append_singleton l b ih =>
    have hstep : locationMaps js catalog (l ++ [b]) = (locationMaps js catalog l).add js catalog b := by
      unfold locationMaps
      rw [List.foldl_append, List.foldl_cons, List.foldl_nil]
    rw [hstep, ih, List.filter_append, List.filter_append]
    unfold LocationMaps.add
    rcases hsystem : systemOf js catalog b with _ | system
    · have hknown : known js catalog b = false := by
        rw [known, hsystem]
        rfl
      have hyes : [b].filter (known js catalog) = [] := by simp [hknown]
      have hno : [b].filter (!known js catalog ·) = [b] := by simp [hknown]
      rw [hyes, hno, List.append_nil, gather_concat]
    · have hknown : known js catalog b = true := by
        rw [known, hsystem]
        rfl
      have hyes : [b].filter (known js catalog) = [b] := by simp [hknown]
      have hno : [b].filter (!known js catalog ·) = [] := by simp [hknown]
      have hkey : systemKey js catalog b = system := by
        rw [systemKey, hsystem]
        rfl
      rw [hyes, hno, List.append_nil, gather_concat, hkey]

theorem eq_filter_of_mem_unknown {e : String × List Bucket}
    (he : e ∈ group (unknownKey js catalog) (cleaned.filter (!known js catalog ·))) :
    e.2 = cleaned.filter fun b => locationPath js catalog b = [e.1] := by
  rw [eq_filter_of_mem_group he, List.filter_filter]
  refine List.filter_congr fun b _ => ?_
  unfold known locationPath
  rcases systemOf js catalog b with _ | system
  · simp
  · simp

theorem eq_filter_of_mem_known {e e' e'' : String × List Bucket}
    (he : e ∈ group (systemKey js catalog) (cleaned.filter (known js catalog)))
    (he' : e' ∈ group (bodyKey js catalog) e.2) (he'' : e'' ∈ group (placeKey js catalog) e'.2) :
    e''.2 = cleaned.filter fun b => locationPath js catalog b = [e.1, e'.1, e''.1] := by
  rw [eq_filter_of_mem_group he'', eq_filter_of_mem_group he', eq_filter_of_mem_group he,
    List.filter_filter, List.filter_filter, List.filter_filter]
  refine List.filter_congr fun b _ => ?_
  unfold known systemKey locationPath
  rcases systemOf js catalog b with _ | system
  · simp
  · simp [Bool.and_comm]

theorem eq_of_group_eq_singleton {key : Bucket → String} {e : String × List Bucket}
    (h : group key part = [e]) : e.2 = part := by
  have hmem : e ∈ group key part := by
    rw [h]
    exact List.mem_singleton_self e
  have hperm := perm_group key part
  rw [h, List.flatMap_singleton, eq_filter_of_mem_group hmem] at hperm
  rw [eq_filter_of_mem_group hmem]
  exact List.filter_sublist.eq_of_length hperm.length_eq

variable {Q : RollupNode → List Bucket → Prop}

theorem length_of_single {α : Type} {body : String} {l : List α} {mk : α → RollupNode}
    (h : isSinglePlaceMatchingBody js body (byCount (l.map mk)) = true) : l.length = 1 := by
  have hlength := (perm_byCount (l.map mk)).length_eq
  unfold isSinglePlaceMatchingBody at h
  split at h
  · rename_i place hplace
    rw [hplace, List.length_map] at hlength
    exact hlength.symm
  · cases h

/-- The places of a body account for its buckets, and the body itself does where its only place is not
shown. -/
theorem accounts_bodyNode {body : String}
    (hplace : ∀ e ∈ group (placeKey js catalog) part, ∀ leaf : RollupNode, leaf.count = total e.2 →
      (∀ t, leaf.title = some t → t = joinRaws (e.2.map Bucket.value)) → Q leaf e.2) :
    Accounts Q [bodyNode js catalog body
      (gather (placeKey js catalog) .empty Entry.add part)] part := by
  rw [gather_eq]
  have hleaves : Accounts Q (((group (placeKey js catalog) part).map fun e =>
      (e.1, e.2.foldl Entry.add .empty)).map fun e => placeLeaf js catalog e.1 e.2) part := by
    rw [List.map_map]
    refine accounts_map_group fun e he => ?_
    simp only [Function.comp]
    rw [foldl_add_empty]
    refine accounts_leaf rfl rfl (hplace e he _ rfl fun t ht => ?_)
    exact (Option.some.inj ht).symm
  by_cases hsingle : isSinglePlaceMatchingBody js body
      (byCount (((group (placeKey js catalog) part).map fun e =>
        (e.1, e.2.foldl Entry.add .empty)).map fun e => placeLeaf js catalog e.1 e.2)) = true
  · have hlength := length_of_single hsingle
    rw [List.length_map] at hlength
    obtain ⟨e, he⟩ := List.length_eq_one_iff.mp hlength
    have hpart : e.2 = part := eq_of_group_eq_singleton he
    have hmem : e ∈ group (placeKey js catalog) part := by
      rw [he]
      exact List.mem_singleton_self e
    have hQ := hplace e hmem (bodyNode js catalog body ((group (placeKey js catalog) part).map fun e =>
      (e.1, e.2.foldl Entry.add .empty)))
    rw [hpart] at hQ
    exact accounts_leaf (if_pos hsingle) hleaves.byCount.whole
      (hQ hleaves.byCount.whole fun t ht => by cases ht)
  · exact accounts_group (if_neg hsingle) rfl (descending_byCount _) hleaves.byCount

/-- The systems account for the locations in them. -/
theorem accounts_tree
    (hplace : ∀ e ∈ group (systemKey js catalog) part, ∀ e' ∈ group (bodyKey js catalog) e.2,
      ∀ e'' ∈ group (placeKey js catalog) e'.2, ∀ leaf : RollupNode, leaf.count = total e''.2 →
        (∀ t, leaf.title = some t → t = joinRaws (e''.2.map Bucket.value)) → Q leaf e''.2) :
    Accounts Q ((gather (systemKey js catalog) [] (addSystem js catalog) part).map fun e =>
      systemNode js catalog e.1 e.2) part := by
  rw [gather_eq, List.map_map]
  refine accounts_map_group fun e he => ?_
  have hbodies : e.2.foldl (addSystem js catalog) [] =
      gather (bodyKey js catalog) [] (addBody js catalog) e.2 := rfl
  simp only [Function.comp]
  rw [hbodies, gather_eq]
  refine accounts_group rfl rfl (descending_byCount _) (Accounts.byCount ?_)
  rw [List.map_map]
  exact accounts_map_group fun e' he' => accounts_bodyNode (hplace e he e' he')

/-- The leaves of the unknown places account for them. -/
theorem accounts_orphanLeaves
    (hplace : ∀ e ∈ group (unknownKey js catalog) part, ∀ leaf : RollupNode, leaf.count = total e.2 →
      (∀ t, leaf.title = some t → t = joinRaws (e.2.map Bucket.value)) → Q leaf e.2) :
    Accounts Q ((gather (unknownKey js catalog) .empty Entry.add part).map fun e =>
      orphanLeaf e.1 e.2) part := by
  rw [gather_eq, List.map_map]
  refine accounts_map_group fun e he => ?_
  simp only [Function.comp]
  rw [foldl_add_empty]
  refine accounts_leaf rfl rfl (hplace e he _ rfl fun t ht => ?_)
  exact (Option.some.inj ht).symm

theorem foldl_orphanLeaf (l : List (String × Entry)) :
    l.foldl (fun leaves e => leaves ++ [orphanLeaf e.1 e.2]) [] = l.map fun e => orphanLeaf e.1 e.2 := by
  rw [List.foldl_append_eq_append, List.nil_append, ← List.flatMap_def, List.map_eq_flatMap]

theorem perm_orphanMap (unknownPlaces : List (String × Entry)) :
    ((orphanMap unknownPlaces).flatMap (·.2)).Perm (unknownPlaces.map fun e => orphanLeaf e.1 e.2) := by
  unfold orphanMap
  rw [gather_eq, List.flatMap_map]
  simp only [foldl_orphanLeaf]
  rw [← List.map_flatMap]
  exact (perm_group _ unknownPlaces).map _

/-- The group of the unknown places accounts for what its leaves account for. -/
theorem accounts_unmappedNode {unknownPlaces : List (String × Entry)}
    (h : Accounts Q (unknownPlaces.map fun e => orphanLeaf e.1 e.2) part) :
    Accounts Q [unmappedNode js unknownPlaces] part := by
  refine accounts_group rfl rfl (descending_byCount _) (Accounts.byCount ?_)
  have hperm : ((orphanMap unknownPlaces).flatMap fun e => byCount e.2).Perm
      (unknownPlaces.map fun e => orphanLeaf e.1 e.2) :=
    (List.Perm.flatMap_left _ fun e _ => perm_byCount e.2).trans (perm_orphanMap unknownPlaces)
  refine h.wrap hperm (fun _ _ => rfl) (fun e _ => ?_) fun _ _ => descending_byCount _
  exact (totalCount_perm (perm_byCount e.2)).symm

theorem conserves_locations (js : Strings) (catalog : LocationCatalog) (buckets : List Bucket) :
    Conserves (locationPath js catalog) (rollUpLocations js catalog buckets)
      (buckets.filter fun b => !isNonDestination b.value) := by
  refine ⟨Accounts.byCount ?_, descending_byCount _⟩
  generalize (buckets.filter fun b => !isNonDestination b.value) = cleaned
  rw [locationMaps_eq]
  have htree : Accounts (LeafGroup (locationPath js catalog) cleaned)
      ((gather (systemKey js catalog) [] (addSystem js catalog) (cleaned.filter (known js catalog))).map
        fun e => systemNode js catalog e.1 e.2) (cleaned.filter (known js catalog)) :=
    accounts_tree fun e he e' he' e'' he'' leaf hcount htitle =>
      ⟨ne_nil_of_mem_group he'', ⟨_, eq_filter_of_mem_known he he' he''⟩, hcount, htitle⟩
  have horphans : Accounts (LeafGroup (locationPath js catalog) cleaned)
      ((gather (unknownKey js catalog) .empty Entry.add (cleaned.filter (!known js catalog ·))).map
        fun e => orphanLeaf e.1 e.2) (cleaned.filter (!known js catalog ·)) :=
    accounts_orphanLeaves fun e he leaf hcount htitle =>
      ⟨ne_nil_of_mem_group he, ⟨_, eq_filter_of_mem_unknown he⟩, hcount, htitle⟩
  refine (htree.append ?_).perm (List.Perm.refl _) (List.filter_append_perm _ cleaned)
  simp only
  split_ifs with hnone
  · rw [hnone] at horphans
    exact horphans
  · exact accounts_unmappedNode horphans

end Catalog

/-- **No roll-up loses a count or shows one twice.** -/
theorem conserves_rollUps (js : Strings) (buckets : List Bucket) (weapons items : String → Option String)
    (locations : LocationCatalog) :
    Conserves (fun b => [weaponMfr js b, weaponFamily js b]) (rollUpWeapons js buckets weapons) buckets ∧
      Conserves (fun b => [itemMfr js b, itemModel js b]) (rollUpItems js buckets items) buckets ∧
      Conserves (locationPath js locations) (rollUpLocations js locations buckets)
        (buckets.filter fun b => !isNonDestination b.value) :=
  ⟨conserves_weapons js buckets weapons, conserves_items js buckets items,
    conserves_locations js locations buckets⟩

end Rollups

end StarStats.Web.Rollups
