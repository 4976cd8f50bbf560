import SelectPlan.Data.OrderedMap
import SelectPlan.Proofs.RemoteJoins.Paths

/-!
The listing of the joins of a tree.  A join is listed under the path that leads to it when the names
of the path are looked up one after another, and the listing follows the order of the tree.  These
two facts leave no choice: there is one such listing.
-/

namespace SelectPlan

variable {R S : Type}

/-- A node of a join tree: a join, or nodes of its own. -/
inductive JoinNode (R : Type) where
  | leaf (join : RemoteJoin R)
  | tree (subtree : JoinTree R)

/-- The nodes of a level under their names. -/
def JoinNodes.entries : {names : List FieldName} → JoinNodes R names →
    Entries FieldName (JoinNode R) names
  | _, nil => .nil
  | _, leaf name fresh join rest => .cons name fresh (.leaf join) rest.entries
  | _, tree name fresh subtree rest => .cons name fresh (.tree ⟨subtree⟩) rest.entries

/-- The nodes at the root of a tree, in the order of the tree. -/
def JoinTree.toMap (tree : JoinTree R) : OrderedMap FieldName (JoinNode R) :=
  ⟨tree.nodes.entries⟩

namespace JoinNode

/-- Applies a function to every target. -/
def map (f : R → S) : JoinNode R → JoinNode S
  | leaf join => leaf (join.map f)
  | tree subtree => tree (subtree.map f)

/-- The joins of a node, each with the path that leads on to it. -/
def leaves : JoinNode R → List (List FieldName × RemoteJoin R)
  | leaf join => [([], join)]
  | tree subtree => subtree.leaves

/-- The node that is reached when the names of a path are looked up one after another.  Nothing lies
below a join. -/
def descend? : JoinNode R → List FieldName → Option (JoinNode R)
  | node, [] => some node
  | leaf _, _ :: _ => none
  | tree subtree, name :: path => (subtree.toMap.find? name).bind fun node => node.descend? path

end JoinNode

namespace JoinTree

/-- The node to which a path leads from the root. -/
def nodeAt? (tree : JoinTree R) (path : List FieldName) : Option (JoinNode R) :=
  (JoinNode.tree tree).descend? path

/-- The order in which a tree is read.  Where two paths part, the name of the first comes before
that of the second. -/
inductive Precedes : JoinTree R → List FieldName → List FieldName → Prop
  | parting {tree : JoinTree R} {name other : FieldName} {path others : List FieldName}
      (horder : [name, other].Sublist tree.names) : Precedes tree (name :: path) (other :: others)
  | inside {tree subtree : JoinTree R} {name : FieldName} {path others : List FieldName}
      (hnode : tree.toMap.find? name = some (.tree subtree))
      (hinside : Precedes subtree path others) : Precedes tree (name :: path) (name :: others)

/-- A listing of the joins of a tree: it has the joins to which paths lead, and no other entries, in
the order in which the tree is read. -/
structure IsListing (tree : JoinTree R) (listing : List (List FieldName × RemoteJoin R)) :
    Prop where
  mem_iff : ∀ path join, (path, join) ∈ listing ↔ tree.nodeAt? path = some (.leaf join)
  ordered : listing.Pairwise fun first second => tree.Precedes first.1 second.1

end JoinTree

/-! What a path leads to -/

/-- The leaves of a level are those of its nodes, one node after the other. -/
theorem JoinNodes.leaves_eq {names : List FieldName} (nodes : JoinNodes R names) :
    nodes.leaves = nodes.entries.toList.flatMap fun (name, node) =>
      node.leaves.map fun (path, join) => (name :: path, join) := by
  induction nodes with
  | nil => rfl
  | leaf name fresh join rest ih =>
      rw [leaves, entries, Entries.toList, List.flatMap_cons, ih]
      rfl
  | tree name fresh subtree rest _ ih =>
      rw [leaves, entries, Entries.toList, List.flatMap_cons, ih]
      rfl

namespace JoinTree

variable {tree : JoinTree R} {name : FieldName} {path : List FieldName} {join : RemoteJoin R}

theorem nil_not_mem_leaves (tree : JoinTree R) (join : RemoteJoin R) :
    ([], join) ∉ tree.leaves := by
  intro hleaf
  obtain ⟨name, -, below, hpath⟩ := tree.nodes.leaves_path hleaf
  cases hpath

/-- The leaves under a name are those of the node under it. -/
theorem mem_leaves_cons_iff : (name :: path, join) ∈ tree.leaves ↔
    ∃ node, tree.toMap.find? name = some node ∧ (path, join) ∈ node.leaves := by
  rw [leaves, JoinNodes.leaves_eq, List.mem_flatMap]
  constructor
  · rintro ⟨⟨name, node⟩, hentry, hleaf⟩
    obtain ⟨below, hbelow, heq⟩ := List.mem_map.mp hleaf
    cases heq
    exact ⟨node, OrderedMap.find?_eq_some_iff.mpr hentry, hbelow⟩
  · rintro ⟨node, hfind, hleaf⟩
    exact ⟨(name, node), OrderedMap.find?_eq_some_iff.mp hfind,
      List.mem_map.mpr ⟨(path, join), hleaf, rfl⟩⟩

end JoinTree

/-- The leaves of a node are the joins to which paths lead from it. -/
theorem JoinNode.mem_leaves_iff (node : JoinNode R) (path : List FieldName) (join : RemoteJoin R) :
    (path, join) ∈ node.leaves ↔ node.descend? path = some (.leaf join) := by
  induction path generalizing node with
  | nil =>
      cases node with
      | leaf found => simp [leaves, descend?, eq_comm]
      | tree subtree =>
          refine iff_of_false (subtree.nil_not_mem_leaves join) fun heq => ?_
          cases heq
  | cons name path ih =>
      cases node with
      | leaf found => simp [leaves, descend?]
      | tree subtree =>
          rw [leaves, JoinTree.mem_leaves_cons_iff, descend?, Option.bind_eq_some_iff]
          exact exists_congr fun node => and_congr_right fun _ => ih node

/-! The order of reading -/

/-- Of two distinct names that stand once, only one stands before the other. -/
theorem not_sublist_of_nodup {names : List FieldName} {name other : FieldName}
    (hnodup : names.Nodup) (horder : [name, other].Sublist names) :
    ¬ [other, name].Sublist names := by
  induction names with
  | nil => cases horder
  | cons head names ih =>
      rw [List.nodup_cons] at hnodup
      intro hreverse
      cases horder with
      | cons _ horder =>
          cases hreverse with
          | cons _ hreverse => exact ih hnodup.2 horder hreverse
          | cons_cons _ _ => exact hnodup.1 (horder.subset (by simp))
      | cons_cons _ hother =>
          have hmem : other ∈ names := List.singleton_sublist.mp hother
          cases hreverse with
          | cons _ hreverse => exact hnodup.1 (hreverse.subset (by simp))
          | cons_cons _ _ => exact hnodup.1 hmem

namespace JoinTree

variable {tree other : JoinTree R} {first second : List FieldName}

/-- Paths keep their order when nodes are added to the tree. -/
theorem Precedes.of_extended (hnames : tree.names.Sublist other.names)
    (hnodes : tree.toMap.toList ⊆ other.toMap.toList) (hprecedes : tree.Precedes first second) :
    other.Precedes first second := by
  cases hprecedes with
  | parting horder => exact parting (horder.trans hnames)
  | inside hnode hinside =>
      rw [OrderedMap.find?_eq_some_iff] at hnode
      exact inside (OrderedMap.find?_eq_some_iff.mpr (hnodes hnode)) hinside

/-- No path comes before another one and behind it, nor before itself. -/
theorem Precedes.asymm (hprecedes : tree.Precedes first second) :
    ¬ tree.Precedes second first := by
  have hnodup (tree : JoinTree R) : tree.names.Nodup := tree.toMap.nodup_keys
  induction hprecedes with
  | parting horder =>
      intro hreverse
      cases hreverse with
      | parting hreverse => exact not_sublist_of_nodup (hnodup _) horder hreverse
      | inside => exact not_sublist_of_nodup (hnodup _) horder horder
  | inside hnode _ ih =>
      intro hreverse
      cases hreverse with
      | parting hreverse => exact not_sublist_of_nodup (hnodup _) hreverse hreverse
      | inside hother hinside =>
          rw [hnode] at hother
          cases hother
          exact ih hinside

/-- A name in front of a level comes before the names that lead into the level. -/
theorem Precedes.front {names : List FieldName} {nodes : JoinNodes R names} {name : FieldName}
    {larger : JoinTree R} (hnames : larger.names = name :: names) (path : List FieldName)
    {leaf : List FieldName × RemoteJoin R} (hleaf : leaf ∈ nodes.leaves) :
    larger.Precedes (name :: path) leaf.1 := by
  obtain ⟨other, hother, below, hpath⟩ := nodes.leaves_path hleaf
  rw [hpath]
  apply parting
  rw [hnames, List.cons_sublist_cons, List.singleton_sublist]
  exact hother

end JoinTree

/-- Leaves are listed in the order of reading. -/
theorem JoinNodes.leaves_ordered {names : List FieldName} (nodes : JoinNodes R names) :
    nodes.leaves.Pairwise fun first second => (JoinTree.mk nodes).Precedes first.1 second.1 := by
  induction nodes with
  | nil => exact List.Pairwise.nil
  | leaf name fresh join rest ih =>
      apply List.pairwise_cons.mpr
      constructor
      · intro second hsecond
        exact .front rfl [] hsecond
      · apply ih.imp
        intro first second hprecedes
        exact hprecedes.of_extended (List.sublist_cons_self _ _) (List.subset_cons_self _ _)
  | tree name fresh subtree rest ihSubtree ihRest =>
      apply List.pairwise_append.mpr
      refine ⟨?_, ?_, ?_⟩
      · apply List.pairwise_map.mpr
        apply ihSubtree.imp
        intro first second hprecedes
        exact .inside (OrderedMap.find?_eq_some_iff.mpr List.mem_cons_self) hprecedes
      · apply ihRest.imp
        intro first second hprecedes
        exact hprecedes.of_extended (List.sublist_cons_self _ _) (List.subset_cons_self _ _)
      · intro first hfirst second hsecond
        obtain ⟨below, -, rfl⟩ := List.mem_map.mp hfirst
        exact .front rfl below.1 hsecond

namespace JoinTree

variable {tree : JoinTree R} {listing others : List (List FieldName × RemoteJoin R)}

theorem leaves_isListing (tree : JoinTree R) : tree.IsListing tree.leaves where
  mem_iff path join := (JoinNode.tree tree).mem_leaves_iff path join
  ordered := tree.nodes.leaves_ordered

theorem IsListing.nodup (hlisting : tree.IsListing listing) : listing.Nodup :=
  hlisting.ordered.imp fun hprecedes heq => by
    subst heq
    exact hprecedes.asymm hprecedes

/-- A tree has one listing only. -/
theorem IsListing.unique (hlisting : tree.IsListing listing) (hothers : tree.IsListing others) :
    listing = others := by
  have hperm : listing.Perm others := by
    rw [List.perm_ext_iff_of_nodup hlisting.nodup hothers.nodup]
    intro leaf
    rw [hlisting.mem_iff leaf.1 leaf.2, hothers.mem_iff leaf.1 leaf.2]
  exact hperm.eq_of_pairwise (fun first second _ _ hprecedes hreverse =>
    absurd hreverse hprecedes.asymm) hlisting.ordered hothers.ordered

end JoinTree

/-! The walk over a tree -/

/-- What a walk over a tree has at hand: one path, which leads to the node that it is at, and the
joins that it has found. -/
structure JoinWalk (R : Type) where
  path : List FieldName := []
  found : List (List FieldName × RemoteJoin R) := []

namespace JoinWalk

variable (walk : JoinWalk R)

/-- Goes down to a node. -/
def enter (name : FieldName) : JoinWalk R :=
  { walk with path := walk.path ++ [name] }

/-- Goes back up from a node. -/
def leave : JoinWalk R :=
  { walk with path := walk.path.dropLast }

/-- Notes the join that the walk is at. -/
def note (join : RemoteJoin R) : JoinWalk R :=
  { walk with found := walk.found ++ [(walk.path, join)] }

/-- Puts joins below the place of the walk behind those that it has found. -/
def add (leaves : List (List FieldName × RemoteJoin R)) : JoinWalk R :=
  { walk with found := walk.found ++ leaves.map fun (path, join) => (walk.path ++ path, join) }

theorem add_nil : walk.add [] = walk := by
  rw [add, List.map_nil, List.append_nil]

theorem add_append (leaves others : List (List FieldName × RemoteJoin R)) :
    walk.add (leaves ++ others) = (walk.add leaves).add others := by
  simp only [add, List.map_append, List.append_assoc]

theorem note_eq (join : RemoteJoin R) : walk.note join = walk.add [([], join)] := by
  simp only [note, add, List.map_singleton, List.append_nil]

/-- A walk that has been at a node is back where it was, with the joins of the node. -/
theorem leave_add_enter (name : FieldName) (leaves : List (List FieldName × RemoteJoin R)) :
    ((walk.enter name).add leaves).leave =
      walk.add (leaves.map fun (path, join) => (name :: path, join)) := by
  simp [enter, add, leave]

end JoinWalk

/-- Walks over the nodes of a level, and down into each of them. -/
def JoinNodes.walk : {names : List FieldName} → JoinNodes R names → JoinWalk R → JoinWalk R
  | _, nil, walk => walk
  | _, leaf name _ join rest, walk => rest.walk ((walk.enter name).note join).leave
  | _, tree name _ subtree rest, walk => rest.walk (subtree.walk (walk.enter name)).leave

/-- A walk ends where it began, and has found the leaves. -/
theorem JoinNodes.walk_eq {names : List FieldName} (nodes : JoinNodes R names)
    (walk : JoinWalk R) : nodes.walk walk = walk.add nodes.leaves := by
  induction nodes generalizing walk with
  | nil => exact walk.add_nil.symm
  | leaf name fresh join rest ih =>
      rw [JoinNodes.walk, JoinWalk.note_eq, JoinWalk.leave_add_enter, ih, ← JoinWalk.add_append]
      rfl
  | tree name fresh subtree rest ihSubtree ihRest =>
      rw [JoinNodes.walk, ihSubtree, JoinWalk.leave_add_enter, ihRest, ← JoinWalk.add_append]
      rfl

-- the tree under "drafts" has no nodes
example (profile rating : RemoteJoin R) :
    let nodes : JoinNodes R [⟨"author"⟩, ⟨"rating"⟩] :=
      .tree ⟨"author"⟩ (by decide)
        (.tree ⟨"drafts"⟩ (by decide) .nil (.leaf ⟨"profile"⟩ (by decide) profile .nil))
        (.leaf ⟨"rating"⟩ (by decide) rating .nil)
    nodes.walk {} =
      ⟨[], [([⟨"author"⟩, ⟨"profile"⟩], profile), ([⟨"rating"⟩], rating)]⟩ :=
  rfl

/-! Replaced targets -/

section

variable (f g : R → S)

theorem JoinNodes.entries_map : {names : List FieldName} → (nodes : JoinNodes R names) →
    (nodes.map f).entries = nodes.entries.map (JoinNode.map f)
  | _, nil => rfl
  | _, leaf name fresh join rest => by rw [map, entries, entries, rest.entries_map]; rfl
  | _, tree name fresh subtree rest => by rw [map, entries, entries, rest.entries_map]; rfl

theorem JoinNodes.leaves_map : {names : List FieldName} → (nodes : JoinNodes R names) →
    (nodes.map f).leaves = nodes.leaves.map fun (path, join) => (path, join.map f)
  | _, nil => rfl
  | _, leaf name fresh join rest => by rw [map, leaves, leaves, List.map_cons, rest.leaves_map]
  | _, tree name fresh subtree rest => by
      rw [map, leaves, leaves, List.map_append, subtree.leaves_map, rest.leaves_map, List.map_map,
        List.map_map]
      rfl

/-- A path leads to the same node as before, with the targets replaced in it. -/
theorem JoinNode.descend?_map (node : JoinNode R) (path : List FieldName) :
    (node.map f).descend? path = (node.descend? path).map (map f) := by
  induction path generalizing node with
  | nil => rfl
  | cons name path ih =>
      cases node with
      | leaf join => rfl
      | tree subtree =>
          have hmap : (subtree.map f).toMap = subtree.toMap.map (map f) :=
            congrArg OrderedMap.mk (subtree.nodes.entries_map f)
          rw [map, descend?, descend?, hmap, OrderedMap.find?_map]
          cases subtree.toMap.find? name with
          | none => rfl
          | some found => exact ih found

variable {f g}

/-- Functions that agree on the targets of the leaves give the same nodes. -/
theorem JoinNodes.map_congr {names : List FieldName} {nodes : JoinNodes R names}
    (hagree : ∀ leaf ∈ nodes.leaves, f leaf.2.target = g leaf.2.target) :
    nodes.map f = nodes.map g := by
  induction nodes with
  | nil => rfl
  | leaf name fresh join rest ih =>
      obtain ⟨hjoin, hrest⟩ := List.forall_mem_cons.mp hagree
      have hmap : join.map f = join.map g := by rw [RemoteJoin.map, hjoin, RemoteJoin.map]
      rw [map, map, hmap, ih hrest]
  | tree name fresh subtree rest ihSubtree ihRest =>
      obtain ⟨hsubtree, hrest⟩ := List.forall_mem_append.mp hagree
      rw [map, map, ihSubtree (List.forall_mem_map.mp hsubtree), ihRest hrest]

end

namespace JoinTree

/-- The leaves of a tree are its one listing: they have each join under the path that leads to it,
once and in the order in which the tree is read.  No path is the beginning of another one.  A walk
that keeps a single path finds these joins and ends where it began.  Replacing the targets of a tree
replaces the targets of its leaves in place, and no other part of the tree. -/
theorem leaves_enumerate_tree (tree : JoinTree R) :
    (∀ listing, tree.IsListing listing ↔ listing = tree.leaves) ∧
      PrefixFree (tree.leaves.map Prod.fst) ∧
      (∀ path found, tree.nodes.walk ⟨path, found⟩ =
        ⟨path, found ++ tree.leaves.map fun (below, join) => (path ++ below, join)⟩) ∧
      ∀ {S : Type} (f : R → S),
        (tree.map f).leaves = tree.leaves.map (fun (path, join) => (path, join.map f)) ∧
          (∀ path, (tree.map f).nodeAt? path = (tree.nodeAt? path).map (JoinNode.map f)) ∧
          ∀ g : R → S, tree.map f = tree.map g ↔
            ∀ leaf ∈ tree.leaves, f leaf.2.target = g leaf.2.target := by
  refine ⟨?_, tree.nodes.leaves_prefixFree, ?_, ?_⟩
  · intro listing
    constructor
    · intro hlisting
      exact hlisting.unique tree.leaves_isListing
    · rintro rfl
      exact tree.leaves_isListing
  · intro path found
    exact tree.nodes.walk_eq ⟨path, found⟩
  · intro S f
    refine ⟨tree.nodes.leaves_map f, (JoinNode.tree tree).descend?_map f, ?_⟩
    intro g
    constructor
    · intro hmap leaf hleaf
      have hleaves : tree.leaves.map (fun (path, join) => (path, join.map f)) =
          tree.leaves.map fun (path, join) => (path, join.map g) :=
        (tree.nodes.leaves_map f).symm.trans
          ((congrArg leaves hmap).trans (tree.nodes.leaves_map g))
      have hsame := List.map_inj_left.mp hleaves leaf hleaf
      exact congrArg (fun leaf => leaf.2.target) hsame
    · intro hagree
      exact congrArg mk (JoinNodes.map_congr hagree)

end JoinTree

end SelectPlan
