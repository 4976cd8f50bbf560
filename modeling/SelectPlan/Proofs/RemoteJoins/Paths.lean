import SelectPlan.Planning.JoinTree

/-!
The paths of a join tree.  The names of a level are distinct, so no path leads on to another one,
and what is added to a tree is found under its own path.
-/

namespace SelectPlan

variable {R : Type}

/-- No path is the beginning of another one, nor is it the same path. -/
def PrefixFree (paths : List (List FieldName)) : Prop :=
  paths.Pairwise fun first second => ¬ first <+: second ∧ ¬ second <+: first

theorem PrefixFree.map_cons {paths : List (List FieldName)} (hpaths : PrefixFree paths)
    (name : FieldName) : PrefixFree (paths.map (name :: ·)) := by
  apply List.pairwise_map.mpr
  apply hpaths.imp
  intro first second ⟨hfirst, hsecond⟩
  constructor
  · rw [List.cons_prefix_cons]
    exact fun hprefix => hfirst hprefix.2
  · rw [List.cons_prefix_cons]
    exact fun hprefix => hsecond hprefix.2

namespace JoinNodes

/-- Below the nodes there is no tree without nodes. -/
def NoEmptyTree : {names : List FieldName} → JoinNodes R names → Prop
  | _, nil => True
  | _, leaf _ _ _ rest => rest.NoEmptyTree
  | _, @tree _ _ below _ _ subtree rest =>
      below ≠ [] ∧ subtree.NoEmptyTree ∧ rest.NoEmptyTree

/-- The path of a leaf begins with the name of a node. -/
theorem leaves_path {names : List FieldName} (nodes : JoinNodes R names) {path : List FieldName}
    {join : RemoteJoin R} (hleaf : (path, join) ∈ nodes.leaves) :
    ∃ name ∈ names, ∃ rest, path = name :: rest := by
  induction nodes generalizing path with
  | nil => cases hleaf
  | leaf name fresh first rest ih =>
      rcases List.mem_cons.mp hleaf with hfirst | hrest
      · cases hfirst
        exact ⟨name, List.mem_cons_self, [], rfl⟩
      · obtain ⟨other, hother, below, hpath⟩ := ih hrest
        exact ⟨other, List.mem_cons_of_mem name hother, below, hpath⟩
  | tree name fresh subtree rest _ ih =>
      rcases List.mem_append.mp hleaf with hfirst | hrest
      · obtain ⟨⟨below, found⟩, -, hpath⟩ := List.mem_map.mp hfirst
        cases hpath
        exact ⟨name, List.mem_cons_self, below, rfl⟩
      · obtain ⟨other, hother, below, hpath⟩ := ih hrest
        exact ⟨other, List.mem_cons_of_mem name hother, below, hpath⟩

/-- A path below a name and the paths of nodes under other names lead to different places. -/
theorem not_prefix_of_fresh {names : List FieldName} (nodes : JoinNodes R names) {name : FieldName}
    (hfresh : name ∉ names) (below : List FieldName) {path : List FieldName}
    (hpath : path ∈ nodes.leaves.map Prod.fst) :
    ¬ name :: below <+: path ∧ ¬ path <+: name :: below := by
  obtain ⟨⟨_, join⟩, hleaf, rfl⟩ := List.mem_map.mp hpath
  obtain ⟨other, hother, rest, rfl⟩ := nodes.leaves_path hleaf
  have hne : name ≠ other := fun heq => hfresh (heq ▸ hother)
  constructor
  · rw [List.cons_prefix_cons]
    exact fun hprefix => hne hprefix.1
  · rw [List.cons_prefix_cons]
    exact fun hprefix => hne hprefix.1.symm

theorem leaves_prefixFree {names : List FieldName} (nodes : JoinNodes R names) :
    PrefixFree (nodes.leaves.map Prod.fst) := by
  induction nodes with
  | nil => exact List.Pairwise.nil
  | leaf name fresh join rest ih =>
      apply List.pairwise_cons.mpr
      constructor
      · intro path hpath
        exact rest.not_prefix_of_fresh fresh [] hpath
      · exact ih
  | tree name fresh subtree rest ihSubtree ihRest =>
      have hpaths : (tree name fresh subtree rest).leaves.map Prod.fst =
          (subtree.leaves.map Prod.fst).map (name :: ·) ++ rest.leaves.map Prod.fst := by
        rw [leaves, List.map_append, List.map_map, List.map_map]
        rfl
      rw [hpaths]
      apply List.pairwise_append.mpr
      refine ⟨ihSubtree.map_cons name, ihRest, ?_⟩
      intro first hfirst second hsecond
      obtain ⟨below, -, rfl⟩ := List.mem_map.mp hfirst
      exact rest.not_prefix_of_fresh fresh below hsecond

theorem leaves_push {name : FieldName} (join : RemoteJoin R) :
    {names : List FieldName} → (nodes : JoinNodes R names) → (hfresh : name ∉ names) →
      (nodes.push join hfresh).leaves = nodes.leaves ++ [([name], join)]
  | _, nil, _ => rfl
  | _, leaf _ _ _ rest, _ => by rw [push, leaves, leaves, rest.leaves_push, List.cons_append]
  | _, tree _ _ _ rest, _ => by rw [push, leaves, leaves, rest.leaves_push, List.append_assoc]

theorem NoEmptyTree.push {name : FieldName} (join : RemoteJoin R) {names : List FieldName}
    {nodes : JoinNodes R names} (hnodes : nodes.NoEmptyTree) (hfresh : name ∉ names) :
    (nodes.push join hfresh).NoEmptyTree := by
  induction nodes with
  | nil => trivial
  | leaf other _ first rest ih => exact ih hnodes _
  | tree other _ subtree rest _ ih =>
      obtain ⟨hbelow, hsubtree, hrest⟩ := hnodes
      exact ⟨hbelow, hsubtree, ih hrest _⟩

/-- Nodes without empty trees below them lead to joins. -/
theorem NoEmptyTree.leaves_ne_nil {names : List FieldName} {nodes : JoinNodes R names}
    (hnodes : nodes.NoEmptyTree) (hnames : names ≠ []) : nodes.leaves ≠ [] := by
  induction nodes with
  | nil => exact absurd rfl hnames
  | leaf name _ join rest => exact List.cons_ne_nil _ _
  | tree name _ subtree rest ih _ =>
      obtain ⟨hbelow, hsubtree, -⟩ := hnodes
      intro hnil
      obtain ⟨hmap, -⟩ := List.append_eq_nil_iff.mp hnil
      exact ih hsubtree hbelow (List.map_eq_nil_iff.mp hmap)

end JoinNodes

namespace JoinTree

variable {tree subtree : JoinTree R} {name : FieldName}

/-- Nowhere in a tree is there a subtree without nodes. -/
def NoEmptyTree (tree : JoinTree R) : Prop :=
  tree.nodes.NoEmptyTree

theorem isEmpty_iff : tree.isEmpty = true ↔ tree.names = [] :=
  List.isEmpty_iff

theorem leaves_of_isEmpty (hempty : tree.isEmpty = true) : tree.leaves = [] := by
  obtain ⟨nodes⟩ := tree
  cases nodes with
  | nil => rfl
  | leaf name fresh join rest => cases hempty
  | tree name fresh subtree rest => cases hempty

theorem isEmpty_iff_leaves (hnoEmpty : tree.NoEmptyTree) :
    tree.isEmpty = true ↔ tree.leaves = [] := by
  constructor
  · exact leaves_of_isEmpty
  · intro hleaves
    by_cases hnames : tree.names = []
    · exact isEmpty_iff.mpr hnames
    · exact absurd hleaves (JoinNodes.NoEmptyTree.leaves_ne_nil hnoEmpty hnames)

/-! A subtree in front -/

theorem names_withSubtree (hfresh : name ∉ tree.names) :
    (tree.withSubtree name subtree).names =
      if subtree.isEmpty then tree.names else name :: tree.names := by
  rw [withSubtree, dif_pos hfresh]
  split <;> rfl

theorem leaves_withSubtree (hfresh : name ∉ tree.names) :
    (tree.withSubtree name subtree).leaves =
      (subtree.leaves.map fun (path, join) => (name :: path, join)) ++ tree.leaves := by
  rw [withSubtree, dif_pos hfresh]
  split
  · next hempty => rw [leaves_of_isEmpty hempty, List.map_nil, List.nil_append]
  · rfl

theorem NoEmptyTree.withSubtree (htree : tree.NoEmptyTree) (hsubtree : subtree.NoEmptyTree)
    (name : FieldName) : (tree.withSubtree name subtree).NoEmptyTree := by
  rw [JoinTree.withSubtree]
  split
  · exact htree
  · next hempty =>
    split
    · exact ⟨fun hnames => hempty (isEmpty_iff.mpr hnames), hsubtree, htree⟩
    · exact htree

/-! Leaves at the end -/

/-- The tree with leaves added at its end. -/
def pushAll (tree : JoinTree R) (joins : List (FieldName × RemoteJoin R)) : JoinTree R :=
  joins.foldl (fun tree (name, join) => tree.push name join) tree

theorem names_push (join : RemoteJoin R) (hfresh : name ∉ tree.names) :
    (tree.push name join).names = tree.names ++ [name] := by
  rw [push, dif_pos hfresh]

theorem leaves_push (join : RemoteJoin R) (hfresh : name ∉ tree.names) :
    (tree.push name join).leaves = tree.leaves ++ [([name], join)] := by
  rw [push, dif_pos hfresh]
  exact tree.nodes.leaves_push join hfresh

theorem NoEmptyTree.push (htree : tree.NoEmptyTree) (name : FieldName) (join : RemoteJoin R) :
    (tree.push name join).NoEmptyTree := by
  rw [JoinTree.push]
  split
  · exact JoinNodes.NoEmptyTree.push join htree _
  · exact htree

variable {joins : List (FieldName × RemoteJoin R)}

theorem leaves_pushAll (hnodup : (joins.map Prod.fst).Nodup)
    (hfresh : ∀ name ∈ joins.map Prod.fst, name ∉ tree.names) :
    (tree.pushAll joins).leaves = tree.leaves ++ joins.map fun (name, join) => ([name], join) := by
  induction joins generalizing tree with
  | nil => rw [pushAll, List.foldl_nil, List.map_nil, List.append_nil]
  | cons head joins ih =>
      obtain ⟨name, join⟩ := head
      rw [List.map_cons, List.nodup_cons] at hnodup
      rw [List.map_cons, List.forall_mem_cons] at hfresh
      obtain ⟨hname, hrest⟩ := hfresh
      have hnext : ∀ other ∈ joins.map Prod.fst, other ∉ (tree.push name join).names := by
        intro other hother
        rw [names_push join hname, List.mem_append, List.mem_singleton]
        rintro (hold | rfl)
        · exact hrest other hother hold
        · exact hnodup.1 hother
      change ((tree.push name join).pushAll joins).leaves = _
      rw [ih hnodup.2 hnext, leaves_push join hname, List.append_assoc]
      rfl

theorem NoEmptyTree.pushAll (htree : tree.NoEmptyTree) (joins : List (FieldName × RemoteJoin R)) :
    (tree.pushAll joins).NoEmptyTree := by
  induction joins generalizing tree with
  | nil => exact htree
  | cons head joins ih => exact ih (htree.push head.1 head.2)

end JoinTree

end SelectPlan
