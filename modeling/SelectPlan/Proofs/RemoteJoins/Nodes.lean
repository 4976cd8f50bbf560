import SelectPlan.Planning.RemoteJoins
import SelectPlan.Proofs.RemoteJoins.Paths
import SelectPlan.Selection.Kind

/-!
The joins that are split off a select are its remote relationships: each of them once, under the
path of response fields that leads to it.
-/

namespace SelectPlan

variable {b : Backend} {R V : Type}

namespace Selection

/-- The remote targets of a part of a selection, each with the response fields on the way to it. -/
def remoteTargets : {part : Part} → Selection b R V part → List (List FieldName × R)
  | _, column _ => []
  | _, objectRelation _ inner => inner.remoteTargets
  | _, arrayRelation inner => inner.remoteTargets
  | _, computedField _ _ inner => inner.remoteTargets
  | _, remote relationship => [([], relationship.target)]
  | _, nodeId _ _ _ => []
  | _, constant _ => []
  | _, aggregates _ => []
  | _, nodes _ fields => fields.remoteTargets
  | _, aggregateConstant _ => []
  | _, connectionTypeName _ => []
  | _, pageInfo _ => []
  | _, edges fields => fields.remoteTargets
  | _, edgeTypeName _ => []
  | _, cursor => []
  | _, node fields => fields.remoteTargets
  | _, nil => []
  | _, cons name _ field rest =>
      (field.remoteTargets.map fun (path, target) => (name :: path, target)) ++ rest.remoteTargets
  | _, select fields _ => fields.remoteTargets
  | _, object fields _ _ => fields.remoteTargets
  | _, simple _ inner => inner.remoteTargets
  | _, aggregate _ inner => inner.remoteTargets
  | _, connection _ inner => inner.remoteTargets
  | _, page _ _ inner => inner.remoteTargets
  | _, scalar _ => []
  | _, table _ inner => inner.remoteTargets

/-- The remote relationship that a field is. -/
def remote? : Field b R V → Option (RemoteRelationship b R)
  | remote relationship => some relationship
  | _ => none

theorem remotes_cons {names : List FieldName} (name : FieldName) (fresh : name ∉ names)
    (field : Field b R V) (rest : Selection b R V (.fields .row names)) :
    (cons name fresh field rest).remotes =
      (remote? field).toList.map (name, ·) ++ rest.remotes := by
  cases field <;> rfl

/-- The remote targets that are left to the level above: a field leaves itself, and fields leave
those among them. -/
def ownTargets {part : Part} (tree : Selection b R V part) : List (List FieldName × R) :=
  match part, tree with
  | .field .row, field => (remote? field).toList.map fun relationship => ([], relationship.target)
  | .fields .row _, fields =>
      fields.remotes.map fun (name, relationship) => ([name], relationship.target)
  | _, _ => []

theorem ownTargets_field (field : Field b R V) :
    field.ownTargets =
      (remote? field).toList.map fun relationship => ([], relationship.target) :=
  rfl

theorem ownTargets_fields {names : List FieldName}
    (fields : Selection b R V (.fields .row names)) :
    fields.ownTargets =
      fields.remotes.map fun (name, relationship) => ([name], relationship.target) :=
  rfl

theorem ownTargets_cons {vocabulary : Vocabulary} {names : List FieldName} (name : FieldName)
    (fresh : name ∉ names) (field : Selection b R V (.field vocabulary))
    (rest : Selection b R V (.fields vocabulary names)) :
    (cons name fresh field rest).ownTargets =
      (field.ownTargets.map fun (path, target) => (name :: path, target)) ++
        rest.ownTargets := by
  cases vocabulary with
  | row =>
      rw [ownTargets_fields, ownTargets_fields, ownTargets_field, remotes_cons, List.map_append,
        List.map_map, List.map_map]
      rfl
  | aggregate => rfl
  | connection => rfl
  | edge => rfl

theorem remoteTargets_map_snd {part : Part} (tree : Selection b R V part) :
    tree.remoteTargets.map Prod.snd = tree.leaves.filterMap Leaf.remote? := by
  have hvalues (values : List V) :
      (Leaf.ofValues values : List (Leaf R V)).filterMap Leaf.remote? = [] := by
    rw [Leaf.ofValues, List.filterMap_map, List.filterMap_eq_nil_iff]
    exact fun _ _ => rfl
  induction tree with
  | cons name fresh field rest ihField ihRest =>
      rw [remoteTargets, List.map_append, List.map_map, leaves, List.filterMap_append, ← ihField,
        ← ihRest]
      rfl
  | select fields query ih =>
      rw [remoteTargets, leaves, List.filterMap_append, hvalues, List.append_nil, ih]
  | object fields target filter ih =>
      rw [remoteTargets, leaves, List.filterMap_append, List.filterMap_append, hvalues, hvalues,
        List.append_nil, List.append_nil, ih]
  | page enabled window inner ih =>
      rw [remoteTargets, leaves, List.filterMap_append, hvalues, List.nil_append, ih]
  | column field => exact (hvalues _).symm
  | aggregates items => exact (hvalues _).symm
  | scalar call => exact (hvalues _).symm
  | remote relationship => rfl
  | nodeId enabled owner primaryKey => rfl
  | constant text => rfl
  | aggregateConstant text => rfl
  | connectionTypeName text => rfl
  | pageInfo info => rfl
  | edgeTypeName text => rfl
  | cursor => rfl
  | nil => rfl
  | objectRelation relationship inner ih => exact ih
  | arrayRelation inner ih => exact ih
  | computedField enabled name inner ih => exact ih
  | nodes enabled fields ih => exact ih
  | edges fields ih => exact ih
  | node fields ih => exact ih
  | simple relationship inner ih => exact ih
  | aggregate relationship inner ih => exact ih
  | connection relationship inner ih => exact ih
  | table shape inner ih => exact ih

end Selection

/-- The targets of a join tree, each with the path that leads to it. -/
def JoinTree.targets (tree : JoinTree R) : List (List FieldName × R) :=
  tree.leaves.map fun (path, join) => (path, join.target)

theorem JoinTree.targets_withSubtree {tree : JoinTree R} {name : FieldName}
    (hfresh : name ∉ tree.names) (subtree : JoinTree R) :
    (tree.withSubtree name subtree).targets =
      (subtree.targets.map fun (path, target) => (name :: path, target)) ++ tree.targets := by
  rw [targets, leaves_withSubtree hfresh, List.map_append, List.map_map, targets, List.map_map]
  rfl

namespace JoinLevel

/-- The joins of a level keep the names and the targets of its remote relationships. -/
theorem joinAll_targets (remotes : List (FieldName × RemoteRelationship b R))
    (level : JoinLevel b V) :
    (joinAll remotes level).1.map (fun (name, join) => (name, join.target)) =
      remotes.map fun (name, relationship) => (name, relationship.target) := by
  induction remotes generalizing level with
  | nil => rfl
  | cons head remotes ih =>
      obtain ⟨name, relationship⟩ := head
      change (name, relationship.target) ::
        (joinAll remotes (join relationship level).2).1.map _ = _
      rw [ih, List.map_cons]

end JoinLevel

namespace Selection

theorem settle_names {names : List FieldName} (fields : Selection b R V (.fields .row names))
    (stripped : Selection b Empty V (.fields .row names)) :
    (settle fields stripped).1.map Prod.fst = fields.remotes.map Prod.fst := by
  have htargets := congrArg (List.map Prod.fst)
    (JoinLevel.joinAll_targets fields.remotes { fields := stripped.toMap })
  rw [List.map_map, List.map_map] at htargets
  exact htargets

theorem remotes_names_sublist : {names : List FieldName} →
    (fields : Selection b R V (.fields .row names)) →
    (fields.remotes.map Prod.fst).Sublist names
  | _, nil => List.Sublist.refl _
  | _, cons name fresh field rest => by
      rw [remotes_cons, List.map_append]
      cases remote? field with
      | none => exact (remotes_names_sublist rest).cons name
      | some relationship => exact (remotes_names_sublist rest).cons_cons name

theorem joins_names_subset {vocabulary : Vocabulary} : {names : List FieldName} →
    (fields : Selection b R V (.fields vocabulary names)) → ∀ name ∈ fields.joins.names,
    name ∈ names
  | _, nil, _, hname => hname
  | _, cons first fresh field rest, name, hname => by
      have hrest : first ∉ rest.joins.names := fun hfirst =>
        fresh (joins_names_subset rest first hfirst)
      rw [joins, JoinTree.names_withSubtree hrest] at hname
      split at hname
      · exact List.mem_cons_of_mem first (joins_names_subset rest name hname)
      · rcases List.mem_cons.mp hname with rfl | hname
        · exact List.mem_cons_self
        · exact List.mem_cons_of_mem first (joins_names_subset rest name hname)

theorem joins_names_fresh {vocabulary : Vocabulary} {names : List FieldName} {name : FieldName}
    (fresh : name ∉ names) (rest : Selection b R V (.fields vocabulary names)) :
    name ∉ rest.joins.names :=
  fun hname => fresh (joins_names_subset rest name hname)

theorem joins_isEmpty_of_remote {field : Field b R V} {relationship : RemoteRelationship b R}
    (hremote : remote? field = some relationship) : field.joins.isEmpty = true := by
  cases field with
  | remote => rfl
  | _ => cases hremote

/-- A name of a level leads to a tree or to a join, never to both. -/
theorem joins_names_not_remotes : {names : List FieldName} →
    (fields : Selection b R V (.fields .row names)) → ∀ name ∈ fields.remotes.map Prod.fst,
    name ∉ fields.joins.names
  | _, nil, _, hname => absurd hname List.not_mem_nil
  | _, cons first fresh field rest, name, hname => by
      have hfirst := joins_names_fresh fresh rest
      rw [joins, JoinTree.names_withSubtree hfirst]
      rw [remotes_cons, List.map_append, List.mem_append] at hname
      cases hremote : remote? field with
      | some relationship =>
          rw [if_pos (joins_isEmpty_of_remote hremote)]
          rw [hremote] at hname
          rcases hname with hname | hname
          · rw [List.mem_singleton.mp hname]
            exact hfirst
          · exact joins_names_not_remotes rest name hname
      | none =>
          rw [hremote] at hname
          have hname := hname.resolve_left List.not_mem_nil
          -- a tree is put under the name of its own field, which is not remote
          have hne : name ≠ first := fun heq =>
            fresh (heq ▸ (remotes_names_sublist rest).subset hname)
          split
          · exact joins_names_not_remotes rest name hname
          · rw [List.mem_cons, not_or]
            exact ⟨hne, joins_names_not_remotes rest name hname⟩

theorem leaves_joinTree {names : List FieldName} (fields : Selection b R V (.fields .row names)) :
    (joinTree fields fields.joins).leaves =
      fields.joins.leaves ++
        (settle fields fields.stripped).1.map fun (name, join) => ([name], join) := by
  have hnodup : (fields.remotes.map Prod.fst).Nodup :=
    (remotes_names_sublist fields).nodup fields.toEntries.nodup_keys
  apply JoinTree.leaves_pushAll
  · rw [settle_names]
    exact hnodup
  · rw [settle_names]
    exact joins_names_not_remotes fields

/-- The targets of a level are those of the trees below it and its own. -/
theorem targets_joinTree {names : List FieldName} (fields : Selection b R V (.fields .row names)) :
    (joinTree fields fields.joins).targets = fields.joins.targets ++ fields.ownTargets := by
  rw [JoinTree.targets, leaves_joinTree]
  have hown := congrArg (List.map fun (name, target) => ([name], target))
    (JoinLevel.joinAll_targets fields.remotes { fields := fields.stripped.toMap })
  rw [List.map_map, List.map_map] at hown
  rw [List.map_append, List.map_map]
  exact congrArg (fields.joins.targets ++ ·) hown

/-- The joins of a part of a selection and the remote targets that it leaves to the level above are
together its remote targets. -/
theorem joins_targets {part : Part} (tree : Selection b R V part) :
    (tree.joins.targets ++ tree.ownTargets).Perm tree.remoteTargets := by
  have hlevel {names : List FieldName} (fields : Selection b R V (.fields .row names))
      (ih : (fields.joins.targets ++ fields.ownTargets).Perm fields.remoteTargets) :
      ((joinTree fields fields.joins).targets ++ []).Perm fields.remoteTargets := by
    rw [List.append_nil, targets_joinTree]
    exact ih
  induction tree with
  | cons name fresh field rest ihField ihRest =>
      rw [joins, JoinTree.targets_withSubtree (joins_names_fresh fresh rest), ownTargets_cons,
        remoteTargets]
      have hboth := (ihField.map fun (path, target) => (name :: path, target)).append ihRest
      -- what the field leaves to its level moves past the joins of the fields behind it
      rw [List.map_append] at hboth
      rw [List.append_assoc] at hboth ⊢
      exact ((List.perm_append_comm_assoc _ _ _).append_left _).trans hboth
  | @select vocabulary names fields query ih =>
      -- only the fields of rows are a level, the others pass on what is below them
      cases vocabulary with
      | row => exact hlevel fields ih
      | aggregate => exact ih
      | connection => exact ih
      | edge => exact ih
  | object fields target filter ih => exact hlevel fields ih
  | nodes enabled fields ih => exact hlevel fields ih
  | node fields ih => exact hlevel fields ih
  | remote relationship => exact .refl _
  | column field => exact .refl _
  | aggregates items => exact .refl _
  | scalar call => exact .refl _
  | nodeId enabled owner primaryKey => exact .refl _
  | constant text => exact .refl _
  | aggregateConstant text => exact .refl _
  | connectionTypeName text => exact .refl _
  | pageInfo info => exact .refl _
  | edgeTypeName text => exact .refl _
  | cursor => exact .refl _
  | @nil vocabulary =>
      cases vocabulary <;> exact .refl _
  | objectRelation relationship inner ih => exact ih
  | arrayRelation inner ih => exact ih
  | computedField enabled name inner ih => exact ih
  | edges fields ih => exact ih
  | simple relationship inner ih => exact ih
  | aggregate relationship inner ih => exact ih
  | connection relationship inner ih => exact ih
  | page enabled window inner ih => exact ih
  | table shape inner ih => exact ih

/-- No tree without nodes is put into a join tree. -/
theorem joins_noEmptyTree {part : Part} (tree : Selection b R V part) :
    tree.joins.NoEmptyTree := by
  induction tree with
  | cons name fresh field rest ihField ihRest => exact ihRest.withSubtree ihField name
  | @select vocabulary names fields query ih =>
      cases vocabulary with
      | row => exact ih.pushAll _
      | aggregate => exact ih
      | connection => exact ih
      | edge => exact ih
  | object fields target filter ih => exact ih.pushAll _
  | nodes enabled fields ih => exact ih.pushAll _
  | node fields ih => exact ih.pushAll _
  | objectRelation relationship inner ih => exact ih
  | arrayRelation inner ih => exact ih
  | computedField enabled name inner ih => exact ih
  | edges fields ih => exact ih
  | simple relationship inner ih => exact ih
  | aggregate relationship inner ih => exact ih
  | connection relationship inner ih => exact ih
  | page enabled window inner ih => exact ih
  | table shape inner ih => exact ih
  | _ => trivial

theorem splitRemotes_joins_eq (select : Select b R V) :
    (splitRemotes select).2 = if select.joins.isEmpty then none else some select.joins :=
  rfl

theorem leaves_splitRemotes (select : Select b R V) :
    (splitRemotes select).2.toList.flatMap JoinTree.leaves = select.joins.leaves := by
  rw [splitRemotes_joins_eq]
  split
  · next hempty =>
    rw [JoinTree.leaves_of_isEmpty hempty]
    rfl
  · exact List.flatMap_singleton _ _

theorem splitRemotes_eq_none_iff (select : Select b R V) :
    (splitRemotes select).2 = none ↔ select.joins.leaves = [] := by
  rw [← JoinTree.isEmpty_iff_leaves (joins_noEmptyTree select), splitRemotes_joins_eq]
  split
  · next hempty => exact iff_of_true rfl hempty
  · next hempty => exact iff_of_false (Option.some_ne_none _) hempty

/-- The joins that are split off a select are its remote relationships, each once and under the
path of response fields that leads to it.  No path is the beginning of another one, and there are
no empty subtrees. -/
theorem splitRemotes_joins_each_remote_once (select : Select b R V) :
    let leaves := (splitRemotes select).2.toList.flatMap JoinTree.leaves
    (leaves.map fun (path, join) => (path, join.target)).Perm select.remoteTargets ∧
      (leaves.map fun (_, join) => join.target).Perm (TreeKind.remotes (.part _) select) ∧
      PrefixFree (leaves.map Prod.fst) ∧
      (∀ tree ∈ (splitRemotes select).2, tree.NoEmptyTree) ∧
      ((splitRemotes select).2 = none ↔ TreeKind.remotes (.part _) select = []) := by
  have hleaves := leaves_splitRemotes select
  have htargets : (select.joins.leaves.map fun (path, join) => (path, join.target)).Perm
      select.remoteTargets := by
    have hown : select.ownTargets = [] := rfl
    have hperm := joins_targets select
    rw [hown, List.append_nil] at hperm
    exact hperm
  have hremotes : (select.joins.leaves.map fun (_, join) => join.target).Perm
      (TreeKind.remotes (.part _) select) := by
    have hperm := htargets.map Prod.snd
    rw [List.map_map, remoteTargets_map_snd] at hperm
    exact hperm
  simp only [hleaves]
  refine ⟨htargets, hremotes, select.joins.nodes.leaves_prefixFree, ?_, ?_⟩
  · intro tree htree
    rw [splitRemotes_joins_eq] at htree
    split at htree
    · cases htree
    · cases htree
      exact joins_noEmptyTree select
  · rw [splitRemotes_eq_none_iff]
    constructor
    · intro hleaves
      rw [hleaves] at hremotes
      exact hremotes.symm.eq_nil
    · intro hnil
      rw [hnil] at hremotes
      exact List.map_eq_nil_iff.mp hremotes.eq_nil

end Selection

end SelectPlan
