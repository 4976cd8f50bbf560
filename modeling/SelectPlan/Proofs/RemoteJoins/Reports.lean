import SelectPlan.Proofs.RemoteJoins.Columns
import SelectPlan.Proofs.RemoteJoins.Growth

/-!
The added fields that joins report, level by level: what the joins of a level say is what was added
to it, and none of it was there before.
-/

namespace SelectPlan

variable {b : Backend} {R V : Type}

/-- The names of the added fields that a join reads. -/
def RemoteJoin.phantoms (join : RemoteJoin R) : List FieldName :=
  (join.columns.values.filter JoinColumn.isPhantom).map JoinColumn.name

theorem RemoteJoin.mem_phantoms {join : RemoteJoin R} {name : FieldName} :
    name ∈ join.phantoms ↔ .phantom name ∈ join.columns.values := by
  rw [phantoms, List.mem_map]
  constructor
  · rintro ⟨column, hcolumn, rfl⟩
    obtain ⟨hmem, hphantom⟩ := List.mem_filter.mp hcolumn
    cases column with
    | selected name => cases hphantom
    | phantom name => exact hmem
  · intro hmem
    exact ⟨.phantom name, List.mem_filter.mpr ⟨hmem, rfl⟩, rfl⟩

namespace JoinTree

/-- The names of the fields that the joins of a level report as added. -/
def phantomsAt (tree : JoinTree R) (level : List FieldName) : List FieldName :=
  tree.leaves.flatMap fun (path, join) => if path.dropLast = level then join.phantoms else []

variable {tree subtree : JoinTree R} {name : FieldName} {level : List FieldName}

/-- Fields are reported on a level only if it lies on the way to a leaf. -/
theorem phantomsAt_eq_nil (hlevel : ∀ name ∈ tree.names, ∀ below,
    (name :: below).dropLast ≠ level) : tree.phantomsAt level = [] := by
  apply List.flatMap_eq_nil_iff.mpr
  intro leaf hleaf
  obtain ⟨name, hname, below, hpath⟩ := tree.nodes.leaves_path hleaf
  exact if_neg fun heq => hlevel name hname below (hpath ▸ heq)

theorem dropLast_cons_eq_cons {first : FieldName} {path : List FieldName}
    (hpath : (name :: path).dropLast = first :: level) :
    name = first ∧ path.dropLast = level := by
  cases path with
  | nil => cases hpath
  | cons next path => exact List.cons.inj hpath

theorem phantomsAt_withSubtree_self (hfresh : name ∉ tree.names) :
    (tree.withSubtree name subtree).phantomsAt (name :: level) = subtree.phantomsAt level := by
  have htree : tree.phantomsAt (name :: level) = [] := phantomsAt_eq_nil fun other hother _ heq =>
    hfresh ((dropLast_cons_eq_cons heq).1 ▸ hother)
  rw [phantomsAt] at htree
  rw [phantomsAt, leaves_withSubtree hfresh, List.flatMap_append, htree, List.append_nil,
    List.flatMap_map]
  apply List.flatMap_congr
  intro leaf hleaf
  obtain ⟨next, -, below, hpath⟩ := subtree.nodes.leaves_path hleaf
  simp [hpath]

theorem phantomsAt_withSubtree_of_ne (hfresh : name ∉ tree.names) {first : FieldName}
    (hne : name ≠ first) :
    (tree.withSubtree name subtree).phantomsAt (first :: level) =
      tree.phantomsAt (first :: level) := by
  have hsubtree : (subtree.leaves.map fun (path, join) => (name :: path, join)).flatMap
      (fun (path, join) => if path.dropLast = first :: level then join.phantoms else []) = [] := by
    rw [List.flatMap_map]
    apply List.flatMap_eq_nil_iff.mpr
    intro leaf _
    exact if_neg fun heq => hne (dropLast_cons_eq_cons heq).1
  rw [phantomsAt, leaves_withSubtree hfresh, List.flatMap_append, hsubtree, List.nil_append]
  rfl

end JoinTree

namespace Selection

/-- No join of the trees below a level belongs to the level itself. -/
theorem phantomsAt_joins_nil {vocabulary : Vocabulary} : {names : List FieldName} →
    (fields : Selection b R V (.fields vocabulary names)) → fields.joins.phantomsAt [] = []
  | _, nil => rfl
  | _, cons name fresh field rest => by
      rw [joins, JoinTree.phantomsAt, JoinTree.leaves_withSubtree (joins_names_fresh fresh rest),
        List.flatMap_append, List.flatMap_map]
      apply List.append_eq_nil_iff.mpr
      refine ⟨List.flatMap_eq_nil_iff.mpr fun leaf hleaf => ?_, phantomsAt_joins_nil rest⟩
      obtain ⟨next, -, below, hpath⟩ := field.joins.nodes.leaves_path hleaf
      exact if_neg fun heq => by simp [hpath] at heq

variable {names : List FieldName} (fields : Selection b R V (.fields .row names))

theorem phantomsAt_joinTree (level : List FieldName) :
    (joinTree fields fields.joins).phantomsAt level = fields.joins.phantomsAt level ++
      if level = [] then (settle fields fields.stripped).1.flatMap fun (_, join) => join.phantoms
      else [] := by
  rw [JoinTree.phantomsAt, leaves_joinTree, List.flatMap_append, List.flatMap_map]
  refine congrArg (_ ++ ·) ?_
  split
  · next hlevel =>
    subst hlevel
    rfl
  · next hlevel => exact List.flatMap_eq_nil_iff.mpr fun _ _ => if_neg (Ne.symm hlevel)

/-- A field that a join of a level reports as added is none of the level's own. -/
theorem not_mem_keys_of_phantom {name : FieldName}
    (hname : name ∈ (joinTree fields fields.joins).phantomsAt []) : name ∉ names := by
  rw [phantomsAt_joinTree, phantomsAt_joins_nil, if_pos rfl, List.nil_append,
    List.mem_flatMap] at hname
  obtain ⟨⟨_, join⟩, hjoin, hname⟩ := hname
  obtain ⟨⟨_, relationship⟩, -, -, hsettles⟩ :=
    exists_related_of_mem (settle_spec fields).2 hjoin
  rw [RemoteJoin.mem_phantoms, OrderedMap.values, ← Entries.map_snd_toList, List.mem_map] at hname
  obtain ⟨⟨_, _⟩, hcolumn, rfl⟩ := hname
  obtain ⟨_, -, -, hcarries⟩ := exists_related_of_mem hsettles.columns hcolumn
  exact hcarries.phantom_iff.mp rfl

/-- The fields of a level in the end: its own, and behind them fields without anything below them,
which its joins report as added. -/
theorem settle_reported : ∃ added : List (FieldName × JoinField b),
    (settle fields fields.stripped).2.fields.toList = fields.stripped.toMap.toList ++
      added.map (Prod.map id JoinField.phantom) ∧
    ∀ name ∈ added.map Prod.fst, name ∈ (joinTree fields fields.joins).phantomsAt [] := by
  obtain ⟨added, hfields, hreported⟩ := settle_grows fields fields.stripped
  refine ⟨added, hfields, fun name hname => ?_⟩
  obtain ⟨⟨first, join⟩, hjoin, hcolumn⟩ := List.mem_flatMap.mp (hreported name hname)
  rw [phantomsAt_joinTree, if_pos rfl]
  apply List.mem_append_right
  exact List.mem_flatMap.mpr ⟨(first, join), hjoin, RemoteJoin.mem_phantoms.mpr hcolumn⟩

end Selection

end SelectPlan
