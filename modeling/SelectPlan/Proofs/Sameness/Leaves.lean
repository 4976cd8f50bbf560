import SelectPlan.Proofs.Sameness.Selections

/-!
Leaves of selections that are the same.  They match in some order, and functions that respect the
equality of leaves keep selections the same.
-/

namespace SelectPlan

variable {b : Backend} {R S V W : Type} {eqR : R → R → Bool} {eqV : V → V → Bool}

/-- Two leaves of one sort are the same. -/
inductive Leaf.Alike (eqR : R → R → Bool) (eqV : V → V → Bool) : Leaf R V → Leaf R V → Prop
  | remote {target other : R} (hsame : eqR target other = true) :
      Alike eqR eqV (.remote target) (.remote other)
  | value {value other : V} (hsame : eqV value other = true) :
      Alike eqR eqV (.value value) (.value other)

/-- Values that match do so as leaves. -/
theorem Paired.ofValues {values others : List V}
    (hvalues : Paired (fun v w => eqV v w = true) values others) :
    Paired (Leaf.Alike eqR eqV) (Leaf.ofValues values) (Leaf.ofValues others) :=
  hvalues.map fun _ _ => .value

theorem RemoteRelationship.same_traverse {eqS : S → S → Bool} {f : R → Id S}
    (hf : Respects eqR eqS f) : Respects (same (b := b) eqR) (same eqS) (traverse f) := by
  intro x y
  simp +contextual [traverse, same, hf _ _]

namespace Selection

variable {vocabulary : Vocabulary} {names others : List FieldName}

/-- The leaves of several fields are those of one field after the other. -/
theorem leaves_fields : {names : List FieldName} →
    (fields : Selection b R V (.fields vocabulary names)) →
    fields.leaves = fields.toMap.values.flatMap leaves
  | _, nil => rfl
  | _, cons _ _ field rest => congrArg (field.leaves ++ ·) rest.leaves_fields

/-- Leaves match if those of the fields with each name do. -/
theorem paired_leaves_fields {xs : Selection b R V (.fields vocabulary names)}
    {ys : Selection b R V (.fields vocabulary others)} (keys : names.Perm others)
    (fields : ∀ name x y, xs.find? name = some x → ys.find? name = some y →
      Paired (Leaf.Alike eqR eqV) x.leaves y.leaves) :
    Paired (Leaf.Alike eqR eqV) xs.leaves ys.leaves := by
  rw [leaves_fields, leaves_fields]
  have hfields : xs.toMap.keys.Perm ys.toMap.keys := keys
  exact (OrderedMap.paired_values_of_keys hfields fields).flatMap fun _ _ hleaves => hleaves

theorem Alike.paired_leaves {part : Part} {x y : Selection b R V part}
    (halike : x.Alike eqR eqV y) : Paired (Leaf.Alike eqR eqV) x.leaves y.leaves := by
  induction halike with
  | column field => exact .ofValues (ColumnField.paired_values field)
  | objectRelation _ _ ih | simple _ _ ih | aggregate _ _ ih | connection _ _ ih => exact ih
  | arrayRelation _ ih | computedField _ ih | table _ ih => exact ih
  | remote relationship =>
      rw [RemoteRelationship.same, Bool.and_eq_true] at relationship
      exact .single (.remote relationship.2)
  | nodeId | constant | aggregateConstant | connectionTypeName | edgeTypeName | cursor => exact .nil
  | pageInfo => exact .nil
  | aggregates aggregates =>
      exact .ofValues ((OrderedMap.paired_values_of_same aggregates).flatMap
        fun _ _ => Aggregate.paired_values)
  | nodes keys _ ih | edges keys _ ih | node keys _ ih => exact paired_leaves_fields keys ih
  | fields _ ih => exact paired_leaves_fields .rfl ih
  | select keys _ query ih =>
      exact (paired_leaves_fields keys ih).append (.ofValues (Query.paired_values query))
  | object keys _ target filter ih =>
      exact ((paired_leaves_fields keys ih).append (.ofValues (Source.paired_values target))).append
        (.ofValues (Predicate.paired_values filter))
  | page page _ ih => exact (Paired.ofValues (Page.paired_values page)).append ih
  | scalar call => exact .ofValues (ScalarCall.paired_values call)

/-- Fields that are compared within what holds them have matching leaves. -/
theorem paired_leaves_of_same {xs : Selection b R V (.fields vocabulary names)}
    {ys : Selection b R V (.fields vocabulary others)}
    (hsame : (xs.size == ys.size && xs.agrees eqR eqV ys.find?) = true) :
    Paired (Leaf.Alike eqR eqV) xs.leaves ys.leaves := by
  obtain ⟨keys, fields⟩ := fields_same_iff_alike.mp hsame
  exact paired_leaves_fields keys fun name x y hx hy => (fields name x y hx hy).paired_leaves

section

variable {eqS : S → S → Bool} {eqW : W → W → Bool} {f : R → Id S} {g : V → Id W}

/-- Fields are traversed under their names. -/
theorem find?_traverse : {names : List FieldName} →
    (fields : Selection b R V (.fields vocabulary names)) → (name : FieldName) →
    find? (Id.run (fields.traverse f g)) name =
      (fields.find? name).map fun field => Id.run (field.traverse f g)
  | _, nil, _ => rfl
  | _, cons first fresh field rest, name => by
      rw [traverse, Id.run_seq, Id.run_map, find?_cons, find?_cons, rest.find?_traverse]
      split <;> rfl

/-- Fields that stay alike under their names do so in the fields that a traversal makes. -/
theorem fields_traverse {xs : Selection b R V (.fields vocabulary names)}
    {ys : Selection b R V (.fields vocabulary others)}
    (hfields : ∀ name x y, xs.find? name = some x → ys.find? name = some y →
      Alike eqS eqW (Id.run (x.traverse f g)) (Id.run (y.traverse f g))) :
    ∀ name x y, find? (Id.run (xs.traverse f g)) name = some x →
      find? (Id.run (ys.traverse f g)) name = some y → x.Alike eqS eqW y := by
  intro name x y hx hy
  rw [find?_traverse, Option.map_eq_some_iff] at hx hy
  obtain ⟨x, hx, rfl⟩ := hx
  obtain ⟨y, hy, rfl⟩ := hy
  exact hfields name x y hx hy

theorem Alike.traverse (hf : Respects eqR eqS f) (hg : Respects eqV eqW g) {part : Part}
    {x y : Selection b R V part} (halike : x.Alike eqR eqV y) :
    Alike eqS eqW (Id.run (x.traverse f g)) (Id.run (y.traverse f g)) := by
  induction halike with
  | column field => exact .column (ColumnField.same_traverse hg _ _ field)
  | objectRelation relationship _ ih => exact .objectRelation relationship ih
  | arrayRelation _ ih => exact .arrayRelation ih
  | computedField _ ih => exact .computedField ih
  | remote relationship =>
      exact .remote (RemoteRelationship.same_traverse hf _ _ relationship)
  | nodeId => exact .nodeId
  | constant => exact .constant
  | aggregates aggregates =>
      exact .aggregates (OrderedMap.same_traverse (Aggregate.same_traverse hg) _ _ aggregates)
  | nodes keys _ ih => exact .nodes keys (fields_traverse ih)
  | aggregateConstant => exact .aggregateConstant
  | connectionTypeName => exact .connectionTypeName
  | pageInfo info => exact .pageInfo info
  | edges keys _ ih => exact .edges keys (fields_traverse ih)
  | edgeTypeName => exact .edgeTypeName
  | cursor => exact .cursor
  | node keys _ ih => exact .node keys (fields_traverse ih)
  | fields _ ih => exact .fields (fields_traverse ih)
  | select keys _ query ih =>
      exact .select keys (fields_traverse ih) (Query.same_traverse hg _ _ query)
  | object keys _ target filter ih =>
      exact .object keys (fields_traverse ih) (Source.same_traverse hg _ _ target)
        (Predicate.same_traverse hg _ _ filter)
  | simple relationship _ ih => exact .simple relationship ih
  | aggregate relationship _ ih => exact .aggregate relationship ih
  | connection relationship _ ih => exact .connection relationship ih
  | page page _ ih => exact .page (Page.same_traverse hg _ _ page) ih
  | scalar call => exact .scalar (ScalarCall.same_traverse hg _ _ call)
  | table _ ih => exact .table ih

theorem fields_same_traverse (hf : Respects eqR eqS f) (hg : Respects eqV eqW g)
    {xs : Selection b R V (.fields vocabulary names)}
    {ys : Selection b R V (.fields vocabulary others)}
    (hsame : (xs.size == ys.size && xs.agrees eqR eqV ys.find?) = true) :
    (size (Id.run (xs.traverse f g)) == size (Id.run (ys.traverse f g)) &&
      agrees eqS eqW (Id.run (xs.traverse f g)) (find? (Id.run (ys.traverse f g)))) = true := by
  rw [fields_same_iff_alike] at hsame ⊢
  exact ⟨hsame.1, fields_traverse fun name x y hx hy => (hsame.2 name x y hx hy).traverse hf hg⟩

end

end Selection

end SelectPlan
