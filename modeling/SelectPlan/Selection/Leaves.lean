import SelectPlan.Selection.Basic

/-!
The leaves of a selection in reading order: the targets of its remote relationships and its
values.  Within a select the fields come first, then the source, the permission and the arguments.
-/

namespace SelectPlan

/-- A place that holds data of the request: a remote target or a value. -/
inductive Leaf (R V : Type) where
  | remote (target : R)
  | value (value : V)
deriving DecidableEq

namespace Leaf

variable {R V : Type}

/-- The remote target of a leaf. -/
def remote? : Leaf R V → Option R
  | remote target => some target
  | value _ => none

/-- The value of a leaf. -/
def value? : Leaf R V → Option V
  | remote _ => none
  | value leaf => some leaf

/-- Values as leaves. -/
def ofValues (values : List V) : List (Leaf R V) :=
  values.map value

end Leaf

namespace Selection

variable {b : Backend} {R V : Type}

/-- The leaves of a part of a selection. -/
def leaves : {part : Part} → Selection b R V part → List (Leaf R V)
  | _, column field => Leaf.ofValues field.values
  | _, objectRelation _ inner => inner.leaves
  | _, arrayRelation inner => inner.leaves
  | _, computedField _ _ inner => inner.leaves
  | _, remote relationship => [.remote relationship.target]
  | _, nodeId _ _ _ => []
  | _, constant _ => []
  | _, aggregates items => Leaf.ofValues items.leafValues
  | _, nodes _ fields => fields.leaves
  | _, aggregateConstant _ => []
  | _, connectionTypeName _ => []
  | _, pageInfo _ => []
  | _, edges fields => fields.leaves
  | _, edgeTypeName _ => []
  | _, cursor => []
  | _, node fields => fields.leaves
  | _, nil => []
  | _, cons _ _ field rest => field.leaves ++ rest.leaves
  | _, select fields query => fields.leaves ++ Leaf.ofValues query.values
  | _, object fields target filter =>
      fields.leaves ++ Leaf.ofValues target.values ++ Leaf.ofValues filter.values
  | _, simple _ inner => inner.leaves
  | _, aggregate _ inner => inner.leaves
  | _, connection _ inner => inner.leaves
  | _, page _ window inner => Leaf.ofValues window.values ++ inner.leaves
  | _, scalar call => Leaf.ofValues call.values
  | _, table _ inner => inner.leaves

end Selection

end SelectPlan
