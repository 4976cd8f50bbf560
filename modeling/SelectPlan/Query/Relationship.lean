import SelectPlan.Query.Column

/-!
Relationships as a selection follows them: to another table of the same source, or out of it.
-/

namespace SelectPlan

variable {b : Backend} {R S : Type}

/-- What all selections through a relationship share: which one it is, and which columns it joins
on. -/
structure Relationship where
  name : RelationshipName
  mapping : ColumnMapping
  nullable : Bool := true

namespace Relationship

/-- Equality up to the order of the mapping. -/
def same (x y : Relationship) : Bool :=
  x.name == y.name && x.mapping.same y.mapping && x.nullable == y.nullable

/-- The document form of a selection through a relationship. -/
def wrap (relationship : Relationship) (select : Json) : Json :=
  .object [("name", json relationship.name), ("mapping", json relationship.mapping),
    ("nullable", json relationship.nullable), ("select", select)]

end Relationship

/-- A value of the row that a remote relationship joins on. -/
inductive JoinField (b : Backend) where
  | column (name : ColumnName) (type : ColumnType b)
  /-- A scalar computed field without arguments. -/
  | computedField (enabled : b.capabilities.computedFields = true) (name : ComputedFieldName)
      (function : FunctionName b) (type : ScalarType b)
deriving DecidableEq

instance : HasJson (JoinField b) :=
  ⟨fun
    | .column name type => .tagged "Column" (.object [("column", json name), ("ty", json type)])
    | .computedField _ name function type =>
        .tagged "ComputedField" (.object [("xfield", .null), ("name", json name),
          ("function", json function), ("ty", json type)])⟩

/-- A relationship that leaves the source: the values it joins on, under the names that the
response gives them, and what it leads to. -/
structure RemoteRelationship (b : Backend) (R : Type) where
  joinFields : OrderedMap FieldName (JoinField b)
  target : R

namespace RemoteRelationship

/-- Runs an effect on the target. -/
def traverse {F : Type → Type} [Applicative F] (f : R → F S) (remote : RemoteRelationship b R) :
    F (RemoteRelationship b S) :=
  mk remote.joinFields <$> f remote.target

/-- Equality up to the order of join fields, given an equality of targets. -/
def same (eq : R → R → Bool) (x y : RemoteRelationship b R) : Bool :=
  x.joinFields.same (· == ·) y.joinFields && eq x.target y.target

instance [HasJson R] : HasJson (RemoteRelationship b R) :=
  ⟨fun remote =>
    .object [("lhs_join_fields", json remote.joinFields), ("relationship", json remote.target)]⟩

end RemoteRelationship

end SelectPlan
