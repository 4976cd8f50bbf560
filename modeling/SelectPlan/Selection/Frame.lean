import SelectPlan.Query.Relationship
import SelectPlan.Query.Source
import SelectPlan.Selection.Leaves

/-!
Frames: a select, a relationship or an entry of an ordering around parts of any type.  What is done
with the parts is given as a function; the frame adds its own leaves and keeps everything else.
-/

namespace SelectPlan

variable {b : Backend} {A B R V W : Type}

/-- A select around fields of any type. -/
structure SelectFrame (b : Backend) (A V : Type) where
  fields : OrderedMap FieldName A
  query : Query b V

namespace SelectFrame

/-- The leaves of the fields, then those of the query. -/
def leaves (inner : A → List (Leaf R V)) (select : SelectFrame b A V) : List (Leaf R V) :=
  select.fields.values.flatMap inner ++ Leaf.ofValues select.query.values

/-- Runs effects on the fields, then on the values of the query. -/
def traverse {F : Type → Type} [Applicative F] (inner : A → F B) (g : V → F W)
    (select : SelectFrame b A V) : F (SelectFrame b B W) :=
  mk <$> select.fields.traverse inner <*> select.query.traverse g

/-- Equality, given equalities of fields and of values. -/
def same (eq : A → A → Bool) (eqV : V → V → Bool) (x y : SelectFrame b A V) : Bool :=
  x.fields.same eq y.fields && x.query.same eqV y.query

instance [HasJson A] [HasJson V] : HasJson (SelectFrame b A V) :=
  ⟨fun select => .object (("fields", json select.fields) :: select.query.members)⟩

end SelectFrame

/-- A relationship around what is selected through it, of any type. -/
structure RelationFrame (A : Type) where
  relationship : Relationship
  select : A

namespace RelationFrame

/-- Runs an effect on what is selected. -/
def traverse {F : Type → Type} [Applicative F] (inner : A → F B) (relation : RelationFrame A) :
    F (RelationFrame B) :=
  mk relation.relationship <$> inner relation.select

/-- Equality, given an equality of what is selected. -/
def same (eq : A → A → Bool) (x y : RelationFrame A) : Bool :=
  x.relationship.same y.relationship && eq x.select y.select

instance [HasJson A] : HasJson (RelationFrame A) :=
  ⟨fun relation => relation.relationship.wrap (json relation.select)⟩

end RelationFrame

/-- An entry of an ordering around a term of any type. -/
structure OrderFrame (A : Type) where
  term : A
  direction : Option Direction := none
  nulls : Option NullsOrder := none

namespace OrderFrame

/-- Runs an effect on the term. -/
def traverse {F : Type → Type} [Applicative F] (inner : A → F B) (item : OrderFrame A) :
    F (OrderFrame B) :=
  (mk · item.direction item.nulls) <$> inner item.term

/-- Equality, given an equality of terms. -/
def same (eq : A → A → Bool) (x y : OrderFrame A) : Bool :=
  eq x.term y.term && x.direction == y.direction && x.nulls == y.nulls

instance [HasJson A] : HasJson (OrderFrame A) :=
  ⟨fun item =>
    .object [("element", json item.term), ("direction", json item.direction),
      ("nulls", json item.nulls)]⟩

end OrderFrame

end SelectPlan
