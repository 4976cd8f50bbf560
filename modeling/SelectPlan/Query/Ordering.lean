import SelectPlan.Query.Column
import SelectPlan.Data.NonEmpty

/-!
What rows are ordered by.  An order that goes through a relationship carries the permission
filter of the related table, so that hidden rows do not influence it.
-/

namespace SelectPlan

variable {b : Backend} {V W : Type}

/-- Which way an order runs. -/
inductive Direction where
  | asc
  | desc
deriving DecidableEq

namespace Direction

/-- The name of a direction. -/
def name : Direction → String
  | asc => "Asc"
  | desc => "Desc"

instance : HasJson Direction := ⟨fun direction => .string direction.name⟩

/-- The direction that a JSON text holds. -/
def read? (text : String) : Option Direction :=
  Json.readAlternative? ([asc, desc].map fun direction => (direction.name, direction)) text

end Direction

/-- Where nulls stand. -/
inductive NullsOrder where
  | first
  | last
deriving DecidableEq

namespace NullsOrder

/-- The name of a place for nulls. -/
def name : NullsOrder → String
  | first => "First"
  | last => "Last"

instance : HasJson NullsOrder := ⟨fun order => .string order.name⟩

/-- The place for nulls that a JSON text holds. -/
def read? (text : String) : Option NullsOrder :=
  Json.readAlternative? ([first, last].map fun order => (order.name, order)) text

end NullsOrder

/-- An aggregate that rows are ordered by. -/
inductive OrderAggregate (b : Backend) (V : Type) where
  | count
  | operator (name : String) (result : ColumnType b) (column : ColumnInfo b)
      (redaction : Redaction b V)

namespace OrderAggregate

/-- The name of the operator, if there is one. -/
def operator? : OrderAggregate b V → Option String
  | count => none
  | operator name _ _ _ => some name

/-- The values of an aggregate. -/
def values : OrderAggregate b V → List V
  | count => []
  | operator _ _ _ redaction => redaction.values

/-- Runs an effect on the values of an aggregate. -/
def traverse {F : Type → Type} [Applicative F] (g : V → F W) :
    OrderAggregate b V → F (OrderAggregate b W)
  | count => pure count
  | operator name result column redaction =>
      operator name result column <$> redaction.traverse g

/-- Equality, given an equality of values. -/
def same (eq : V → V → Bool) : OrderAggregate b V → OrderAggregate b V → Bool
  | count, count => true
  | operator m s c x, operator n t d y => m == n && s == t && c == d && x.same eq y
  | _, _ => false

instance [HasJson V] : HasJson (OrderAggregate b V) :=
  ⟨fun
    | count => .string "Count"
    | operator name result column redaction =>
        .tagged "Op" (.object [("op", json name), ("result_type", json result),
          ("column", json column), ("redaction", json redaction)])⟩

end OrderAggregate

/-- What the rows of a computed field are ordered by. -/
inductive ComputedOrder (b : Backend) (V : Type) where
  /-- The scalar that the computed field returns. -/
  | scalar (type : ScalarType b) (redaction : Redaction b V)
  /-- An aggregate of the rows that the computed field returns. -/
  | aggregate (table : TableName b) (filter : Predicate b V) (aggregate : OrderAggregate b V)

namespace ComputedOrder

/-- The name of the aggregate operator, if there is one. -/
def operator? : ComputedOrder b V → Option String
  | scalar _ _ => none
  | aggregate _ _ inner => inner.operator?

/-- The values of an order by a computed field. -/
def values : ComputedOrder b V → List V
  | scalar _ redaction => redaction.values
  | aggregate _ filter inner => filter.values ++ inner.values

/-- Runs an effect on the values of an order by a computed field. -/
def traverse {F : Type → Type} [Applicative F] (g : V → F W) :
    ComputedOrder b V → F (ComputedOrder b W)
  | scalar type redaction => scalar type <$> redaction.traverse g
  | aggregate table filter inner =>
      aggregate table <$> filter.traverse g <*> inner.traverse g

/-- Equality, given an equality of values. -/
def same (eq : V → V → Bool) : ComputedOrder b V → ComputedOrder b V → Bool
  | scalar s x, scalar t y => s == t && x.same eq y
  | aggregate s x m, aggregate t y n => s == t && x.same eq y && m.same eq n
  | _, _ => false

instance [HasJson V] : HasJson (ComputedOrder b V) :=
  ⟨fun
    | scalar type redaction =>
        .tagged "Scalar" (.object [("ty", json type), ("redaction", json redaction)])
    | aggregate table filter inner =>
        .tagged "Aggregate" (.object [("table", json table), ("filter", json filter),
          ("aggregate", json inner)])⟩

end ComputedOrder

/-- A term that rows are ordered by. -/
inductive OrderTerm (b : Backend) (V : Type) where
  | column (info : ColumnInfo b) (redaction : Redaction b V)
  /-- A term of the one related row. -/
  | objectRelation (info : RelationshipInfo b) (filter : Predicate b V) (term : OrderTerm b V)
  /-- An aggregate of the related rows.  Single rows of many give no order. -/
  | arrayAggregate (info : RelationshipInfo b) (filter : Predicate b V)
      (aggregate : OrderAggregate b V)
  | computedField (enabled : b.capabilities.computedFields = true) (name : ComputedFieldName)
      (function : FunctionName b) (arguments : Arguments V) (order : ComputedOrder b V)

namespace OrderTerm

/-- Order by a column that is not redacted. -/
def onColumn (info : ColumnInfo b) : OrderTerm b V :=
  column info .none

/-- The aggregate operators that occur in a term. -/
def operators : OrderTerm b V → List String
  | column _ _ => []
  | objectRelation _ _ term => term.operators
  | arrayAggregate _ _ aggregate => aggregate.operator?.toList
  | computedField _ _ _ _ order => order.operator?.toList

/-- The values of a term. -/
def values : OrderTerm b V → List V
  | column _ redaction => redaction.values
  | objectRelation _ filter term => filter.values ++ term.values
  | arrayAggregate _ filter aggregate => filter.values ++ aggregate.values
  | computedField _ _ _ arguments order => arguments.values ++ order.values

/-- Runs an effect on the values of a term. -/
def traverse {F : Type → Type} [Applicative F] (g : V → F W) : OrderTerm b V → F (OrderTerm b W)
  | column info redaction => column info <$> redaction.traverse g
  | objectRelation info filter term =>
      objectRelation info <$> filter.traverse g <*> term.traverse g
  | arrayAggregate info filter aggregate =>
      arrayAggregate info <$> filter.traverse g <*> aggregate.traverse g
  | computedField enabled name function arguments order =>
      computedField enabled name function <$> arguments.traverse g <*> order.traverse g

/-- The term without its values. -/
def erase (term : OrderTerm b V) : OrderTerm b Unit :=
  Id.run (term.traverse fun _ => pure ())

/-- Equality up to the order of map entries, given an equality of values. -/
def same (eq : V → V → Bool) : OrderTerm b V → OrderTerm b V → Bool
  | column c x, column d y => c == d && x.same eq y
  | objectRelation r x s, objectRelation q y t => r.same q && x.same eq y && s.same eq t
  | arrayAggregate r x m, arrayAggregate q y n => r.same q && x.same eq y && m.same eq n
  | computedField _ m f xs s, computedField _ n g ys t =>
      m == n && f == g && xs.same eq ys && s.same eq t
  | _, _ => false

/-- The document form of a term. -/
def toJson [HasJson V] : OrderTerm b V → Json
  | column info redaction =>
      .tagged "Column" (.object [("column", json info), ("redaction", json redaction)])
  | objectRelation info filter term =>
      .tagged "ObjectRelation" (.object [("relationship", json info), ("filter", json filter),
        ("element", term.toJson)])
  | arrayAggregate info filter aggregate =>
      .tagged "ArrayAggregation" (.object [("relationship", json info), ("filter", json filter),
        ("aggregate", json aggregate)])
  | computedField _ name function arguments order =>
      .tagged "ComputedField" (.object [("xfield", .null), ("name", json name),
        ("function", json function), ("args", json arguments), ("element", json order)])

instance [HasJson V] : HasJson (OrderTerm b V) := ⟨toJson⟩

end OrderTerm

/-- One entry of an ordering. -/
structure OrderItem (b : Backend) (V : Type) where
  term : OrderTerm b V
  direction : Option Direction := none
  nulls : Option NullsOrder := none

namespace OrderItem

/-- Ascending order. -/
def asc (term : OrderTerm b V) : OrderItem b V :=
  { term, direction := some .asc }

/-- Descending order. -/
def desc (term : OrderTerm b V) : OrderItem b V :=
  { term, direction := some .desc }

/-- The direction, which is ascending where none is given. -/
def effectiveDirection (item : OrderItem b V) : Direction :=
  item.direction.getD .asc

/-- The values of an entry. -/
def values (item : OrderItem b V) : List V :=
  item.term.values

/-- Runs an effect on the values of an entry. -/
def traverse {F : Type → Type} [Applicative F] (g : V → F W) (item : OrderItem b V) :
    F (OrderItem b W) :=
  (mk · item.direction item.nulls) <$> item.term.traverse g

/-- The entry without its values. -/
def erase (item : OrderItem b V) : OrderItem b Unit :=
  ⟨item.term.erase, item.direction, item.nulls⟩

/-- Equality up to the order of map entries, given an equality of values. -/
def same (eq : V → V → Bool) (x y : OrderItem b V) : Bool :=
  x.term.same eq y.term && x.direction == y.direction && x.nulls == y.nulls

instance [HasJson V] : HasJson (OrderItem b V) :=
  ⟨fun item =>
    .object [("element", json item.term), ("direction", json item.direction),
      ("nulls", json item.nulls)]⟩

end OrderItem

end SelectPlan
