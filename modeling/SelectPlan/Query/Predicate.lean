import SelectPlan.Data.Same
import SelectPlan.Value

/-!
Columns as the schema describes them, and predicates over the rows of a table: `where` arguments,
permission filters and the conditions of redactions.

Every type here that holds values comes with the list of its values in reading order (`values`),
with a traversal that runs an effect on them in that order, and with an equality that ignores the
order of map entries (`same`).
-/

namespace SelectPlan

variable {b : Backend} {V W : Type}

/-- A column as the schema describes it. -/
structure ColumnInfo (b : Backend) where
  column : ColumnName
  type : ColumnType b
  nullable : Bool := true
deriving DecidableEq

namespace ColumnInfo

/-- The column without null values. -/
def notNull (info : ColumnInfo b) : ColumnInfo b :=
  { info with nullable := false }

instance : HasJson (ColumnInfo b) :=
  ⟨fun info =>
    .object [("column", json info.column), ("ty", json info.type),
      ("nullable", json info.nullable)]⟩

end ColumnInfo

/-- Whether a relationship leads to one row or to many. -/
inductive RelationshipKind where
  | object
  | array
deriving DecidableEq

instance : HasJson RelationshipKind :=
  ⟨fun
    | .object => .string "Object"
    | .array => .string "Array"⟩

/-- Columns of one table by the columns of another that they equal. -/
abbrev ColumnMapping := OrderedMap ColumnName ColumnName

/-- Equality of mappings. -/
def ColumnMapping.same (a b : ColumnMapping) : Bool :=
  OrderedMap.same (· == ·) a b

/-- A relationship as the schema describes it. -/
structure RelationshipInfo (b : Backend) where
  name : RelationshipName
  kind : RelationshipKind
  mapping : ColumnMapping
  target : TableName b

namespace RelationshipInfo

/-- Equality up to the order of the mapping. -/
def same (x y : RelationshipInfo b) : Bool :=
  x.name == y.name && x.kind == y.kind && x.mapping.same y.mapping && x.target == y.target

instance : HasJson (RelationshipInfo b) :=
  ⟨fun info =>
    .object [("name", json info.name), ("rel_type", json info.kind),
      ("mapping", json info.mapping), ("target", json info.target)]⟩

end RelationshipInfo

/-- How two values are compared. -/
inductive ComparisonOperator where
  | eq
  | neq
  | gt
  | lt
  | gte
  | lte
deriving DecidableEq

instance : HasJson ComparisonOperator :=
  ⟨fun
    | .eq => .string "Eq"
    | .neq => .string "Neq"
    | .gt => .string "Gt"
    | .lt => .string "Lt"
    | .gte => .string "Gte"
    | .lte => .string "Lte"⟩

/-- A condition on one column. -/
inductive Comparison (V : Type) where
  | compare (operator : ComparisonOperator) (value : V)
  | oneOf (value : V)
  | noneOf (value : V)
  | like (value : V)
  | isNull (expected : Bool)
  /-- Comparison with another column of the row. -/
  | compareColumn (operator : ComparisonOperator) (column : ColumnName)
  /-- An operator that only the backend knows. -/
  | custom (name : String) (argument : V)
deriving DecidableEq

namespace Comparison

/-- Equality with a value. -/
def equals (value : V) : Comparison V :=
  compare .eq value

/-- The values of a condition. -/
def values : Comparison V → List V
  | compare _ value | oneOf value | noneOf value | like value | custom _ value => [value]
  | isNull _ | compareColumn _ _ => []

/-- Runs an effect on the values of a condition. -/
def traverse {F : Type → Type} [Applicative F] (g : V → F W) : Comparison V → F (Comparison W)
  | compare operator value => compare operator <$> g value
  | oneOf value => oneOf <$> g value
  | noneOf value => noneOf <$> g value
  | like value => like <$> g value
  | isNull expected => pure (isNull expected)
  | compareColumn operator column => pure (compareColumn operator column)
  | custom name argument => custom name <$> g argument

/-- Equality, given an equality of values. -/
def same (eq : V → V → Bool) : Comparison V → Comparison V → Bool
  | compare o v, compare p w => o == p && eq v w
  | oneOf v, oneOf w => eq v w
  | noneOf v, noneOf w => eq v w
  | like v, like w => eq v w
  | isNull x, isNull y => x == y
  | compareColumn o c, compareColumn p d => o == p && c == d
  | custom m v, custom n w => m == n && eq v w
  | _, _ => false

instance [HasJson V] : HasJson (Comparison V) :=
  ⟨fun
    | compare operator value =>
        .tagged "Compare" (.object [("op", json operator), ("value", json value)])
    | oneOf value => .tagged "In" (json value)
    | noneOf value => .tagged "Nin" (json value)
    | like value => .tagged "Like" (json value)
    | isNull expected => .tagged "IsNull" (json expected)
    | compareColumn operator column =>
        .tagged "CompareColumn" (.object [("op", json operator), ("column", json column)])
    | custom name argument =>
        .tagged "Custom" (.object [("name", json name), ("argument", json argument)])⟩

end Comparison

/-- A condition on the rows of a table. -/
inductive Predicate (b : Backend) (V : Type) where
  /-- All of the items.  Without items, the condition that always holds. -/
  | all (items : List (Predicate b V))
  | any (items : List (Predicate b V))
  | not (item : Predicate b V)
  /-- Some row of an unrelated table satisfies the filter. -/
  | someRow (table : TableName b) (filter : Predicate b V)
  | column (info : ColumnInfo b) (comparisons : List (Comparison V))
  /-- Some related row satisfies the filter, and the permission filter of its table. -/
  | relationship (info : RelationshipInfo b) (targetFilter filter : Predicate b V)

namespace Predicate

/-- The condition that always holds. -/
def trivial : Predicate b V :=
  all []

/-- Whether a condition is written as the one that always holds. -/
def isTrivial : Predicate b V → Bool
  | all [] => true
  | _ => false

/-- Conjunction.  A trivial operand is left out, and the items of a conjunction on the left are
extended rather than nested. -/
def and (x y : Predicate b V) : Predicate b V :=
  if y.isTrivial then x
  else if x.isTrivial then y
  else
    match x, y with
    | all items, all others => all (items ++ others)
    | all items, other => all (items ++ [other])
    | item, other => all [item, other]

/-- A condition on one column. -/
def onColumn (info : ColumnInfo b) (comparison : Comparison V) : Predicate b V :=
  column info [comparison]

mutual

/-- The values of a predicate. -/
def values : Predicate b V → List V
  | all items | any items => valuesOfAll items
  | not item => item.values
  | someRow _ filter => filter.values
  | column _ comparisons => comparisons.flatMap Comparison.values
  | relationship _ targetFilter filter => targetFilter.values ++ filter.values

/-- The values of several predicates. -/
def valuesOfAll : List (Predicate b V) → List V
  | [] => []
  | item :: rest => item.values ++ valuesOfAll rest

end

mutual

/-- Runs an effect on the values of a predicate. -/
def traverse {F : Type → Type} [Applicative F] (g : V → F W) : Predicate b V → F (Predicate b W)
  | all items => all <$> traverseAll g items
  | any items => any <$> traverseAll g items
  | not item => not <$> item.traverse g
  | someRow table filter => someRow table <$> filter.traverse g
  | column info comparisons => column info <$> comparisons.mapA (Comparison.traverse g)
  | relationship info targetFilter filter =>
      relationship info <$> targetFilter.traverse g <*> filter.traverse g

/-- Runs an effect on the values of several predicates. -/
def traverseAll {F : Type → Type} [Applicative F] (g : V → F W) :
    List (Predicate b V) → F (List (Predicate b W))
  | [] => pure []
  | item :: rest => List.cons <$> item.traverse g <*> traverseAll g rest

end

mutual

/-- Equality up to the order of mappings, given an equality of values. -/
def same (eq : V → V → Bool) : Predicate b V → Predicate b V → Bool
  | all xs, all ys => sameAll eq xs ys
  | any xs, any ys => sameAll eq xs ys
  | not x, not y => x.same eq y
  | someRow s x, someRow t y => s == t && x.same eq y
  | column c xs, column d ys =>
      c == d && sameList (Comparison.same eq) xs ys
  | relationship r x y, relationship s z w => r.same s && x.same eq z && y.same eq w
  | _, _ => false

/-- Equality of lists of predicates. -/
def sameAll (eq : V → V → Bool) : List (Predicate b V) → List (Predicate b V) → Bool
  | [], [] => true
  | x :: xs, y :: ys => x.same eq y && sameAll eq xs ys
  | _, _ => false

end

mutual

/-- The document form of a predicate. -/
def toJson [HasJson V] : Predicate b V → Json
  | all items => .tagged "And" (.array (itemsToJson items))
  | any items => .tagged "Or" (.array (itemsToJson items))
  | not item => .tagged "Not" item.toJson
  | someRow table filter =>
      .tagged "Exists" (.object [("table", json table), ("filter", filter.toJson)])
  | column info comparisons =>
      .tagged "Column" (.object [("column", json info), ("ops", json comparisons)])
  | relationship info targetFilter filter =>
      .tagged "Relationship" (.object [("relationship", json info),
        ("target_filter", targetFilter.toJson), ("filter", filter.toJson)])

/-- The document forms of several predicates. -/
def itemsToJson [HasJson V] : List (Predicate b V) → List Json
  | [] => []
  | item :: rest => item.toJson :: itemsToJson rest

end

instance [HasJson V] : HasJson (Predicate b V) := ⟨toJson⟩

end Predicate

end SelectPlan
