import SelectPlan.Query.Column

/-!
Aggregates over the rows of a select.  The names of operators are open: which of them a backend
can compile is checked when a select is validated.
-/

namespace SelectPlan

variable {b : Backend} {V W : Type}

/-- Columns with their redactions. -/
abbrev RedactedColumns (b : Backend) (V : Type) := List (ColumnName × Redaction b V)

namespace RedactedColumns

/-- The values of the redactions. -/
def values (columns : RedactedColumns b V) : List V :=
  columns.flatMap fun column => column.2.values

/-- Runs an effect on the values of the redactions. -/
def traverse {F : Type → Type} [Applicative F] (g : V → F W) (columns : RedactedColumns b V) :
    F (RedactedColumns b W) :=
  columns.mapA fun column => (column.1, ·) <$> column.2.traverse g

/-- Equality, given an equality of values. -/
def same (eq : V → V → Bool) (xs ys : RedactedColumns b V) : Bool :=
  sameList (fun x y => x.1 == y.1 && x.2.same eq y.2) xs ys

end RedactedColumns

/-- What is counted. -/
inductive Count (b : Backend) (V : Type) where
  | star
  | nonNull (columns : RedactedColumns b V)
  | distinct (columns : RedactedColumns b V)

namespace Count

/-- The values of a count. -/
def values : Count b V → List V
  | star => []
  | nonNull columns | distinct columns => columns.values

/-- Runs an effect on the values of a count. -/
def traverse {F : Type → Type} [Applicative F] (g : V → F W) : Count b V → F (Count b W)
  | star => pure star
  | nonNull columns => nonNull <$> columns.traverse g
  | distinct columns => distinct <$> columns.traverse g

/-- Equality, given an equality of values. -/
def same (eq : V → V → Bool) : Count b V → Count b V → Bool
  | star, star => true
  | nonNull xs, nonNull ys => xs.same eq ys
  | distinct xs, distinct ys => xs.same eq ys
  | _, _ => false

instance [HasJson V] : HasJson (Count b V) :=
  ⟨fun
    | star => .string "Star"
    | nonNull columns => .tagged "NonNull" (json columns)
    | distinct columns => .tagged "Distinct" (json columns)⟩

end Count

/-- What an aggregate operator is applied to. -/
inductive Operand (b : Backend) (V : Type) where
  | column (info : ColumnInfo b) (redaction : Redaction b V)
  | computedField (enabled : b.capabilities.computedFields = true) (name : ComputedFieldName)
      (function : FunctionName b) (arguments : Arguments V) (type : ScalarType b)
      (redaction : Redaction b V)
  | constant (text : String)

namespace Operand

/-- The values of an operand. -/
def values : Operand b V → List V
  | column _ redaction => redaction.values
  | computedField _ _ _ arguments _ redaction => arguments.values ++ redaction.values
  | constant _ => []

/-- Runs an effect on the values of an operand. -/
def traverse {F : Type → Type} [Applicative F] (g : V → F W) : Operand b V → F (Operand b W)
  | column info redaction => column info <$> redaction.traverse g
  | computedField enabled name function arguments type redaction =>
      (computedField enabled name function · type ·) <$> arguments.traverse g <*>
        redaction.traverse g
  | constant text => pure (constant text)

/-- Equality up to the order of named arguments, given an equality of values. -/
def same (eq : V → V → Bool) : Operand b V → Operand b V → Bool
  | column c x, column d y => c == d && x.same eq y
  | computedField _ m f xs s x, computedField _ n g ys t y =>
      m == n && f == g && xs.same eq ys && s == t && x.same eq y
  | constant s, constant t => s == t
  | _, _ => false

instance [HasJson V] : HasJson (Operand b V) :=
  ⟨fun
    | column info redaction =>
        .tagged "Column" (.object [("column", json info), ("redaction", json redaction)])
    | computedField _ name function arguments type redaction =>
        .tagged "ComputedField" (.object [("xfield", .null), ("name", json name),
          ("function", json function), ("args", json arguments), ("ty", json type),
          ("redaction", json redaction)])
    | constant text => .tagged "Expression" (json text)⟩

end Operand

/-- One aggregate. -/
inductive Aggregate (b : Backend) (V : Type) where
  | count (of : Count b V)
  /-- An operator, applied to operands under the names of response fields. -/
  | operator (name : String) (operands : OrderedMap FieldName (Operand b V))
  | constant (text : String)

namespace Aggregate

/-- The name of the operator, if there is one. -/
def operator? : Aggregate b V → Option String
  | operator name _ => some name
  | count _ | constant _ => none

/-- The values of an aggregate. -/
def values : Aggregate b V → List V
  | count counted => counted.values
  | operator _ operands => operands.values.flatMap Operand.values
  | constant _ => []

/-- Runs an effect on the values of an aggregate. -/
def traverse {F : Type → Type} [Applicative F] (g : V → F W) : Aggregate b V → F (Aggregate b W)
  | count counted => count <$> counted.traverse g
  | operator name operands => operator name <$> operands.traverse (Operand.traverse g)
  | constant text => pure (constant text)

/-- Equality up to the order of map entries, given an equality of values. -/
def same (eq : V → V → Bool) : Aggregate b V → Aggregate b V → Bool
  | count x, count y => x.same eq y
  | operator m xs, operator n ys => m == n && xs.same (Operand.same eq) ys
  | constant s, constant t => s == t
  | _, _ => false

instance [HasJson V] : HasJson (Aggregate b V) :=
  ⟨fun
    | count counted => .tagged "Count" (json counted)
    | operator name operands =>
        .tagged "Op" (.object [("op", json name), ("fields", json operands)])
    | constant text => .tagged "Expression" (json text)⟩

end Aggregate

/-- Aggregates under the names of response fields. -/
abbrev Aggregates (b : Backend) (V : Type) := OrderedMap FieldName (Aggregate b V)

namespace Aggregates

/-- The operators of the aggregates, in order. -/
def operators (aggregates : Aggregates b V) : List String :=
  OrderedMap.values aggregates |>.filterMap Aggregate.operator?

/-- The values of the aggregates. -/
def leafValues (aggregates : Aggregates b V) : List V :=
  (OrderedMap.values aggregates).flatMap Aggregate.values

/-- Runs an effect on the values of the aggregates. -/
def traverseValues {F : Type → Type} [Applicative F] (g : V → F W) (aggregates : Aggregates b V) :
    F (Aggregates b W) :=
  OrderedMap.traverse (Aggregate.traverse g) aggregates

end Aggregates

end SelectPlan
