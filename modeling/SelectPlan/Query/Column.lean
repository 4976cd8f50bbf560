import SelectPlan.Query.Predicate

/-!
Selected columns and calls: how the value of a column or of a function is read, and when it is
hidden.
-/

namespace SelectPlan

variable {b : Backend} {V W : Type}

/-- A step into a JSON value. -/
inductive JsonStep where
  | key (name : String)
  | index (position : Int64)
deriving DecidableEq

instance : HasJson JsonStep :=
  ⟨fun
    | .key name => .tagged "Key" (json name)
    | .index position => .tagged "Index" (json position)⟩

/-- The part of a JSON column that is selected. -/
structure JsonPath where
  steps : List JsonStep
deriving DecidableEq

instance : HasJson JsonPath := ⟨fun path => .tagged "JsonPath" (json path.steps)⟩

/-- Whether a value is hidden on some rows. -/
inductive Redaction (b : Backend) (V : Type) where
  | none
  /-- The value is null on rows where the condition fails. -/
  | unlessHolds (condition : Predicate b V)

namespace Redaction

/-- Whether the value is hidden on some rows. -/
def isRedacted : Redaction b V → Bool
  | none => false
  | unlessHolds _ => true

/-- The values of the condition. -/
def values : Redaction b V → List V
  | none => []
  | unlessHolds condition => condition.values

/-- Runs an effect on the values of the condition. -/
def traverse {F : Type → Type} [Applicative F] (g : V → F W) : Redaction b V → F (Redaction b W)
  | none => pure none
  | unlessHolds condition => unlessHolds <$> condition.traverse g

/-- Equality, given an equality of values. -/
def same (eq : V → V → Bool) : Redaction b V → Redaction b V → Bool
  | none, none => true
  | unlessHolds x, unlessHolds y => x.same eq y
  | _, _ => false

instance [HasJson V] : HasJson (Redaction b V) :=
  ⟨fun
    | none => .string "NoRedaction"
    | unlessHolds condition => .tagged "RedactIfFalse" (json condition)⟩

end Redaction

/-- A column in the response. -/
structure ColumnField (b : Backend) (V : Type) where
  column : ColumnName
  type : ColumnType b
  /-- Whether the value is rendered as text. -/
  asText : Bool := false
  path : Option JsonPath := none
  redaction : Redaction b V := .none

namespace ColumnField

/-- Whether the field is the value of the column unchanged. -/
def isPlain (field : ColumnField b V) : Bool :=
  !field.asText && field.path.isNone && !field.redaction.isRedacted

/-- The values of a column field. -/
def values (field : ColumnField b V) : List V :=
  field.redaction.values

/-- Runs an effect on the values of a column field. -/
def traverse {F : Type → Type} [Applicative F] (g : V → F W) (field : ColumnField b V) :
    F (ColumnField b W) :=
  mk field.column field.type field.asText field.path <$> field.redaction.traverse g

/-- Equality, given an equality of values. -/
def same (eq : V → V → Bool) (x y : ColumnField b V) : Bool :=
  x.column == y.column && x.type == y.type && x.asText == y.asText && x.path == y.path &&
    x.redaction.same eq y.redaction

instance [HasJson V] : HasJson (ColumnField b V) :=
  ⟨fun field =>
    .object [("column", json field.column), ("ty", json field.type),
      ("as_text", json field.asText), ("arguments", json field.path),
      ("redaction", json field.redaction)]⟩

end ColumnField

/-- An argument of a function. -/
inductive Argument (V : Type) where
  /-- The row of the table that a computed field is defined on. -/
  | tableRow
  | input (value : V)
deriving DecidableEq

namespace Argument

/-- The value of an argument, if it has one. -/
def values : Argument V → List V
  | tableRow => []
  | input value => [value]

/-- Runs an effect on the value of an argument. -/
def traverse {F : Type → Type} [Applicative F] (g : V → F W) : Argument V → F (Argument W)
  | tableRow => pure tableRow
  | input value => input <$> g value

/-- Equality, given an equality of values. -/
def same (eq : V → V → Bool) : Argument V → Argument V → Bool
  | tableRow, tableRow => true
  | input v, input w => eq v w
  | _, _ => false

instance [HasJson V] : HasJson (Argument V) :=
  ⟨fun
    | tableRow => .string "TableRow"
    | input value => .tagged "Input" (json value)⟩

end Argument

/-- The arguments of a call. -/
structure Arguments (V : Type) where
  positional : List (Argument V) := []
  named : OrderedMap String (Argument V) := ∅

namespace Arguments

/-- No arguments. -/
def empty : Arguments V :=
  {}

/-- Arguments by position alone. -/
def ofPositional (arguments : List (Argument V)) : Arguments V :=
  { positional := arguments }

/-- The number of arguments. -/
def size (arguments : Arguments V) : Nat :=
  arguments.positional.length + arguments.named.size

/-- Whether there are no arguments. -/
def isEmpty (arguments : Arguments V) : Bool :=
  arguments.size == 0

/-- Whether the row of the table is the only argument, given by position. -/
def isTableRow (arguments : Arguments V) : Bool :=
  match arguments.positional with
  | [.tableRow] => arguments.named.isEmpty
  | _ => false

/-- The values of the arguments, those given by position first. -/
def values (arguments : Arguments V) : List V :=
  arguments.positional.flatMap Argument.values ++ arguments.named.values.flatMap Argument.values

/-- Runs an effect on the values of the arguments. -/
def traverse {F : Type → Type} [Applicative F] (g : V → F W) (arguments : Arguments V) :
    F (Arguments W) :=
  mk <$> arguments.positional.mapA (Argument.traverse g) <*>
    arguments.named.traverse (Argument.traverse g)

/-- Equality up to the order of named arguments, given an equality of values. -/
def same (eq : V → V → Bool) (x y : Arguments V) : Bool :=
  sameList (Argument.same eq) x.positional y.positional &&
    x.named.same (Argument.same eq) y.named

instance [HasJson V] : HasJson (Arguments V) :=
  ⟨fun arguments =>
    .object [("positional", json arguments.positional), ("named", json arguments.named)]⟩

end Arguments

/-- The call of a computed field that returns a scalar. -/
structure ScalarCall (b : Backend) (V : Type) where
  function : FunctionName b
  arguments : Arguments V
  type : ScalarType b
  path : Option JsonPath := none
  redaction : Redaction b V := .none

namespace ScalarCall

/-- Whether the call returns the value of the computed field unchanged: it is given the row of
the table and nothing else. -/
def isPlain (call : ScalarCall b V) : Bool :=
  call.path.isNone && !call.redaction.isRedacted && call.arguments.isTableRow

/-- The values of a call. -/
def values (call : ScalarCall b V) : List V :=
  call.arguments.values ++ call.redaction.values

/-- Runs an effect on the values of a call. -/
def traverse {F : Type → Type} [Applicative F] (g : V → F W) (call : ScalarCall b V) :
    F (ScalarCall b W) :=
  (mk call.function · call.type call.path ·) <$> call.arguments.traverse g <*>
    call.redaction.traverse g

/-- Equality up to the order of named arguments, given an equality of values. -/
def same (eq : V → V → Bool) (x y : ScalarCall b V) : Bool :=
  x.function == y.function && x.arguments.same eq y.arguments && x.type == y.type &&
    x.path == y.path && x.redaction.same eq y.redaction

instance [HasJson V] : HasJson (ScalarCall b V) :=
  ⟨fun call =>
    .object [("function", json call.function), ("args", json call.arguments),
      ("ty", json call.type), ("arguments", json call.path), ("redaction", json call.redaction)]⟩

end ScalarCall

end SelectPlan
