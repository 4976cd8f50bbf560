import SelectPlan.Query.Ordering

/-!
Where rows come from, which of them a role may see, and how they are filtered, ordered and
limited.
-/

namespace SelectPlan

variable {b : Backend} {V W : Type}

/-- Where rows come from. -/
inductive Source (b : Backend) (V : Type) where
  | table (name : TableName b)
  /-- A name bound earlier in the generated query. -/
  | identifier (name : FieldName)
  /-- A call, with the columns of its rows where it does not declare them itself. -/
  | function (name : FunctionName b) (arguments : Arguments V)
      (definition : Option (List (ColumnName × ScalarType b)))
  | nativeQuery (name : NativeQueryName) (arguments : OrderedMap String V)

namespace Source

/-- The table, if the rows are those of a table. -/
def table? : Source b V → Option (TableName b)
  | table name => some name
  | identifier _ | function _ _ _ | nativeQuery _ _ => none

/-- The values of a source. -/
def values : Source b V → List V
  | table _ | identifier _ => []
  | function _ arguments _ => arguments.values
  | nativeQuery _ arguments => arguments.values

/-- Runs an effect on the values of a source. -/
def traverse {F : Type → Type} [Applicative F] (g : V → F W) : Source b V → F (Source b W)
  | table name => pure (table name)
  | identifier name => pure (identifier name)
  | function name arguments definition =>
      (function name · definition) <$> arguments.traverse g
  | nativeQuery name arguments => nativeQuery name <$> arguments.traverse g

/-- Equality up to the order of arguments given by name, given an equality of values. -/
def same (eq : V → V → Bool) : Source b V → Source b V → Bool
  | table s, table t => s == t
  | identifier m, identifier n => m == n
  | function f xs d, function g ys e => f == g && xs.same eq ys && d == e
  | nativeQuery m xs, nativeQuery n ys => m == n && xs.same eq ys
  | _, _ => false

instance [HasJson V] : HasJson (Source b V) :=
  ⟨fun
    | table name => .tagged "Table" (json name)
    | identifier name => .tagged "Identifier" (json name)
    | function name arguments definition =>
        .tagged "Function" (.object [("function", json name), ("args", json arguments),
          ("definition_list", json definition)])
    | nativeQuery name arguments =>
        .tagged "NativeQuery" (.object [("name", json name), ("arguments", json arguments)])⟩

end Source

/-- The rows that a role may see. -/
structure RowPermission (b : Backend) (V : Type) where
  filter : Predicate b V
  limit : Option UInt64

namespace RowPermission

/-- Every row is visible. -/
def unrestricted : RowPermission b V :=
  ⟨.trivial, none⟩

/-- The values of a permission. -/
def values (permission : RowPermission b V) : List V :=
  permission.filter.values

/-- Runs an effect on the values of a permission. -/
def traverse {F : Type → Type} [Applicative F] (g : V → F W) (permission : RowPermission b V) :
    F (RowPermission b W) :=
  (mk · permission.limit) <$> permission.filter.traverse g

/-- Equality, given an equality of values. -/
def same (eq : V → V → Bool) (x y : RowPermission b V) : Bool :=
  x.filter.same eq y.filter && x.limit == y.limit

instance [HasJson V] : HasJson (RowPermission b V) :=
  ⟨fun permission =>
    .object [("filter", json permission.filter), ("limit", json permission.limit)]⟩

end RowPermission

/-- The arguments of a select. -/
structure SelectArgs (b : Backend) (V : Type) where
  filter : Option (Predicate b V) := none
  orderBy : Option (NonEmpty (OrderItem b V)) := none
  limit : Option UInt64 := none
  offset : Option UInt64 := none
  distinct : Option (NonEmpty ColumnName) := none

namespace SelectArgs

/-- No arguments. -/
def empty : SelectArgs b V :=
  {}

/-- The entries of the ordering. -/
def orderItems (args : SelectArgs b V) : List (OrderItem b V) :=
  match args.orderBy with
  | some items => items.toList
  | none => []

/-- The values of the arguments. -/
def values (args : SelectArgs b V) : List V :=
  args.filter.toList.flatMap Predicate.values ++ args.orderItems.flatMap OrderItem.values

/-- Runs an effect on the values of the arguments. -/
def traverse {F : Type → Type} [Applicative F] (g : V → F W) (args : SelectArgs b V) :
    F (SelectArgs b W) :=
  (mk · · args.limit args.offset args.distinct) <$> args.filter.mapA (Predicate.traverse g) <*>
    args.orderBy.mapA (NonEmpty.traverse (OrderItem.traverse g))

/-- Equality up to the order of map entries, given an equality of values. -/
def same (eq : V → V → Bool) (x y : SelectArgs b V) : Bool :=
  sameOption (Predicate.same eq) x.filter y.filter &&
    sameOption (NonEmpty.same (OrderItem.same eq)) x.orderBy y.orderBy &&
    x.limit == y.limit && x.offset == y.offset && x.distinct == y.distinct

instance [HasJson V] : HasJson (SelectArgs b V) :=
  ⟨fun args =>
    .object [("where", json args.filter), ("order_by", json args.orderBy),
      ("limit", json args.limit), ("offset", json args.offset),
      ("distinct", json args.distinct)]⟩

end SelectArgs

/-- How numbers that do not fit a JSON number are rendered. -/
inductive NumberRendering where
  | leaveAlone
  | stringify
deriving DecidableEq

instance : HasJson NumberRendering :=
  ⟨fun
    | .leaveAlone => .string "LeaveAlone"
    | .stringify => .string "Stringify"⟩

/-- How response names are derived from database names. -/
inductive NamingConvention where
  /-- Names stay as they are in the database. -/
  | hasura
  /-- Fields in camel case, types in Pascal case. -/
  | graphql
deriving DecidableEq

namespace NamingConvention

/-- The name that requests use. -/
def name : NamingConvention → String
  | hasura => "hasura-default"
  | graphql => "graphql-default"

/-- The convention with a name. -/
def ofName? (text : String) : Option NamingConvention :=
  [hasura, graphql].find? fun convention => convention.name == text

instance : HasJson NamingConvention :=
  ⟨fun
    | hasura => .string "HasuraCase"
    | graphql => .string "GraphqlCase"⟩

end NamingConvention

/-- Everything of a select but its fields. -/
structure Query (b : Backend) (V : Type) where
  source : Source b V
  permission : RowPermission b V
  args : SelectArgs b V := {}
  numbers : NumberRendering := .leaveAlone
  /-- Without a convention, that of the source applies. -/
  naming : Option NamingConvention := none

namespace Query

/-- The values of a query: those of its source, of the permission, then of the arguments. -/
def values (query : Query b V) : List V :=
  query.source.values ++ query.permission.values ++ query.args.values

/-- Runs an effect on the values of a query. -/
def traverse {F : Type → Type} [Applicative F] (g : V → F W) (query : Query b V) :
    F (Query b W) :=
  (mk · · · query.numbers query.naming) <$> query.source.traverse g <*>
    query.permission.traverse g <*> query.args.traverse g

/-- Equality up to the order of map entries, given an equality of values. -/
def same (eq : V → V → Bool) (x y : Query b V) : Bool :=
  x.source.same eq y.source && x.permission.same eq y.permission && x.args.same eq y.args &&
    x.numbers == y.numbers && x.naming == y.naming

/-- The members that a select adds to its fields. -/
def members [HasJson V] (query : Query b V) : List (String × Json) :=
  [("from", json query.source), ("perm", json query.permission), ("args", json query.args),
    ("stringify_numbers", json query.numbers), ("naming_convention", json query.naming)]

end Query

end SelectPlan
