import SelectPlan.Query.Ordering

/-!
Pages of a connection.  A page is bounded by cursors, and a cursor gives one bound for every
entry of the ordering.
-/

namespace SelectPlan

variable {b : Backend} {V W : Type}

/-- The side of a cursor that a page lies on. -/
inductive BoundKind where
  | before
  | after
deriving DecidableEq

/-- The word for a side. -/
def BoundKind.name : BoundKind → String
  | before => "before"
  | after => "after"

instance : HasJson BoundKind :=
  ⟨fun
    | .before => .string "Before"
    | .after => .string "After"⟩

/-- One bound of a page: rows strictly before or after a value in an order.  The order holds no
values itself, because the select it belongs to applies the filters. -/
structure PageBound (b : Backend) (V : Type) where
  kind : BoundKind
  value : V
  order : OrderItem b Unit

namespace PageBound

/-- The value of a bound. -/
def values (bound : PageBound b V) : List V :=
  [bound.value]

/-- Runs an effect on the value of a bound. -/
def traverse {F : Type → Type} [Applicative F] (g : V → F W) (bound : PageBound b V) :
    F (PageBound b W) :=
  (mk bound.kind · bound.order) <$> g bound.value

/-- Equality, given an equality of values. -/
def same (eq : V → V → Bool) (x y : PageBound b V) : Bool :=
  x.kind == y.kind && eq x.value y.value && x.order.same (fun _ _ => true) y.order

instance [HasJson V] : HasJson (PageBound b V) :=
  ⟨fun bound =>
    .object [("kind", json bound.kind), ("value", json bound.value),
      ("order_by", json bound.order)]⟩

end PageBound

/-- How many rows a page has, and from which end they are counted. -/
inductive PageSlice where
  | first (count : UInt64)
  | last (count : UInt64)
deriving DecidableEq

instance : HasJson PageSlice :=
  ⟨fun
    | .first count => .tagged "First" (json count)
    | .last count => .tagged "Last" (json count)⟩

/-- The page of a connection. -/
structure Page (b : Backend) (V : Type) where
  /-- Added to the ordering, so that a cursor tells rows apart. -/
  primaryKey : NonEmpty (ColumnInfo b)
  bounds : Option (NonEmpty (PageBound b V)) := none
  slice : Option PageSlice := none

namespace Page

/-- The bounds as a list. -/
def boundList (page : Page b V) : List (PageBound b V) :=
  match page.bounds with
  | some bounds => bounds.toList
  | none => []

/-- Whether the page is read backwards from the end of the ordering. -/
def isBackwards (page : Page b V) : Bool :=
  (match page.slice with
    | some (.last _) => true
    | _ => false) ||
  match page.bounds with
    | some bounds => bounds.head.kind == .before
    | none => false

/-- The values of a page. -/
def values (page : Page b V) : List V :=
  page.boundList.flatMap PageBound.values

/-- Runs an effect on the values of a page. -/
def traverse {F : Type → Type} [Applicative F] (g : V → F W) (page : Page b V) : F (Page b W) :=
  (mk page.primaryKey · page.slice) <$>
    page.bounds.mapA (NonEmpty.traverse (PageBound.traverse g))

/-- Equality, given an equality of values. -/
def same (eq : V → V → Bool) (x y : Page b V) : Bool :=
  x.primaryKey == y.primaryKey &&
    sameOption (NonEmpty.same (PageBound.same eq)) x.bounds y.bounds && x.slice == y.slice

/-- The members that a connection adds to its select. -/
def members [HasJson V] (page : Page b V) : List (String × Json) :=
  [("xrelay", .null), ("primary_key_columns", json page.primaryKey), ("split", json page.bounds),
    ("slice", json page.slice)]

end Page

/-- What a connection says about its page. -/
inductive PageInfo where
  | typeName (text : String)
  | hasNextPage
  | hasPreviousPage
  | startCursor
  | endCursor
deriving DecidableEq

instance : HasJson PageInfo :=
  ⟨fun
    | .typeName text => .tagged "TypeName" (json text)
    | .hasNextPage => .string "HasNextPage"
    | .hasPreviousPage => .string "HasPreviousPage"
    | .startCursor => .string "StartCursor"
    | .endCursor => .string "EndCursor"⟩

end SelectPlan
