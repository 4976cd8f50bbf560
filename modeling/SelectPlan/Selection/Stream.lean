import SelectPlan.Selection.Document
import SelectPlan.Selection.Leaves
import SelectPlan.Selection.Same
import SelectPlan.Selection.Traverse

/-!
Streams: selects that deliver their rows in batches and resume from a cursor.
-/

namespace SelectPlan

variable {b : Backend} {R S V W : Type}

/-- Where a stream starts. -/
structure StreamCursor (b : Backend) (V : Type) where
  ordering : Direction
  column : ColumnInfo b
  initialValue : V

namespace StreamCursor

/-- Equality, given an equality of values. -/
def same (eq : V → V → Bool) (x y : StreamCursor b V) : Bool :=
  x.ordering == y.ordering && x.column == y.column && eq x.initialValue y.initialValue

instance [HasJson V] : HasJson (StreamCursor b V) :=
  ⟨fun cursor =>
    .object [("ordering", json cursor.ordering), ("column", json cursor.column),
      ("initial_value", json cursor.initialValue)]⟩

end StreamCursor

/-- The arguments of a stream. -/
structure StreamArgs (b : Backend) (V : Type) where
  filter : Option (Predicate b V)
  /-- The number of rows in a batch. -/
  batchSize : UInt64
  cursor : StreamCursor b V

namespace StreamArgs

/-- The values of the arguments. -/
def values (args : StreamArgs b V) : List V :=
  args.filter.toList.flatMap Predicate.values ++ [args.cursor.initialValue]

/-- Runs an effect on the values of the arguments. -/
def traverse {F : Type → Type} [Applicative F] (g : V → F W) (args : StreamArgs b V) :
    F (StreamArgs b W) :=
  (fun filter value => ⟨filter, args.batchSize, ⟨args.cursor.ordering, args.cursor.column, value⟩⟩)
    <$> args.filter.mapA (Predicate.traverse g) <*> g args.cursor.initialValue

/-- Equality up to the order of map entries, given an equality of values. -/
def same (eq : V → V → Bool) (x y : StreamArgs b V) : Bool :=
  sameOption (Predicate.same eq) x.filter y.filter && x.batchSize == y.batchSize &&
    x.cursor.same eq y.cursor

instance [HasJson V] : HasJson (StreamArgs b V) :=
  ⟨fun args =>
    .object [("where", json args.filter), ("batch_size", json args.batchSize),
      ("cursor", json args.cursor)]⟩

end StreamArgs

/-- A select that is a stream. -/
structure Stream (b : Backend) (R V : Type) where
  enabled : b.capabilities.streamingSubscriptions = true
  {names : List FieldName}
  fields : Selection b R V (.fields .row names)
  source : Source b V
  permission : RowPermission b V
  args : StreamArgs b V
  numbers : NumberRendering := .leaveAlone

namespace Stream

/-- The leaves of a stream. -/
def leaves (stream : Stream b R V) : List (Leaf R V) :=
  stream.fields.leaves ++
    Leaf.ofValues (stream.source.values ++ stream.permission.values ++ stream.args.values)

/-- Runs `f` on the remote targets and `g` on the values of a stream. -/
def traverse {F : Type → Type} [Applicative F] (f : R → F S) (g : V → F W)
    (stream : Stream b R V) : F (Stream b S W) :=
  (mk stream.enabled · · · · stream.numbers) <$> stream.fields.traverse f g <*>
    stream.source.traverse g <*> stream.permission.traverse g <*> stream.args.traverse g

/-- Equality up to the order of map entries, given equalities of remote targets and of values. -/
def same (eqR : R → R → Bool) (eqV : V → V → Bool) (x y : Stream b R V) : Bool :=
  x.fields.size == y.fields.size && x.fields.agrees eqR eqV y.fields.find? &&
    x.source.same eqV y.source && x.permission.same eqV y.permission &&
    x.args.same eqV y.args && x.numbers == y.numbers

instance [HasJson R] [HasJson V] : HasJson (Stream b R V) :=
  ⟨fun stream =>
    .object [("xstream", .null), ("fields", json stream.fields), ("from", json stream.source),
      ("perm", json stream.permission), ("args", json stream.args),
      ("stringify_numbers", json stream.numbers)]⟩

end Stream

end SelectPlan
