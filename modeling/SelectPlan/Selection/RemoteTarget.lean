import SelectPlan.Selection.Document
import SelectPlan.Selection.Leaves
import SelectPlan.Selection.Same
import SelectPlan.Selection.Traverse

/-!
What remote relationships lead to: a call of a remote schema, or a selection on another source of
the same metadata, possibly on another backend.  The schema of the former is not known here.
-/

namespace SelectPlan

variable {b : Backend} {R S V W : Type}

/-- A call of a remote schema. -/
structure RemoteSchemaCall where
  schema : SourceName
  /-- The fields that lead from the root of the schema to the joined one. -/
  fieldPath : List String
  /-- Arguments that do not depend on the row. -/
  arguments : OrderedMap String JsonValue
  selectionSet : String

namespace RemoteSchemaCall

/-- Equality up to the order of arguments. -/
def same (x y : RemoteSchemaCall) : Bool :=
  x.schema == y.schema && x.fieldPath == y.fieldPath &&
    x.arguments.same (· == ·) y.arguments && x.selectionSet == y.selectionSet

instance : HasJson RemoteSchemaCall :=
  ⟨fun call =>
    .object [("remote_schema", json call.schema), ("field_path", json call.fieldPath),
      ("arguments", json call.arguments), ("selection_set", json call.selectionSet)]⟩

end RemoteSchemaCall

/-- What is selected on another source. -/
inductive SourceSelection (b : Backend) (R V : Type) where
  | object (select : Selection b R V .object)
  | array (select : Select b R V)
  | arrayAggregate (select : AggregateSelect b R V)

namespace SourceSelection

/-- The leaves of what is selected. -/
def leaves : SourceSelection b R V → List (Leaf R V)
  | object select => select.leaves
  | array select => select.leaves
  | arrayAggregate select => select.leaves

/-- Runs `f` on the remote targets and `g` on the values of what is selected. -/
def traverse {F : Type → Type} [Applicative F] (f : R → F S) (g : V → F W) :
    SourceSelection b R V → F (SourceSelection b S W)
  | object select => object <$> select.traverse f g
  | array select => array <$> select.traverse f g
  | arrayAggregate select => arrayAggregate <$> select.traverse f g

/-- Equality up to the order of map entries, given equalities of remote targets and of values. -/
def same (eqR : R → R → Bool) (eqV : V → V → Bool) :
    SourceSelection b R V → SourceSelection b R V → Bool
  | object x, object y => x.agrees eqR eqV y
  | array x, array y => x.agrees eqR eqV y
  | arrayAggregate x, arrayAggregate y => x.agrees eqR eqV y
  | _, _ => false

instance [HasJson R] [HasJson V] : HasJson (SourceSelection b R V) :=
  ⟨fun
    | object select => .tagged "Object" (json select)
    | array select => .tagged "Array" (json select)
    | arrayAggregate select => .tagged "ArrayAggregate" (json select)⟩

end SourceSelection

/-- A selection on another source, which may have remote relationships of its own. -/
structure SourceSelect (b : Backend) (R V : Type) where
  name : SourceName
  config : SourceConfig b
  selection : SourceSelection b R V
  /-- How each join field is read on the other side. -/
  joinMapping : OrderedMap FieldName (ColumnName × ScalarType b)
  numbers : NumberRendering

namespace SourceSelect

/-- The leaves of a selection on another source. -/
def leaves (source : SourceSelect b R V) : List (Leaf R V) :=
  source.selection.leaves

/-- Runs `f` on the remote targets and `g` on the values of a selection on another source. -/
def traverse {F : Type → Type} [Applicative F] (f : R → F S) (g : V → F W)
    (source : SourceSelect b R V) : F (SourceSelect b S W) :=
  (mk source.name source.config · source.joinMapping source.numbers) <$>
    source.selection.traverse f g

/-- Equality up to the order of map entries, given equalities of remote targets and of values. -/
def same (eqR : R → R → Bool) (eqV : V → V → Bool) (x y : SourceSelect b R V) : Bool :=
  x.name == y.name && x.config == y.config && x.selection.same eqR eqV y.selection &&
    x.joinMapping.same (· == ·) y.joinMapping && x.numbers == y.numbers

instance [HasJson R] [HasJson V] : HasJson (SourceSelect b R V) :=
  ⟨fun source =>
    .object [("name", json source.name), ("config", json source.config),
      ("selection", json source.selection), ("join_mapping", json source.joinMapping),
      ("stringify_numbers", json source.numbers)]⟩

end SourceSelect

/-- What a remote relationship leads to.  `Value` gives the leaf values of each backend, `R` is the
type of the remote targets within. -/
inductive RemoteTarget (Value : Backend → Type) (R : Type) where
  | schema (call : RemoteSchemaCall)
  | source (backend : Backend) (select : SourceSelect backend R (Value backend))

namespace RemoteTarget

variable {Value : Backend → Type}

/-- The name of the remote schema or of the source. -/
def name : RemoteTarget Value R → SourceName
  | schema call => call.schema
  | source _ select => select.name

/-- The backend of the source, if the target is one. -/
def backend? : RemoteTarget Value R → Option Backend
  | schema _ => none
  | source backend _ => some backend

/-- The response names of the join fields that the other side expects. -/
def joinFieldNames : RemoteTarget Value R → List FieldName
  | schema _ => []
  | source _ select => select.joinMapping.keys

/-- Equality up to the order of map entries, given equalities of the remote targets within and of
the values of each backend. -/
def same (eqR : R → R → Bool) (eqV : (b : Backend) → Value b → Value b → Bool) :
    RemoteTarget Value R → RemoteTarget Value R → Bool
  | schema x, schema y => x.same y
  | source b x, source c y =>
      if h : b = c then x.same eqR (eqV b) (h ▸ y) else false
  | _, _ => false

instance [HasJson R] [∀ b, HasJson (Value b)] : HasJson (RemoteTarget Value R) :=
  ⟨fun
    | schema call => .tagged "RemoteSchema" (json call)
    | source backend select => .tagged "RemoteSource" (.tagged backend.tag (json select))⟩

end RemoteTarget

/-- Remote targets within which sources follow each other at most `depth` times. -/
def NestedTarget (Value : Backend → Type) : (depth : Nat) → Type
  | 0 => RemoteTarget Value Empty
  | depth + 1 => RemoteTarget Value (NestedTarget Value depth)

namespace NestedTarget

variable {Value : Backend → Type}

/-- The name of the remote schema or of the source. -/
def name : {depth : Nat} → NestedTarget Value depth → SourceName
  | 0, target => RemoteTarget.name target
  | _ + 1, target => RemoteTarget.name target

/-- Equality up to the order of map entries, given an equality of the values of each backend. -/
def same (eqV : (b : Backend) → Value b → Value b → Bool) :
    {depth : Nat} → NestedTarget Value depth → NestedTarget Value depth → Bool
  | 0, x, y => RemoteTarget.same nofun eqV x y
  | _ + 1, x, y => RemoteTarget.same (same eqV) eqV x y

/-- The document form of a nested target. -/
def toJson [∀ b, HasJson (Value b)] : {depth : Nat} → NestedTarget Value depth → Json
  | 0, target => json (α := RemoteTarget Value Empty) target
  | depth + 1, target =>
      haveI : HasJson (NestedTarget Value depth) := ⟨toJson⟩
      json (α := RemoteTarget Value (NestedTarget Value depth)) target

instance [∀ b, HasJson (Value b)] {depth : Nat} : HasJson (NestedTarget Value depth) := ⟨toJson⟩

end NestedTarget

/-- The target of a remote relationship, or a name that stands for one. -/
inductive TargetOrName (T : Type) where
  | name (text : String)
  | target (target : T)

namespace TargetOrName

variable {T : Type}

/-- Equality, given an equality of targets. -/
def same (eq : T → T → Bool) : TargetOrName T → TargetOrName T → Bool
  | name s, name t => s == t
  | target x, target y => eq x y
  | _, _ => false

instance [HasJson T] : HasJson (TargetOrName T) :=
  ⟨fun
    | name text => .string text
    | target inner => json inner⟩

end TargetOrName

end SelectPlan
