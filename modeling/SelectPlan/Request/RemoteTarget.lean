import SelectPlan.Request.Selection
import SelectPlan.Selection.RemoteTarget

/-!
Requests: the targets of remote relationships.
-/

namespace SelectPlan

variable {b : Backend} {R V : Type} [Readable R] [Readable V]

instance : Readable RemoteSchemaCall :=
  ⟨fun document => do
    return ⟨← document.get "remote_schema", ← document.get "field_path",
      ← document.get "arguments", ← document.get "selection_set"⟩⟩

instance : Readable (SourceSelection b R V) :=
  ⟨fun
    | .object [("Object", select)] => .object <$> fromJson select
    | .object [("Array", select)] => .array <$> fromJson select
    | .object [("ArrayAggregate", select)] => .arrayAggregate <$> fromJson select
    | _ => .malformed⟩

instance : Readable (SourceSelect b R V) :=
  ⟨fun document => do
    return ⟨← document.get "name", ← document.get "config", ← document.get "selection",
      ← document.get "join_mapping", ← document.get "stringify_numbers"⟩⟩

variable {Value : Backend → Type} [∀ b, Readable (Value b)]

instance : Readable (RemoteTarget Value R) :=
  ⟨fun
    | .object [("RemoteSchema", call)] => .schema <$> fromJson call
    | .object [("RemoteSource", .object [(tag, select)])] => do
        let backend ← Reading.ofOption (Backend.all.find? fun backend => backend.tag == tag)
        .source backend <$> fromJson select
    | _ => .malformed⟩

/-- Reads a target within which sources are nested at most `depth` deep. -/
def NestedTarget.read : (depth : Nat) → Json → Reading (NestedTarget Value depth)
  | 0, document => fromJson (α := RemoteTarget Value Empty) document
  | depth + 1, document =>
      haveI : Readable (NestedTarget Value depth) := ⟨read depth⟩
      fromJson (α := RemoteTarget Value (NestedTarget Value depth)) document

instance {depth : Nat} : Readable (NestedTarget Value depth) := ⟨NestedTarget.read depth⟩

instance {T : Type} [Readable T] : Readable (TargetOrName T) :=
  ⟨fun
    | .string name => pure (.name name)
    | document => .target <$> fromJson document⟩

end SelectPlan
