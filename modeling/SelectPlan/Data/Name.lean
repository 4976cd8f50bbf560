import SelectPlan.Data.OrderedMap
import SelectPlan.Json.Reader

/-!
Names.  Names of different things are different types, and all of them are written as strings.
-/

namespace SelectPlan

/-- What a name is the name of. -/
inductive NameKind where
  /-- A field of the response: its alias, or the name of the field. -/
  | field
  | relationship
  | computedField
  | nativeQuery
  /-- A remote schema or a source of the metadata. -/
  | source
  | column

/-- The name of a thing of some kind. -/
structure Name (kind : NameKind) where
  text : String
deriving DecidableEq

abbrev FieldName := Name .field
abbrev RelationshipName := Name .relationship
abbrev ComputedFieldName := Name .computedField
abbrev NativeQueryName := Name .nativeQuery
abbrev SourceName := Name .source
abbrev ColumnName := Name .column

namespace Name

variable {kind : NameKind}

instance : HasJson (Name kind) := ⟨fun name => .string name.text⟩

instance : MemberName (Name kind) := ⟨text⟩

/-- The name that a JSON text holds. -/
def read? (text : String) : Option (Name kind) :=
  match Json.read text with
  | some (.string name) => some ⟨name⟩
  | _ => none

theorem text_injective : Function.Injective (@text kind) := by
  rintro ⟨first⟩ ⟨second⟩ rfl
  rfl

end Name

/-- A name within a schema, or within a dataset. -/
structure QualifiedName where
  schema : String
  name : String
deriving DecidableEq

namespace QualifiedName

/-- The name with its schema in front. -/
def display (name : QualifiedName) : String :=
  name.schema ++ "." ++ name.name

instance : HasJson QualifiedName :=
  ⟨fun name => .object [("schema", json name.schema), ("name", json name.name)]⟩

/-- The qualified name that a JSON text holds: an object with the two members, each once, or the
list of the two. -/
def read? (text : String) : Option QualifiedName :=
  match Json.readRecord ["schema", "name"] text with
  | some (.object [("schema", .string schema), ("name", .string name)]) => some ⟨schema, name⟩
  | some (.object [("name", .string name), ("schema", .string schema)]) => some ⟨schema, name⟩
  | some (.array [.string schema, .string name]) => some ⟨schema, name⟩
  | _ => none

end QualifiedName

namespace Json

/-- The alternative that a JSON text names, alone or as the only member of an object that holds
null. -/
def readAlternative? {α : Type} (alternatives : List (String × α)) (text : String) : Option α :=
  match read text with
  | some (.string tag) | some (.object [(tag, .null)]) => alternatives.lookup tag
  | _ => none

end Json

end SelectPlan
