import SelectPlan.Request.Readable
import SelectPlan.Value

/-!
Requests: names, types and leaf values.
-/

namespace SelectPlan

variable {b : Backend}

/-- Requests give a backend by its name, not by its tag. -/
instance : Readable Backend :=
  ⟨fun document => do (Backend.parse (← fromJson document)).mapError .unknownBackend⟩

instance {kind : NameKind} : Readable (Name kind) := ⟨fun document => .mk <$> fromJson document⟩

instance : Readable QualifiedName :=
  ⟨fun document => do return ⟨← document.get "schema", ← document.get "name"⟩⟩

instance : Readable (EntityName b) :=
  ⟨fun document =>
    if nested : b = .dataConnector then (.path · nested) <$> fromJson document
    else (.qualified · nested) <$> fromJson document⟩

/-- Reads a scalar type whose arrays are nested less than `depth` deep. -/
def ScalarType.readWithin : (depth : Nat) → Json → Reading (ScalarType b)
  | _, .string name =>
      if known : name ∈ b.scalarNames then pure (builtin name known)
      else if agent : b = .dataConnector then pure (declared name agent)
      else .malformed
  | depth + 1, .object [("Array", element)] =>
      if postgres : b.isPostgresFamily = true then (array · postgres) <$> readWithin depth element
      else .malformed
  | _, .object [("Other", name)] =>
      if fixed : b ≠ .dataConnector then (other · fixed) <$> fromJson name else .malformed
  | _, _ => .malformed

instance : Readable (ScalarType b) :=
  ⟨fun document => ScalarType.readWithin document.depth document⟩

instance : Readable (ColumnType b) :=
  ⟨fun
    | .object [("Scalar", type)] => .scalar <$> fromJson type
    | .object [("EnumReference", table)] => .enumReference <$> fromJson table
    | _ => .malformed⟩

instance : Readable Scalar :=
  ⟨fun
    | .string "Null" => pure .null
    | .object [("Bool", value)] => .bool <$> fromJson value
    | .object [("Int", value)] => .int <$> fromJson value
    | .object [("Numeric", digits)] => .numeric <$> fromJson digits
    | .object [("Text", value)] => .text <$> fromJson value
    | .object [("Json", value)] => .json <$> fromJson value
    | _ => .malformed⟩

instance : Readable (ColumnValue b) :=
  ⟨fun document => do return ⟨← document.get "ty", ← document.get "value"⟩⟩

instance : Readable Provenance :=
  ⟨fun
    | .object [("FromGraphQL", origin)] => .request <$> origin.get "variable"
    | .object [("FromInternal", text)] => .internal <$> fromJson text
    | _ => .malformed⟩

instance : Readable (Unprepared b) :=
  ⟨fun
    | .string "Session" => pure .session
    | .object [("Literal", value)] => .literal <$> fromJson value
    | .object [("Parameter", parameter)] => do
        return .parameter (← parameter.get "provenance") (← parameter.get "value")
    | .object [("SessionVariable", item)] => do
        return .sessionVariable (← item.get "name") (← item.get "ty")
    | _ => .malformed⟩

instance : Readable (SourceConfig b) :=
  ⟨fun document =>
    if backend : b.isPostgresFamily = true then do
      return .postgres (← document.get "connection_url") (← document.get "read_replicas")
        (← document.get "extensions_schema") backend
    else if backend : b = .msSql then do
      return .msSql (← document.get "connection_string") (← document.get "pool_size") backend
    else if backend : b = .bigQuery then do
      return .bigQuery (← document.get "project_id") (← document.get "datasets")
        (← document.get "global_select_limit") backend
    else if backend : b = .mySql then do
      return .mySql (← document.get "host") (← document.get "port") (← document.get "database")
        backend
    else if backend : b = .dataConnector then do
      return .dataConnector (← document.get "agent") (← document.get "url")
        (← document.get "config") backend
    else .malformed⟩

end SelectPlan
