import SelectPlan.Backend
import SelectPlan.Json.Canonical

/-!
The vocabulary of a backend: how its tables and functions are named, which scalar types it has,
and how a source on it is configured.  What a backend does not have cannot be built for it.
-/

namespace SelectPlan

variable {b : Backend}

/-- The name of a table or of a function.  Data connectors address both by a path of any depth,
the other backends by a name within a schema. -/
inductive EntityName (b : Backend) where
  | qualified (name : QualifiedName) (flat : b ≠ .dataConnector)
  | path (segments : List String) (nested : b = .dataConnector)
deriving DecidableEq

abbrev TableName := EntityName
abbrev FunctionName := EntityName

namespace EntityName

/-- The name as messages show it. -/
def display : EntityName b → String
  | qualified name _ => name.display
  | path segments _ => ".".intercalate segments

instance : HasJson (EntityName b) :=
  ⟨fun
    | qualified name _ => json name
    | path segments _ => json segments⟩

end EntityName

/-- The scalar types that a backend knows by a name of their own. -/
def Backend.scalarNames : Backend → List String
  | .postgres | .citus | .cockroach =>
      ["Smallint", "Integer", "Bigint", "Numeric", "Float", "Double", "Text", "Varchar", "Boolean",
        "Date", "Timestamp", "Timestamptz", "Json", "Jsonb", "Uuid"]
  | .msSql =>
      ["Int", "BigInt", "Decimal", "Float", "NVarChar", "VarChar", "Bit", "Date", "DateTime2",
        "UniqueIdentifier"]
  | .bigQuery =>
      ["Int64", "Numeric", "BigNumeric", "Float64", "String", "Bool", "Date", "Timestamp", "Json",
        "Bytes"]
  | .mySql =>
      ["TinyInt", "Int", "BigInt", "Decimal", "Double", "VarChar", "Text", "Date", "DateTime",
        "Json"]
  | .dataConnector => []

/-- A scalar type.  The agents of data connectors declare theirs by name; the other backends have
a fixed list and room for others. -/
inductive ScalarType (b : Backend) where
  | builtin (name : String) (known : name ∈ b.scalarNames)
  | array (element : ScalarType b) (postgres : b.isPostgresFamily = true)
  | other (name : String) (fixed : b ≠ .dataConnector)
  | declared (name : String) (agent : b = .dataConnector)
deriving DecidableEq

/-- The document form of a scalar type. -/
def ScalarType.toJson : ScalarType b → Json
  | builtin name _ | declared name _ => .string name
  | array element _ => .tagged "Array" element.toJson
  | other name _ => .tagged "Other" (json name)

instance : HasJson (ScalarType b) := ⟨ScalarType.toJson⟩

/-- How a source on a backend is reached. -/
inductive SourceConfig (b : Backend) where
  | postgres (connectionUrl : String) (readReplicas : List String)
      (extensionsSchema : Option String) (backend : b.isPostgresFamily = true)
  | msSql (connectionString : String) (poolSize : UInt32) (backend : b = .msSql)
  | bigQuery (projectId : String) (datasets : List String) (globalSelectLimit : UInt64)
      (backend : b = .bigQuery)
  | mySql (host : String) (port : UInt16) (database : String) (backend : b = .mySql)
  | dataConnector (agent url : String) (config : JsonValue) (backend : b = .dataConnector)
deriving DecidableEq

instance : HasJson (SourceConfig b) :=
  ⟨fun
    | .postgres url replicas schema _ =>
        .object [("connection_url", json url), ("read_replicas", json replicas),
          ("extensions_schema", json schema)]
    | .msSql connection size _ =>
        .object [("connection_string", json connection), ("pool_size", json size)]
    | .bigQuery project datasets limit _ =>
        .object [("project_id", json project), ("datasets", json datasets),
          ("global_select_limit", json limit)]
    | .mySql host port database _ =>
        .object [("host", json host), ("port", json port), ("database", json database)]
    | .dataConnector agent url config _ =>
        .object [("agent", json agent), ("url", json url), ("config", json config)]⟩

end SelectPlan
