import SelectPlan.Data.Name
import SelectPlan.Error
import SelectPlan.Text.Quoted

/-!
The storage engines that a select can be planned for, and what each of them can do.
-/

namespace SelectPlan

/-- A storage engine. -/
inductive Backend where
  | postgres
  | citus
  | cockroach
  | msSql
  | bigQuery
  | mySql
  | dataConnector
deriving DecidableEq

/-- Abilities that not every backend has. -/
structure Capabilities where
  streamingSubscriptions : Bool
  relay : Bool
  nodesAggregate : Bool
  computedFields : Bool
deriving DecidableEq

namespace Backend

/-- All backends, in the order in which they are listed. -/
def all : List Backend :=
  [postgres, citus, cockroach, msSql, bigQuery, mySql, dataConnector]

/-- The name that requests use. -/
def name : Backend → String
  | postgres => "postgres"
  | citus => "citus"
  | cockroach => "cockroach"
  | msSql => "mssql"
  | bigQuery => "bigquery"
  | mySql => "mysql"
  | dataConnector => "dataconnector"

/-- The tag that documents use. -/
def tag : Backend → String
  | postgres => "Postgres"
  | citus => "Citus"
  | cockroach => "Cockroach"
  | msSql => "MsSql"
  | bigQuery => "BigQuery"
  | mySql => "MySql"
  | dataConnector => "DataConnector"

instance : HasJson Backend := ⟨fun backend => .string backend.tag⟩

/-- The backend that a JSON text holds. -/
def read? (text : String) : Option Backend :=
  Json.readAlternative? (all.map fun backend => (backend.tag, backend)) text

/-- The names of all backends. -/
def names : List String :=
  all.map name

/-- The backend with a name.  An unknown name is answered with the names there are. -/
def parse (text : String) : Except Error Backend :=
  match all.find? fun backend => backend.name == text with
  | some backend => .ok backend
  | none =>
      .error <| { reason := .notFound (Text.quoted text) "backend" : Error }.pushHint
        ("known backends: " ++ ", ".intercalate names)

/-- Whether a backend speaks the dialect of Postgres. -/
def isPostgresFamily : Backend → Bool
  | postgres | citus | cockroach => true
  | msSql | bigQuery | mySql | dataConnector => false

/-- What a backend can do. -/
def capabilities (backend : Backend) : Capabilities where
  streamingSubscriptions := backend.isPostgresFamily
  relay := backend == postgres
  nodesAggregate := true
  computedFields := backend.isPostgresFamily || backend == bigQuery

/-- Aggregate operators that every backend with a fixed set of them has. -/
def standardAggregates : List String :=
  ["avg", "count", "max", "min", "sum"]

/-- The aggregate operators of a backend beyond the standard ones, or nothing if the backend
accepts any name. -/
def furtherAggregates? : Backend → Option (List String)
  | postgres | citus | cockroach =>
      some ["stddev", "stddev_pop", "stddev_samp", "var_pop", "var_samp", "variance", "bool_and",
        "bool_or"]
  | msSql => some ["stdev", "stdevp", "var", "varp"]
  | bigQuery =>
      some ["stddev", "stddev_pop", "stddev_samp", "var_pop", "var_samp", "variance"]
  | mySql =>
      some ["std", "stddev", "stddev_pop", "stddev_samp", "var_pop", "var_samp", "variance"]
  | dataConnector => none

/-- Whether a backend can compile an aggregate operator. -/
def supportsAggregate (backend : Backend) (operator : String) : Bool :=
  match backend.furtherAggregates? with
  | some further => standardAggregates.contains operator || further.contains operator
  | none => true

end Backend

theorem relay_postgres : Backend.postgres.capabilities.relay = true :=
  rfl

theorem flat_postgres : Backend.postgres ≠ .dataConnector := by
  decide

end SelectPlan
