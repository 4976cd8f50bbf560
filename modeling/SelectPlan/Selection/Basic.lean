import SelectPlan.Query.Aggregate
import SelectPlan.Query.Page
import SelectPlan.Query.Relationship
import SelectPlan.Query.Source

/-!
Selections.  One indexed family holds every part of a selection that can contain another one; the
index says which part it is.  Below a field stand the selects of its relationship, below a select
its fields.

`R` is the type of remote targets, `V` the type of leaf values.
-/

namespace SelectPlan

/-- What the fields of a level are taken from. -/
inductive Vocabulary where
  /-- The columns and relationships of a table. -/
  | row
  /-- Aggregates over rows, and the rows themselves. -/
  | aggregate
  /-- The parts of a connection. -/
  | connection
  /-- The parts of an edge of a connection. -/
  | edge
deriving DecidableEq

/-- The parts of a selection. -/
inductive Part where
  /-- One field. -/
  | field (vocabulary : Vocabulary)
  /-- Fields under the given response names. -/
  | fields (vocabulary : Vocabulary) (names : List FieldName)
  /-- A query with its fields. -/
  | select (vocabulary : Vocabulary)
  /-- The one row that an object relationship leads to. -/
  | object
  /-- The rows that an array relationship leads to. -/
  | array
  /-- A connection with its page. -/
  | connection
  /-- The result of a computed field. -/
  | computed

/-- How the rows of a computed field are combined. -/
inductive RowShape where
  | object
  | array
deriving DecidableEq

instance : HasJson RowShape :=
  ⟨fun
    | .object => .string "Object"
    | .array => .string "Array"⟩

/-- A part of a selection on a backend. -/
inductive Selection (b : Backend) (R V : Type) : Part → Type where
  -- the fields of a row
  | column (field : ColumnField b V) : Selection b R V (.field .row)
  | objectRelation (relationship : Relationship) (select : Selection b R V .object) :
      Selection b R V (.field .row)
  | arrayRelation (select : Selection b R V .array) : Selection b R V (.field .row)
  | computedField (enabled : b.capabilities.computedFields = true) (name : ComputedFieldName)
      (select : Selection b R V .computed) : Selection b R V (.field .row)
  | remote (relationship : RemoteRelationship b R) : Selection b R V (.field .row)
  /-- The global identifier of the row. -/
  | nodeId (enabled : b.capabilities.relay = true) (table : TableName b)
      (primaryKey : NonEmpty (ColumnInfo b)) : Selection b R V (.field .row)
  | constant (text : String) : Selection b R V (.field .row)
  -- the fields of an aggregate
  | aggregates (aggregates : Aggregates b V) : Selection b R V (.field .aggregate)
  /-- The aggregated rows themselves. -/
  | nodes {names : List FieldName} (enabled : b.capabilities.nodesAggregate = true)
      (fields : Selection b R V (.fields .row names)) : Selection b R V (.field .aggregate)
  | aggregateConstant (text : String) : Selection b R V (.field .aggregate)
  -- the fields of a connection
  | connectionTypeName (text : String) : Selection b R V (.field .connection)
  | pageInfo (info : OrderedMap FieldName PageInfo) : Selection b R V (.field .connection)
  | edges {names : List FieldName} (fields : Selection b R V (.fields .edge names)) :
      Selection b R V (.field .connection)
  -- the fields of an edge
  | edgeTypeName (text : String) : Selection b R V (.field .edge)
  | cursor : Selection b R V (.field .edge)
  | node {names : List FieldName} (fields : Selection b R V (.fields .row names)) :
      Selection b R V (.field .edge)
  -- several fields
  | nil {vocabulary : Vocabulary} : Selection b R V (.fields vocabulary [])
  | cons {vocabulary : Vocabulary} {names : List FieldName} (name : FieldName)
      (fresh : name ∉ names) (field : Selection b R V (.field vocabulary))
      (rest : Selection b R V (.fields vocabulary names)) :
      Selection b R V (.fields vocabulary (name :: names))
  -- selects
  | select {vocabulary : Vocabulary} {names : List FieldName}
      (fields : Selection b R V (.fields vocabulary names)) (query : Query b V) :
      Selection b R V (.select vocabulary)
  | object {names : List FieldName} (fields : Selection b R V (.fields .row names))
      (target : Source b V) (filter : Predicate b V) : Selection b R V .object
  | simple (relationship : Relationship) (select : Selection b R V (.select .row)) :
      Selection b R V .array
  | aggregate (relationship : Relationship) (select : Selection b R V (.select .aggregate)) :
      Selection b R V .array
  | connection (relationship : Relationship) (select : Selection b R V .connection) :
      Selection b R V .array
  | page (enabled : b.capabilities.relay = true) (page : Page b V)
      (select : Selection b R V (.select .connection)) : Selection b R V .connection
  | scalar (call : ScalarCall b V) : Selection b R V .computed
  | table (shape : RowShape) (select : Selection b R V (.select .row)) : Selection b R V .computed

/-- A field of a row. -/
abbrev Field (b : Backend) (R V : Type) := Selection b R V (.field .row)

/-- Fields under response names, in the order of the response. -/
abbrev FieldMap (b : Backend) (R V : Type) (vocabulary : Vocabulary) :=
  OrderedMap FieldName (Selection b R V (.field vocabulary))

/-- A select of rows. -/
abbrev Select (b : Backend) (R V : Type) := Selection b R V (.select .row)

/-- A select of aggregates. -/
abbrev AggregateSelect (b : Backend) (R V : Type) := Selection b R V (.select .aggregate)

/-- A select of pages. -/
abbrev ConnectionSelect (b : Backend) (R V : Type) := Selection b R V .connection

namespace Selection

variable {b : Backend} {R V : Type} {vocabulary : Vocabulary}

/-- The entries of several fields. -/
def toEntries : {names : List FieldName} → Selection b R V (.fields vocabulary names) →
    Entries FieldName (Selection b R V (.field vocabulary)) names
  | _, nil => .nil
  | _, cons name fresh field rest => .cons name fresh field rest.toEntries

/-- Several fields from their entries. -/
def ofEntries : {names : List FieldName} →
    Entries FieldName (Selection b R V (.field vocabulary)) names →
    Selection b R V (.fields vocabulary names)
  | _, .nil => nil
  | _, .cons name fresh field rest => cons name fresh field (ofEntries rest)

/-- The number of fields. -/
def size {names : List FieldName} (_ : Selection b R V (.fields vocabulary names)) : Nat :=
  names.length

/-- The fields as a map. -/
def toMap {names : List FieldName} (fields : Selection b R V (.fields vocabulary names)) :
    FieldMap b R V vocabulary :=
  ⟨fields.toEntries⟩

@[simp]
theorem toEntries_ofEntries {names : List FieldName}
    (entries : Entries FieldName (Selection b R V (.field vocabulary)) names) :
    (ofEntries entries).toEntries = entries := by
  induction entries with
  | nil => rfl
  | cons name fresh field rest ih => rw [ofEntries, toEntries, ih]

@[simp]
theorem ofEntries_toEntries : {names : List FieldName} →
    (fields : Selection b R V (.fields vocabulary names)) → ofEntries fields.toEntries = fields
  | _, nil => rfl
  | _, cons _ _ _ rest => by rw [toEntries, ofEntries, ofEntries_toEntries rest]

theorem toMap_ofEntries (fields : FieldMap b R V vocabulary) :
    (ofEntries fields.entries).toMap = fields := by
  rw [toMap, toEntries_ofEntries]

/-- The fields of a select. -/
def fields : Selection b R V (.select vocabulary) → FieldMap b R V vocabulary
  | select fields _ => fields.toMap

/-- The query of a select. -/
def query : Selection b R V (.select vocabulary) → Query b V
  | select _ query => query

/-- A select from its fields and its query. -/
def ofFields (fields : FieldMap b R V vocabulary) (query : Query b V) :
    Selection b R V (.select vocabulary) :=
  select (ofEntries fields.entries) query

/-- Sets or adds one field of a select. -/
def withField (select : Selection b R V (.select vocabulary)) (name : FieldName)
    (field : Selection b R V (.field vocabulary)) : Selection b R V (.select vocabulary) :=
  ofFields (select.fields.insert name field) select.query

/-- Changes the query of a select. -/
def mapQuery (f : Query b V → Query b V) :
    Selection b R V (.select vocabulary) → Selection b R V (.select vocabulary)
  | select fields query => select fields (f query)

end Selection

end SelectPlan
