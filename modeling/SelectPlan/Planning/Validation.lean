import SelectPlan.Selection.Basic

/-!
Validation: the problems of a select that its type does not rule out.  Columns that relationships
join on must exist, cursors must follow the ordering of their connection, and the backend must
know the aggregate operators.  All problems are reported, each with the response path of its field.
-/

namespace SelectPlan

variable {b : Backend} {R V : Type}

/-- The tracked tables of a source with their columns. -/
structure Catalog (b : Backend) where
  tables : OrderedMap (TableName b) (List ColumnName)

namespace Catalog

/-- The columns of a table, if it is tracked. -/
def columns? (catalog : Catalog b) (table : TableName b) : Option (List ColumnName) :=
  catalog.tables.find? table

/-- The document form of a catalog.  Tables are not named by strings, so only a catalog without
tables has one. -/
def toJson (catalog : Catalog b) : Except Error Json :=
  if catalog.tables.isEmpty then .ok (.object []) else .error (.simple "key must be a string")

end Catalog

/-- What can be wrong with a select. -/
inductive Problem (b : Backend) where
  | untrackedTable (table : TableName b)
  | unknownColumn (table : TableName b) (column : ColumnName)
  | unsupportedAggregate (operator : String)
  /-- Some bounds of a page are before a cursor and some after it. -/
  | mixedBounds
  /-- The first rows are asked for, before a cursor. -/
  | firstBefore
  /-- The last rows are asked for, after a cursor. -/
  | lastAfter
  /-- A cursor has more bounds than the ordering has entries. -/
  | tooManyBounds (available found : Nat)
  /-- The bound at a position, counted from one, is not on the entry of the ordering there. -/
  | misplacedBound (position : Nat)
deriving DecidableEq

/-- The error that reports a problem. -/
def Problem.error : Problem b → Error
  | untrackedTable table => { reason := .notFound table.display "table" }
  | unknownColumn table column =>
      { reason := .notFound (table.display ++ "." ++ column.text) "column" }
  | unsupportedAggregate operator =>
      { reason := .unsupported ("aggregate operator `" ++ operator ++ "`") b.name }
  | mixedBounds => .simple "connection split conditions mix `before` and `after`"
  | firstBefore =>
      { reason := .expected (some "`first`") "an `after` cursor" "a `before` cursor"
        hints := ["use `last` to page backwards"] }
  | lastAfter =>
      { reason := .expected (some "`last`") "a `before` cursor" "an `after` cursor"
        hints := ["use `first` to page forwards"] }
  | tooManyBounds available found =>
      { reason := .expected (some "cursor")
          ("at most " ++ toString available ++ " split conditions") (toString found) }
  | misplacedBound position =>
      .simple ("connection split condition " ++ toString position ++
        " does not follow the ordering of the connection")

/-- A problem and the response path of the field that has it. -/
structure Finding (b : Backend) where
  path : List FieldName := []
  problem : Problem b
deriving DecidableEq

namespace Finding

/-- The finding as seen from a field above. -/
def under (name : FieldName) (finding : Finding b) : Finding b :=
  { finding with path := name :: finding.path }

/-- The error that reports a finding. -/
def error (finding : Finding b) : Error :=
  let error := finding.problem.error
  { error with path := finding.path.map Name.text ++ error.path }

end Finding

namespace Page

/-- The ordering of a connection: the declared entries, then the primary key ascending. -/
def ordering (page : Page b V) (declared : List (OrderItem b V)) : List (OrderItem b Unit) :=
  declared.map OrderItem.erase ++
    page.primaryKey.toList.map fun info => .asc (.onColumn info)

/-- Whether a bound is on an entry of the ordering. -/
def follows (bound : PageBound b V) (entry : OrderItem b Unit) : Bool :=
  bound.order.term.same (fun _ _ => true) entry.term &&
    bound.order.effectiveDirection == entry.effectiveDirection &&
    bound.order.nulls == entry.nulls

/-- The positions, counted from `start`, of bounds that are not on the entry of the ordering
there. -/
def misplaced (start : Nat) : List (PageBound b V) → List (OrderItem b Unit) → List Nat
  | bound :: bounds, entry :: entries =>
      if follows bound entry then misplaced (start + 1) bounds entries
      else start :: misplaced (start + 1) bounds entries
  | [], _ | _, [] => []

/-- The problems of a page, given the declared ordering of its connection. -/
def problems (page : Page b V) (declared : List (OrderItem b V)) : List (Problem b) :=
  match page.bounds with
  | none => []
  | some bounds =>
      let kind := bounds.head.kind
      let ordering := page.ordering declared
      let mixed := if bounds.toList.any fun bound => bound.kind != kind then [.mixedBounds] else []
      let contrary :=
        match page.slice, kind with
        | some (.first _), .before => [.firstBefore]
        | some (.last _), .after => [.lastAfter]
        | _, _ => []
      let excess :=
        if ordering.length < bounds.size then [.tooManyBounds ordering.length bounds.size] else []
      mixed ++ contrary ++ excess ++ (misplaced 1 bounds.toList ordering).map .misplacedBound

end Page

namespace Catalog

/-- The problem with a column of a table, if there is one.  Rows that are not those of a table
have no entry in the catalog and are not checked. -/
def columnProblems (catalog : Catalog b) (table : Option (TableName b)) (column : ColumnName) :
    List (Problem b) :=
  match table with
  | none => []
  | some table =>
      match catalog.columns? table with
      | none => [.untrackedTable table]
      | some columns => if columns.contains column then [] else [.unknownColumn table column]

/-- The problems with the columns that a relationship joins on. -/
def mappingProblems (catalog : Catalog b) (mapping : ColumnMapping)
    (parent target : Option (TableName b)) : List (Problem b) :=
  mapping.toList.flatMap fun (left, right) =>
    catalog.columnProblems parent left ++ catalog.columnProblems target right

/-- The problems with the columns that a remote relationship joins on. -/
def joinProblems (catalog : Catalog b) (remote : RemoteRelationship b R)
    (table : Option (TableName b)) : List (Problem b) :=
  remote.joinFields.values.flatMap fun
    | .column name _ => catalog.columnProblems table name
    | .computedField _ _ _ _ => []

end Catalog

/-- The problems with aggregate operators. -/
def operatorProblems (b : Backend) (operators : List String) : List (Problem b) :=
  (operators.filter fun operator => !b.supportsAggregate operator).map .unsupportedAggregate

/-- The operators in the ordering of a select. -/
def SelectArgs.operators (args : SelectArgs b V) : List String :=
  args.orderItems.flatMap fun item => item.term.operators

namespace Selection

/-- The table that the one related row belongs to. -/
def targetTable? : Selection b R V .object → Option (TableName b)
  | object _ target _ => target.table?

/-- The query of a connection. -/
def pageQuery : Selection b R V .connection → Query b V
  | page _ _ inner => inner.query

/-- The problems of a part of a selection.  `owner` is the table whose rows the fields belong to;
a select has its own. -/
def findings (catalog : Catalog b) :
    {part : Part} → Selection b R V part → Option (TableName b) → List (Finding b)
  | _, column _, _ => []
  | _, objectRelation relationship inner, owner =>
      (catalog.mappingProblems relationship.mapping owner inner.targetTable?).map (⟨[], ·⟩) ++
        inner.findings catalog owner
  | _, arrayRelation inner, owner => inner.findings catalog owner
  | _, computedField _ _ inner, owner => inner.findings catalog owner
  | _, remote relationship, owner => (catalog.joinProblems relationship owner).map (⟨[], ·⟩)
  | _, nodeId _ _ _, _ => []
  | _, constant _, _ => []
  | _, aggregates items, _ => (operatorProblems b items.operators).map (⟨[], ·⟩)
  | _, nodes _ fields, owner => fields.findings catalog owner
  | _, aggregateConstant _, _ => []
  | _, connectionTypeName _, _ => []
  | _, pageInfo _, _ => []
  | _, edges fields, owner => fields.findings catalog owner
  | _, edgeTypeName _, _ => []
  | _, cursor, _ => []
  | _, node fields, owner => fields.findings catalog owner
  | _, nil, _ => []
  | _, cons name _ field rest, owner =>
      (field.findings catalog owner).map (Finding.under name) ++ rest.findings catalog owner
  | _, select fields query, _ =>
      (operatorProblems b query.args.operators).map (⟨[], ·⟩) ++
        fields.findings catalog query.source.table?
  | _, object fields target _, _ => fields.findings catalog target.table?
  | _, simple relationship inner, owner =>
      (catalog.mappingProblems relationship.mapping owner inner.query.source.table?).map
        (⟨[], ·⟩) ++ inner.findings catalog owner
  | _, aggregate relationship inner, owner =>
      (catalog.mappingProblems relationship.mapping owner inner.query.source.table?).map
        (⟨[], ·⟩) ++ inner.findings catalog owner
  | _, connection relationship inner, owner =>
      (catalog.mappingProblems relationship.mapping owner inner.pageQuery.source.table?).map
        (⟨[], ·⟩) ++ inner.findings catalog owner
  | _, page _ window inner, owner =>
      (window.problems inner.query.args.orderItems).map (⟨[], ·⟩) ++ inner.findings catalog owner
  | _, scalar _, _ => []
  | _, table _ inner, owner => inner.findings catalog owner

/-- Success, or all problems of a select. -/
def validate (select : Select b R V) (catalog : Catalog b) : Except Errors Unit :=
  Errors.toExcept ⟨(select.findings catalog none).map Finding.error⟩

/-- Success, or all problems of the page of a connection. -/
def validatePage : ConnectionSelect b R V → Except Errors Unit
  | page _ window inner =>
      Errors.toExcept ⟨(window.problems inner.query.args.orderItems).map Problem.error⟩

end Selection

end SelectPlan
