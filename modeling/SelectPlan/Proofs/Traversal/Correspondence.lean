import Mathlib.Data.List.Forall2
import SelectPlan.Selection.Kind

/-!
Trees that differ in their leaves alone.  The relations below are given a relation of remote
targets and one of values.  They follow the types of the trees, not their traversals: one
constructor for each form that a part can have, and one field for each component of a record.  So
two trees correspond if their remote targets and their values are related place by place, and
everything else of the one, names, operators, limits, settings and the order of every map, is that
of the other.
-/

namespace SelectPlan

variable {b : Backend} {A B R S V W : Type}

/-! Containers -/

/-- Related items, equally many. -/
structure NonEmpty.Corresponds (rel : A → B → Prop) (xs : NonEmpty A) (ys : NonEmpty B) : Prop where
  head : rel xs.head ys.head
  tail : List.Forall₂ rel xs.tail ys.tail

/-- Related values under the same keys in the same order. -/
inductive Entries.Corresponds {K : Type} (rel : A → B → Prop) :
    {keys : List K} → Entries K A keys → Entries K B keys → Prop
  | nil : Corresponds rel .nil .nil
  | cons {keys : List K} {key : K} {fresh : key ∉ keys} {x : A} {y : B} {xs : Entries K A keys}
      {ys : Entries K B keys} (value : rel x y) (rest : Corresponds rel xs ys) :
      Corresponds rel (.cons key fresh x xs) (.cons key fresh y ys)

/-- Related values under the same keys in the same order. -/
inductive OrderedMap.Corresponds {K : Type} (rel : A → B → Prop) :
    OrderedMap K A → OrderedMap K B → Prop
  | mk {keys : List K} {xs : Entries K A keys} {ys : Entries K B keys}
      (entries : xs.Corresponds rel ys) : Corresponds rel ⟨xs⟩ ⟨ys⟩

section

variable (rel : V → W → Prop)

/-! Conditions -/

/-- The same comparison with related values. -/
inductive Comparison.Corresponds : Comparison V → Comparison W → Prop
  | compare {operator : ComparisonOperator} {v : V} {w : W} (value : rel v w) :
      Corresponds (.compare operator v) (.compare operator w)
  | oneOf {v : V} {w : W} (value : rel v w) : Corresponds (.oneOf v) (.oneOf w)
  | noneOf {v : V} {w : W} (value : rel v w) : Corresponds (.noneOf v) (.noneOf w)
  | like {v : V} {w : W} (value : rel v w) : Corresponds (.like v) (.like w)
  | isNull {expected : Bool} : Corresponds (.isNull expected) (.isNull expected)
  | compareColumn {operator : ComparisonOperator} {column : ColumnName} :
      Corresponds (.compareColumn operator column) (.compareColumn operator column)
  | custom {name : String} {v : V} {w : W} (value : rel v w) :
      Corresponds (.custom name v) (.custom name w)

/-- The same condition with related values. -/
inductive Predicate.Corresponds : Predicate b V → Predicate b W → Prop
  | all {xs : List (Predicate b V)} {ys : List (Predicate b W)}
      (items : List.Forall₂ Corresponds xs ys) : Corresponds (.all xs) (.all ys)
  | any {xs : List (Predicate b V)} {ys : List (Predicate b W)}
      (items : List.Forall₂ Corresponds xs ys) : Corresponds (.any xs) (.any ys)
  | not {x : Predicate b V} {y : Predicate b W} (item : Corresponds x y) :
      Corresponds (.not x) (.not y)
  | someRow {table : TableName b} {x : Predicate b V} {y : Predicate b W}
      (filter : Corresponds x y) : Corresponds (.someRow table x) (.someRow table y)
  | column {info : ColumnInfo b} {xs : List (Comparison V)} {ys : List (Comparison W)}
      (comparisons : List.Forall₂ (Comparison.Corresponds rel) xs ys) :
      Corresponds (.column info xs) (.column info ys)
  | relationship {info : RelationshipInfo b} {x z : Predicate b V} {y w : Predicate b W}
      (targetFilter : Corresponds x y) (filter : Corresponds z w) :
      Corresponds (.relationship info x z) (.relationship info y w)

/-- A value that is hidden on corresponding conditions, or never. -/
inductive Redaction.Corresponds : Redaction b V → Redaction b W → Prop
  | none : Corresponds .none .none
  | unlessHolds {x : Predicate b V} {y : Predicate b W} (condition : x.Corresponds rel y) :
      Corresponds (.unlessHolds x) (.unlessHolds y)

/-! Columns and calls -/

/-- The same column, read in the same way. -/
structure ColumnField.Corresponds (x : ColumnField b V) (y : ColumnField b W) : Prop where
  column : x.column = y.column
  type : x.type = y.type
  asText : x.asText = y.asText
  path : x.path = y.path
  redaction : x.redaction.Corresponds rel y.redaction

/-- The row of the table on both sides, or related values. -/
inductive Argument.Corresponds : Argument V → Argument W → Prop
  | tableRow : Corresponds .tableRow .tableRow
  | input {v : V} {w : W} (value : rel v w) : Corresponds (.input v) (.input w)

/-- Corresponding arguments by position, and by the same names in the same order. -/
structure Arguments.Corresponds (xs : Arguments V) (ys : Arguments W) : Prop where
  positional : List.Forall₂ (Argument.Corresponds rel) xs.positional ys.positional
  named : xs.named.Corresponds (Argument.Corresponds rel) ys.named

/-- A call of the same function. -/
structure ScalarCall.Corresponds (x : ScalarCall b V) (y : ScalarCall b W) : Prop where
  function : x.function = y.function
  arguments : x.arguments.Corresponds rel y.arguments
  type : x.type = y.type
  path : x.path = y.path
  redaction : x.redaction.Corresponds rel y.redaction

/-! Orderings -/

/-- The same aggregate of the same column. -/
inductive OrderAggregate.Corresponds : OrderAggregate b V → OrderAggregate b W → Prop
  | count : Corresponds .count .count
  | operator {name : String} {result : ColumnType b} {column : ColumnInfo b}
      {x : Redaction b V} {y : Redaction b W} (redaction : x.Corresponds rel y) :
      Corresponds (.operator name result column x) (.operator name result column y)

/-- The same scalar, or the same aggregate of the same table. -/
inductive ComputedOrder.Corresponds : ComputedOrder b V → ComputedOrder b W → Prop
  | scalar {type : ScalarType b} {x : Redaction b V} {y : Redaction b W}
      (redaction : x.Corresponds rel y) : Corresponds (.scalar type x) (.scalar type y)
  | aggregate {table : TableName b} {x : Predicate b V} {y : Predicate b W}
      {k : OrderAggregate b V} {l : OrderAggregate b W} (filter : x.Corresponds rel y)
      (aggregate : k.Corresponds rel l) :
      Corresponds (.aggregate table x k) (.aggregate table y l)

/-- A term through the same relationships to the same column, aggregate or computed field. -/
inductive OrderTerm.Corresponds : OrderTerm b V → OrderTerm b W → Prop
  | column {info : ColumnInfo b} {x : Redaction b V} {y : Redaction b W}
      (redaction : x.Corresponds rel y) : Corresponds (.column info x) (.column info y)
  | objectRelation {info : RelationshipInfo b} {x : Predicate b V} {y : Predicate b W}
      {s : OrderTerm b V} {t : OrderTerm b W} (filter : x.Corresponds rel y)
      (term : Corresponds s t) :
      Corresponds (.objectRelation info x s) (.objectRelation info y t)
  | arrayAggregate {info : RelationshipInfo b} {x : Predicate b V} {y : Predicate b W}
      {k : OrderAggregate b V} {l : OrderAggregate b W} (filter : x.Corresponds rel y)
      (aggregate : k.Corresponds rel l) :
      Corresponds (.arrayAggregate info x k) (.arrayAggregate info y l)
  | computedField {enabled : b.capabilities.computedFields = true} {name : ComputedFieldName}
      {function : FunctionName b} {xs : Arguments V} {ys : Arguments W} {k : ComputedOrder b V}
      {l : ComputedOrder b W} (arguments : xs.Corresponds rel ys) (order : k.Corresponds rel l) :
      Corresponds (.computedField enabled name function xs k)
        (.computedField enabled name function ys l)

/-- A corresponding term in the same direction, with nulls in the same place. -/
structure OrderItem.Corresponds (x : OrderItem b V) (y : OrderItem b W) : Prop where
  term : x.term.Corresponds rel y.term
  direction : x.direction = y.direction
  nulls : x.nulls = y.nulls

/-! Aggregates -/

/-- The same columns in the same order. -/
def RedactedColumns.Corresponds (xs : RedactedColumns b V) (ys : RedactedColumns b W) : Prop :=
  List.Forall₂ (fun x y => x.1 = y.1 ∧ x.2.Corresponds rel y.2) xs ys

/-- A count of the same columns. -/
inductive Count.Corresponds : Count b V → Count b W → Prop
  | star : Corresponds .star .star
  | nonNull {xs : RedactedColumns b V} {ys : RedactedColumns b W}
      (columns : xs.Corresponds rel ys) : Corresponds (.nonNull xs) (.nonNull ys)
  | distinct {xs : RedactedColumns b V} {ys : RedactedColumns b W}
      (columns : xs.Corresponds rel ys) : Corresponds (.distinct xs) (.distinct ys)

/-- The same column, computed field or constant. -/
inductive Operand.Corresponds : Operand b V → Operand b W → Prop
  | column {info : ColumnInfo b} {x : Redaction b V} {y : Redaction b W}
      (redaction : x.Corresponds rel y) : Corresponds (.column info x) (.column info y)
  | computedField {enabled : b.capabilities.computedFields = true} {name : ComputedFieldName}
      {function : FunctionName b} {xs : Arguments V} {ys : Arguments W} {type : ScalarType b}
      {x : Redaction b V} {y : Redaction b W} (arguments : xs.Corresponds rel ys)
      (redaction : x.Corresponds rel y) :
      Corresponds (.computedField enabled name function xs type x)
        (.computedField enabled name function ys type y)
  | constant {text : String} : Corresponds (.constant text) (.constant text)

/-- The same operator on corresponding operands, a corresponding count or the same constant. -/
inductive Aggregate.Corresponds : Aggregate b V → Aggregate b W → Prop
  | count {x : Count b V} {y : Count b W} (of : x.Corresponds rel y) :
      Corresponds (.count x) (.count y)
  | operator {name : String} {xs : OrderedMap FieldName (Operand b V)}
      {ys : OrderedMap FieldName (Operand b W)}
      (operands : xs.Corresponds (Operand.Corresponds rel) ys) :
      Corresponds (.operator name xs) (.operator name ys)
  | constant {text : String} : Corresponds (.constant text) (.constant text)

/-! Queries -/

/-- Rows of the same table, name, function or native query. -/
inductive Source.Corresponds : Source b V → Source b W → Prop
  | table {name : TableName b} : Corresponds (.table name) (.table name)
  | identifier {name : FieldName} : Corresponds (.identifier name) (.identifier name)
  | function {name : FunctionName b} {xs : Arguments V} {ys : Arguments W}
      {definition : Option (List (ColumnName × ScalarType b))}
      (arguments : xs.Corresponds rel ys) :
      Corresponds (.function name xs definition) (.function name ys definition)
  | nativeQuery {name : NativeQueryName} {xs : OrderedMap String V} {ys : OrderedMap String W}
      (arguments : xs.Corresponds rel ys) :
      Corresponds (.nativeQuery name xs) (.nativeQuery name ys)

/-- A corresponding filter with the same limit. -/
structure RowPermission.Corresponds (x : RowPermission b V) (y : RowPermission b W) : Prop where
  filter : x.filter.Corresponds rel y.filter
  limit : x.limit = y.limit

/-- Corresponding filters and orderings with the same limits and distinct columns. -/
structure SelectArgs.Corresponds (x : SelectArgs b V) (y : SelectArgs b W) : Prop where
  filter : Option.Rel (Predicate.Corresponds rel) x.filter y.filter
  orderBy : Option.Rel (NonEmpty.Corresponds (OrderItem.Corresponds rel)) x.orderBy y.orderBy
  limit : x.limit = y.limit
  offset : x.offset = y.offset
  distinct : x.distinct = y.distinct

/-- Corresponding parts and the same settings. -/
structure Query.Corresponds (x : Query b V) (y : Query b W) : Prop where
  source : x.source.Corresponds rel y.source
  permission : x.permission.Corresponds rel y.permission
  args : x.args.Corresponds rel y.args
  numbers : x.numbers = y.numbers
  naming : x.naming = y.naming

/-- The same side of related values in the same order. -/
structure PageBound.Corresponds (x : PageBound b V) (y : PageBound b W) : Prop where
  kind : x.kind = y.kind
  value : rel x.value y.value
  order : x.order = y.order

/-- Corresponding bounds with the same primary key and slice. -/
structure Page.Corresponds (x : Page b V) (y : Page b W) : Prop where
  primaryKey : x.primaryKey = y.primaryKey
  bounds : Option.Rel (NonEmpty.Corresponds (PageBound.Corresponds rel)) x.bounds y.bounds
  slice : x.slice = y.slice

/-- A start at related values of the same column. -/
structure StreamCursor.Corresponds (x : StreamCursor b V) (y : StreamCursor b W) : Prop where
  ordering : x.ordering = y.ordering
  column : x.column = y.column
  initialValue : rel x.initialValue y.initialValue

/-- Corresponding filters and starts with the same size of batches. -/
structure StreamArgs.Corresponds (x : StreamArgs b V) (y : StreamArgs b W) : Prop where
  filter : Option.Rel (Predicate.Corresponds rel) x.filter y.filter
  batchSize : x.batchSize = y.batchSize
  cursor : x.cursor.Corresponds rel y.cursor

end

/-- The same join fields to related targets. -/
structure RemoteRelationship.Corresponds (rel : R → S → Prop) (x : RemoteRelationship b R)
    (y : RemoteRelationship b S) : Prop where
  joinFields : x.joinFields = y.joinFields
  target : rel x.target y.target

section

variable (targets : R → S → Prop) (rel : V → W → Prop)

/-! Selections -/

/-- The same fields in the same order, with corresponding selects below them. -/
inductive Selection.Corresponds :
    {part : Part} → Selection b R V part → Selection b S W part → Prop
  -- the fields of a row
  | column {x : ColumnField b V} {y : ColumnField b W} (field : x.Corresponds rel y) :
      Corresponds (.column x) (.column y)
  | objectRelation {relationship : Relationship} {x : Selection b R V .object}
      {y : Selection b S W .object} (select : Corresponds x y) :
      Corresponds (.objectRelation relationship x) (.objectRelation relationship y)
  | arrayRelation {x : Selection b R V .array} {y : Selection b S W .array}
      (select : Corresponds x y) : Corresponds (.arrayRelation x) (.arrayRelation y)
  | computedField {enabled : b.capabilities.computedFields = true} {name : ComputedFieldName}
      {x : Selection b R V .computed} {y : Selection b S W .computed} (select : Corresponds x y) :
      Corresponds (.computedField enabled name x) (.computedField enabled name y)
  | remote {x : RemoteRelationship b R} {y : RemoteRelationship b S}
      (relationship : x.Corresponds targets y) : Corresponds (.remote x) (.remote y)
  | nodeId {enabled : b.capabilities.relay = true} {table : TableName b}
      {primaryKey : NonEmpty (ColumnInfo b)} :
      Corresponds (.nodeId enabled table primaryKey) (.nodeId enabled table primaryKey)
  | constant {text : String} : Corresponds (.constant text) (.constant text)
  -- the fields of an aggregate
  | aggregates {xs : Aggregates b V} {ys : Aggregates b W}
      (aggregates : OrderedMap.Corresponds (Aggregate.Corresponds rel) xs ys) :
      Corresponds (.aggregates xs) (.aggregates ys)
  | nodes {names : List FieldName} {enabled : b.capabilities.nodesAggregate = true}
      {x : Selection b R V (.fields .row names)} {y : Selection b S W (.fields .row names)}
      (fields : Corresponds x y) : Corresponds (.nodes enabled x) (.nodes enabled y)
  | aggregateConstant {text : String} :
      Corresponds (.aggregateConstant text) (.aggregateConstant text)
  -- the fields of a connection
  | connectionTypeName {text : String} :
      Corresponds (.connectionTypeName text) (.connectionTypeName text)
  | pageInfo {info : OrderedMap FieldName PageInfo} : Corresponds (.pageInfo info) (.pageInfo info)
  | edges {names : List FieldName} {x : Selection b R V (.fields .edge names)}
      {y : Selection b S W (.fields .edge names)} (fields : Corresponds x y) :
      Corresponds (.edges x) (.edges y)
  -- the fields of an edge
  | edgeTypeName {text : String} : Corresponds (.edgeTypeName text) (.edgeTypeName text)
  | cursor : Corresponds .cursor .cursor
  | node {names : List FieldName} {x : Selection b R V (.fields .row names)}
      {y : Selection b S W (.fields .row names)} (fields : Corresponds x y) :
      Corresponds (.node x) (.node y)
  -- several fields
  | nil {vocabulary : Vocabulary} :
      Corresponds (.nil : Selection b R V (.fields vocabulary [])) .nil
  | cons {vocabulary : Vocabulary} {names : List FieldName} {name : FieldName}
      {fresh : name ∉ names} {x : Selection b R V (.field vocabulary)}
      {y : Selection b S W (.field vocabulary)} {xs : Selection b R V (.fields vocabulary names)}
      {ys : Selection b S W (.fields vocabulary names)} (field : Corresponds x y)
      (rest : Corresponds xs ys) : Corresponds (.cons name fresh x xs) (.cons name fresh y ys)
  -- selects
  | select {vocabulary : Vocabulary} {names : List FieldName}
      {x : Selection b R V (.fields vocabulary names)}
      {y : Selection b S W (.fields vocabulary names)} {p : Query b V} {q : Query b W}
      (fields : Corresponds x y) (query : p.Corresponds rel q) :
      Corresponds (.select x p) (.select y q)
  | object {names : List FieldName} {x : Selection b R V (.fields .row names)}
      {y : Selection b S W (.fields .row names)} {s : Source b V} {t : Source b W}
      {p : Predicate b V} {q : Predicate b W} (fields : Corresponds x y)
      (target : s.Corresponds rel t) (filter : p.Corresponds rel q) :
      Corresponds (.object x s p) (.object y t q)
  | simple {relationship : Relationship} {x : Selection b R V (.select .row)}
      {y : Selection b S W (.select .row)} (select : Corresponds x y) :
      Corresponds (.simple relationship x) (.simple relationship y)
  | aggregate {relationship : Relationship} {x : Selection b R V (.select .aggregate)}
      {y : Selection b S W (.select .aggregate)} (select : Corresponds x y) :
      Corresponds (.aggregate relationship x) (.aggregate relationship y)
  | connection {relationship : Relationship} {x : Selection b R V .connection}
      {y : Selection b S W .connection} (select : Corresponds x y) :
      Corresponds (.connection relationship x) (.connection relationship y)
  | page {enabled : b.capabilities.relay = true} {p : Page b V} {q : Page b W}
      {x : Selection b R V (.select .connection)} {y : Selection b S W (.select .connection)}
      (page : p.Corresponds rel q) (select : Corresponds x y) :
      Corresponds (.page enabled p x) (.page enabled q y)
  | scalar {x : ScalarCall b V} {y : ScalarCall b W} (call : x.Corresponds rel y) :
      Corresponds (.scalar x) (.scalar y)
  | table {shape : RowShape} {x : Selection b R V (.select .row)}
      {y : Selection b S W (.select .row)} (select : Corresponds x y) :
      Corresponds (.table shape x) (.table shape y)

/-- Corresponding fields and arguments with the same settings. -/
inductive Stream.Corresponds : Stream b R V → Stream b S W → Prop
  | mk {enabled : b.capabilities.streamingSubscriptions = true} {names : List FieldName}
      {x : Selection b R V (.fields .row names)} {y : Selection b S W (.fields .row names)}
      {s : Source b V} {t : Source b W} {p : RowPermission b V} {q : RowPermission b W}
      {k : StreamArgs b V} {l : StreamArgs b W} {numbers : NumberRendering}
      (fields : x.Corresponds targets rel y) (source : s.Corresponds rel t)
      (permission : p.Corresponds rel q) (args : k.Corresponds rel l) :
      Corresponds ⟨enabled, x, s, p, k, numbers⟩ ⟨enabled, y, t, q, l, numbers⟩

/-- A corresponding selection of the same form. -/
inductive SourceSelection.Corresponds : SourceSelection b R V → SourceSelection b S W → Prop
  | object {x : Selection b R V .object} {y : Selection b S W .object}
      (select : x.Corresponds targets rel y) : Corresponds (.object x) (.object y)
  | array {x : Select b R V} {y : Select b S W} (select : x.Corresponds targets rel y) :
      Corresponds (.array x) (.array y)
  | arrayAggregate {x : AggregateSelect b R V} {y : AggregateSelect b S W}
      (select : x.Corresponds targets rel y) : Corresponds (.arrayAggregate x) (.arrayAggregate y)

/-- A corresponding selection on the same source. -/
structure SourceSelect.Corresponds (x : SourceSelect b R V) (y : SourceSelect b S W) : Prop where
  name : x.name = y.name
  config : x.config = y.config
  selection : x.selection.Corresponds targets rel y.selection
  joinMapping : x.joinMapping = y.joinMapping
  numbers : x.numbers = y.numbers

end

/-! Frames and kinds of trees -/

/-- Related fields under the same names in the same order, and corresponding queries. -/
structure SelectFrame.Corresponds (inner : A → B → Prop) (rel : V → W → Prop)
    (x : SelectFrame b A V) (y : SelectFrame b B W) : Prop where
  fields : x.fields.Corresponds inner y.fields
  query : x.query.Corresponds rel y.query

/-- Related selects through the same relationship. -/
structure RelationFrame.Corresponds (inner : A → B → Prop) (x : RelationFrame A)
    (y : RelationFrame B) : Prop where
  relationship : x.relationship = y.relationship
  select : inner x.select y.select

/-- Related terms in the same direction, with nulls in the same place. -/
structure OrderFrame.Corresponds (inner : A → B → Prop) (x : OrderFrame A) (y : OrderFrame B) :
    Prop where
  term : inner x.term y.term
  direction : x.direction = y.direction
  nulls : x.nulls = y.nulls

/-- The trees differ in their leaves alone, and these are related. -/
def TreeKind.Corresponds (targets : R → S → Prop) (rel : V → W → Prop) :
    (kind : TreeKind) → kind.Tree b R V → kind.Tree b S W → Prop
  | part _, x, y => Selection.Corresponds targets rel x y
  | fieldMap _, x, y => OrderedMap.Corresponds (Selection.Corresponds targets rel) x y
  | stream, x, y => Stream.Corresponds targets rel x y
  | sourceSelect, x, y => SourceSelect.Corresponds targets rel x y
  | sourceSelection, x, y => SourceSelection.Corresponds targets rel x y
  | remoteRelationship, x, y => RemoteRelationship.Corresponds targets x y
  | aggregate, x, y => Aggregate.Corresponds rel x y
  | operand, x, y => Operand.Corresponds rel x y
  | count, x, y => Count.Corresponds rel x y
  | columnField, x, y => ColumnField.Corresponds rel x y
  | scalarCall, x, y => ScalarCall.Corresponds rel x y
  | redaction, x, y => Redaction.Corresponds rel x y
  | predicate, x, y => Predicate.Corresponds rel x y
  | predicates, x, y => List.Forall₂ (Predicate.Corresponds rel) x y
  | comparison, x, y => Comparison.Corresponds rel x y
  | argument, x, y => Argument.Corresponds rel x y
  | arguments, x, y => Arguments.Corresponds rel x y
  | orderBy, x, y => NonEmpty.Corresponds (OrderItem.Corresponds rel) x y
  | orderItem, x, y => OrderItem.Corresponds rel x y
  | orderTerm, x, y => OrderTerm.Corresponds rel x y
  | orderAggregate, x, y => OrderAggregate.Corresponds rel x y
  | computedOrder, x, y => ComputedOrder.Corresponds rel x y
  | source, x, y => Source.Corresponds rel x y
  | permission, x, y => RowPermission.Corresponds rel x y
  | args, x, y => SelectArgs.Corresponds rel x y
  | page, x, y => Page.Corresponds rel x y
  | pageBound, x, y => PageBound.Corresponds rel x y
  | streamArgs, x, y => StreamArgs.Corresponds rel x y
  | selectFrame field, x, y => SelectFrame.Corresponds (Corresponds targets rel field) rel x y
  | relationFrame inner, x, y => RelationFrame.Corresponds (Corresponds targets rel inner) x y
  | orderFrame term, x, y => OrderFrame.Corresponds (Corresponds targets rel term) x y
  | list item, xs, ys => List.Forall₂ (Corresponds targets rel item) xs ys
  | optional item, x, y => Option.Rel (Corresponds targets rel item) x y
  | nonEmpty item, xs, ys => NonEmpty.Corresponds (Corresponds targets rel item) xs ys
  | map _ item, xs, ys => OrderedMap.Corresponds (Corresponds targets rel item) xs ys

end SelectPlan
