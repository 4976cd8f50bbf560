import SelectPlan.Request.Query
import SelectPlan.Selection.Stream

/-!
Requests: selections and streams.  Every part of a selection lies in a document at least one level
below the part that contains it, so the depth of the document bounds the reading.
-/

namespace SelectPlan

variable {b : Backend} {R V : Type} [Readable R] [Readable V]

namespace Selection

/-- Reads fields under their response names. -/
def readFields {vocabulary : Vocabulary}
    (read : Json → Reading (Selection b R V (.field vocabulary))) :
    Json → Reading (FieldMap b R V vocabulary) :=
  Json.readMap read

/-- Reads a select with a reader of its fields. -/
def readSelectOf {vocabulary : Vocabulary}
    (read : Json → Reading (Selection b R V (.field vocabulary))) (document : Json) :
    Reading (Selection b R V (.select vocabulary)) := do
  return ofFields (← document.getWith "fields" (readFields read)) (← fromJson document)

mutual

/-- Reads a field of a row. -/
def readField : (depth : Nat) → Json → Reading (Selection b R V (.field .row))
  | 0, _ => .malformed
  | _ + 1, .object [("Column", item)] => column <$> fromJson item
  | depth + 1, .object [("ObjectRelation", item)] => do
      return objectRelation (← fromJson item) (← item.getWith "select" (readObject depth))
  | depth + 1, .object [("ArrayRelation", item)] => arrayRelation <$> readArray depth item
  | depth + 1, .object [("ComputedField", item)] => do
      let ⟨enabled⟩ ← item.getMarker "xfield" b.capabilities.computedFields
      return computedField enabled (← item.get "name")
        (← item.getWith "select" (readComputed depth))
  | _ + 1, .object [("Remote", item)] => remote <$> fromJson item
  | _ + 1, .object [("NodeId", item)] => do
      let ⟨enabled⟩ ← item.getMarker "xrelay" b.capabilities.relay
      return nodeId enabled (← item.get "table") (← item.get "primary_key")
  | _ + 1, .object [("Expression", text)] => constant <$> fromJson text
  | _ + 1, _ => .malformed

/-- Reads the result of a computed field. -/
def readComputed : (depth : Nat) → Json → Reading (Selection b R V .computed)
  | 0, _ => .malformed
  | _ + 1, .object [("Scalar", item)] => scalar <$> fromJson item
  | depth + 1, .object [("Table", item)] => do
      return table
        (← item.getWith "agg" (Json.readChoice [("Object", .object), ("Array", .array)]))
        (← item.getWith "select" (readSelect depth))
  | _ + 1, _ => .malformed

/-- Reads a select of rows. -/
def readSelect : (depth : Nat) → Json → Reading (Selection b R V (.select .row))
  | 0, _ => .malformed
  | depth + 1, document => readSelectOf (readField depth) document

/-- Reads the one row that a relationship leads to. -/
def readObject : (depth : Nat) → Json → Reading (Selection b R V .object)
  | 0, _ => .malformed
  | depth + 1, document => do
      let fields ← document.getWith "fields" (readFields (readField depth))
      return object (ofEntries fields.entries) (← document.get "target")
        (← document.get "filter")

/-- Reads the rows that a relationship leads to. -/
def readArray : (depth : Nat) → Json → Reading (Selection b R V .array)
  | 0, _ => .malformed
  | depth + 1, .object [("Simple", item)] => do
      return simple (← fromJson item) (← item.getWith "select" (readSelect depth))
  | depth + 1, .object [("Aggregate", item)] => do
      return aggregate (← fromJson item) (← item.getWith "select" (readAggregateSelect depth))
  | depth + 1, .object [("Connection", item)] => do
      return connection (← fromJson item) (← item.getWith "select" (readConnection depth))
  | _ + 1, _ => .malformed

/-- Reads a field of an aggregate. -/
def readAggregateField : (depth : Nat) → Json → Reading (Selection b R V (.field .aggregate))
  | 0, _ => .malformed
  | _ + 1, .object [("Aggregate", items)] => aggregates <$> fromJson items
  | depth + 1, .object [("Nodes", item)] => do
      let ⟨enabled⟩ ← item.getMarker "xnodes" b.capabilities.nodesAggregate
      let fields ← item.getWith "fields" (readFields (readField depth))
      return nodes enabled (ofEntries fields.entries)
  | _ + 1, .object [("Expression", text)] => aggregateConstant <$> fromJson text
  | _ + 1, _ => .malformed

/-- Reads a select of aggregates. -/
def readAggregateSelect : (depth : Nat) → Json → Reading (Selection b R V (.select .aggregate))
  | 0, _ => .malformed
  | depth + 1, document => readSelectOf (readAggregateField depth) document

/-- Reads a field of an edge. -/
def readEdgeField : (depth : Nat) → Json → Reading (Selection b R V (.field .edge))
  | 0, .string "Cursor" => pure cursor
  | 0, _ => .malformed
  | _ + 1, .object [("TypeName", text)] => edgeTypeName <$> fromJson text
  | _ + 1, .string "Cursor" => pure cursor
  | depth + 1, .object [("Node", items)] => do
      let fields ← readFields (readField depth) items
      return node (ofEntries fields.entries)
  | _ + 1, _ => .malformed

/-- Reads a field of a connection. -/
def readConnectionField : (depth : Nat) → Json → Reading (Selection b R V (.field .connection))
  | 0, _ => .malformed
  | _ + 1, .object [("TypeName", text)] => connectionTypeName <$> fromJson text
  | _ + 1, .object [("PageInfo", items)] => pageInfo <$> fromJson items
  | depth + 1, .object [("Edges", items)] => do
      let fields ← readFields (readEdgeField depth) items
      return edges (ofEntries fields.entries)
  | _ + 1, _ => .malformed

/-- Reads a select of pages. -/
def readConnection : (depth : Nat) → Json → Reading (Selection b R V .connection)
  | 0, _ => .malformed
  | depth + 1, document => do
      let ⟨enabled⟩ ← document.getMarker "xrelay" b.capabilities.relay
      return page enabled (← fromJson document)
        (← document.getWith "select" (readSelectOf (readConnectionField depth)))

end

end Selection

instance : Readable (Selection b R V (.field .row)) :=
  ⟨fun document => Selection.readField document.depth document⟩

instance : Readable (Selection b R V (.field .aggregate)) :=
  ⟨fun document => Selection.readAggregateField document.depth document⟩

instance : Readable (Selection b R V (.field .connection)) :=
  ⟨fun document => Selection.readConnectionField document.depth document⟩

instance : Readable (Selection b R V (.select .row)) :=
  ⟨fun document => Selection.readSelect document.depth document⟩

instance : Readable (Selection b R V (.select .aggregate)) :=
  ⟨fun document => Selection.readAggregateSelect document.depth document⟩

instance : Readable (Selection b R V (.select .connection)) :=
  ⟨Selection.readSelectOf fromJson⟩

instance : Readable (Selection b R V .object) :=
  ⟨fun document => Selection.readObject document.depth document⟩

instance : Readable (Selection b R V .array) :=
  ⟨fun document => Selection.readArray document.depth document⟩

instance : Readable (Selection b R V .connection) :=
  ⟨fun document => Selection.readConnection document.depth document⟩

instance : Readable (StreamCursor b V) :=
  ⟨fun document => do
    return ⟨← document.get "ordering", ← document.get "column", ← document.get "initial_value"⟩⟩

instance : Readable (StreamArgs b V) :=
  ⟨fun document => do
    return ⟨← document.get "where", ← document.get "batch_size", ← document.get "cursor"⟩⟩

instance : Readable (Stream b R V) :=
  ⟨fun document => do
    let ⟨enabled⟩ ← document.getMarker "xstream" b.capabilities.streamingSubscriptions
    let fields : FieldMap b R V .row ← document.get "fields"
    return {
      enabled
      fields := .ofEntries fields.entries
      source := ← document.get "from"
      permission := ← document.get "perm"
      args := ← document.get "args"
      numbers := ← document.get "stringify_numbers" }⟩

end SelectPlan
