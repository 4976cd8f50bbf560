import SelectPlan.Query.Aggregate
import SelectPlan.Query.Page
import SelectPlan.Query.Relationship
import SelectPlan.Query.Source
import SelectPlan.Request.Values

/-!
Requests: the parts of a query.
-/

namespace SelectPlan

variable {b : Backend} {R V : Type} [Readable R] [Readable V]

instance : Readable (ColumnInfo b) :=
  ⟨fun document => do
    return ⟨← document.get "column", ← document.get "ty", ← document.get "nullable"⟩⟩

instance : Readable RelationshipKind :=
  ⟨Json.readChoice [("Object", .object), ("Array", .array)]⟩

instance : Readable (RelationshipInfo b) :=
  ⟨fun document => do
    return ⟨← document.get "name", ← document.get "rel_type", ← document.get "mapping",
      ← document.get "target"⟩⟩

instance : Readable ComparisonOperator :=
  ⟨Json.readChoice
    [("Eq", .eq), ("Neq", .neq), ("Gt", .gt), ("Lt", .lt), ("Gte", .gte), ("Lte", .lte)]⟩

instance : Readable (Comparison V) :=
  ⟨fun
    | .object [("Compare", item)] => do return .compare (← item.get "op") (← item.get "value")
    | .object [("In", value)] => .oneOf <$> fromJson value
    | .object [("Nin", value)] => .noneOf <$> fromJson value
    | .object [("Like", value)] => .like <$> fromJson value
    | .object [("IsNull", expected)] => .isNull <$> fromJson expected
    | .object [("CompareColumn", item)] => do
        return .compareColumn (← item.get "op") (← item.get "column")
    | .object [("Custom", item)] => do
        return .custom (← item.get "name") (← item.get "argument")
    | _ => .malformed⟩

/-- Reads a predicate nested less than `depth` deep. -/
def Predicate.readWithin : (depth : Nat) → Json → Reading (Predicate b V)
  | 0, _ => .malformed
  | depth + 1, .object [("And", items)] => all <$> items.readList (readWithin depth)
  | depth + 1, .object [("Or", items)] => any <$> items.readList (readWithin depth)
  | depth + 1, .object [("Not", item)] => not <$> readWithin depth item
  | depth + 1, .object [("Exists", item)] => do
      return someRow (← item.get "table") (← item.getWith "filter" (readWithin depth))
  | _ + 1, .object [("Column", item)] => do
      return column (← item.get "column") (← item.get "ops")
  | depth + 1, .object [("Relationship", item)] => do
      return relationship (← item.get "relationship")
        (← item.getWith "target_filter" (readWithin depth))
        (← item.getWith "filter" (readWithin depth))
  | _ + 1, _ => .malformed

instance : Readable (Predicate b V) :=
  ⟨fun document => Predicate.readWithin document.depth document⟩

instance : Readable (Redaction b V) :=
  ⟨fun
    | .string "NoRedaction" => pure .none
    | .object [("RedactIfFalse", condition)] => .unlessHolds <$> fromJson condition
    | _ => .malformed⟩

instance : Readable JsonStep :=
  ⟨fun
    | .object [("Key", name)] => .key <$> fromJson name
    | .object [("Index", position)] => .index <$> fromJson position
    | _ => .malformed⟩

instance : Readable JsonPath :=
  ⟨fun
    | .object [("JsonPath", steps)] => .mk <$> fromJson steps
    | _ => .malformed⟩

instance : Readable (ColumnField b V) :=
  ⟨fun document => do
    return ⟨← document.get "column", ← document.get "ty", ← document.get "as_text",
      ← document.get "arguments", ← document.get "redaction"⟩⟩

instance : Readable (Argument V) :=
  ⟨fun
    | .string "TableRow" => pure .tableRow
    | .object [("Input", value)] => .input <$> fromJson value
    | _ => .malformed⟩

instance : Readable (Arguments V) :=
  ⟨fun document => do return ⟨← document.get "positional", ← document.get "named"⟩⟩

instance : Readable (ScalarCall b V) :=
  ⟨fun document => do
    return {
      function := ← document.get "function"
      arguments := ← document.get "args"
      type := ← document.get "ty"
      path := ← document.get "arguments"
      redaction := ← document.get "redaction" }⟩

instance : Readable Direction := ⟨Json.readChoice [("Asc", .asc), ("Desc", .desc)]⟩

instance : Readable NullsOrder := ⟨Json.readChoice [("First", .first), ("Last", .last)]⟩

instance : Readable (OrderAggregate b V) :=
  ⟨fun
    | .string "Count" => pure .count
    | .object [("Op", item)] => do
        return .operator (← item.get "op") (← item.get "result_type") (← item.get "column")
          (← item.get "redaction")
    | _ => .malformed⟩

instance : Readable (ComputedOrder b V) :=
  ⟨fun
    | .object [("Scalar", item)] => do return .scalar (← item.get "ty") (← item.get "redaction")
    | .object [("Aggregate", item)] => do
        return .aggregate (← item.get "table") (← item.get "filter") (← item.get "aggregate")
    | _ => .malformed⟩

/-- Reads a term that goes through less than `depth` relationships. -/
def OrderTerm.readWithin : (depth : Nat) → Json → Reading (OrderTerm b V)
  | 0, _ => .malformed
  | _ + 1, .object [("Column", item)] => do
      return column (← item.get "column") (← item.get "redaction")
  | depth + 1, .object [("ObjectRelation", item)] => do
      return objectRelation (← item.get "relationship") (← item.get "filter")
        (← item.getWith "element" (readWithin depth))
  | _ + 1, .object [("ArrayAggregation", item)] => do
      return arrayAggregate (← item.get "relationship") (← item.get "filter")
        (← item.get "aggregate")
  | _ + 1, .object [("ComputedField", item)] => do
      let ⟨enabled⟩ ← item.getMarker "xfield" b.capabilities.computedFields
      return computedField enabled (← item.get "name") (← item.get "function")
        (← item.get "args") (← item.get "element")
  | _ + 1, _ => .malformed

instance : Readable (OrderTerm b V) :=
  ⟨fun document => OrderTerm.readWithin document.depth document⟩

instance : Readable (OrderItem b V) :=
  ⟨fun document => do
    return ⟨← document.get "element", ← document.get "direction", ← document.get "nulls"⟩⟩

instance : Readable (Source b V) :=
  ⟨fun
    | .object [("Table", name)] => .table <$> fromJson name
    | .object [("Identifier", name)] => .identifier <$> fromJson name
    | .object [("Function", item)] => do
        return .function (← item.get "function") (← item.get "args")
          (← item.get "definition_list")
    | .object [("NativeQuery", item)] => do
        return .nativeQuery (← item.get "name") (← item.get "arguments")
    | _ => .malformed⟩

instance : Readable (RowPermission b V) :=
  ⟨fun document => do return ⟨← document.get "filter", ← document.get "limit"⟩⟩

instance : Readable (SelectArgs b V) :=
  ⟨fun document => do
    return ⟨← document.get "where", ← document.get "order_by", ← document.get "limit",
      ← document.get "offset", ← document.get "distinct"⟩⟩

instance : Readable NumberRendering :=
  ⟨Json.readChoice [("LeaveAlone", .leaveAlone), ("Stringify", .stringify)]⟩

instance : Readable NamingConvention :=
  ⟨Json.readChoice [("HasuraCase", .hasura), ("GraphqlCase", .graphql)]⟩

instance : Readable (Query b V) :=
  ⟨fun document => do
    return ⟨← document.get "from", ← document.get "perm", ← document.get "args",
      ← document.get "stringify_numbers", ← document.get "naming_convention"⟩⟩

instance : Readable (Count b V) :=
  ⟨fun
    | .string "Star" => pure .star
    | .object [("NonNull", columns)] => .nonNull <$> fromJson columns
    | .object [("Distinct", columns)] => .distinct <$> fromJson columns
    | _ => .malformed⟩

instance : Readable (Operand b V) :=
  ⟨fun
    | .object [("Column", item)] => do
        return .column (← item.get "column") (← item.get "redaction")
    | .object [("ComputedField", item)] => do
        let ⟨enabled⟩ ← item.getMarker "xfield" b.capabilities.computedFields
        return .computedField enabled (← item.get "name") (← item.get "function")
          (← item.get "args") (← item.get "ty") (← item.get "redaction")
    | .object [("Expression", text)] => .constant <$> fromJson text
    | _ => .malformed⟩

instance : Readable (Aggregate b V) :=
  ⟨fun
    | .object [("Count", counted)] => .count <$> fromJson counted
    | .object [("Op", item)] => do return .operator (← item.get "op") (← item.get "fields")
    | .object [("Expression", text)] => .constant <$> fromJson text
    | _ => .malformed⟩

instance : Readable BoundKind := ⟨Json.readChoice [("Before", .before), ("After", .after)]⟩

instance : Readable (PageBound b V) :=
  ⟨fun document => do
    return ⟨← document.get "kind", ← document.get "value", ← document.get "order_by"⟩⟩

instance : Readable PageSlice :=
  ⟨fun
    | .object [("First", count)] => .first <$> fromJson count
    | .object [("Last", count)] => .last <$> fromJson count
    | _ => .malformed⟩

instance : Readable (Page b V) :=
  ⟨fun document => do
    return ⟨← document.get "primary_key_columns", ← document.get "split",
      ← document.get "slice"⟩⟩

instance : Readable PageInfo :=
  ⟨fun
    | .object [("TypeName", text)] => .typeName <$> fromJson text
    | .string "HasNextPage" => pure .hasNextPage
    | .string "HasPreviousPage" => pure .hasPreviousPage
    | .string "StartCursor" => pure .startCursor
    | .string "EndCursor" => pure .endCursor
    | _ => .malformed⟩

instance : Readable Relationship :=
  ⟨fun document => do
    return ⟨← document.get "name", ← document.get "mapping", ← document.get "nullable"⟩⟩

instance : Readable (JoinField b) :=
  ⟨fun
    | .object [("Column", item)] => do return .column (← item.get "column") (← item.get "ty")
    | .object [("ComputedField", item)] => do
        let ⟨enabled⟩ ← item.getMarker "xfield" b.capabilities.computedFields
        return .computedField enabled (← item.get "name") (← item.get "function")
          (← item.get "ty")
    | _ => .malformed⟩

instance : Readable (RemoteRelationship b R) :=
  ⟨fun document => do
    return ⟨← document.get "lhs_join_fields", ← document.get "relationship"⟩⟩

end SelectPlan
