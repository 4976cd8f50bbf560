import SelectPlan.Proofs.Traversal.Visits
import SelectPlan.Query.Aggregate
import SelectPlan.Query.Page
import SelectPlan.Query.Source
import SelectPlan.Selection.Stream

/-!
The traversals of everything that holds values but no remote targets: predicates, arguments,
orderings, aggregates, sources and pages.  Each of them visits the values in reading order.
-/

namespace SelectPlan

variable {F : Type → Type} [Applicative F] [LawfulApplicative F] {b : Backend} {V W : Type}

theorem Comparison.traverse_visits (g : V → F W) (condition : Comparison V) :
    Visits g condition.values values (erased traverse) (erased traverse condition)
      (condition.traverse g) := by
  cases condition with
  | compare operator value =>
      exact .map (fun _ => compare operator ()) (.leaf value) (fun _ => rfl) (fun _ => rfl)
  | oneOf value => exact .map (fun _ => oneOf ()) (.leaf value) (fun _ => rfl) (fun _ => rfl)
  | noneOf value => exact .map (fun _ => noneOf ()) (.leaf value) (fun _ => rfl) (fun _ => rfl)
  | like value => exact .map (fun _ => like ()) (.leaf value) (fun _ => rfl) (fun _ => rfl)
  | isNull expected => exact .pure rfl rfl
  | compareColumn operator column => exact .pure rfl rfl
  | custom name argument =>
      exact .map (fun _ => custom name ()) (.leaf argument) (fun _ => rfl) (fun _ => rfl)

namespace Predicate

theorem erased_column (info : ColumnInfo b) (comparisons : List (Comparison V)) :
    erased traverse (column info comparisons) =
      column info (comparisons.map (erased Comparison.traverse)) := by
  rw [erased, traverse, mapA_id]
  rfl

mutual

-- The items of a predicate are a nested list, so the recursion goes through them as well.
theorem traverse_visits (g : V → F W) : (condition : Predicate b V) →
    Visits g condition.values values (erased traverse) (erased traverse condition)
      (condition.traverse g)
  | all items => .map all (traverseAll_visits g items) (fun _ => rfl) (fun _ => rfl)
  | any items => .map any (traverseAll_visits g items) (fun _ => rfl) (fun _ => rfl)
  | not item => .map not (traverse_visits g item) (fun _ => rfl) (fun _ => rfl)
  | someRow table filter =>
      .map (someRow table) (traverse_visits g filter) (fun _ => rfl) (fun _ => rfl)
  | column info comparisons => by
      rw [erased_column]
      exact .map (column info) (.list (Comparison.traverse_visits g) comparisons)
        (fun _ => rfl) (fun _ => erased_column info _)
  | relationship info targetFilter filter =>
      .seq (relationship info) (traverse_visits g targetFilter) (traverse_visits g filter)
        (fun _ _ => rfl) (fun _ _ => rfl)

theorem traverseAll_visits (g : V → F W) : (items : List (Predicate b V)) →
    Visits g (valuesOfAll items) valuesOfAll (erased traverseAll) (erased traverseAll items)
      (traverseAll g items)
  | [] => .pure rfl rfl
  | item :: rest =>
      .seq List.cons (traverse_visits g item) (traverseAll_visits g rest)
        (fun _ _ => rfl) (fun _ _ => rfl)

end

end Predicate

theorem Redaction.traverse_visits (g : V → F W) (redaction : Redaction b V) :
    Visits g redaction.values values (erased traverse) (erased traverse redaction)
      (redaction.traverse g) := by
  cases redaction with
  | none => exact .pure rfl rfl
  | unlessHolds condition =>
      exact .map unlessHolds (condition.traverse_visits g) (fun _ => rfl) (fun _ => rfl)

theorem ColumnField.traverse_visits (g : V → F W) (field : ColumnField b V) :
    Visits g field.values values (erased traverse) (erased traverse field) (field.traverse g) :=
  .map (mk field.column field.type field.asText field.path) (field.redaction.traverse_visits g)
    (fun _ => rfl) (fun _ => rfl)

/-! Calls -/

theorem Argument.traverse_visits (g : V → F W) (argument : Argument V) :
    Visits g argument.values values (erased traverse) (erased traverse argument)
      (argument.traverse g) := by
  cases argument with
  | tableRow => exact .pure rfl rfl
  | input value => exact .map (fun _ => input ()) (.leaf value) (fun _ => rfl) (fun _ => rfl)

namespace Arguments

theorem erased_eq (arguments : Arguments V) :
    erased traverse arguments = ⟨arguments.positional.map (erased Argument.traverse),
      arguments.named.map (erased Argument.traverse)⟩ := by
  rw [erased, traverse, mapA_id, OrderedMap.traverse_id]
  rfl

theorem traverse_visits (g : V → F W) (arguments : Arguments V) :
    Visits g arguments.values values (erased traverse) (erased traverse arguments)
      (arguments.traverse g) := by
  rw [erased_eq]
  exact .seq mk (.list (Argument.traverse_visits g) arguments.positional)
    (.orderedMap (Argument.traverse_visits g) arguments.named) (fun _ _ => rfl)
    (fun _ _ => erased_eq _)

end Arguments

theorem ScalarCall.traverse_visits (g : V → F W) (call : ScalarCall b V) :
    Visits g call.values values (erased traverse) (erased traverse call) (call.traverse g) :=
  .seq (mk call.function · call.type call.path ·) (call.arguments.traverse_visits g)
    (call.redaction.traverse_visits g) (fun _ _ => rfl) (fun _ _ => rfl)

/-! Orderings -/

theorem OrderAggregate.traverse_visits (g : V → F W) (aggregate : OrderAggregate b V) :
    Visits g aggregate.values values (erased traverse) (erased traverse aggregate)
      (aggregate.traverse g) := by
  cases aggregate with
  | count => exact .pure rfl rfl
  | operator name result column redaction =>
      exact .map (operator name result column) (redaction.traverse_visits g) (fun _ => rfl)
        (fun _ => rfl)

theorem ComputedOrder.traverse_visits (g : V → F W) (order : ComputedOrder b V) :
    Visits g order.values values (erased traverse) (erased traverse order)
      (order.traverse g) := by
  cases order with
  | scalar type redaction =>
      exact .map (scalar type) (redaction.traverse_visits g) (fun _ => rfl) (fun _ => rfl)
  | aggregate table filter inner =>
      exact .seq (aggregate table) (filter.traverse_visits g) (inner.traverse_visits g)
        (fun _ _ => rfl) (fun _ _ => rfl)

theorem OrderTerm.traverse_visits (g : V → F W) (term : OrderTerm b V) :
    Visits g term.values values (erased traverse) (erased traverse term) (term.traverse g) := by
  induction term with
  | column info redaction =>
      exact .map (column info) (redaction.traverse_visits g) (fun _ => rfl) (fun _ => rfl)
  | objectRelation info filter term ih =>
      exact .seq (objectRelation info) (filter.traverse_visits g) ih (fun _ _ => rfl)
        (fun _ _ => rfl)
  | arrayAggregate info filter aggregate =>
      exact .seq (arrayAggregate info) (filter.traverse_visits g) (aggregate.traverse_visits g)
        (fun _ _ => rfl) (fun _ _ => rfl)
  | computedField enabled name function arguments order =>
      exact .seq (computedField enabled name function) (arguments.traverse_visits g)
        (order.traverse_visits g) (fun _ _ => rfl) (fun _ _ => rfl)

theorem OrderItem.traverse_visits (g : V → F W) (item : OrderItem b V) :
    Visits g item.values values (erased traverse) (erased traverse item) (item.traverse g) :=
  .map (mk · item.direction item.nulls) (item.term.traverse_visits g) (fun _ => rfl)
    (fun _ => rfl)

/-! Aggregates -/

namespace RedactedColumns

theorem erased_eq (columns : RedactedColumns b V) :
    erased traverse columns =
      List.map (fun column => (column.1, erased Redaction.traverse column.2)) columns := by
  rw [erased, traverse, mapA_id]
  rfl

theorem traverse_visits (g : V → F W) (columns : RedactedColumns b V) :
    Visits g columns.values values (erased traverse) (erased traverse columns)
      (columns.traverse g) := by
  have hcolumn : ∀ column : ColumnName × Redaction b V,
      Visits g column.2.values (fun result : ColumnName × Redaction b W => result.2.values)
        (fun result => (result.1, erased Redaction.traverse result.2))
        (column.1, erased Redaction.traverse column.2)
        ((column.1, ·) <$> column.2.traverse g) := fun column =>
    .map (Prod.mk column.1) (column.2.traverse_visits g) (fun _ => rfl) (fun _ => rfl)
  have hcolumns := Visits.list hcolumn columns
  rw [erased_eq, show erased traverse = _ from funext fun result : RedactedColumns b W =>
    erased_eq result]
  exact hcolumns

end RedactedColumns

theorem Count.traverse_visits (g : V → F W) (counted : Count b V) :
    Visits g counted.values values (erased traverse) (erased traverse counted)
      (counted.traverse g) := by
  cases counted with
  | star => exact .pure rfl rfl
  | nonNull columns =>
      exact .map nonNull (columns.traverse_visits g) (fun _ => rfl) (fun _ => rfl)
  | distinct columns =>
      exact .map distinct (columns.traverse_visits g) (fun _ => rfl) (fun _ => rfl)

theorem Operand.traverse_visits (g : V → F W) (operand : Operand b V) :
    Visits g operand.values values (erased traverse) (erased traverse operand)
      (operand.traverse g) := by
  cases operand with
  | column info redaction =>
      exact .map (column info) (redaction.traverse_visits g) (fun _ => rfl) (fun _ => rfl)
  | computedField enabled name function arguments type redaction =>
      exact .seq (computedField enabled name function · type ·) (arguments.traverse_visits g)
        (redaction.traverse_visits g) (fun _ _ => rfl) (fun _ _ => rfl)
  | constant text => exact .pure rfl rfl

namespace Aggregate

theorem erased_operator (name : String) (operands : OrderedMap FieldName (Operand b V)) :
    erased traverse (operator name operands) =
      operator name (operands.map (erased Operand.traverse)) := by
  rw [erased, traverse, OrderedMap.traverse_id]
  rfl

theorem traverse_visits (g : V → F W) (aggregate : Aggregate b V) :
    Visits g aggregate.values values (erased traverse) (erased traverse aggregate)
      (aggregate.traverse g) := by
  cases aggregate with
  | count counted =>
      exact .map count (counted.traverse_visits g) (fun _ => rfl) (fun _ => rfl)
  | operator name operands =>
      rw [erased_operator]
      exact .map (operator name) (.orderedMap (Operand.traverse_visits g) operands)
        (fun _ => rfl) (fun _ => erased_operator name _)
  | constant text => exact .pure rfl rfl

end Aggregate

namespace Aggregates

theorem erased_eq (aggregates : Aggregates b V) :
    erased traverseValues aggregates = OrderedMap.map (erased Aggregate.traverse) aggregates := by
  rw [erased, traverseValues, OrderedMap.traverse_id]
  rfl

theorem traverse_visits (g : V → F W) (aggregates : Aggregates b V) :
    Visits g aggregates.leafValues leafValues (erased traverseValues)
      (erased traverseValues aggregates) (aggregates.traverseValues g) := by
  rw [erased_eq, show erased traverseValues = _ from funext fun result : Aggregates b W =>
    erased_eq result]
  exact Visits.orderedMap (Aggregate.traverse_visits g) aggregates

end Aggregates

end SelectPlan
