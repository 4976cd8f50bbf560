import SelectPlan.Planning.Validation
import SelectPlan.Proofs.Traversal.Trees

/-!
Validation looks at the shape of a select alone.  Remote targets and values have no part in what is
found, so selects of one shape are valid or not for the same reasons.
-/

namespace SelectPlan

variable {b : Backend} {R S V W : Type}

/-! Orderings and aggregates -/

theorem OrderTerm.operators_erased (term : OrderTerm b V) :
    (erased traverse term).operators = term.operators := by
  induction term with
  | column info redaction => rfl
  | objectRelation info filter term ih => exact ih
  | arrayAggregate info filter aggregate => cases aggregate <;> rfl
  | computedField enabled name function arguments order =>
      cases order with
      | scalar type redaction => rfl
      | aggregate table filter inner => cases inner <;> rfl

/-- An entry that is erased twice is erased. -/
theorem OrderItem.erase_erased (item : OrderItem b V) :
    (erased traverse item).erase = item.erase := by
  have hvisits := item.traverse_visits (F := Id) fun _ => pure ()
  exact (Prod.mk.inj hvisits).2

theorem Aggregate.operator?_erased (aggregate : Aggregate b V) :
    (erased traverse aggregate).operator? = aggregate.operator? := by
  cases aggregate with
  | count counted => rfl
  | operator name operands =>
      rw [erased_operator]
      rfl
  | constant text => rfl

theorem Aggregates.operators_erased (aggregates : Aggregates b V) :
    operators (erased traverseValues aggregates) = aggregates.operators := by
  rw [erased_eq, operators, operators, OrderedMap.values, OrderedMap.map, Entries.values_map,
    List.filterMap_map]
  exact congrArg (List.filterMap · _) (funext Aggregate.operator?_erased)

theorem SelectArgs.operators_erased (args : SelectArgs b V) :
    (erased traverse args).operators = args.operators := by
  rw [operators, orderItems_erased, List.flatMap_map]
  exact congrArg (List.flatMap · _) (funext fun item => item.term.operators_erased)

/-! Pages -/

namespace Page

theorem misplaced_erased (start : Nat) (bounds : List (PageBound b V))
    (entries : List (OrderItem b Unit)) :
    misplaced start (bounds.map (erased PageBound.traverse)) entries =
      misplaced start bounds entries := by
  induction bounds generalizing start entries with
  | nil => rfl
  | cons bound bounds ih =>
      cases entries with
      | nil => rfl
      | cons entry entries =>
          rw [List.map_cons, misplaced, misplaced, ih]
          rfl

theorem ordering_erased (page : Page b V) (declared : List (OrderItem b V)) :
    (erased traverse page).ordering (declared.map (erased OrderItem.traverse)) =
      page.ordering declared := by
  rw [erased_eq, ordering, ordering, List.map_map]
  exact congrArg (List.map · declared ++ _) (funext OrderItem.erase_erased)

theorem problems_erased (page : Page b V) (declared : List (OrderItem b V)) :
    (erased traverse page).problems (declared.map (erased OrderItem.traverse)) =
      page.problems declared := by
  rw [problems, ordering_erased, problems, erased_eq]
  cases page.bounds with
  | none => rfl
  | some bounds =>
      have hkind : ∀ bound : PageBound b V, (erased PageBound.traverse bound).kind = bound.kind :=
        fun _ => rfl
      simp only [Option.map_some, NonEmpty.toList_map, NonEmpty.head_map, NonEmpty.size_map,
        List.any_map, Function.comp_def, hkind, misplaced_erased]

end Page

namespace Selection

theorem targetTable?_shape (select : Selection b R V .object) :
    select.shape.targetTable? = select.targetTable? := by
  cases select with
  | object fields target filter => exact target.table?_erased

theorem table?_shape {vocabulary : Vocabulary} (select : Selection b R V (.select vocabulary)) :
    select.shape.query.source.table? = select.query.source.table? := by
  cases select with
  | select fields query => exact query.source.table?_erased

theorem pageTable?_shape (select : ConnectionSelect b R V) :
    select.shape.pageQuery.source.table? = select.pageQuery.source.table? := by
  cases select with
  | page enabled window inner => exact inner.table?_shape

theorem orderItems_shape {vocabulary : Vocabulary} (select : Selection b R V (.select vocabulary)) :
    select.shape.query.args.orderItems =
      select.query.args.orderItems.map (erased OrderItem.traverse) := by
  cases select with
  | select fields query => exact query.args.orderItems_erased

/-- What validation finds depends on the shape alone. -/
theorem findings_shape {part : Part} (tree : Selection b R V part) (catalog : Catalog b)
    (owner : Option (TableName b)) :
    tree.shape.findings catalog owner = tree.findings catalog owner := by
  induction tree generalizing owner with
  | objectRelation relationship inner ih =>
      have hshape : (objectRelation relationship inner).shape =
          objectRelation relationship inner.shape := rfl
      rw [hshape, findings, inner.targetTable?_shape, ih, findings]
  | simple relationship inner ih =>
      have hshape : (simple relationship inner).shape = simple relationship inner.shape := rfl
      rw [hshape, findings, inner.table?_shape, ih, findings]
  | aggregate relationship inner ih =>
      have hshape : (aggregate relationship inner).shape =
          aggregate relationship inner.shape := rfl
      rw [hshape, findings, inner.table?_shape, ih, findings]
  | connection relationship inner ih =>
      have hshape : (connection relationship inner).shape =
          connection relationship inner.shape := rfl
      rw [hshape, findings, inner.pageTable?_shape, ih, findings]
  | aggregates items =>
      have hshape : (aggregates items : Selection b R V (.field .aggregate)).shape =
          aggregates (erased Aggregates.traverseValues items) := rfl
      rw [hshape, findings, Aggregates.operators_erased, findings]
  | cons name fresh field rest ihField ihRest =>
      have hshape : (cons name fresh field rest).shape =
          cons name fresh field.shape rest.shape := rfl
      rw [hshape, findings, ihField, ihRest, findings]
  | select fields query ih =>
      have hshape : (select fields query).shape =
          select fields.shape (erased Query.traverse query) := rfl
      have hargs : (erased Query.traverse query).args = erased SelectArgs.traverse query.args := rfl
      have hsource : (erased Query.traverse query).source = erased Source.traverse query.source :=
        rfl
      rw [hshape, findings, hargs, SelectArgs.operators_erased, hsource, Source.table?_erased, ih,
        findings]
  | object fields target filter ih =>
      have hshape : (object fields target filter).shape = object fields.shape
          (erased Source.traverse target) (erased Predicate.traverse filter) := rfl
      rw [hshape, findings, Source.table?_erased, ih, findings]
  | page enabled window inner ih =>
      have hshape : (page enabled window inner).shape =
          page enabled (erased Page.traverse window) inner.shape := rfl
      rw [hshape, findings, inner.orderItems_shape, Page.problems_erased, ih, findings]
  | nodes enabled fields ih => exact ih owner
  | node fields ih => exact ih owner
  | edges fields ih => exact ih owner
  | arrayRelation inner ih => exact ih owner
  | computedField enabled field inner ih => exact ih owner
  | table shape inner ih => exact ih owner
  | _ => rfl

theorem validatePage_shape (connection : ConnectionSelect b R V) :
    connection.shape.validatePage = connection.validatePage := by
  cases connection with
  | page enabled window inner =>
      have hshape : (page enabled window inner).shape =
          page enabled (erased Page.traverse window) inner.shape := rfl
      rw [hshape, validatePage, inner.orderItems_shape, Page.problems_erased, validatePage]

theorem validate_eq_of_shape {select : Select b R V} {other : Select b S W}
    (hshape : select.shape = other.shape) (catalog : Catalog b) :
    select.validate catalog = other.validate catalog := by
  rw [validate, validate, ← findings_shape select, ← findings_shape other, hshape]

theorem validatePage_eq_of_shape {connection : ConnectionSelect b R V}
    {other : ConnectionSelect b S W} (hshape : connection.shape = other.shape) :
    connection.validatePage = other.validatePage := by
  rw [← validatePage_shape connection, ← validatePage_shape other, hshape]

end Selection

end SelectPlan
