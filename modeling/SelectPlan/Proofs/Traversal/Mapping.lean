import SelectPlan.Proofs.Traversal.Correspondence

/-!
Traversals without effects keep everything but the leaves.  If every value and every remote target
is related to the answer for it, then a tree corresponds to the tree that the traversal makes.
-/

namespace SelectPlan

variable {b : Backend} {A B R S V W : Type}

/-! Containers -/

section

variable {rel : A → B → Prop} {step : A → Id B} (hstep : ∀ x, rel x (Id.run (step x)))

include hstep

theorem forall₂_mapA (xs : List A) : List.Forall₂ rel xs (Id.run (xs.mapA step)) := by
  induction xs with
  | nil => exact .nil
  | cons x xs ih => exact .cons (hstep x) ih

theorem optionRel_mapA (x : Option A) : Option.Rel rel x (Id.run (x.mapA step)) := by
  cases x with
  | none => exact .none
  | some x => exact .some (hstep x)

theorem NonEmpty.corresponds_traverse (xs : NonEmpty A) :
    xs.Corresponds rel (Id.run (xs.traverse step)) :=
  ⟨hstep xs.head, forall₂_mapA hstep xs.tail⟩

theorem Entries.corresponds_traverse {K : Type} : {keys : List K} → (xs : Entries K A keys) →
    xs.Corresponds rel (Id.run (xs.traverse step))
  | _, .nil => .nil
  | _, .cons _ _ x xs => .cons (hstep x) (corresponds_traverse xs)

theorem OrderedMap.corresponds_traverse {K : Type} (xs : OrderedMap K A) :
    xs.Corresponds rel (Id.run (xs.traverse step)) :=
  .mk (Entries.corresponds_traverse hstep xs.entries)

end

/-! What holds values but no remote targets -/

section

variable {rel : V → W → Prop} {g : V → Id W}

theorem Comparison.corresponds_traverse (hg : ∀ value, rel value (Id.run (g value)))
    (x : Comparison V) : x.Corresponds rel (Id.run (x.traverse g)) := by
  cases x with
  | compare operator value => exact .compare (hg value)
  | oneOf value => exact .oneOf (hg value)
  | noneOf value => exact .noneOf (hg value)
  | like value => exact .like (hg value)
  | isNull expected => exact .isNull
  | compareColumn operator column => exact .compareColumn
  | custom name argument => exact .custom (hg argument)

namespace Predicate

mutual

-- The items of a predicate are a nested list, so the recursion goes through them as well.
theorem corresponds_traverse (hg : ∀ value, rel value (Id.run (g value))) :
    (x : Predicate b V) → x.Corresponds rel (Id.run (x.traverse g))
  | all items => .all (corresponds_traverseAll hg items)
  | any items => .any (corresponds_traverseAll hg items)
  | not item => .not (corresponds_traverse hg item)
  | someRow _ filter => .someRow (corresponds_traverse hg filter)
  | column _ comparisons => .column (forall₂_mapA (Comparison.corresponds_traverse hg) comparisons)
  | relationship _ targetFilter filter =>
      .relationship (corresponds_traverse hg targetFilter) (corresponds_traverse hg filter)

theorem corresponds_traverseAll (hg : ∀ value, rel value (Id.run (g value))) :
    (xs : List (Predicate b V)) → List.Forall₂ (Corresponds rel) xs (Id.run (traverseAll g xs))
  | [] => .nil
  | item :: rest => .cons (corresponds_traverse hg item) (corresponds_traverseAll hg rest)

end

end Predicate

variable (hg : ∀ value, rel value (Id.run (g value)))

include hg

theorem Redaction.corresponds_traverse (x : Redaction b V) :
    x.Corresponds rel (Id.run (x.traverse g)) := by
  cases x with
  | none => exact .none
  | unlessHolds condition => exact .unlessHolds (condition.corresponds_traverse hg)

theorem ColumnField.corresponds_traverse (x : ColumnField b V) :
    x.Corresponds rel (Id.run (x.traverse g)) :=
  ⟨rfl, rfl, rfl, rfl, x.redaction.corresponds_traverse hg⟩

theorem Argument.corresponds_traverse (x : Argument V) :
    x.Corresponds rel (Id.run (x.traverse g)) := by
  cases x with
  | tableRow => exact .tableRow
  | input value => exact .input (hg value)

theorem Arguments.corresponds_traverse (xs : Arguments V) :
    xs.Corresponds rel (Id.run (xs.traverse g)) :=
  ⟨forall₂_mapA (Argument.corresponds_traverse hg) xs.positional,
    xs.named.corresponds_traverse (Argument.corresponds_traverse hg)⟩

theorem ScalarCall.corresponds_traverse (x : ScalarCall b V) :
    x.Corresponds rel (Id.run (x.traverse g)) :=
  ⟨rfl, x.arguments.corresponds_traverse hg, rfl, rfl, x.redaction.corresponds_traverse hg⟩

theorem OrderAggregate.corresponds_traverse (x : OrderAggregate b V) :
    x.Corresponds rel (Id.run (x.traverse g)) := by
  cases x with
  | count => exact .count
  | operator name result column redaction => exact .operator (redaction.corresponds_traverse hg)

theorem ComputedOrder.corresponds_traverse (x : ComputedOrder b V) :
    x.Corresponds rel (Id.run (x.traverse g)) := by
  cases x with
  | scalar type redaction => exact .scalar (redaction.corresponds_traverse hg)
  | aggregate table filter inner =>
      exact .aggregate (filter.corresponds_traverse hg) (inner.corresponds_traverse hg)

theorem OrderTerm.corresponds_traverse (x : OrderTerm b V) :
    x.Corresponds rel (Id.run (x.traverse g)) := by
  induction x with
  | column info redaction => exact .column (redaction.corresponds_traverse hg)
  | objectRelation info filter term ih => exact .objectRelation (filter.corresponds_traverse hg) ih
  | arrayAggregate info filter aggregate =>
      exact .arrayAggregate (filter.corresponds_traverse hg) (aggregate.corresponds_traverse hg)
  | computedField enabled name function arguments order =>
      exact .computedField (arguments.corresponds_traverse hg) (order.corresponds_traverse hg)

theorem OrderItem.corresponds_traverse (x : OrderItem b V) :
    x.Corresponds rel (Id.run (x.traverse g)) :=
  ⟨x.term.corresponds_traverse hg, rfl, rfl⟩

theorem RedactedColumns.corresponds_traverse (xs : RedactedColumns b V) :
    xs.Corresponds rel (Id.run (xs.traverse g)) :=
  forall₂_mapA (fun x => ⟨rfl, x.2.corresponds_traverse hg⟩) xs

theorem Count.corresponds_traverse (x : Count b V) : x.Corresponds rel (Id.run (x.traverse g)) := by
  cases x with
  | star => exact .star
  | nonNull columns => exact .nonNull (columns.corresponds_traverse hg)
  | distinct columns => exact .distinct (columns.corresponds_traverse hg)

theorem Operand.corresponds_traverse (x : Operand b V) :
    x.Corresponds rel (Id.run (x.traverse g)) := by
  cases x with
  | column info redaction => exact .column (redaction.corresponds_traverse hg)
  | computedField enabled name function arguments type redaction =>
      exact .computedField (arguments.corresponds_traverse hg) (redaction.corresponds_traverse hg)
  | constant text => exact .constant

theorem Aggregate.corresponds_traverse (x : Aggregate b V) :
    x.Corresponds rel (Id.run (x.traverse g)) := by
  cases x with
  | count counted => exact .count (counted.corresponds_traverse hg)
  | operator name operands =>
      exact .operator (operands.corresponds_traverse (Operand.corresponds_traverse hg))
  | constant text => exact .constant

theorem Source.corresponds_traverse (x : Source b V) :
    x.Corresponds rel (Id.run (x.traverse g)) := by
  cases x with
  | table name => exact .table
  | identifier name => exact .identifier
  | function name arguments definition => exact .function (arguments.corresponds_traverse hg)
  | nativeQuery name arguments => exact .nativeQuery (arguments.corresponds_traverse hg)

theorem RowPermission.corresponds_traverse (x : RowPermission b V) :
    x.Corresponds rel (Id.run (x.traverse g)) :=
  ⟨x.filter.corresponds_traverse hg, rfl⟩

theorem SelectArgs.corresponds_traverse (x : SelectArgs b V) :
    x.Corresponds rel (Id.run (x.traverse g)) :=
  ⟨optionRel_mapA (Predicate.corresponds_traverse hg) x.filter,
    optionRel_mapA (NonEmpty.corresponds_traverse (OrderItem.corresponds_traverse hg)) x.orderBy,
    rfl, rfl, rfl⟩

theorem Query.corresponds_traverse (x : Query b V) : x.Corresponds rel (Id.run (x.traverse g)) :=
  ⟨x.source.corresponds_traverse hg, x.permission.corresponds_traverse hg,
    x.args.corresponds_traverse hg, rfl, rfl⟩

theorem PageBound.corresponds_traverse (x : PageBound b V) :
    x.Corresponds rel (Id.run (x.traverse g)) :=
  ⟨rfl, hg x.value, rfl⟩

theorem Page.corresponds_traverse (x : Page b V) : x.Corresponds rel (Id.run (x.traverse g)) :=
  ⟨rfl, optionRel_mapA (NonEmpty.corresponds_traverse (PageBound.corresponds_traverse hg)) x.bounds,
    rfl⟩

theorem StreamArgs.corresponds_traverse (x : StreamArgs b V) :
    x.Corresponds rel (Id.run (x.traverse g)) :=
  ⟨optionRel_mapA (Predicate.corresponds_traverse hg) x.filter, rfl, rfl, rfl,
    hg x.cursor.initialValue⟩

end

/-! Selections -/

section

variable {targets : R → S → Prop} {rel : V → W → Prop} {f : R → Id S} {g : V → Id W}
  (hf : ∀ target, targets target (Id.run (f target))) (hg : ∀ value, rel value (Id.run (g value)))

theorem RemoteRelationship.corresponds_traverse
    (hf : ∀ target, targets target (Id.run (f target))) (x : RemoteRelationship b R) :
    x.Corresponds targets (Id.run (x.traverse f)) :=
  ⟨rfl, hf x.target⟩

include hf hg

theorem Selection.corresponds_traverse {part : Part} (x : Selection b R V part) :
    x.Corresponds targets rel (Id.run (x.traverse f g)) := by
  induction x with
  | column field => exact .column (field.corresponds_traverse hg)
  | objectRelation relationship select ih => exact .objectRelation ih
  | arrayRelation select ih => exact .arrayRelation ih
  | computedField enabled name select ih => exact .computedField ih
  | remote relationship => exact .remote (relationship.corresponds_traverse hf)
  | nodeId enabled table primaryKey => exact .nodeId
  | constant text => exact .constant
  | aggregates aggregates =>
      exact .aggregates (OrderedMap.corresponds_traverse (Aggregate.corresponds_traverse hg) _)
  | nodes enabled fields ih => exact .nodes ih
  | aggregateConstant text => exact .aggregateConstant
  | connectionTypeName text => exact .connectionTypeName
  | pageInfo info => exact .pageInfo
  | edges fields ih => exact .edges ih
  | edgeTypeName text => exact .edgeTypeName
  | cursor => exact .cursor
  | node fields ih => exact .node ih
  | nil => exact .nil
  | cons name fresh field rest ihField ihRest => exact .cons ihField ihRest
  | select fields query ih => exact .select ih (query.corresponds_traverse hg)
  | object fields target filter ih =>
      exact .object ih (target.corresponds_traverse hg) (filter.corresponds_traverse hg)
  | simple relationship select ih => exact .simple ih
  | aggregate relationship select ih => exact .aggregate ih
  | connection relationship select ih => exact .connection ih
  | page enabled page select ih => exact .page (page.corresponds_traverse hg) ih
  | scalar call => exact .scalar (call.corresponds_traverse hg)
  | table shape select ih => exact .table ih

/-- The fields of a selection correspond as the entries of a map. -/
theorem Selection.corresponds_toEntries {vocabulary : Vocabulary} : {names : List FieldName} →
    (fields : Selection b R V (.fields vocabulary names)) →
    fields.toEntries.Corresponds (Corresponds targets rel)
      (toEntries (Id.run (fields.traverse f g)))
  | _, nil => .nil
  | _, cons _ _ field rest =>
      .cons (field.corresponds_traverse hf hg) (corresponds_toEntries rest)

theorem Stream.corresponds_traverse (x : Stream b R V) :
    x.Corresponds targets rel (Id.run (x.traverse f g)) :=
  .mk (x.fields.corresponds_traverse hf hg) (x.source.corresponds_traverse hg)
    (x.permission.corresponds_traverse hg) (x.args.corresponds_traverse hg)

theorem SourceSelection.corresponds_traverse (x : SourceSelection b R V) :
    x.Corresponds targets rel (Id.run (x.traverse f g)) := by
  cases x with
  | object select => exact .object (select.corresponds_traverse hf hg)
  | array select => exact .array (select.corresponds_traverse hf hg)
  | arrayAggregate select => exact .arrayAggregate (select.corresponds_traverse hf hg)

theorem SourceSelect.corresponds_traverse (x : SourceSelect b R V) :
    x.Corresponds targets rel (Id.run (x.traverse f g)) :=
  ⟨rfl, rfl, x.selection.corresponds_traverse hf hg, rfl, rfl⟩

/-- A tree of any kind corresponds to the tree that a traversal without effects makes of it. -/
theorem TreeKind.corresponds_traverse (kind : TreeKind) (tree : kind.Tree b R V) :
    kind.Corresponds targets rel tree (Id.run (kind.traverse f g tree)) := by
  induction kind with
  | part part => exact Selection.corresponds_traverse hf hg tree
  | fieldMap vocabulary =>
      have hentries := Selection.corresponds_toEntries hf hg (Selection.ofEntries tree.entries)
      rw [Selection.toEntries_ofEntries] at hentries
      exact .mk hentries
  | stream => exact Stream.corresponds_traverse hf hg tree
  | sourceSelect => exact SourceSelect.corresponds_traverse hf hg tree
  | sourceSelection => exact SourceSelection.corresponds_traverse hf hg tree
  | remoteRelationship => exact RemoteRelationship.corresponds_traverse hf tree
  | aggregate => exact Aggregate.corresponds_traverse hg tree
  | operand => exact Operand.corresponds_traverse hg tree
  | count => exact Count.corresponds_traverse hg tree
  | columnField => exact ColumnField.corresponds_traverse hg tree
  | scalarCall => exact ScalarCall.corresponds_traverse hg tree
  | redaction => exact Redaction.corresponds_traverse hg tree
  | predicate => exact Predicate.corresponds_traverse hg tree
  | predicates => exact Predicate.corresponds_traverseAll hg tree
  | comparison => exact Comparison.corresponds_traverse hg tree
  | argument => exact Argument.corresponds_traverse hg tree
  | arguments => exact Arguments.corresponds_traverse hg tree
  | orderBy => exact NonEmpty.corresponds_traverse (OrderItem.corresponds_traverse hg) tree
  | orderItem => exact OrderItem.corresponds_traverse hg tree
  | orderTerm => exact OrderTerm.corresponds_traverse hg tree
  | orderAggregate => exact OrderAggregate.corresponds_traverse hg tree
  | computedOrder => exact ComputedOrder.corresponds_traverse hg tree
  | source => exact Source.corresponds_traverse hg tree
  | permission => exact RowPermission.corresponds_traverse hg tree
  | args => exact SelectArgs.corresponds_traverse hg tree
  | page => exact Page.corresponds_traverse hg tree
  | pageBound => exact PageBound.corresponds_traverse hg tree
  | streamArgs => exact StreamArgs.corresponds_traverse hg tree
  | selectFrame field ih =>
      exact ⟨OrderedMap.corresponds_traverse ih tree.fields, tree.query.corresponds_traverse hg⟩
  | relationFrame inner ih => exact ⟨rfl, ih tree.select⟩
  | orderFrame term ih => exact ⟨ih tree.term, rfl, rfl⟩
  | list item ih => exact forall₂_mapA ih tree
  | optional item ih => exact optionRel_mapA ih tree
  | nonEmpty item ih => exact NonEmpty.corresponds_traverse ih tree
  | map key item ih => exact OrderedMap.corresponds_traverse ih tree

end

end SelectPlan
