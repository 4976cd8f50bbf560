import SelectPlan.Proofs.Traversal.Queries
import SelectPlan.Selection.Kind

/-!
The traversals of trees visit remote targets and values in one interleaved order, which is that of
the leaves, and they keep the shape of the tree: everything that is neither a remote target nor a
value, and the order of every map.
-/

namespace SelectPlan

variable {F : Type → Type} [Applicative F] {b : Backend} {R S V W T X : Type}

/-- Runs `f` on a remote target and `g` on a value. -/
def Leaf.traverse (f : R → F S) (g : V → F W) : Leaf R V → F (Leaf S W)
  | remote target => remote <$> f target
  | value leaf => value <$> g leaf

/-- A part of a selection without its leaves. -/
def Selection.shape {part : Part} (tree : Selection b R V part) : Selection b Unit Unit part :=
  Id.run (tree.traverse (fun _ => pure ()) fun _ => pure ())

/-- A tree without its leaves. -/
def TreeKind.shape (kind : TreeKind) (tree : kind.Tree b R V) : kind.Tree b Unit Unit :=
  kind.bimap (fun _ => ()) (fun _ => ()) tree

variable [LawfulApplicative F]

theorem Leaf.mapA_ofValues (f : R → F S) (g : V → F W) (values : List V) :
    (ofValues values).mapA (traverse f g) = ofValues <$> values.mapA g := by
  induction values with
  | nil => simp [ofValues, List.mapA]
  | cons value values ih =>
      rw [ofValues, List.map_cons, List.mapA, ← ofValues, ih, List.mapA]
      simp [traverse, ofValues, functor_norm, Function.comp_def]

namespace Visits

/-- What visits values visits them as leaves. -/
theorem ofValues {g : V → F W} {items : List V} {values : T → List W} {shape : T → X} {kept : X}
    {steps : F T} (f : R → F S) (visits : Visits g items values shape kept steps) :
    Visits (Leaf.traverse f g) (Leaf.ofValues items) (fun result => Leaf.ofValues (values result))
      shape kept steps := by
  have hview : (fun result => ((Leaf.ofValues (values result) : List (Leaf S W)), shape result)) =
      (fun view : List W × X => (Leaf.ofValues view.1, view.2)) ∘
        fun result => (values result, shape result) := rfl
  rw [Visits] at visits ⊢
  rw [hview, comp_map, visits, Leaf.mapA_ofValues, ← comp_map, ← comp_map]
  rfl

theorem remote (f : R → F S) (g : V → F W) (target : R) :
    Visits (Leaf.traverse f g) [.remote target] (fun result => [.remote result]) (fun _ => ()) ()
      (f target) := by
  simp [Visits, List.mapA, Leaf.traverse, functor_norm]

end Visits

theorem RemoteRelationship.traverse_visits (f : R → F S) (g : V → F W)
    (relationship : RemoteRelationship b R) :
    Visits (Leaf.traverse f g) [.remote relationship.target]
      (fun result : RemoteRelationship b S => [.remote result.target]) (erased traverse)
      (erased traverse relationship) (relationship.traverse f) :=
  .map (fun _ => mk relationship.joinFields ()) (.remote f g relationship.target) (fun _ => rfl)
    (fun _ => rfl)

namespace Selection

theorem traverse_visits (f : R → F S) (g : V → F W) {part : Part} (tree : Selection b R V part) :
    Visits (Leaf.traverse f g) tree.leaves leaves shape tree.shape (tree.traverse f g) := by
  induction tree with
  | column field =>
      exact .map column (.ofValues f (field.traverse_visits g)) (fun _ => rfl) (fun _ => rfl)
  | objectRelation relationship inner ih =>
      exact .map (objectRelation relationship) ih (fun _ => rfl) (fun _ => rfl)
  | arrayRelation inner ih => exact .map arrayRelation ih (fun _ => rfl) (fun _ => rfl)
  | computedField enabled name inner ih =>
      exact .map (computedField enabled name) ih (fun _ => rfl) (fun _ => rfl)
  | remote relationship =>
      exact .map remote (relationship.traverse_visits f g) (fun _ => rfl) (fun _ => rfl)
  | nodeId enabled owner primaryKey => exact .pure rfl rfl
  | constant text => exact .pure rfl rfl
  | aggregates items =>
      exact .map aggregates (.ofValues f (Aggregates.traverse_visits g items)) (fun _ => rfl)
        (fun _ => rfl)
  | nodes enabled fields ih => exact .map (nodes enabled) ih (fun _ => rfl) (fun _ => rfl)
  | aggregateConstant text => exact .pure rfl rfl
  | connectionTypeName text => exact .pure rfl rfl
  | pageInfo info => exact .pure rfl rfl
  | edges fields ih => exact .map edges ih (fun _ => rfl) (fun _ => rfl)
  | edgeTypeName text => exact .pure rfl rfl
  | cursor => exact .pure rfl rfl
  | node fields ih => exact .map node ih (fun _ => rfl) (fun _ => rfl)
  | nil => exact .pure rfl rfl
  | cons name fresh field rest ihField ihRest =>
      exact .seq (cons name fresh) ihField ihRest (fun _ _ => rfl) (fun _ _ => rfl)
  | select fields query ih =>
      exact .seq select ih (.ofValues f (query.traverse_visits g)) (fun _ _ => rfl)
        (fun _ _ => rfl)
  | object fields target filter ih =>
      exact .seq₃ object ih (.ofValues f (target.traverse_visits g))
        (.ofValues f (filter.traverse_visits g)) (fun _ _ _ => rfl) (fun _ _ _ => rfl)
  | simple relationship inner ih =>
      exact .map (simple relationship) ih (fun _ => rfl) (fun _ => rfl)
  | aggregate relationship inner ih =>
      exact .map (aggregate relationship) ih (fun _ => rfl) (fun _ => rfl)
  | connection relationship inner ih =>
      exact .map (connection relationship) ih (fun _ => rfl) (fun _ => rfl)
  | page enabled window inner ih =>
      exact .seq (page enabled) (.ofValues f (window.traverse_visits g)) ih (fun _ _ => rfl)
        (fun _ _ => rfl)
  | scalar call =>
      exact .map scalar (.ofValues f (call.traverse_visits g)) (fun _ => rfl) (fun _ => rfl)
  | table shape inner ih => exact .map (table shape) ih (fun _ => rfl) (fun _ => rfl)

end Selection

/-- A stream without its leaves. -/
def Stream.shape (stream : Stream b R V) : Stream b Unit Unit :=
  Id.run (stream.traverse (fun _ => pure ()) fun _ => pure ())

theorem Stream.leaves_eq (stream : Stream b R V) :
    stream.leaves = stream.fields.leaves ++ Leaf.ofValues stream.source.values ++
      Leaf.ofValues stream.permission.values ++ Leaf.ofValues stream.args.values := by
  simp [leaves, Leaf.ofValues]

theorem Stream.traverse_visits (f : R → F S) (g : V → F W) (stream : Stream b R V) :
    Visits (Leaf.traverse f g) stream.leaves leaves shape stream.shape (stream.traverse f g) := by
  rw [leaves_eq]
  exact .seq₄ (mk stream.enabled · · · · stream.numbers) (stream.fields.traverse_visits f g)
    (.ofValues f (stream.source.traverse_visits g))
    (.ofValues f (stream.permission.traverse_visits g))
    (.ofValues f (stream.args.traverse_visits g)) (fun _ _ _ _ => leaves_eq _)
    (fun _ _ _ _ => rfl)

/-- What is selected on another source, without its leaves. -/
def SourceSelection.shape (source : SourceSelection b R V) : SourceSelection b Unit Unit :=
  Id.run (source.traverse (fun _ => pure ()) fun _ => pure ())

theorem SourceSelection.traverse_visits (f : R → F S) (g : V → F W)
    (source : SourceSelection b R V) :
    Visits (Leaf.traverse f g) source.leaves leaves shape source.shape (source.traverse f g) := by
  cases source with
  | object select =>
      exact .map object (select.traverse_visits f g) (fun _ => rfl) (fun _ => rfl)
  | array select =>
      exact .map array (select.traverse_visits f g) (fun _ => rfl) (fun _ => rfl)
  | arrayAggregate select =>
      exact .map arrayAggregate (select.traverse_visits f g) (fun _ => rfl) (fun _ => rfl)

namespace TreeKind

-- the equations of the traversal are worked out once, ahead of the proofs that rewrite with them
attribute [local simp] traverse

theorem shape_orderBy (items : orderBy.Tree b R V) :
    orderBy.shape items = NonEmpty.map (erased OrderItem.traverse) items := by
  rw [shape, bimap, traverse, NonEmpty.traverse_id]
  rfl

theorem shape_selectFrame (field : TreeKind) (select : (selectFrame field).Tree b R V) :
    (selectFrame field).shape select =
      ⟨OrderedMap.map field.shape select.fields, erased Query.traverse select.query⟩ := by
  rw [shape, bimap, traverse, SelectFrame.traverse, OrderedMap.traverse_id]
  rfl

theorem shape_list (item : TreeKind) (trees : (list item).Tree b R V) :
    (list item).shape trees = List.map item.shape trees := by
  rw [shape, bimap, traverse, mapA_id]
  rfl

theorem shape_optional (item : TreeKind) (tree : (optional item).Tree b R V) :
    (optional item).shape tree = Option.map item.shape tree := by
  rw [shape, bimap, traverse, optionMapA_id]
  rfl

theorem shape_nonEmpty (item : TreeKind) (trees : (nonEmpty item).Tree b R V) :
    (nonEmpty item).shape trees = NonEmpty.map item.shape trees := by
  rw [shape, bimap, traverse, NonEmpty.traverse_id]
  rfl

theorem shape_map (key : KeyKind) (item : TreeKind) (trees : (map key item).Tree b R V) :
    (map key item).shape trees = OrderedMap.map item.shape trees := by
  rw [shape, bimap, traverse, OrderedMap.traverse_id]
  rfl

/-- The traversal of a tree of any kind visits its leaves in reading order. -/
theorem traverse_visits (f : R → F S) (g : V → F W) (kind : TreeKind) (tree : kind.Tree b R V) :
    Visits (Leaf.traverse f g) (kind.leaves tree) kind.leaves kind.shape (kind.shape tree)
      (kind.traverse f g tree) := by
  induction kind with
  | part part => exact Selection.traverse_visits f g tree
  | fieldMap vocabulary =>
      refine .map (fun fields => OrderedMap.mk (Selection.toEntries fields))
        ((Selection.ofEntries tree.entries).traverse_visits f g) ?_ ?_
      · intro fields
        rw [leaves, Selection.ofEntries_toEntries]
      · intro fields
        rw [shape, bimap, traverse, Selection.ofEntries_toEntries]
        rfl
  | stream => exact Stream.traverse_visits f g tree
  | sourceSelect =>
      exact .map (SourceSelect.mk tree.name tree.config · tree.joinMapping tree.numbers)
        (tree.selection.traverse_visits f g) (fun _ => rfl) (fun _ => rfl)
  | sourceSelection => exact SourceSelection.traverse_visits f g tree
  | remoteRelationship => exact RemoteRelationship.traverse_visits f g tree
  | aggregate => exact .ofValues f (Aggregate.traverse_visits g tree)
  | operand => exact .ofValues f (Operand.traverse_visits g tree)
  | count => exact .ofValues f (Count.traverse_visits g tree)
  | columnField => exact .ofValues f (ColumnField.traverse_visits g tree)
  | scalarCall => exact .ofValues f (ScalarCall.traverse_visits g tree)
  | redaction => exact .ofValues f (Redaction.traverse_visits g tree)
  | predicate => exact .ofValues f (Predicate.traverse_visits g tree)
  | predicates => exact .ofValues f (Predicate.traverseAll_visits g tree)
  | comparison => exact .ofValues f (Comparison.traverse_visits g tree)
  | argument => exact .ofValues f (Argument.traverse_visits g tree)
  | arguments => exact .ofValues f (Arguments.traverse_visits g tree)
  | orderBy =>
      rw [shape_orderBy, show shape (R := S) orderBy = _ from funext shape_orderBy]
      exact .ofValues f (.nonEmpty (OrderItem.traverse_visits g) tree)
  | orderItem => exact .ofValues f (OrderItem.traverse_visits g tree)
  | orderTerm => exact .ofValues f (OrderTerm.traverse_visits g tree)
  | orderAggregate => exact .ofValues f (OrderAggregate.traverse_visits g tree)
  | computedOrder => exact .ofValues f (ComputedOrder.traverse_visits g tree)
  | source => exact .ofValues f (Source.traverse_visits g tree)
  | permission => exact .ofValues f (RowPermission.traverse_visits g tree)
  | args => exact .ofValues f (SelectArgs.traverse_visits g tree)
  | page => exact .ofValues f (Page.traverse_visits g tree)
  | pageBound => exact .ofValues f (PageBound.traverse_visits g tree)
  | streamArgs => exact .ofValues f (StreamArgs.traverse_visits g tree)
  | selectFrame field ih =>
      rw [shape_selectFrame]
      exact .seq SelectFrame.mk (.orderedMap ih tree.fields)
        (.ofValues f (tree.query.traverse_visits g)) (fun _ _ => rfl)
        (fun _ _ => shape_selectFrame field _)
  | relationFrame inner ih =>
      exact .map (RelationFrame.mk tree.relationship) (ih tree.select) (fun _ => rfl)
        (fun _ => rfl)
  | orderFrame term ih =>
      exact .map (OrderFrame.mk · tree.direction tree.nulls) (ih tree.term) (fun _ => rfl)
        (fun _ => rfl)
  | list item ih =>
      rw [shape_list, show shape (list item) = _ from funext (shape_list item)]
      exact .list ih tree
  | optional item ih =>
      rw [shape_optional, show shape (optional item) = _ from funext (shape_optional item)]
      exact .option ih tree
  | nonEmpty item ih =>
      rw [shape_nonEmpty, show shape (nonEmpty item) = _ from funext (shape_nonEmpty item)]
      exact .nonEmpty ih tree
  | map key item ih =>
      rw [shape_map, show shape (map key item) = _ from funext (shape_map key item)]
      exact .orderedMap ih tree

end TreeKind

end SelectPlan
