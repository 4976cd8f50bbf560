import SelectPlan.Proofs.Traversal.Trees

/-!
A tree is its shape with its leaves put back.  A traversal of the shape that takes one leaf after
the other from a supply rebuilds the tree and uses up exactly its leaves; so trees of one shape
with the same leaves are equal, and a traversal that keeps every leaf changes nothing.
-/

namespace SelectPlan

/-- Steps that take leaves from a supply, which may run out. -/
abbrev Taking (σ : Type) := StateT σ Option

/-- When the items are put in front of any supply, `steps` take them again and end in `result`. -/
def Refills {α σ T : Type} (put : α → σ → σ) (steps : Taking σ T) (items : List α) (result : T) :
    Prop :=
  ∀ supply, steps (items.foldr put supply) = some (result, supply)

variable {A K L M N R T U V α σ : Type} {b : Backend}

namespace Refills

variable {put : α → σ → σ} {steps : Taking σ T} {items xs ys zs ws : List α} {result : T}

theorem pure (result : T) : Refills put (Pure.pure result) [] result :=
  fun _ => rfl

theorem map (build : T → U) (hsteps : Refills put steps items result) :
    Refills put (build <$> steps) items (build result) := by
  intro supply
  change (steps _).bind _ = _
  rw [hsteps supply]
  rfl

/-- What is taken first has to be put in last. -/
theorem apply {f : T → U} {first : Taking σ (T → U)} {second : Taking σ T}
    (hfirst : Refills put first xs f) (hsecond : Refills put second ys result) :
    Refills put (first <*> second) (xs ++ ys) (f result) := by
  intro supply
  rw [List.foldr_append]
  change (first _).bind _ = _
  rw [hfirst]
  change (second _).bind _ = _
  rw [hsecond]
  rfl

theorem seq {first : Taking σ T} {second : Taking σ U} {x : T} {y : U} (build : T → U → N)
    (hfirst : Refills put first xs x) (hsecond : Refills put second ys y) :
    Refills put (build <$> first <*> second) (xs ++ ys) (build x y) :=
  (hfirst.map build).apply hsecond

theorem seq₃ {first : Taking σ T} {second : Taking σ U} {third : Taking σ L} {x : T} {y : U}
    {z : L} (build : T → U → L → N) (hfirst : Refills put first xs x)
    (hsecond : Refills put second ys y) (hthird : Refills put third zs z) :
    Refills put (build <$> first <*> second <*> third) (xs ++ ys ++ zs) (build x y z) :=
  (seq build hfirst hsecond).apply hthird

theorem seq₄ {first : Taking σ T} {second : Taking σ U} {third : Taking σ L}
    {fourth : Taking σ M} {x : T} {y : U} {z : L} {w : M} (build : T → U → L → M → N)
    (hfirst : Refills put first xs x) (hsecond : Refills put second ys y)
    (hthird : Refills put third zs z) (hfourth : Refills put fourth ws w) :
    Refills put (build <$> first <*> second <*> third <*> fourth) (xs ++ ys ++ zs ++ ws)
      (build x y z w) :=
  (seq₃ build hfirst hsecond hthird).apply hfourth

/-! Containers of parts -/

variable {item : A → List α} {kept : A → U} {step : U → Taking σ A}

theorem list (hstep : ∀ part, Refills put (step (kept part)) (item part) part) (parts : List A) :
    Refills put ((parts.map kept).mapA step) (parts.flatMap item) parts := by
  induction parts with
  | nil => exact pure []
  | cons part parts ih => exact seq List.cons (hstep part) ih

theorem option (hstep : ∀ part, Refills put (step (kept part)) (item part) part)
    (part : Option A) :
    Refills put ((part.map kept).mapA step) (part.toList.flatMap item) part := by
  cases part with
  | none => exact pure none
  | some part =>
      rw [Option.toList_some, List.flatMap_singleton]
      exact (hstep part).map some

theorem nonEmpty (hstep : ∀ part, Refills put (step (kept part)) (item part) part)
    (parts : NonEmpty A) :
    Refills put ((parts.map kept).traverse step) (parts.toList.flatMap item) parts :=
  seq NonEmpty.mk (hstep parts.head) (list hstep parts.tail)

theorem entries (hstep : ∀ part, Refills put (step (kept part)) (item part) part) :
    {keys : List K} → (parts : Entries K A keys) →
    Refills put ((parts.map kept).traverse step) (parts.values.flatMap item) parts
  | _, .nil => pure _
  | _, .cons key fresh part rest => seq (Entries.cons key fresh) (hstep part) (entries hstep rest)

theorem orderedMap (hstep : ∀ part, Refills put (step (kept part)) (item part) part)
    (parts : OrderedMap K A) :
    Refills put ((parts.map kept).traverse step) (parts.values.flatMap item) parts :=
  (entries hstep parts.entries).map OrderedMap.mk

end Refills

/-! Values -/

section

variable {put : V → σ → σ} {take : Taking σ V}

theorem Comparison.refills (htake : ∀ value, Refills put take [value] value)
    (condition : Comparison V) :
    Refills put ((erased traverse condition).traverse fun _ => take) condition.values
      condition := by
  cases condition with
  | compare operator value => exact (htake value).map (compare operator)
  | oneOf value => exact (htake value).map oneOf
  | noneOf value => exact (htake value).map noneOf
  | like value => exact (htake value).map like
  | isNull expected => exact .pure _
  | compareColumn operator column => exact .pure _
  | custom name argument => exact (htake argument).map (custom name)

namespace Predicate

mutual

theorem refills (htake : ∀ value, Refills put take [value] value) :
    (condition : Predicate b V) →
    Refills put ((erased traverse condition).traverse fun _ => take) condition.values condition
  | all items => (refillsAll htake items).map all
  | any items => (refillsAll htake items).map any
  | not item => (refills htake item).map not
  | someRow table filter => (refills htake filter).map (someRow table)
  | column info comparisons => by
      rw [erased_column]
      exact (Refills.list (Comparison.refills htake) comparisons).map (column info)
  | relationship info targetFilter filter =>
      .seq (relationship info) (refills htake targetFilter) (refills htake filter)

theorem refillsAll (htake : ∀ value, Refills put take [value] value) :
    (items : List (Predicate b V)) →
    Refills put (traverseAll (fun _ => take) (erased traverseAll items)) (valuesOfAll items) items
  | [] => .pure []
  | item :: rest => .seq List.cons (refills htake item) (refillsAll htake rest)

end

end Predicate

theorem Redaction.refills (htake : ∀ value, Refills put take [value] value)
    (redaction : Redaction b V) :
    Refills put ((erased traverse redaction).traverse fun _ => take) redaction.values
      redaction := by
  cases redaction with
  | none => exact .pure _
  | unlessHolds condition => exact (condition.refills htake).map unlessHolds

theorem ColumnField.refills (htake : ∀ value, Refills put take [value] value)
    (field : ColumnField b V) :
    Refills put ((erased traverse field).traverse fun _ => take) field.values field :=
  (field.redaction.refills htake).map (mk field.column field.type field.asText field.path)

theorem Argument.refills (htake : ∀ value, Refills put take [value] value)
    (argument : Argument V) :
    Refills put ((erased traverse argument).traverse fun _ => take) argument.values argument := by
  cases argument with
  | tableRow => exact .pure _
  | input value => exact (htake value).map input

theorem Arguments.refills (htake : ∀ value, Refills put take [value] value)
    (arguments : Arguments V) :
    Refills put ((erased traverse arguments).traverse fun _ => take) arguments.values
      arguments := by
  rw [erased_eq]
  exact .seq mk (.list (Argument.refills htake) arguments.positional)
    (.orderedMap (Argument.refills htake) arguments.named)

theorem ScalarCall.refills (htake : ∀ value, Refills put take [value] value)
    (call : ScalarCall b V) :
    Refills put ((erased traverse call).traverse fun _ => take) call.values call :=
  .seq (mk call.function · call.type call.path ·) (call.arguments.refills htake)
    (call.redaction.refills htake)

theorem OrderAggregate.refills (htake : ∀ value, Refills put take [value] value)
    (aggregate : OrderAggregate b V) :
    Refills put ((erased traverse aggregate).traverse fun _ => take) aggregate.values
      aggregate := by
  cases aggregate with
  | count => exact .pure _
  | operator name result column redaction =>
      exact (redaction.refills htake).map (operator name result column)

theorem ComputedOrder.refills (htake : ∀ value, Refills put take [value] value)
    (order : ComputedOrder b V) :
    Refills put ((erased traverse order).traverse fun _ => take) order.values order := by
  cases order with
  | scalar type redaction => exact (redaction.refills htake).map (scalar type)
  | aggregate table filter inner =>
      exact .seq (aggregate table) (filter.refills htake) (inner.refills htake)

theorem OrderTerm.refills (htake : ∀ value, Refills put take [value] value)
    (term : OrderTerm b V) :
    Refills put ((erased traverse term).traverse fun _ => take) term.values term := by
  induction term with
  | column info redaction => exact (redaction.refills htake).map (column info)
  | objectRelation info filter term ih =>
      exact .seq (objectRelation info) (filter.refills htake) ih
  | arrayAggregate info filter aggregate =>
      exact .seq (arrayAggregate info) (filter.refills htake) (aggregate.refills htake)
  | computedField enabled name function arguments order =>
      exact .seq (computedField enabled name function) (arguments.refills htake)
        (order.refills htake)

theorem OrderItem.refills (htake : ∀ value, Refills put take [value] value)
    (item : OrderItem b V) :
    Refills put ((erased traverse item).traverse fun _ => take) item.values item :=
  (item.term.refills htake).map (mk · item.direction item.nulls)

theorem RedactedColumns.refills (htake : ∀ value, Refills put take [value] value)
    (columns : RedactedColumns b V) :
    Refills put ((erased traverse columns).traverse fun _ => take) columns.values columns := by
  rw [erased_eq]
  exact .list (fun column => (column.2.refills htake).map (column.1, ·)) columns

theorem Count.refills (htake : ∀ value, Refills put take [value] value) (counted : Count b V) :
    Refills put ((erased traverse counted).traverse fun _ => take) counted.values counted := by
  cases counted with
  | star => exact .pure _
  | nonNull columns => exact (columns.refills htake).map nonNull
  | distinct columns => exact (columns.refills htake).map distinct

theorem Operand.refills (htake : ∀ value, Refills put take [value] value)
    (operand : Operand b V) :
    Refills put ((erased traverse operand).traverse fun _ => take) operand.values operand := by
  cases operand with
  | column info redaction => exact (redaction.refills htake).map (column info)
  | computedField enabled name function arguments type redaction =>
      exact .seq (computedField enabled name function · type ·) (arguments.refills htake)
        (redaction.refills htake)
  | constant text => exact .pure _

theorem Aggregate.refills (htake : ∀ value, Refills put take [value] value)
    (aggregate : Aggregate b V) :
    Refills put ((erased traverse aggregate).traverse fun _ => take) aggregate.values
      aggregate := by
  cases aggregate with
  | count counted => exact (counted.refills htake).map count
  | operator name operands =>
      rw [erased_operator]
      exact (Refills.orderedMap (Operand.refills htake) operands).map (operator name)
  | constant text => exact .pure _

theorem Aggregates.refills (htake : ∀ value, Refills put take [value] value)
    (aggregates : Aggregates b V) :
    Refills put ((erased traverseValues aggregates).traverseValues fun _ => take)
      aggregates.leafValues aggregates := by
  rw [erased_eq]
  exact Refills.orderedMap (Aggregate.refills htake) aggregates

theorem Source.refills (htake : ∀ value, Refills put take [value] value) (source : Source b V) :
    Refills put ((erased traverse source).traverse fun _ => take) source.values source := by
  cases source with
  | table name => exact .pure _
  | identifier name => exact .pure _
  | function name arguments definition =>
      exact (arguments.refills htake).map (function name · definition)
  | nativeQuery name arguments =>
      have harguments : Refills put ((arguments.map fun _ => ()).traverse fun _ => take)
          (arguments.values.flatMap fun value => [value]) arguments := .orderedMap htake arguments
      rw [List.flatMap_singleton'] at harguments
      rw [erased_nativeQuery]
      exact harguments.map (nativeQuery name)

theorem RowPermission.refills (htake : ∀ value, Refills put take [value] value)
    (permission : RowPermission b V) :
    Refills put ((erased traverse permission).traverse fun _ => take) permission.values
      permission :=
  (permission.filter.refills htake).map (mk · permission.limit)

theorem SelectArgs.refills (htake : ∀ value, Refills put take [value] value)
    (args : SelectArgs b V) :
    Refills put ((erased traverse args).traverse fun _ => take) args.values args := by
  rw [erased_eq, values, orderItems_flatMap]
  exact .seq (mk · · args.limit args.offset args.distinct)
    (.option (Predicate.refills htake) args.filter)
    (.option (.nonEmpty (OrderItem.refills htake)) args.orderBy)

theorem Query.refills (htake : ∀ value, Refills put take [value] value) (query : Query b V) :
    Refills put ((erased traverse query).traverse fun _ => take) query.values query :=
  .seq₃ (mk · · · query.numbers query.naming) (query.source.refills htake)
    (query.permission.refills htake) (query.args.refills htake)

theorem PageBound.refills (htake : ∀ value, Refills put take [value] value)
    (bound : PageBound b V) :
    Refills put ((erased traverse bound).traverse fun _ => take) bound.values bound :=
  (htake bound.value).map (mk bound.kind · bound.order)

theorem Page.refills (htake : ∀ value, Refills put take [value] value) (page : Page b V) :
    Refills put ((erased traverse page).traverse fun _ => take) page.values page := by
  rw [erased_eq, values_eq]
  exact (Refills.option (.nonEmpty (PageBound.refills htake)) page.bounds).map
    (mk page.primaryKey · page.slice)

theorem StreamArgs.refills (htake : ∀ value, Refills put take [value] value)
    (args : StreamArgs b V) :
    Refills put ((erased traverse args).traverse fun _ => take) args.values args := by
  rw [erased_eq]
  exact .seq (fun filter value =>
      mk filter args.batchSize ⟨args.cursor.ordering, args.cursor.column, value⟩)
    (.option (Predicate.refills htake) args.filter) (htake args.cursor.initialValue)

end

/-! Trees -/

/-- Leaves that can be put into a tree. -/
structure Supply (R V : Type) where
  remotes : List R
  values : List V

namespace Supply

/-- Puts a leaf in front. -/
def put (leaf : Leaf R V) (supply : Supply R V) : Supply R V :=
  match leaf with
  | .remote target => { supply with remotes := target :: supply.remotes }
  | .value value => { supply with values := value :: supply.values }

/-- Takes the first remote target. -/
def takeRemote : Taking (Supply R V) R := fun supply =>
  match supply.remotes with
  | [] => none
  | target :: remotes => some (target, { supply with remotes })

/-- Takes the first value. -/
def takeValue : Taking (Supply R V) V := fun supply =>
  match supply.values with
  | [] => none
  | value :: values => some (value, { supply with values })

theorem refills_remote (target : R) :
    Refills (put (V := V)) takeRemote [.remote target] target :=
  fun _ => rfl

theorem refills_value (value : V) :
    Refills (fun value => put (R := R) (.value value)) takeValue [value] value :=
  fun _ => rfl

/-- Leaves that are put into a supply come in front of what it has, in their order. -/
theorem foldr_put (leaves : List (Leaf R V)) (supply : Supply R V) :
    leaves.foldr put supply =
      ⟨leaves.filterMap Leaf.remote? ++ supply.remotes,
        leaves.filterMap Leaf.value? ++ supply.values⟩ := by
  induction leaves with
  | nil => rfl
  | cons leaf leaves ih =>
      rw [List.foldr_cons, ih]
      cases leaf <;> rfl

/-- What is taken in the place of a leaf is the leaf that was put in. -/
theorem refills_leaf (leaf : Leaf R V) :
    Refills put (leaf.traverse (fun _ => takeRemote) fun _ => takeValue) [leaf] leaf := by
  cases leaf with
  | remote target => exact (refills_remote target).map Leaf.remote
  | value value =>
      have hvalue : Refills (put (R := R)) takeValue [.value value] value := refills_value value
      exact hvalue.map Leaf.value

theorem refills_leaves (leaves : List (Leaf R V)) :
    Refills put (leaves.mapA (Leaf.traverse (fun _ => takeRemote) fun _ => takeValue)) leaves
      leaves := by
  have hleaves : Refills put ((leaves.map id).mapA _) (leaves.flatMap ([·])) leaves :=
    Refills.list refills_leaf leaves
  rwa [List.map_id, List.flatMap_singleton'] at hleaves

end Supply

/-- What takes values takes them as leaves. -/
theorem Refills.ofValues {steps : Taking (Supply R V) T} {values : List V} {result : T}
    (hsteps : Refills (fun value => Supply.put (R := R) (.value value)) steps values result) :
    Refills Supply.put steps (Leaf.ofValues values) result := by
  intro supply
  rw [Leaf.ofValues, List.foldr_map]
  exact hsteps supply

open Supply

theorem RemoteRelationship.refills (relationship : RemoteRelationship b R) :
    Refills (put (V := V)) ((erased traverse relationship).traverse fun _ => takeRemote)
      [.remote relationship.target] relationship :=
  (refills_remote relationship.target).map (mk relationship.joinFields)

theorem Selection.refills {part : Part} (tree : Selection b R V part) :
    Refills put (tree.shape.traverse (fun _ => takeRemote) fun _ => takeValue) tree.leaves
      tree := by
  induction tree with
  | column field => exact (Refills.ofValues (field.refills refills_value)).map column
  | objectRelation relationship inner ih => exact ih.map (objectRelation relationship)
  | arrayRelation inner ih => exact ih.map arrayRelation
  | computedField enabled name inner ih => exact ih.map (computedField enabled name)
  | remote relationship => exact relationship.refills.map remote
  | nodeId enabled owner primaryKey => exact .pure _
  | constant text => exact .pure _
  | aggregates items =>
      exact (Refills.ofValues (Aggregates.refills refills_value items)).map aggregates
  | nodes enabled fields ih => exact ih.map (nodes enabled)
  | aggregateConstant text => exact .pure _
  | connectionTypeName text => exact .pure _
  | pageInfo info => exact .pure _
  | edges fields ih => exact ih.map edges
  | edgeTypeName text => exact .pure _
  | cursor => exact .pure _
  | node fields ih => exact ih.map node
  | nil => exact .pure _
  | cons name fresh field rest ihField ihRest => exact .seq (cons name fresh) ihField ihRest
  | select fields query ih => exact .seq select ih (.ofValues (query.refills refills_value))
  | object fields target filter ih =>
      exact .seq₃ object ih (.ofValues (target.refills refills_value))
        (.ofValues (filter.refills refills_value))
  | simple relationship inner ih => exact ih.map (simple relationship)
  | aggregate relationship inner ih => exact ih.map (aggregate relationship)
  | connection relationship inner ih => exact ih.map (connection relationship)
  | page enabled window inner ih =>
      exact .seq (page enabled) (.ofValues (window.refills refills_value)) ih
  | scalar call => exact (Refills.ofValues (call.refills refills_value)).map scalar
  | table shape inner ih => exact ih.map (table shape)

theorem Stream.refills (stream : Stream b R V) :
    Refills put (stream.shape.traverse (fun _ => takeRemote) fun _ => takeValue) stream.leaves
      stream := by
  rw [leaves_eq]
  exact .seq₄ (mk stream.enabled · · · · stream.numbers) stream.fields.refills
    (.ofValues (stream.source.refills refills_value))
    (.ofValues (stream.permission.refills refills_value))
    (.ofValues (stream.args.refills refills_value))

theorem SourceSelection.refills (source : SourceSelection b R V) :
    Refills put (source.shape.traverse (fun _ => takeRemote) fun _ => takeValue) source.leaves
      source := by
  cases source with
  | object select => exact select.refills.map object
  | array select => exact select.refills.map array
  | arrayAggregate select => exact select.refills.map arrayAggregate

namespace TreeKind

/-- The shape of a tree takes the leaves of the tree and becomes the tree. -/
theorem refills (kind : TreeKind) (tree : kind.Tree b R V) :
    Refills put (kind.traverse (fun _ => takeRemote) (fun _ => takeValue) (kind.shape tree))
      (kind.leaves tree) tree := by
  induction kind with
  | part part => exact Selection.refills tree
  | fieldMap vocabulary =>
      have hfields := (Selection.ofEntries tree.entries).refills.map fun fields =>
        OrderedMap.mk (Selection.toEntries fields)
      rw [Selection.toEntries_ofEntries] at hfields
      change Refills put ((fun fields => OrderedMap.mk (Selection.toEntries fields)) <$>
        (Selection.ofEntries (Selection.ofEntries tree.entries).shape.toEntries).traverse _ _) _ _
      rw [Selection.ofEntries_toEntries]
      exact hfields
  | stream => exact Stream.refills tree
  | sourceSelect =>
      exact tree.selection.refills.map
        (SourceSelect.mk tree.name tree.config · tree.joinMapping tree.numbers)
  | sourceSelection => exact SourceSelection.refills tree
  | remoteRelationship => exact RemoteRelationship.refills tree
  | aggregate => exact .ofValues (Aggregate.refills refills_value tree)
  | operand => exact .ofValues (Operand.refills refills_value tree)
  | count => exact .ofValues (Count.refills refills_value tree)
  | columnField => exact .ofValues (ColumnField.refills refills_value tree)
  | scalarCall => exact .ofValues (ScalarCall.refills refills_value tree)
  | redaction => exact .ofValues (Redaction.refills refills_value tree)
  | predicate => exact .ofValues (Predicate.refills refills_value tree)
  | predicates => exact .ofValues (Predicate.refillsAll refills_value tree)
  | comparison => exact .ofValues (Comparison.refills refills_value tree)
  | argument => exact .ofValues (Argument.refills refills_value tree)
  | arguments => exact .ofValues (Arguments.refills refills_value tree)
  | orderBy =>
      rw [shape_orderBy]
      exact .ofValues (.nonEmpty (OrderItem.refills refills_value) tree)
  | orderItem => exact .ofValues (OrderItem.refills refills_value tree)
  | orderTerm => exact .ofValues (OrderTerm.refills refills_value tree)
  | orderAggregate => exact .ofValues (OrderAggregate.refills refills_value tree)
  | computedOrder => exact .ofValues (ComputedOrder.refills refills_value tree)
  | source => exact .ofValues (Source.refills refills_value tree)
  | permission => exact .ofValues (RowPermission.refills refills_value tree)
  | args => exact .ofValues (SelectArgs.refills refills_value tree)
  | page => exact .ofValues (Page.refills refills_value tree)
  | pageBound => exact .ofValues (PageBound.refills refills_value tree)
  | streamArgs => exact .ofValues (StreamArgs.refills refills_value tree)
  | selectFrame field ih =>
      rw [shape_selectFrame]
      exact .seq SelectFrame.mk (.orderedMap ih tree.fields)
        (.ofValues (tree.query.refills refills_value))
  | relationFrame inner ih => exact (ih tree.select).map (RelationFrame.mk tree.relationship)
  | orderFrame term ih => exact (ih tree.term).map (OrderFrame.mk · tree.direction tree.nulls)
  | list item ih =>
      rw [shape_list]
      exact .list ih tree
  | optional item ih =>
      rw [shape_optional]
      exact .option ih tree
  | nonEmpty item ih =>
      rw [shape_nonEmpty]
      exact .nonEmpty ih tree
  | map key item ih =>
      rw [shape_map]
      exact .orderedMap ih tree

/-- A tree is determined by its shape and its leaves. -/
theorem ext_shape_leaves {kind : TreeKind} {first second : kind.Tree b R V}
    (hshape : kind.shape first = kind.shape second)
    (hleaves : kind.leaves first = kind.leaves second) : first = second := by
  have hfirst := kind.refills first ⟨[], []⟩
  have hsecond := kind.refills second ⟨[], []⟩
  rw [hshape, hleaves, hsecond] at hfirst
  exact (Prod.mk.inj (Option.some.inj hfirst)).1.symm

/-- Functions that are applied to the leaves of a tree change its leaves and keep its shape. -/
theorem bimap_visits (f : R → S) (g : V → W) (kind : TreeKind) (tree : kind.Tree b R V) :
    kind.leaves (kind.bimap f g tree) = (kind.leaves tree).map (Leaf.traverse (F := Id)
      (fun target => pure (f target)) fun value => pure (g value)) ∧
      kind.shape (kind.bimap f g tree) = kind.shape tree := by
  have hvisits := kind.traverse_visits (F := Id) (fun target => pure (f target))
    (fun value => pure (g value)) tree
  obtain ⟨hleaves, hshape⟩ := Prod.mk.inj hvisits
  rw [mapA_id] at hleaves
  exact ⟨hleaves, hshape⟩

/-- A traversal that keeps every leaf changes nothing. -/
theorem bimap_id (kind : TreeKind) (tree : kind.Tree b R V) : kind.bimap id id tree = tree := by
  obtain ⟨hleaves, hshape⟩ := bimap_visits id id kind tree
  have hkeep : Leaf.traverse (F := Id) (fun target : R => pure (id target))
      (fun value : V => pure (id value)) = id := by
    funext leaf
    cases leaf <;> rfl
  rw [hkeep] at hleaves
  exact ext_shape_leaves hshape (hleaves.trans (List.map_id _))

/-- Replaying the remote targets and the values of a tree, each in the place of the next one,
rebuilds the tree and leaves nothing over. -/
theorem traverse_replay (kind : TreeKind) (tree : kind.Tree b R V) :
    kind.traverse (fun _ => takeRemote) (fun _ => takeValue) tree
      ⟨kind.remotes tree, kind.values tree⟩ = some (tree, ⟨[], []⟩) := by
  have hsupply : (⟨kind.remotes tree, kind.values tree⟩ : Supply R V) =
      (kind.leaves tree).foldr put ⟨[], []⟩ := by
    rw [foldr_put, List.append_nil, List.append_nil]
    rfl
  have hvisits := congrFun (kind.traverse_visits (F := Taking (Supply R V))
    (fun _ : R => takeRemote) (fun _ : V => takeValue) tree) ⟨kind.remotes tree, kind.values tree⟩
  have hleaves := (refills_leaves (kind.leaves tree)).map (·, kind.shape tree) ⟨[], []⟩
  rw [← hsupply, ← hvisits] at hleaves
  obtain ⟨⟨rebuilt, rest⟩, hrun, hview⟩ := Option.bind_eq_some_iff.mp hleaves
  obtain ⟨hviews, rfl⟩ := Prod.mk.inj (Option.some.inj hview)
  obtain ⟨hsame, hshape⟩ := Prod.mk.inj hviews
  rw [hrun, ext_shape_leaves hshape hsame]

/-- Traversals miss no leaf.  Two trees are equal exactly when they have the same shape and their
leaves are the same in reading order.  So replaying the leaves of a tree one by one rebuilds it and
uses them all up, and a traversal that keeps every leaf changes nothing. -/
theorem determined_by_shape_and_leaves (kind : TreeKind) :
    (∀ first second : kind.Tree b R V, first = second ↔
      kind.shape first = kind.shape second ∧ kind.leaves first = kind.leaves second) ∧
    (∀ tree : kind.Tree b R V,
      kind.traverse (fun _ => takeRemote) (fun _ => takeValue) tree
        ⟨kind.remotes tree, kind.values tree⟩ = some (tree, ⟨[], []⟩)) ∧
    ∀ tree : kind.Tree b R V, kind.bimap id id tree = tree := by
  refine ⟨fun first second => ⟨?_, ?_⟩, kind.traverse_replay, kind.bimap_id⟩
  · rintro rfl
    exact ⟨rfl, rfl⟩
  · rintro ⟨hshape, hleaves⟩
    exact ext_shape_leaves hshape hleaves

/-- A tree without remote targets is a tree that cannot have any. -/
theorem exists_of_remotes_eq_nil (kind : TreeKind) {tree : kind.Tree b R V}
    (hremotes : kind.remotes tree = []) :
    ∃ source : kind.Tree b Empty V, kind.bimap Empty.elim id source = tree := by
  have hvisits := kind.traverse_visits (F := Option) (fun _ => (none : Option Empty)) some tree
  obtain ⟨kept, hkept, hleaves⟩ := exists_kept (kind.leaves tree) hremotes
  rw [Visits, hkept] at hvisits
  obtain ⟨source, -, hsource⟩ := Option.map_eq_some_iff.mp hvisits
  obtain ⟨rfl, hshape⟩ := Prod.mk.inj hsource
  obtain ⟨hmapped, hsame⟩ := bimap_visits Empty.elim id kind source
  exact ⟨source, ext_shape_leaves (hsame.trans hshape) (hmapped.trans hleaves)⟩
where
  exists_kept : (leaves : List (Leaf R V)) → leaves.filterMap Leaf.remote? = [] →
      ∃ kept : List (Leaf Empty V),
        leaves.mapA (Leaf.traverse (fun _ => none) some) = some kept ∧
        kept.map (Leaf.traverse (F := Id) (fun target => pure target.elim)
          fun value => pure (id value)) = leaves
    | [], _ => ⟨[], rfl, rfl⟩
    | .remote target :: leaves, hremotes => nomatch hremotes
    | .value value :: leaves, hremotes => by
        obtain ⟨kept, hkept, hleaves⟩ := exists_kept leaves hremotes
        refine ⟨.value value :: kept, ?_, ?_⟩
        · rw [List.mapA, hkept]
          rfl
        · rw [List.map_cons, hleaves]
          rfl

end TreeKind

end SelectPlan
