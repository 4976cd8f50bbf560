import SelectPlan.Selection.Frame
import SelectPlan.Selection.RemoteTarget
import SelectPlan.Selection.Stream

/-!
The kinds of trees.  Whatever holds leaves is a tree of some kind, and what can be done with trees
of every kind is defined here once: listing their leaves, running effects on them, comparing them
and writing them.  Containers of trees are trees again.
-/

namespace SelectPlan

/-- What the keys of a map are. -/
inductive KeyKind where
  | text
  | name (kind : NameKind)

namespace KeyKind

/-- The keys of a kind. -/
abbrev Key : KeyKind → Type
  | text => String
  | name kind => Name kind

instance : (kind : KeyKind) → DecidableEq kind.Key
  | text => inferInstanceAs (DecidableEq String)
  | name kind => inferInstanceAs (DecidableEq (Name kind))

instance : (kind : KeyKind) → MemberName kind.Key
  | text => inferInstanceAs (MemberName String)
  | name kind => inferInstanceAs (MemberName (Name kind))

end KeyKind

/-- The kinds of trees. -/
inductive TreeKind where
  | part (part : Part)
  | fieldMap (vocabulary : Vocabulary)
  | stream
  | sourceSelect
  | sourceSelection
  | remoteRelationship
  | aggregate
  | operand
  | count
  | columnField
  | scalarCall
  | redaction
  | predicate
  | predicates
  | comparison
  | argument
  | arguments
  | orderBy
  | orderItem
  | orderTerm
  | orderAggregate
  | computedOrder
  | source
  | permission
  | args
  | page
  | pageBound
  | streamArgs
  -- frames around trees of a kind
  | selectFrame (field : TreeKind)
  | relationFrame (inner : TreeKind)
  | orderFrame (term : TreeKind)
  -- containers of trees of a kind
  | list (item : TreeKind)
  | optional (item : TreeKind)
  | nonEmpty (item : TreeKind)
  | map (key : KeyKind) (item : TreeKind)

namespace TreeKind

/-- The trees of a kind. -/
abbrev Tree (b : Backend) (R V : Type) : TreeKind → Type
  | part p => Selection b R V p
  | fieldMap vocabulary => FieldMap b R V vocabulary
  | stream => Stream b R V
  | sourceSelect => SourceSelect b R V
  | sourceSelection => SourceSelection b R V
  | remoteRelationship => RemoteRelationship b R
  | aggregate => Aggregate b V
  | operand => Operand b V
  | count => Count b V
  | columnField => ColumnField b V
  | scalarCall => ScalarCall b V
  | redaction => Redaction b V
  | predicate => Predicate b V
  | predicates => List (Predicate b V)
  | comparison => Comparison V
  | argument => Argument V
  | arguments => Arguments V
  | orderBy => NonEmpty (OrderItem b V)
  | orderItem => OrderItem b V
  | orderTerm => OrderTerm b V
  | orderAggregate => OrderAggregate b V
  | computedOrder => ComputedOrder b V
  | source => Source b V
  | permission => RowPermission b V
  | args => SelectArgs b V
  | page => Page b V
  | pageBound => PageBound b V
  | streamArgs => StreamArgs b V
  | selectFrame field => SelectFrame b (field.Tree b R V) V
  | relationFrame inner => RelationFrame (inner.Tree b R V)
  | orderFrame term => OrderFrame (term.Tree b R V)
  | list item => List (item.Tree b R V)
  | optional item => Option (item.Tree b R V)
  | nonEmpty item => NonEmpty (item.Tree b R V)
  | map key item => OrderedMap key.Key (item.Tree b R V)

variable {b : Backend} {R S V W : Type}

/-- The leaves of a tree in reading order. -/
def leaves : (kind : TreeKind) → kind.Tree b R V → List (Leaf R V)
  | part _, tree => Selection.leaves tree
  | fieldMap _, tree => (Selection.ofEntries tree.entries).leaves
  | stream, tree => Stream.leaves tree
  | sourceSelect, tree => SourceSelect.leaves tree
  | sourceSelection, tree => SourceSelection.leaves tree
  | remoteRelationship, tree => [.remote (RemoteRelationship.target tree)]
  | aggregate, tree => Leaf.ofValues (Aggregate.values tree)
  | operand, tree => Leaf.ofValues (Operand.values tree)
  | count, tree => Leaf.ofValues (Count.values tree)
  | columnField, tree => Leaf.ofValues (ColumnField.values tree)
  | scalarCall, tree => Leaf.ofValues (ScalarCall.values tree)
  | redaction, tree => Leaf.ofValues (Redaction.values tree)
  | predicate, tree => Leaf.ofValues (Predicate.values tree)
  | predicates, tree => Leaf.ofValues (Predicate.valuesOfAll tree)
  | comparison, tree => Leaf.ofValues (Comparison.values tree)
  | argument, tree => Leaf.ofValues (Argument.values tree)
  | arguments, tree => Leaf.ofValues (Arguments.values tree)
  | orderBy, tree => Leaf.ofValues ((NonEmpty.toList tree).flatMap OrderItem.values)
  | orderItem, tree => Leaf.ofValues (OrderItem.values tree)
  | orderTerm, tree => Leaf.ofValues (OrderTerm.values tree)
  | orderAggregate, tree => Leaf.ofValues (OrderAggregate.values tree)
  | computedOrder, tree => Leaf.ofValues (ComputedOrder.values tree)
  | source, tree => Leaf.ofValues (Source.values tree)
  | permission, tree => Leaf.ofValues (RowPermission.values tree)
  | args, tree => Leaf.ofValues (SelectArgs.values tree)
  | page, tree => Leaf.ofValues (Page.values tree)
  | pageBound, tree => Leaf.ofValues (PageBound.values tree)
  | streamArgs, tree => Leaf.ofValues (StreamArgs.values tree)
  | selectFrame field, tree => SelectFrame.leaves (leaves field) tree
  | relationFrame inner, tree => leaves inner (RelationFrame.select tree)
  | orderFrame term, tree => leaves term (OrderFrame.term tree)
  | list item, trees => List.flatMap (leaves item) trees
  | optional item, tree => (Option.toList tree).flatMap (leaves item)
  | nonEmpty item, trees => (NonEmpty.toList trees).flatMap (leaves item)
  | map _ item, trees => (OrderedMap.values trees).flatMap (leaves item)

/-- Runs `f` on the remote targets and `g` on the values of a tree, in reading order. -/
def traverse {F : Type → Type} [Applicative F] (f : R → F S) (g : V → F W) :
    (kind : TreeKind) → kind.Tree b R V → F (kind.Tree b S W)
  | part _, tree => Selection.traverse f g tree
  | fieldMap _, tree =>
      (fun fields => ⟨Selection.toEntries fields⟩) <$>
        (Selection.ofEntries tree.entries).traverse f g
  | stream, tree => Stream.traverse f g tree
  | sourceSelect, tree => SourceSelect.traverse f g tree
  | sourceSelection, tree => SourceSelection.traverse f g tree
  | remoteRelationship, tree => RemoteRelationship.traverse f tree
  | aggregate, tree => Aggregate.traverse g tree
  | operand, tree => Operand.traverse g tree
  | count, tree => Count.traverse g tree
  | columnField, tree => ColumnField.traverse g tree
  | scalarCall, tree => ScalarCall.traverse g tree
  | redaction, tree => Redaction.traverse g tree
  | predicate, tree => Predicate.traverse g tree
  | predicates, tree => Predicate.traverseAll g tree
  | comparison, tree => Comparison.traverse g tree
  | argument, tree => Argument.traverse g tree
  | arguments, tree => Arguments.traverse g tree
  | orderBy, tree => NonEmpty.traverse (OrderItem.traverse g) tree
  | orderItem, tree => OrderItem.traverse g tree
  | orderTerm, tree => OrderTerm.traverse g tree
  | orderAggregate, tree => OrderAggregate.traverse g tree
  | computedOrder, tree => ComputedOrder.traverse g tree
  | source, tree => Source.traverse g tree
  | permission, tree => RowPermission.traverse g tree
  | args, tree => SelectArgs.traverse g tree
  | page, tree => Page.traverse g tree
  | pageBound, tree => PageBound.traverse g tree
  | streamArgs, tree => StreamArgs.traverse g tree
  | selectFrame field, tree => SelectFrame.traverse (traverse f g field) g tree
  | relationFrame inner, tree => RelationFrame.traverse (traverse f g inner) tree
  | orderFrame term, tree => OrderFrame.traverse (traverse f g term) tree
  | list item, trees => List.mapA (traverse f g item) trees
  | optional item, tree => Option.mapA (traverse f g item) tree
  | nonEmpty item, trees => NonEmpty.traverse (traverse f g item) trees
  | map _ item, trees => OrderedMap.traverse (traverse f g item) trees

/-- Equality of trees, given equalities of remote targets and of values.  It does not look at the
order of map entries. -/
def same (eqR : R → R → Bool) (eqV : V → V → Bool) :
    (kind : TreeKind) → kind.Tree b R V → kind.Tree b R V → Bool
  | part _, x, y => Selection.same eqR eqV x y
  | fieldMap _, x, y =>
      x.size == y.size &&
        (Selection.ofEntries x.entries).agrees eqR eqV (Selection.ofEntries y.entries).find?
  | stream, x, y => Stream.same eqR eqV x y
  | sourceSelect, x, y => SourceSelect.same eqR eqV x y
  | sourceSelection, x, y => SourceSelection.same eqR eqV x y
  | remoteRelationship, x, y => RemoteRelationship.same eqR x y
  | aggregate, x, y => Aggregate.same eqV x y
  | operand, x, y => Operand.same eqV x y
  | count, x, y => Count.same eqV x y
  | columnField, x, y => ColumnField.same eqV x y
  | scalarCall, x, y => ScalarCall.same eqV x y
  | redaction, x, y => Redaction.same eqV x y
  | predicate, x, y => Predicate.same eqV x y
  | predicates, x, y => Predicate.sameAll eqV x y
  | comparison, x, y => Comparison.same eqV x y
  | argument, x, y => Argument.same eqV x y
  | arguments, x, y => Arguments.same eqV x y
  | orderBy, x, y => NonEmpty.same (OrderItem.same eqV) x y
  | orderItem, x, y => OrderItem.same eqV x y
  | orderTerm, x, y => OrderTerm.same eqV x y
  | orderAggregate, x, y => OrderAggregate.same eqV x y
  | computedOrder, x, y => ComputedOrder.same eqV x y
  | source, x, y => Source.same eqV x y
  | permission, x, y => RowPermission.same eqV x y
  | args, x, y => SelectArgs.same eqV x y
  | page, x, y => Page.same eqV x y
  | pageBound, x, y => PageBound.same eqV x y
  | streamArgs, x, y => StreamArgs.same eqV x y
  | selectFrame field, x, y => SelectFrame.same (same eqR eqV field) eqV x y
  | relationFrame inner, x, y => RelationFrame.same (same eqR eqV inner) x y
  | orderFrame term, x, y => OrderFrame.same (same eqR eqV term) x y
  | list item, xs, ys => sameList (same eqR eqV item) xs ys
  | optional item, x, y => sameOption (same eqR eqV item) x y
  | nonEmpty item, xs, ys => NonEmpty.same (same eqR eqV item) xs ys
  | map _ item, xs, ys => OrderedMap.same (same eqR eqV item) xs ys

/-- The document form of a tree. -/
def toJson [HasJson R] [HasJson V] : (kind : TreeKind) → kind.Tree b R V → Json
  | part _, tree => Selection.toJson tree
  | fieldMap _, tree => (Selection.ofEntries tree.entries).toJson
  | stream, tree => json (α := Stream b R V) tree
  | sourceSelect, tree => json (α := SourceSelect b R V) tree
  | sourceSelection, tree => json (α := SourceSelection b R V) tree
  | remoteRelationship, tree => json (α := RemoteRelationship b R) tree
  | aggregate, tree => json (α := Aggregate b V) tree
  | operand, tree => json (α := Operand b V) tree
  | count, tree => json (α := Count b V) tree
  | columnField, tree => json (α := ColumnField b V) tree
  | scalarCall, tree => json (α := ScalarCall b V) tree
  | redaction, tree => json (α := Redaction b V) tree
  | predicate, tree => json (α := Predicate b V) tree
  | predicates, tree => json (α := List (Predicate b V)) tree
  | comparison, tree => json (α := Comparison V) tree
  | argument, tree => json (α := Argument V) tree
  | arguments, tree => json (α := Arguments V) tree
  | orderBy, tree => json (α := NonEmpty (OrderItem b V)) tree
  | orderItem, tree => json (α := OrderItem b V) tree
  | orderTerm, tree => json (α := OrderTerm b V) tree
  | orderAggregate, tree => json (α := OrderAggregate b V) tree
  | computedOrder, tree => json (α := ComputedOrder b V) tree
  | source, tree => json (α := Source b V) tree
  | permission, tree => json (α := RowPermission b V) tree
  | args, tree => json (α := SelectArgs b V) tree
  | page, tree => .object (Page.members (b := b) tree)
  | pageBound, tree => json (α := PageBound b V) tree
  | streamArgs, tree => json (α := StreamArgs b V) tree
  | selectFrame field, tree =>
      haveI : HasJson (field.Tree b R V) := ⟨toJson field⟩
      json (α := SelectFrame b (field.Tree b R V) V) tree
  | relationFrame inner, tree =>
      haveI : HasJson (inner.Tree b R V) := ⟨toJson inner⟩
      json (α := RelationFrame (inner.Tree b R V)) tree
  | orderFrame term, tree =>
      haveI : HasJson (term.Tree b R V) := ⟨toJson term⟩
      json (α := OrderFrame (term.Tree b R V)) tree
  | list item, trees =>
      haveI : HasJson (item.Tree b R V) := ⟨toJson item⟩
      json (α := List (item.Tree b R V)) trees
  | optional item, tree =>
      haveI : HasJson (item.Tree b R V) := ⟨toJson item⟩
      json (α := Option (item.Tree b R V)) tree
  | nonEmpty item, trees =>
      haveI : HasJson (item.Tree b R V) := ⟨toJson item⟩
      json (α := NonEmpty (item.Tree b R V)) trees
  | map key item, trees =>
      haveI : HasJson (item.Tree b R V) := ⟨toJson item⟩
      json (α := OrderedMap key.Key (item.Tree b R V)) trees

instance [HasJson R] [HasJson V] {kind : TreeKind} : HasJson (kind.Tree b R V) := ⟨kind.toJson⟩

/-- The remote targets of a tree. -/
def remotes (kind : TreeKind) (tree : kind.Tree b R V) : List R :=
  (kind.leaves tree).filterMap Leaf.remote?

/-- The values of a tree. -/
def values (kind : TreeKind) (tree : kind.Tree b R V) : List V :=
  (kind.leaves tree).filterMap Leaf.value?

/-- Applies functions to the remote targets and to the values of a tree. -/
def bimap (f : R → S) (g : V → W) (kind : TreeKind) (tree : kind.Tree b R V) : kind.Tree b S W :=
  Id.run (kind.traverse (fun target => pure (f target)) (fun value => pure (g value)) tree)

end TreeKind

end SelectPlan
