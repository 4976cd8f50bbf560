import SelectPlan.Proofs.Sameness.Trees
import SelectPlan.Selection.Summary

/-!
Equality of trees of every kind.  It is an equivalence if the equalities of leaves are, and equal
trees have matching leaves.  What is put together from the leaves in any order, and what respects
the equality of leaves, is therefore the same for equal trees.
-/

namespace SelectPlan

variable {b : Backend} {M R S V W : Type} {eqR : R → R → Bool} {eqV : V → V → Bool}
  {eqS : S → S → Bool} {eqW : W → W → Bool}

namespace TreeKind

/-- Maps of fields are compared as maps of trees are. -/
theorem fieldMap_same_eq {vocabulary : Vocabulary} (x y : FieldMap b R V vocabulary) :
    (fieldMap vocabulary).same eqR eqV x y = OrderedMap.same (Selection.same eqR eqV) x y := by
  refine (Selection.fields_same_eq _ _).trans ?_
  rw [Selection.toMap_ofEntries, Selection.toMap_ofEntries]

theorem equating (heqR : Equating eqR) (heqV : Equating eqV) (kind : TreeKind) :
    Equating fun x y : kind.Tree b R V => kind.same eqR eqV x y := by
  induction kind with
  | part part => exact Selection.equating heqR heqV
  | fieldMap vocabulary =>
      simp only [fieldMap_same_eq]
      exact (Selection.equating heqR heqV).map
  | stream => exact Stream.equating heqR heqV
  | sourceSelect => exact SourceSelect.equating heqR heqV
  | sourceSelection => exact SourceSelection.equating heqR heqV
  | remoteRelationship => exact RemoteRelationship.equating heqR
  | aggregate => exact Aggregate.equating heqV
  | operand => exact Operand.equating heqV
  | count => exact Count.equating heqV
  | columnField => exact ColumnField.equating heqV
  | scalarCall => exact ScalarCall.equating heqV
  | redaction => exact Redaction.equating heqV
  | predicate => exact Predicate.equating heqV
  | predicates =>
      simp only [same, Predicate.sameAll_eq]
      exact (Predicate.equating heqV).list
  | comparison => exact Comparison.equating heqV
  | argument => exact Argument.equating heqV
  | arguments => exact Arguments.equating heqV
  | orderBy => exact (OrderItem.equating heqV).nonEmpty
  | orderItem => exact OrderItem.equating heqV
  | orderTerm => exact OrderTerm.equating heqV
  | orderAggregate => exact OrderAggregate.equating heqV
  | computedOrder => exact ComputedOrder.equating heqV
  | source => exact Source.equating heqV
  | permission => exact RowPermission.equating heqV
  | args => exact SelectArgs.equating heqV
  | page => exact Page.equating heqV
  | pageBound => exact PageBound.equating heqV
  | streamArgs => exact StreamArgs.equating heqV
  | selectFrame field ih => exact SelectFrame.equating ih heqV
  | relationFrame inner ih => exact RelationFrame.equating ih
  | orderFrame term ih => exact OrderFrame.equating ih
  | list item ih => exact ih.list
  | optional item ih => exact ih.option
  | nonEmpty item ih => exact ih.nonEmpty
  | map key item ih => exact ih.map

theorem paired_leaves (kind : TreeKind) {x y : kind.Tree b R V}
    (hsame : kind.same eqR eqV x y = true) :
    Paired (Leaf.Alike eqR eqV) (kind.leaves x) (kind.leaves y) := by
  induction kind with
  | part part => exact (Selection.same_iff_alike.mp hsame).paired_leaves
  | fieldMap vocabulary => exact Selection.paired_leaves_of_same hsame
  | stream => exact Stream.paired_leaves hsame
  | sourceSelect => exact SourceSelect.paired_leaves hsame
  | sourceSelection => exact SourceSelection.paired_leaves hsame
  | remoteRelationship => exact .single (.remote (Bool.and_eq_true_iff.mp hsame).2)
  | aggregate => exact .ofValues (Aggregate.paired_values hsame)
  | operand => exact .ofValues (Operand.paired_values hsame)
  | count => exact .ofValues (Count.paired_values hsame)
  | columnField => exact .ofValues (ColumnField.paired_values hsame)
  | scalarCall => exact .ofValues (ScalarCall.paired_values hsame)
  | redaction => exact .ofValues (Redaction.paired_values hsame)
  | predicate => exact .ofValues (Predicate.paired_values hsame)
  | predicates =>
      refine .ofValues ?_
      rw [Predicate.valuesOfAll_eq, Predicate.valuesOfAll_eq]
      exact .of_sameList ((Predicate.sameAll_eq _ _).symm.trans hsame)
        fun _ _ _ => Predicate.paired_values
  | comparison => exact .ofValues (Comparison.paired_values hsame)
  | argument => exact .ofValues (Argument.paired_values hsame)
  | arguments => exact .ofValues (Arguments.paired_values hsame)
  | orderBy => exact .ofValues (.of_sameList hsame fun _ _ _ => OrderItem.paired_values)
  | orderItem => exact .ofValues (OrderItem.paired_values hsame)
  | orderTerm => exact .ofValues (OrderTerm.paired_values hsame)
  | orderAggregate => exact .ofValues (OrderAggregate.paired_values hsame)
  | computedOrder => exact .ofValues (ComputedOrder.paired_values hsame)
  | source => exact .ofValues (Source.paired_values hsame)
  | permission => exact .ofValues (RowPermission.paired_values hsame)
  | args => exact .ofValues (SelectArgs.paired_values hsame)
  | page => exact .ofValues (Page.paired_values hsame)
  | pageBound => exact .ofValues (PageBound.paired_values hsame)
  | streamArgs => exact .ofValues (StreamArgs.paired_values hsame)
  | selectFrame field ih => exact SelectFrame.paired_leaves (fun _ _ => ih) hsame
  | relationFrame inner ih => exact ih (Bool.and_eq_true_iff.mp hsame).2
  | orderFrame term ih =>
      simp only [same, OrderFrame.same, Bool.and_eq_true] at hsame
      exact ih hsame.1.1
  | list item ih => exact .of_sameList hsame fun _ _ _ => ih
  | optional item ih =>
      exact .of_sameList ((sameOption_eq_toList _ _).symm.trans hsame) fun _ _ _ => ih
  | nonEmpty item ih => exact .of_sameList hsame fun _ _ _ => ih
  | map key item ih => exact (OrderedMap.paired_values_of_same hsame).flatMap fun _ _ => ih

theorem same_traverse {f : R → Id S} {g : V → Id W} (hf : Respects eqR eqS f)
    (hg : Respects eqV eqW g) (kind : TreeKind) :
    Respects (kind.same (b := b) eqR eqV) (kind.same eqS eqW) (kind.traverse f g) := by
  induction kind with
  | part part =>
      intro x y hsame
      exact Selection.same_of_alike ((Selection.same_iff_alike.mp hsame).traverse hf hg)
  | fieldMap vocabulary =>
      intro x y hsame
      have hfields := Selection.fields_same_traverse hf hg hsame
      simp only [same, traverse, Id.run_map, Selection.ofEntries_toEntries]
      exact hfields
  | stream => exact Stream.same_traverse hf hg
  | sourceSelect => exact SourceSelect.same_traverse hf hg
  | sourceSelection => exact SourceSelection.same_traverse hf hg
  | remoteRelationship => exact RemoteRelationship.same_traverse hf
  | aggregate => exact Aggregate.same_traverse hg
  | operand => exact Operand.same_traverse hg
  | count => exact Count.same_traverse hg
  | columnField => exact ColumnField.same_traverse hg
  | scalarCall => exact ScalarCall.same_traverse hg
  | redaction => exact Redaction.same_traverse hg
  | predicate => exact Predicate.same_traverse hg
  | predicates =>
      intro xs ys hsame
      simp only [same, traverse, Predicate.sameAll_eq, Predicate.traverseAll_eq] at hsame ⊢
      exact sameList_mapA hsame fun x _ => Predicate.same_traverse hg x
  | comparison => exact Comparison.same_traverse hg
  | argument => exact Argument.same_traverse hg
  | arguments => exact Arguments.same_traverse hg
  | orderBy => exact NonEmpty.same_traverse (OrderItem.same_traverse hg)
  | orderItem => exact OrderItem.same_traverse hg
  | orderTerm => exact OrderTerm.same_traverse hg
  | orderAggregate => exact OrderAggregate.same_traverse hg
  | computedOrder => exact ComputedOrder.same_traverse hg
  | source => exact Source.same_traverse hg
  | permission => exact RowPermission.same_traverse hg
  | args => exact SelectArgs.same_traverse hg
  | page => exact Page.same_traverse hg
  | pageBound => exact PageBound.same_traverse hg
  | streamArgs => exact StreamArgs.same_traverse hg
  | selectFrame field ih => exact SelectFrame.same_traverse ih hg
  | relationFrame inner ih =>
      intro x y hsame
      rw [same, RelationFrame.same, Bool.and_eq_true] at hsame ⊢
      exact ⟨hsame.1, ih _ _ hsame.2⟩
  | orderFrame term ih =>
      intro x y hsame
      simp only [same, OrderFrame.same, Bool.and_eq_true] at hsame ⊢
      exact ⟨⟨ih _ _ hsame.1.1, hsame.1.2⟩, hsame.2⟩
  | list item ih => exact fun _ _ hsame => sameList_mapA hsame fun x _ => ih x
  | optional item ih => exact sameOption_mapA ih
  | nonEmpty item ih => exact NonEmpty.same_traverse ih
  | map key item ih => exact OrderedMap.same_traverse ih

/-! What equal trees have in common -/

theorem paired_values {kind : TreeKind} {x y : kind.Tree b R V}
    (hsame : kind.same eqR eqV x y = true) :
    Paired (fun v w => eqV v w = true) (kind.values x) (kind.values y) := by
  refine (kind.paired_leaves hsame).filterMap fun _ _ hleaf => ?_
  cases hleaf with
  | remote _ => exact .none
  | value hvalue => exact .some hvalue

theorem paired_remotes {kind : TreeKind} {x y : kind.Tree b R V}
    (hsame : kind.same eqR eqV x y = true) :
    Paired (fun r s => eqR r s = true) (kind.remotes x) (kind.remotes y) := by
  refine (kind.paired_leaves hsame).filterMap fun _ _ hleaf => ?_
  cases hleaf with
  | remote htarget => exact .some htarget
  | value _ => exact .none

end TreeKind

/-- Summaries that do not depend on how their parts are grouped or ordered. -/
class CommutativeSummary (M : Type) [Summary M] : Prop where
  combine_assoc (x y z : M) :
    Summary.combine (Summary.combine x y) z = Summary.combine x (Summary.combine y z)
  combine_comm (x y : M) : Summary.combine x y = Summary.combine y x
  empty_combine (x : M) : Summary.combine Summary.empty x = x

instance : CommutativeSummary Nat := ⟨Nat.add_assoc, Nat.add_comm, Nat.zero_add⟩

theorem CommutativeSummary.combine_right_comm [Summary M] [CommutativeSummary M] (x y z : M) :
    Summary.combine (Summary.combine x y) z = Summary.combine (Summary.combine x z) y := by
  rw [combine_assoc, combine_comm y, ← combine_assoc]

namespace TreeKind

/-- Leaves that match have the same summary in any order. -/
theorem summarize_eq_of_same [Summary M] [CommutativeSummary M] {f : R → M} {g : V → M}
    (hf : ∀ r s, eqR r s = true → f r = f s) (hg : ∀ v w, eqV v w = true → g v = g w)
    {kind : TreeKind} {x y : kind.Tree b R V} (hsame : kind.same eqR eqV x y = true) :
    kind.summarize f g x = kind.summarize f g y := by
  rw [summarize, summarize]
  refine (kind.paired_leaves hsame).foldl_eq ?_ ?_ Summary.empty
  · intro summary leaf other hleaf
    refine congrArg (Summary.combine summary) ?_
    cases hleaf with
    | remote htarget => exact hf _ _ htarget
    | value hvalue => exact hg _ _ hvalue
  · intro summary leaf other
    exact CommutativeSummary.combine_right_comm _ _ _

theorem same_bimap {f : R → S} {g : V → W} (hf : ∀ r s, eqR r s = true → eqS (f r) (f s) = true)
    (hg : ∀ v w, eqV v w = true → eqW (g v) (g w) = true) {kind : TreeKind} {x y : kind.Tree b R V}
    (hsame : kind.same eqR eqV x y = true) :
    kind.same eqS eqW (kind.bimap f g x) (kind.bimap f g y) = true :=
  same_traverse hf hg kind x y hsame

/-- Equality of trees is an equivalence if the equalities of remote targets and of values are.
Equal trees hold the same values and the same remote targets in some order, so that a summary in
which order does not matter is the same for both, and functions that respect equality make equal
trees of them. -/
theorem same_up_to_order (heqR : Equating eqR) (heqV : Equating eqV) (kind : TreeKind) :
    (Equivalence fun x y : kind.Tree b R V => kind.same eqR eqV x y = true) ∧
    ∀ x y : kind.Tree b R V, kind.same eqR eqV x y = true →
      Paired (fun v w => eqV v w = true) (kind.values x) (kind.values y) ∧
      Paired (fun r s => eqR r s = true) (kind.remotes x) (kind.remotes y) ∧
      (∀ (M : Type) [Summary M] [CommutativeSummary M] (f : R → M) (g : V → M),
        (∀ r s, eqR r s = true → f r = f s) → (∀ v w, eqV v w = true → g v = g w) →
        kind.summarize f g x = kind.summarize f g y) ∧
      ∀ (S W : Type) (eqS : S → S → Bool) (eqW : W → W → Bool) (f : R → S) (g : V → W),
        (∀ r s, eqR r s = true → eqS (f r) (f s) = true) →
        (∀ v w, eqV v w = true → eqW (g v) (g w) = true) →
        kind.same eqS eqW (kind.bimap f g x) (kind.bimap f g y) = true := by
  refine ⟨equating heqR heqV kind, fun x y hsame => ?_⟩
  refine ⟨paired_values hsame, paired_remotes hsame, ?_, ?_⟩
  · intro M _ _ f g hf hg
    exact summarize_eq_of_same hf hg hsame
  · intro S W eqS eqW f g hf hg
    exact same_bimap hf hg hsame

/-- The name of a remote target, or the target itself. -/
abbrev NamedTarget := TargetOrName (NestedTarget Unprepared 0)

/-- Published books of some years, joined to what has the given names. -/
def booksBetween (fields : List String) (years : List (String × Int64)) :
    Select .postgres NamedTarget (Unprepared .postgres) :=
  let remote (name : String) : FieldName × Field .postgres NamedTarget (Unprepared .postgres) :=
    (⟨name⟩, .remote { joinFields := ∅, target := .name name })
  .ofFields (.ofList (fields.map remote)) {
    source := .nativeQuery ⟨"books"⟩ (.ofList (years.map fun (name, year) =>
      (name, .literal (.int year))))
    permission := ⟨.onColumn { column := ⟨"published"⟩, type := .enumReference "flag" }
      (.equals (.literal (.text "yes"))), none⟩ }

theorem same_up_to_order_booksBetween :
    let kind := TreeKind.part (.select .row)
    let eqR : NamedTarget → NamedTarget → Bool :=
      TargetOrName.same (NestedTarget.same fun _ => (· == ·))
    let books := booksBetween ["readers", "reviews"] [("from", 1900), ("to", 1999)]
    let reordered := booksBetween ["reviews", "readers"] [("to", 1999), ("from", 1900)]
    (kind.same eqR (· == ·) books reordered = true ∧
      kind.same eqR (· == ·) reordered books = true) ∧
    (kind.values books ≠ kind.values reordered ∧
      (kind.values books).Perm (kind.values reordered)) ∧
    kind.summarize (fun _ => 1) (fun _ => 10) books =
      kind.summarize (fun _ => 1) (fun _ => 10) reordered := by
  intro kind eqR books reordered
  have hvalues : Equating fun v w : Unprepared .postgres => v == w := .beq
  have hremotes : Equating eqR := TargetOrName.equating (NestedTarget.equating (fun _ => .beq) 0)
  have hsame : kind.same eqR (· == ·) books reordered = true := rfl
  obtain ⟨hequating, hcommon⟩ := same_up_to_order hremotes hvalues kind (b := .postgres)
  obtain ⟨hpaired, -, hsummary, -⟩ := hcommon books reordered hsame
  refine ⟨⟨hsame, hequating.symm hsame⟩, ⟨by decide, ?_⟩, ?_⟩
  · exact Paired.perm (hpaired.imp fun _ _ => beq_iff_eq.mp)
  · exact hsummary Nat _ _ (fun _ _ _ => rfl) fun _ _ _ => rfl

end TreeKind

end SelectPlan
