import SelectPlan.Proofs.Sameness.Containers
import SelectPlan.Query.Column

/-!
Equality of predicates, columns and calls.  For each type three laws are proved from those of its
parts: its equality is an equivalence if that of values is one; the values of equal ones match; and
a function that respects equality of values makes equal ones of equal ones.
-/

namespace SelectPlan

variable {b : Backend} {V W : Type} {eq : V → V → Bool} {eq' : W → W → Bool} {g : V → Id W}

theorem ColumnMapping.equating : Equating ColumnMapping.same :=
  .map .beq

theorem RelationshipInfo.equating : Equating (RelationshipInfo.same (b := b)) :=
  (((Equating.beq.on name).and (Equating.beq.on kind)).and (ColumnMapping.equating.on mapping)).and
    (Equating.beq.on target)

/-! Conditions on a column -/

namespace Comparison

variable {x y : Comparison V}

theorem equating (heq : Equating eq) : Equating (same eq) := by
  refine .of_at fun x => ?_
  cases x with
  | compare operator value =>
      refine .form (fun p => compare p.1 p.2) ((Equating.beq.at operator).prod (heq.at value))
        fun p y => ?_
      cases y <;> simp [same]
  | oneOf value => exact .form oneOf (heq.at value) fun v y => by cases y <;> simp [same]
  | noneOf value => exact .form noneOf (heq.at value) fun v y => by cases y <;> simp [same]
  | like value => exact .form like (heq.at value) fun v y => by cases y <;> simp [same]
  | isNull expected =>
      exact .form isNull (Equating.beq.at expected) fun e y => by cases y <;> simp [same]
  | compareColumn operator column =>
      refine .form (fun p => compareColumn p.1 p.2)
        ((Equating.beq.at operator).prod (Equating.beq.at column)) fun p y => ?_
      cases y <;> simp [same, @eq_comm _ p.1, @eq_comm _ p.2]
  | custom name argument =>
      refine .form (fun p => custom p.1 p.2) ((Equating.beq.at name).prod (heq.at argument))
        fun p y => ?_
      cases y <;> simp [same]

theorem paired_values (hsame : x.same eq y = true) :
    Paired (fun v w => eq v w = true) x.values y.values := by
  revert hsame
  fun_cases same eq x y <;> grind [values, Paired.single, Paired.nil]

theorem same_traverse (hg : Respects eq eq' g) : Respects (same eq) (same eq') (traverse g) := by
  intro x y
  fun_cases same eq x y <;> simp +contextual [traverse, same, hg _ _]

end Comparison

/-! Predicates -/

namespace Predicate

/-- Induction on predicates in which the items of a list have the property one by one. -/
@[elab_as_elim]
theorem induction {motive : Predicate b V → Prop}
    (all : ∀ items, (∀ item ∈ items, motive item) → motive (all items))
    (any : ∀ items, (∀ item ∈ items, motive item) → motive (any items))
    (not : ∀ item, motive item → motive (not item))
    (someRow : ∀ table filter, motive filter → motive (someRow table filter))
    (column : ∀ info comparisons, motive (column info comparisons))
    (relationship : ∀ info targetFilter filter, motive targetFilter → motive filter →
      motive (relationship info targetFilter filter)) (x : Predicate b V) : motive x :=
  @Predicate.rec b V motive (fun items => ∀ item ∈ items, motive item) all any not someRow column
    relationship nofun (fun _ _ hitem hrest => List.forall_mem_cons.mpr ⟨hitem, hrest⟩) x

theorem sameAll_eq (xs ys : List (Predicate b V)) :
    sameAll eq xs ys = sameList (same eq) xs ys := by
  induction xs generalizing ys with
  | nil => cases ys <;> rfl
  | cons x xs ih => cases ys <;> simp [sameAll, sameList, ih]

theorem valuesOfAll_eq (items : List (Predicate b V)) :
    valuesOfAll items = items.flatMap values := by
  induction items with
  | nil => rfl
  | cons item rest ih => rw [valuesOfAll, ih, List.flatMap_cons]

theorem traverseAll_eq (items : List (Predicate b V)) :
    traverseAll g items = items.mapA (traverse g) := by
  induction items with
  | nil => rfl
  | cons item rest ih => rw [traverseAll, ih, List.mapA]

theorem equatesAt (heq : Equating eq) (x : Predicate b V) : EquatesAt (same eq) x := by
  induction x using induction with
  | all items ih =>
      refine .form all (.list ih) fun items y => ?_
      cases y <;> simp [same, sameAll_eq]
  | any items ih =>
      refine .form any (.list ih) fun items y => ?_
      cases y <;> simp [same, sameAll_eq]
  | not item ih =>
      refine .form not ih fun item y => ?_
      cases y <;> simp [same]
  | someRow table filter ih =>
      refine .form (fun p => someRow p.1 p.2) ((Equating.beq.at table).prod ih) fun p y => ?_
      cases y <;> simp [same]
  | column info comparisons =>
      have hcomparisons := (Comparison.equating heq).list.at comparisons
      have hparts := (Equating.beq.at info).prod hcomparisons
      refine .form (fun p => column p.1 p.2) hparts fun p y => ?_
      cases y <;> simp [same]
  | relationship info targetFilter filter ihTarget ih =>
      have hparts := ((RelationshipInfo.equating.at info).prod ihTarget).prod ih
      refine .form (fun p => relationship p.1.1 p.1.2 p.2) hparts fun p y => ?_
      cases y <;> simp [same]

theorem equating (heq : Equating eq) : Equating (same (b := b) eq) :=
  .of_at (equatesAt heq)

theorem paired_values {x y : Predicate b V} (hsame : x.same eq y = true) :
    Paired (fun v w => eq v w = true) x.values y.values := by
  induction x using induction generalizing y with
  | all items ih =>
      cases y <;> simp only [same, sameAll_eq, Bool.false_eq_true] at hsame
      rw [values, values, valuesOfAll_eq, valuesOfAll_eq]
      exact .of_sameList hsame fun x hx y => ih x hx
  | any items ih =>
      cases y <;> simp only [same, sameAll_eq, Bool.false_eq_true] at hsame
      rw [values, values, valuesOfAll_eq, valuesOfAll_eq]
      exact .of_sameList hsame fun x hx y => ih x hx
  | not item ih =>
      cases y <;> simp only [same, Bool.false_eq_true] at hsame
      rw [values, values]
      exact ih hsame
  | someRow table filter ih =>
      cases y <;> simp only [same, Bool.and_eq_true, Bool.false_eq_true] at hsame
      rw [values, values]
      exact ih hsame.2
  | column info comparisons =>
      cases y <;> simp only [same, Bool.and_eq_true, Bool.false_eq_true] at hsame
      exact .of_sameList hsame.2 fun _ _ _ => Comparison.paired_values
  | relationship info targetFilter filter ihTarget ih =>
      cases y <;> simp only [same, Bool.and_eq_true, Bool.false_eq_true] at hsame
      exact (ihTarget hsame.1.2).append (ih hsame.2)

theorem same_traverse (hg : Respects eq eq' g) :
    Respects (same (b := b) eq) (same eq') (traverse g) := by
  intro x
  induction x using induction with
  | all items ih =>
      intro y hsame
      cases y <;> simp only [same, sameAll_eq, Bool.false_eq_true] at hsame
      simp only [traverse, traverseAll_eq, Id.run_map, same, sameAll_eq]
      exact sameList_mapA hsame ih
  | any items ih =>
      intro y hsame
      cases y <;> simp only [same, sameAll_eq, Bool.false_eq_true] at hsame
      simp only [traverse, traverseAll_eq, Id.run_map, same, sameAll_eq]
      exact sameList_mapA hsame ih
  | not item ih =>
      intro y hsame
      cases y <;> simp only [same, Bool.false_eq_true] at hsame
      simp only [traverse, Id.run_map, same]
      exact ih _ hsame
  | someRow table filter ih =>
      intro y hsame
      cases y <;> simp only [same, Bool.and_eq_true, Bool.false_eq_true] at hsame
      simp only [traverse, Id.run_map, same, hsame.1, Bool.true_and]
      exact ih _ hsame.2
  | column info comparisons =>
      intro y hsame
      cases y <;> simp only [same, Bool.and_eq_true, Bool.false_eq_true] at hsame
      simp only [traverse, Id.run_map, same, hsame.1, Bool.true_and]
      exact sameList_mapA hsame.2 fun x _ => Comparison.same_traverse hg x
  | relationship info targetFilter filter ihTarget ih =>
      intro y hsame
      cases y <;> simp only [same, Bool.and_eq_true, Bool.false_eq_true] at hsame
      simp [traverse, same, hsame.1.1, ihTarget _ hsame.1.2, ih _ hsame.2]

end Predicate

/-! Columns -/

namespace Redaction

variable {x y : Redaction b V}

theorem equating (heq : Equating eq) : Equating (same (b := b) eq) := by
  refine .of_at fun x => ?_
  cases x with
  | none => exact .constant fun y => by cases y <;> simp [same]
  | unlessHolds condition =>
      refine .form unlessHolds ((Predicate.equating heq).at condition) fun c y => ?_
      cases y <;> simp [same]

theorem paired_values (hsame : x.same eq y = true) :
    Paired (fun v w => eq v w = true) x.values y.values := by
  revert hsame
  fun_cases same eq x y <;> grind [values, Paired.nil, Predicate.paired_values]

theorem same_traverse (hg : Respects eq eq' g) :
    Respects (same (b := b) eq) (same eq') (traverse g) := by
  intro x y
  fun_cases same eq x y <;> simp +contextual [traverse, same, Predicate.same_traverse hg _ _]

end Redaction

namespace ColumnField

variable {x y : ColumnField b V}

theorem equating (heq : Equating eq) : Equating (same (b := b) eq) :=
  ((((Equating.beq.on column).and (Equating.beq.on type)).and (Equating.beq.on asText)).and
    (Equating.beq.on path)).and ((Redaction.equating heq).on redaction)

theorem paired_values (hsame : x.same eq y = true) :
    Paired (fun v w => eq v w = true) x.values y.values := by
  rw [same, Bool.and_eq_true] at hsame
  exact Redaction.paired_values hsame.2

theorem same_traverse (hg : Respects eq eq' g) :
    Respects (same (b := b) eq) (same eq') (traverse g) := by
  intro x y
  simp +contextual [traverse, same, Redaction.same_traverse hg _ _]

end ColumnField

/-! Calls -/

namespace Argument

variable {x y : Argument V}

theorem equating (heq : Equating eq) : Equating (same eq) := by
  refine .of_at fun x => ?_
  cases x with
  | tableRow => exact .constant fun y => by cases y <;> simp [same]
  | input value => exact .form input (heq.at value) fun v y => by cases y <;> simp [same]

theorem paired_values (hsame : x.same eq y = true) :
    Paired (fun v w => eq v w = true) x.values y.values := by
  revert hsame
  fun_cases same eq x y <;> grind [values, Paired.single, Paired.nil]

theorem same_traverse (hg : Respects eq eq' g) : Respects (same eq) (same eq') (traverse g) := by
  intro x y
  fun_cases same eq x y <;> simp +contextual [traverse, same, hg _ _]

end Argument

namespace Arguments

variable {x y : Arguments V}

theorem equating (heq : Equating eq) : Equating (same eq) :=
  ((Argument.equating heq).list.on positional).and ((Argument.equating heq).map.on named)

theorem paired_values (hsame : x.same eq y = true) :
    Paired (fun v w => eq v w = true) x.values y.values := by
  rw [same, Bool.and_eq_true] at hsame
  have hpositional := Paired.of_sameList hsame.1 fun _ _ _ => Argument.paired_values
  have hnamed := (OrderedMap.paired_values_of_same hsame.2).flatMap
    fun _ _ => Argument.paired_values
  exact hpositional.append hnamed

theorem same_traverse (hg : Respects eq eq' g) : Respects (same eq) (same eq') (traverse g) := by
  intro x y hsame
  rw [same, Bool.and_eq_true] at hsame ⊢
  exact ⟨sameList_mapA hsame.1 fun x _ => Argument.same_traverse hg x,
    OrderedMap.same_traverse (Argument.same_traverse hg) _ _ hsame.2⟩

end Arguments

namespace ScalarCall

variable {x y : ScalarCall b V}

theorem equating (heq : Equating eq) : Equating (same (b := b) eq) :=
  ((((Equating.beq.on function).and ((Arguments.equating heq).on arguments)).and
    (Equating.beq.on type)).and (Equating.beq.on path)).and ((Redaction.equating heq).on redaction)

theorem paired_values (hsame : x.same eq y = true) :
    Paired (fun v w => eq v w = true) x.values y.values := by
  simp only [same, Bool.and_eq_true] at hsame
  exact (Arguments.paired_values hsame.1.1.1.2).append (Redaction.paired_values hsame.2)

theorem same_traverse (hg : Respects eq eq' g) :
    Respects (same (b := b) eq) (same eq') (traverse g) := by
  intro x y
  simp +contextual [traverse, same, Arguments.same_traverse hg _ _,
    Redaction.same_traverse hg _ _]

end ScalarCall

end SelectPlan
