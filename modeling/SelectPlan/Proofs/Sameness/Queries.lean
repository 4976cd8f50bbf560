import SelectPlan.Proofs.Sameness.Values
import SelectPlan.Query.Aggregate
import SelectPlan.Query.Page
import SelectPlan.Query.Source

/-!
Equality of aggregates, orderings, sources, queries and pages: the same three laws for each type,
from those of its parts.
-/

namespace SelectPlan

variable {b : Backend} {V W : Type} {eq : V → V → Bool} {eq' : W → W → Bool} {g : V → Id W}

/-! Aggregates -/

namespace RedactedColumns

variable {xs ys : RedactedColumns b V}

theorem equating (heq : Equating eq) : Equating (same (b := b) eq) :=
  ((Equating.beq.on Prod.fst).and ((Redaction.equating heq).on Prod.snd)).list

theorem paired_values (hsame : xs.same eq ys = true) :
    Paired (fun v w => eq v w = true) xs.values ys.values := by
  refine .of_sameList hsame fun x _ y hitem => ?_
  rw [Bool.and_eq_true] at hitem
  exact Redaction.paired_values hitem.2

theorem same_traverse (hg : Respects eq eq' g) :
    Respects (same (b := b) eq) (same eq') (traverse g) := by
  intro xs ys hsame
  refine sameList_mapA hsame fun x _ y hitem => ?_
  rw [Bool.and_eq_true] at hitem ⊢
  exact ⟨hitem.1, Redaction.same_traverse hg _ _ hitem.2⟩

end RedactedColumns

namespace Count

variable {x y : Count b V}

theorem equating (heq : Equating eq) : Equating (same (b := b) eq) := by
  refine .of_at fun x => ?_
  cases x with
  | star => exact .constant fun y => by cases y <;> simp [same]
  | nonNull columns =>
      refine .form nonNull ((RedactedColumns.equating heq).at columns) fun c y => ?_
      cases y <;> simp [same]
  | distinct columns =>
      refine .form distinct ((RedactedColumns.equating heq).at columns) fun c y => ?_
      cases y <;> simp [same]

theorem paired_values (hsame : x.same eq y = true) :
    Paired (fun v w => eq v w = true) x.values y.values := by
  revert hsame
  fun_cases same eq x y <;> grind [values, Paired.nil, RedactedColumns.paired_values]

theorem same_traverse (hg : Respects eq eq' g) :
    Respects (same (b := b) eq) (same eq') (traverse g) := by
  intro x y
  fun_cases same eq x y <;>
    simp +contextual [traverse, same, RedactedColumns.same_traverse hg _ _]

end Count

namespace Operand

variable {x y : Operand b V}

theorem equating (heq : Equating eq) : Equating (same (b := b) eq) := by
  refine .of_at fun x => ?_
  cases x with
  | column info redaction =>
      refine .form (fun p => column p.1 p.2)
        ((Equating.beq.at info).prod ((Redaction.equating heq).at redaction)) fun p y => ?_
      cases y <;> simp [same]
  | computedField enabled name function arguments type redaction =>
      refine .form (fun p => computedField enabled p.1.1.1.1 p.1.1.1.2 p.1.1.2 p.1.2 p.2)
        (((((Equating.beq.at name).prod (Equating.beq.at function)).prod
          ((Arguments.equating heq).at arguments)).prod (Equating.beq.at type)).prod
            ((Redaction.equating heq).at redaction)) fun p y => ?_
      cases y <;> simp [same]
  | constant text =>
      exact .form constant (Equating.beq.at text) fun t y => by cases y <;> simp [same]

theorem paired_values (hsame : x.same eq y = true) :
    Paired (fun v w => eq v w = true) x.values y.values := by
  revert hsame
  fun_cases same eq x y <;>
    grind [values, Paired.nil, Paired.append, Redaction.paired_values, Arguments.paired_values]

theorem same_traverse (hg : Respects eq eq' g) :
    Respects (same (b := b) eq) (same eq') (traverse g) := by
  intro x y
  fun_cases same eq x y <;>
    simp +contextual [traverse, same, Redaction.same_traverse hg _ _,
      Arguments.same_traverse hg _ _]

end Operand

namespace Aggregate

variable {x y : Aggregate b V}

theorem equating (heq : Equating eq) : Equating (same (b := b) eq) := by
  refine .of_at fun x => ?_
  cases x with
  | count counted =>
      refine .form count ((Count.equating heq).at counted) fun c y => ?_
      cases y <;> simp [same]
  | operator name operands =>
      refine .form (fun p => operator p.1 p.2)
        ((Equating.beq.at name).prod ((Operand.equating heq).map.at operands)) fun p y => ?_
      cases y <;> simp [same]
  | constant text =>
      exact .form constant (Equating.beq.at text) fun t y => by cases y <;> simp [same]

theorem paired_values (hsame : x.same eq y = true) :
    Paired (fun v w => eq v w = true) x.values y.values := by
  revert hsame
  fun_cases same eq x y with
  | case1 x y => exact Count.paired_values
  | case2 name xs other ys =>
      intro hsame
      rw [Bool.and_eq_true] at hsame
      exact (OrderedMap.paired_values_of_same hsame.2).flatMap fun _ _ => Operand.paired_values
  | case3 => exact fun _ => .nil
  | case4 => exact nofun

theorem same_traverse (hg : Respects eq eq' g) :
    Respects (same (b := b) eq) (same eq') (traverse g) := by
  intro x y
  fun_cases same eq x y with
  | case1 x y => exact Count.same_traverse hg x y
  | case2 name xs other ys =>
      intro hsame
      rw [Bool.and_eq_true] at hsame
      simp only [traverse, Id.run_map, same, hsame.1, Bool.true_and]
      exact OrderedMap.same_traverse (Operand.same_traverse hg) xs ys hsame.2
  | case3 => exact id
  | case4 => exact nofun

end Aggregate

/-! Orderings -/

namespace OrderAggregate

variable {x y : OrderAggregate b V}

theorem equating (heq : Equating eq) : Equating (same (b := b) eq) := by
  refine .of_at fun x => ?_
  cases x with
  | count => exact .constant fun y => by cases y <;> simp [same]
  | operator name result column redaction =>
      refine .form (fun p => operator p.1.1.1 p.1.1.2 p.1.2 p.2)
        ((((Equating.beq.at name).prod (Equating.beq.at result)).prod (Equating.beq.at column)).prod
          ((Redaction.equating heq).at redaction)) fun p y => ?_
      cases y <;> simp [same]

theorem paired_values (hsame : x.same eq y = true) :
    Paired (fun v w => eq v w = true) x.values y.values := by
  revert hsame
  fun_cases same eq x y <;> grind [values, Paired.nil, Redaction.paired_values]

theorem same_traverse (hg : Respects eq eq' g) :
    Respects (same (b := b) eq) (same eq') (traverse g) := by
  intro x y
  fun_cases same eq x y <;> simp +contextual [traverse, same, Redaction.same_traverse hg _ _]

end OrderAggregate

namespace ComputedOrder

variable {x y : ComputedOrder b V}

theorem equating (heq : Equating eq) : Equating (same (b := b) eq) := by
  refine .of_at fun x => ?_
  cases x with
  | scalar type redaction =>
      refine .form (fun p => scalar p.1 p.2)
        ((Equating.beq.at type).prod ((Redaction.equating heq).at redaction)) fun p y => ?_
      cases y <;> simp [same]
  | aggregate table filter inner =>
      refine .form (fun p => aggregate p.1.1 p.1.2 p.2)
        (((Equating.beq.at table).prod ((Predicate.equating heq).at filter)).prod
          ((OrderAggregate.equating heq).at inner)) fun p y => ?_
      cases y <;> simp [same]

theorem paired_values (hsame : x.same eq y = true) :
    Paired (fun v w => eq v w = true) x.values y.values := by
  revert hsame
  fun_cases same eq x y <;>
    grind [values, Paired.append, Redaction.paired_values, Predicate.paired_values,
      OrderAggregate.paired_values]

theorem same_traverse (hg : Respects eq eq' g) :
    Respects (same (b := b) eq) (same eq') (traverse g) := by
  intro x y
  fun_cases same eq x y <;>
    simp +contextual [traverse, same, Redaction.same_traverse hg _ _,
      Predicate.same_traverse hg _ _, OrderAggregate.same_traverse hg _ _]

end ComputedOrder

namespace OrderTerm

theorem equatesAt (heq : Equating eq) (x : OrderTerm b V) : EquatesAt (same eq) x := by
  induction x with
  | column info redaction =>
      refine .form (fun p => column p.1 p.2)
        ((Equating.beq.at info).prod ((Redaction.equating heq).at redaction)) fun p y => ?_
      cases y <;> simp [same]
  | objectRelation info filter term ih =>
      refine .form (fun p => objectRelation p.1.1 p.1.2 p.2)
        (((RelationshipInfo.equating.at info).prod ((Predicate.equating heq).at filter)).prod ih)
        fun p y => ?_
      cases y <;> simp [same]
  | arrayAggregate info filter aggregate =>
      refine .form (fun p => arrayAggregate p.1.1 p.1.2 p.2)
        (((RelationshipInfo.equating.at info).prod ((Predicate.equating heq).at filter)).prod
          ((OrderAggregate.equating heq).at aggregate)) fun p y => ?_
      cases y <;> simp [same]
  | computedField enabled name function arguments order =>
      refine .form (fun p => computedField enabled p.1.1.1 p.1.1.2 p.1.2 p.2)
        ((((Equating.beq.at name).prod (Equating.beq.at function)).prod
          ((Arguments.equating heq).at arguments)).prod ((ComputedOrder.equating heq).at order))
        fun p y => ?_
      cases y <;> simp [same]

theorem equating (heq : Equating eq) : Equating (same (b := b) eq) :=
  .of_at (equatesAt heq)

theorem paired_values {x y : OrderTerm b V} (hsame : x.same eq y = true) :
    Paired (fun v w => eq v w = true) x.values y.values := by
  revert hsame
  fun_induction same eq x y <;>
    grind [values, Paired.append, Redaction.paired_values, Predicate.paired_values,
      OrderAggregate.paired_values, Arguments.paired_values, ComputedOrder.paired_values]

theorem same_traverse (hg : Respects eq eq' g) :
    Respects (same (b := b) eq) (same eq') (traverse g) := by
  intro x y
  fun_induction same eq x y <;>
    simp +contextual [traverse, same, Redaction.same_traverse hg _ _,
      Predicate.same_traverse hg _ _, OrderAggregate.same_traverse hg _ _,
      Arguments.same_traverse hg _ _, ComputedOrder.same_traverse hg _ _, *]

end OrderTerm

namespace OrderItem

variable {x y : OrderItem b V}

theorem equating (heq : Equating eq) : Equating (same (b := b) eq) :=
  (((OrderTerm.equating heq).on term).and (Equating.beq.on direction)).and (Equating.beq.on nulls)

theorem paired_values (hsame : x.same eq y = true) :
    Paired (fun v w => eq v w = true) x.values y.values := by
  simp only [same, Bool.and_eq_true] at hsame
  exact OrderTerm.paired_values hsame.1.1

theorem same_traverse (hg : Respects eq eq' g) :
    Respects (same (b := b) eq) (same eq') (traverse g) := by
  intro x y
  simp +contextual [traverse, same, OrderTerm.same_traverse hg _ _]

end OrderItem

/-! Sources and queries -/

namespace Source

variable {x y : Source b V}

theorem equating (heq : Equating eq) : Equating (same (b := b) eq) := by
  refine .of_at fun x => ?_
  cases x with
  | table name => exact .form table (Equating.beq.at name) fun n y => by cases y <;> simp [same]
  | identifier name =>
      exact .form identifier (Equating.beq.at name) fun n y => by cases y <;> simp [same]
  | function name arguments definition =>
      refine .form (fun p => function p.1.1 p.1.2 p.2)
        (((Equating.beq.at name).prod ((Arguments.equating heq).at arguments)).prod
          (Equating.beq.at definition)) fun p y => ?_
      cases y <;> simp [same, @eq_comm _ p.2, and_comm]
  | nativeQuery name arguments =>
      refine .form (fun p => nativeQuery p.1 p.2)
        ((Equating.beq.at name).prod (heq.map.at arguments)) fun p y => ?_
      cases y <;> simp [same]

theorem paired_values (hsame : x.same eq y = true) :
    Paired (fun v w => eq v w = true) x.values y.values := by
  revert hsame
  fun_cases same eq x y <;>
    grind [values, Paired.nil, Arguments.paired_values, OrderedMap.paired_values_of_same]

theorem same_traverse (hg : Respects eq eq' g) :
    Respects (same (b := b) eq) (same eq') (traverse g) := by
  intro x y
  fun_cases same eq x y with
  | case1 => exact id
  | case2 => exact id
  | case3 name xs definition other ys otherDefinition =>
      intro hsame
      simp only [Bool.and_eq_true] at hsame
      simp only [traverse, Id.run_map, same, hsame.1.1, hsame.2, Bool.true_and, Bool.and_true]
      exact Arguments.same_traverse hg xs ys hsame.1.2
  | case4 name xs other ys =>
      intro hsame
      rw [Bool.and_eq_true] at hsame
      simp only [traverse, Id.run_map, same, hsame.1, Bool.true_and]
      exact OrderedMap.same_traverse hg xs ys hsame.2
  | case5 => exact nofun

end Source

namespace RowPermission

variable {x y : RowPermission b V}

theorem equating (heq : Equating eq) : Equating (same (b := b) eq) :=
  ((Predicate.equating heq).on filter).and (Equating.beq.on limit)

theorem paired_values (hsame : x.same eq y = true) :
    Paired (fun v w => eq v w = true) x.values y.values := by
  rw [same, Bool.and_eq_true] at hsame
  exact Predicate.paired_values hsame.1

theorem same_traverse (hg : Respects eq eq' g) :
    Respects (same (b := b) eq) (same eq') (traverse g) := by
  intro x y
  simp +contextual [traverse, same, Predicate.same_traverse hg _ _]

end RowPermission

namespace SelectArgs

variable {x y : SelectArgs b V}

theorem equating (heq : Equating eq) : Equating (same (b := b) eq) :=
  (((((Predicate.equating heq).option.on filter).and
    ((OrderItem.equating heq).nonEmpty.option.on orderBy)).and (Equating.beq.on limit)).and
      (Equating.beq.on offset)).and (Equating.beq.on distinct)

/-- The orderings of arguments that are the same are the same entry by entry. -/
theorem same_orderItems (hsame : x.same eq y = true) :
    sameList (OrderItem.same eq) x.orderItems y.orderItems = true := by
  simp only [same, Bool.and_eq_true] at hsame
  have horder := hsame.1.1.1.2
  unfold orderItems
  revert horder
  cases x.orderBy <;> cases y.orderBy <;>
    simp [sameOption, sameList, NonEmpty.same_eq_toList]

theorem paired_values (hsame : x.same eq y = true) :
    Paired (fun v w => eq v w = true) x.values y.values := by
  have horder := Paired.of_sameList (same_orderItems hsame) fun _ _ _ => OrderItem.paired_values
  simp only [same, Bool.and_eq_true, sameOption_eq_toList] at hsame
  exact (Paired.of_sameList hsame.1.1.1.1 fun _ _ _ => Predicate.paired_values).append horder

theorem same_traverse (hg : Respects eq eq' g) :
    Respects (same (b := b) eq) (same eq') (traverse g) := by
  intro x y hsame
  simp only [same, Bool.and_eq_true] at hsame
  obtain ⟨⟨⟨⟨hfilter, horder⟩, hlimit⟩, hoffset⟩, hdistinct⟩ := hsame
  simp only [traverse, Id.run_seq, Id.run_map, same, hlimit, hoffset, hdistinct, Bool.and_true,
    Bool.and_eq_true]
  exact ⟨sameOption_mapA (Predicate.same_traverse hg) _ _ hfilter,
    sameOption_mapA (NonEmpty.same_traverse (OrderItem.same_traverse hg)) _ _ horder⟩

end SelectArgs

namespace Query

variable {x y : Query b V}

theorem equating (heq : Equating eq) : Equating (same (b := b) eq) :=
  (((((Source.equating heq).on source).and ((RowPermission.equating heq).on permission)).and
    ((SelectArgs.equating heq).on args)).and (Equating.beq.on numbers)).and (Equating.beq.on naming)

theorem paired_values (hsame : x.same eq y = true) :
    Paired (fun v w => eq v w = true) x.values y.values := by
  simp only [same, Bool.and_eq_true] at hsame
  obtain ⟨⟨⟨⟨hsource, hpermission⟩, hargs⟩, -⟩, -⟩ := hsame
  exact ((Source.paired_values hsource).append (RowPermission.paired_values hpermission)).append
    (SelectArgs.paired_values hargs)

theorem same_traverse (hg : Respects eq eq' g) :
    Respects (same (b := b) eq) (same eq') (traverse g) := by
  intro x y
  simp +contextual [traverse, same, Source.same_traverse hg _ _, RowPermission.same_traverse hg _ _,
    SelectArgs.same_traverse hg _ _]

end Query

/-! Pages and streams -/

namespace PageBound

variable {x y : PageBound b V}

theorem equating (heq : Equating eq) : Equating (same (b := b) eq) :=
  ((Equating.beq.on kind).and (heq.on value)).and ((OrderItem.equating .unit).on order)

theorem paired_values (hsame : x.same eq y = true) :
    Paired (fun v w => eq v w = true) x.values y.values := by
  simp only [same, Bool.and_eq_true] at hsame
  exact .single hsame.1.2

theorem same_traverse (hg : Respects eq eq' g) :
    Respects (same (b := b) eq) (same eq') (traverse g) := by
  intro x y
  simp +contextual [traverse, same, hg _ _]

end PageBound

namespace Page

variable {x y : Page b V}

theorem equating (heq : Equating eq) : Equating (same (b := b) eq) :=
  ((Equating.beq.on primaryKey).and ((PageBound.equating heq).nonEmpty.option.on bounds)).and
    (Equating.beq.on slice)

theorem same_boundList (hsame : x.same eq y = true) :
    sameList (PageBound.same eq) x.boundList y.boundList = true := by
  simp only [same, Bool.and_eq_true] at hsame
  have hbounds := hsame.1.2
  unfold boundList
  revert hbounds
  cases x.bounds <;> cases y.bounds <;>
    simp [sameOption, sameList, NonEmpty.same_eq_toList]

theorem paired_values (hsame : x.same eq y = true) :
    Paired (fun v w => eq v w = true) x.values y.values :=
  .of_sameList (same_boundList hsame) fun _ _ _ => PageBound.paired_values

theorem same_traverse (hg : Respects eq eq' g) :
    Respects (same (b := b) eq) (same eq') (traverse g) := by
  intro x y hsame
  simp only [same, Bool.and_eq_true] at hsame
  simp only [traverse, Id.run_map, same, hsame.1.1, hsame.2, Bool.and_true, Bool.true_and]
  exact sameOption_mapA (NonEmpty.same_traverse (PageBound.same_traverse hg)) _ _ hsame.1.2

end Page

end SelectPlan
