import Mathlib.Data.List.Induction
import SelectPlan.Query.Predicate

/-!
Conjunction of predicates.  Permission filters are put together with it, so it must mean
conjunction and must not lose an operand.  It does not nest a conjunction that stands on the left,
but nests one that stands on the right; as trees, conjunctions are therefore not associative, and
the laws below are laws of what they mean and of the values they hold.
-/

namespace SelectPlan.Predicate

variable {b : Backend} {V : Type}

/-- What the predicates mean that say something about rows themselves, seen from some row. -/
structure Interpretation (b : Backend) (V : Type) where
  someRow (table : TableName b) (filter : Predicate b V) : Prop
  column (info : ColumnInfo b) (comparisons : List (Comparison V)) : Prop
  relationship (info : RelationshipInfo b) (targetFilter filter : Predicate b V) : Prop

mutual

/-- Whether a predicate holds under an interpretation. -/
def Holds (meaning : Interpretation b V) : Predicate b V → Prop
  | all items => AllHold meaning items
  | any items => SomeHolds meaning items
  | not item => ¬ item.Holds meaning
  | someRow table filter => meaning.someRow table filter
  | column info comparisons => meaning.column info comparisons
  | relationship info targetFilter filter => meaning.relationship info targetFilter filter

/-- Whether all of several predicates hold. -/
def AllHold (meaning : Interpretation b V) : List (Predicate b V) → Prop
  | [] => True
  | item :: rest => item.Holds meaning ∧ AllHold meaning rest

/-- Whether one of several predicates holds. -/
def SomeHolds (meaning : Interpretation b V) : List (Predicate b V) → Prop
  | [] => False
  | item :: rest => item.Holds meaning ∨ SomeHolds meaning rest

end

variable (meaning : Interpretation b V)

theorem allHold_iff {items : List (Predicate b V)} :
    AllHold meaning items ↔ ∀ item ∈ items, item.Holds meaning := by
  induction items with
  | nil => simp [AllHold]
  | cons item rest ih => simp [AllHold, ih]

theorem someHolds_iff {items : List (Predicate b V)} :
    SomeHolds meaning items ↔ ∃ item ∈ items, item.Holds meaning := by
  induction items with
  | nil => simp [SomeHolds]
  | cons item rest ih => simp [SomeHolds, ih]

@[simp]
theorem holds_all {items : List (Predicate b V)} :
    (all items).Holds meaning ↔ ∀ item ∈ items, item.Holds meaning := by
  rw [Holds, allHold_iff]

@[simp]
theorem holds_any {items : List (Predicate b V)} :
    (any items).Holds meaning ↔ ∃ item ∈ items, item.Holds meaning := by
  rw [Holds, someHolds_iff]

theorem valuesOfAll_append (items others : List (Predicate b V)) :
    valuesOfAll (items ++ others) = valuesOfAll items ++ valuesOfAll others := by
  induction items with
  | nil => rfl
  | cons item rest ih => rw [List.cons_append, valuesOfAll, valuesOfAll, ih, List.append_assoc]

/-! Two operands -/

theorem isTrivial_iff {x : Predicate b V} : x.isTrivial = true ↔ x = trivial := by
  unfold trivial
  fun_cases isTrivial x <;> simp_all

theorem and_trivial (x : Predicate b V) : x.and trivial = x :=
  rfl

theorem trivial_and (x : Predicate b V) : trivial.and x = x := by
  unfold and
  split
  · next hx => exact (isTrivial_iff.mp hx).symm
  · rfl

theorem isTrivial_and (x y : Predicate b V) :
    (x.and y).isTrivial = (x.isTrivial && y.isTrivial) := by
  rw [Bool.eq_iff_iff, Bool.and_eq_true]
  fun_cases and x y <;> simp_all [isTrivial_iff, trivial]

/-- A conjunction means that both operands hold. -/
theorem holds_and {x y : Predicate b V} :
    (x.and y).Holds meaning ↔ x.Holds meaning ∧ y.Holds meaning := by
  fun_cases and x y with
  | case1 x y hy =>
      obtain rfl := isTrivial_iff.mp hy
      simp [trivial]
  | case2 x y hy hx =>
      obtain rfl := isTrivial_iff.mp hx
      simp [trivial]
  | case3 items others =>
      rw [holds_all, holds_all, holds_all, List.forall_mem_append]
  | case4 items =>
      rw [holds_all, holds_all, List.forall_mem_append, List.forall_mem_singleton]
  | case5 =>
      rw [holds_all, List.forall_mem_cons, List.forall_mem_singleton]

-- Grouped to the left, the items form one list; grouped to the right, a nested one.
example :
    let never : Predicate b V := any []
    (never.and never).and never = all [never, never, never] ∧
      never.and (never.and never) = all [never, all [never, never]] :=
  ⟨rfl, rfl⟩

/-- A conjunction holds the values of both operands. -/
theorem values_and (x y : Predicate b V) : (x.and y).values = x.values ++ y.values := by
  fun_cases and x y with
  | case1 x y hy =>
      obtain rfl := isTrivial_iff.mp hy
      exact (List.append_nil _).symm
  | case2 x y hy hx =>
      obtain rfl := isTrivial_iff.mp hx
      rfl
  | case3 items others =>
      rw [values, values, values, valuesOfAll_append]
  | case4 items =>
      rw [values, values, valuesOfAll_append, valuesOfAll, valuesOfAll, List.append_nil]
  | case5 =>
      rw [values, valuesOfAll, valuesOfAll, valuesOfAll, List.append_nil]

/-! Any number of operands -/

/-- The condition that all items hold, with no more nodes than it needs. -/
def conjunction : List (Predicate b V) → Predicate b V
  | [] => trivial
  | [item] => item
  | items => all items

/-- One more operand becomes the last item. -/
theorem conjunction_and {items : List (Predicate b V)} {x : Predicate b V}
    (hitems : ∀ item ∈ items, ∀ parts, item ≠ all parts) (hx : ∀ parts, x ≠ all parts) :
    (conjunction items).and x = conjunction (items ++ [x]) := by
  have hsome : ¬ x.isTrivial = true := fun htrivial => hx [] (isTrivial_iff.mp htrivial)
  match items with
  | [] => exact trivial_and x
  | [item] =>
      have hitem : ∀ parts, item ≠ all parts := hitems item List.mem_cons_self
      have hfirst : ¬ item.isTrivial = true := fun htrivial =>
        hitem [] (isTrivial_iff.mp htrivial)
      change item.and x = all [item, x]
      rw [and, if_neg hsome, if_neg hfirst]
      · exact hitem
      · exact fun _ _ heq _ => hitem _ heq
  | item :: other :: rest =>
      change (all (item :: other :: rest)).and x = all (item :: other :: rest ++ [x])
      rw [and, if_neg hsome, if_neg (by simp [isTrivial])]
      exact hx

/-- Joining the items one by one nests none of them. -/
theorem foldl_and {items : List (Predicate b V)}
    (hitems : ∀ item ∈ items, ∀ parts, item ≠ all parts) :
    items.foldl and trivial = conjunction items := by
  induction items using List.reverseRecOn with
  | nil => rfl
  | append_singleton items x ih =>
      rw [List.forall_mem_append, List.forall_mem_singleton] at hitems
      rw [List.foldl_append, ih hitems.1]
      exact conjunction_and hitems.1 hitems.2

/-- Joining predicates is conjunction.  The result holds just when both operands do, so that
neither grouping nor order matters to what it means.  It keeps the values of both in order, is
trivial only if both are, and a trivial operand leaves the other one as it is.  Joined one by one,
items that are no conjunctions themselves become the items of a single conjunction. -/
theorem and_is_conjunction :
    (∀ (meaning : Interpretation b V) (x y z : Predicate b V),
      ((x.and y).Holds meaning ↔ x.Holds meaning ∧ y.Holds meaning) ∧
      (((x.and y).and z).Holds meaning ↔ (x.and (y.and z)).Holds meaning) ∧
      ((x.and y).Holds meaning ↔ (y.and x).Holds meaning)) ∧
    (∀ x y : Predicate b V,
      (x.and y).values = x.values ++ y.values ∧
      ((x.and y).isTrivial = true ↔ x.isTrivial = true ∧ y.isTrivial = true)) ∧
    (∀ x : Predicate b V, trivial.and x = x ∧ x.and trivial = x) ∧
    (∀ items : List (Predicate b V), (∀ item ∈ items, ∀ parts, item ≠ all parts) →
      items.foldl and trivial = conjunction items) := by
  refine ⟨fun meaning x y z => ⟨holds_and meaning, ?_, ?_⟩, fun x y => ⟨values_and x y, ?_⟩,
    fun x => ⟨trivial_and x, and_trivial x⟩, fun items => foldl_and⟩
  · simp only [holds_and, and_assoc]
  · rw [holds_and, holds_and, and_comm]
  · rw [isTrivial_and, Bool.and_eq_true]

theorem and_is_conjunction_published :
    let column (name : String) : ColumnInfo .postgres :=
      { column := ⟨name⟩, type := .enumReference name }
    let published : Predicate .postgres String := onColumn (column "published") (.equals "yes")
    let readable : Predicate .postgres String :=
      any [onColumn (column "language") (.equals "la"),
        onColumn (column "translator") (.isNull false)]
    let visible : Predicate .postgres String := not (onColumn (column "hidden") (.equals "yes"))
    (∀ item ∈ [published, readable, visible], ∀ parts, item ≠ all parts) ∧
    [published, readable, visible].foldl and trivial = all [published, readable, visible] ∧
    (published.and (readable.and visible)).values = ["yes", "la", "yes"] := by
  intro column published readable visible
  obtain ⟨-, hparts, -, hfold⟩ := and_is_conjunction (b := .postgres) (V := String)
  have hitems : ∀ item ∈ [published, readable, visible], ∀ parts, item ≠ all parts := by
    simp [published, readable, visible, onColumn]
  refine ⟨hitems, hfold _ hitems, ?_⟩
  rw [(hparts _ _).1, (hparts _ _).1]
  rfl

end SelectPlan.Predicate
