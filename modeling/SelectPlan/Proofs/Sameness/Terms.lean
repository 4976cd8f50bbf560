import Mathlib.Tactic.MkIffOfInductiveProp
import SelectPlan.Proofs.Sameness.Values
import SelectPlan.Proofs.Traversal.Correspondence
import SelectPlan.Proofs.Traversal.Values

/-!
Terms that rows are ordered by, compared without their values.  Two terms match if they go through
the same relationships to the same column, aggregate or computed field, under conditions of the same
form; the entries of a mapping and arguments given by name may stand in any order.  The relations
below say so form by form.  They agree with the comparison of a term without values with one from
which the values are taken.
-/

namespace SelectPlan

variable {A B K : Type} {b : Backend} {V W : Type}

/-! What it is to match -/

/-- The same keys in any order, and related values under them. -/
structure OrderedMap.Matches (rel : A → B → Prop) (xs : OrderedMap K A) (ys : OrderedMap K B) :
    Prop where
  keys : xs.keys.Perm ys.keys
  values : ∀ key x y, (key, x) ∈ xs.toList → (key, y) ∈ ys.toList → rel x y

/-- The same relationship, its mapping in any order. -/
structure RelationshipInfo.Matches (x y : RelationshipInfo b) : Prop where
  name : x.name = y.name
  kind : x.kind = y.kind
  mapping : x.mapping.Matches (· = ·) y.mapping
  target : x.target = y.target

/-- The same comparison, whatever it compares with. -/
def Comparison.Matches : Comparison V → Comparison W → Prop :=
  Comparison.Corresponds fun _ _ => True

/-- The same condition, whatever its values. -/
inductive Predicate.Matches : Predicate b V → Predicate b W → Prop
  | all {xs : List (Predicate b V)} {ys : List (Predicate b W)}
      (items : List.Forall₂ Matches xs ys) : Matches (.all xs) (.all ys)
  | any {xs : List (Predicate b V)} {ys : List (Predicate b W)}
      (items : List.Forall₂ Matches xs ys) : Matches (.any xs) (.any ys)
  | not {x : Predicate b V} {y : Predicate b W} (item : Matches x y) : Matches (.not x) (.not y)
  | someRow {table : TableName b} {x : Predicate b V} {y : Predicate b W}
      (filter : Matches x y) : Matches (.someRow table x) (.someRow table y)
  | column {info : ColumnInfo b} {xs : List (Comparison V)} {ys : List (Comparison W)}
      (comparisons : List.Forall₂ Comparison.Matches xs ys) :
      Matches (.column info xs) (.column info ys)
  | relationship {p q : RelationshipInfo b} {x z : Predicate b V} {y w : Predicate b W}
      (info : p.Matches q) (targetFilter : Matches x y) (filter : Matches z w) :
      Matches (.relationship p x z) (.relationship q y w)

/-- Hidden on matching conditions, or never. -/
inductive Redaction.Matches : Redaction b V → Redaction b W → Prop
  | none : Matches .none .none
  | unlessHolds {x : Predicate b V} {y : Predicate b W} (condition : x.Matches y) :
      Matches (.unlessHolds x) (.unlessHolds y)

/-- The row of the table on both sides, or a value on both sides. -/
def Argument.Matches : Argument V → Argument W → Prop :=
  Argument.Corresponds fun _ _ => True

/-- Matching arguments by position, and under the same names in any order. -/
structure Arguments.Matches (xs : Arguments V) (ys : Arguments W) : Prop where
  positional : List.Forall₂ Argument.Matches xs.positional ys.positional
  named : xs.named.Matches Argument.Matches ys.named

/-- The same aggregate of the same column. -/
inductive OrderAggregate.Matches : OrderAggregate b V → OrderAggregate b W → Prop
  | count : Matches .count .count
  | operator {name : String} {result : ColumnType b} {column : ColumnInfo b}
      {x : Redaction b V} {y : Redaction b W} (redaction : x.Matches y) :
      Matches (.operator name result column x) (.operator name result column y)

/-- The same scalar, or the same aggregate of the same table. -/
inductive ComputedOrder.Matches : ComputedOrder b V → ComputedOrder b W → Prop
  | scalar {type : ScalarType b} {x : Redaction b V} {y : Redaction b W}
      (redaction : x.Matches y) : Matches (.scalar type x) (.scalar type y)
  | aggregate {table : TableName b} {x : Predicate b V} {y : Predicate b W}
      {k : OrderAggregate b V} {l : OrderAggregate b W} (filter : x.Matches y)
      (aggregate : k.Matches l) : Matches (.aggregate table x k) (.aggregate table y l)

/-- A term through the same relationships to the same column, aggregate or computed field. -/
inductive OrderTerm.Matches : OrderTerm b V → OrderTerm b W → Prop
  | column {info : ColumnInfo b} {x : Redaction b V} {y : Redaction b W}
      (redaction : x.Matches y) : Matches (.column info x) (.column info y)
  | objectRelation {p q : RelationshipInfo b} {x : Predicate b V} {y : Predicate b W}
      {s : OrderTerm b V} {t : OrderTerm b W} (info : p.Matches q) (filter : x.Matches y)
      (term : Matches s t) : Matches (.objectRelation p x s) (.objectRelation q y t)
  | arrayAggregate {p q : RelationshipInfo b} {x : Predicate b V} {y : Predicate b W}
      {k : OrderAggregate b V} {l : OrderAggregate b W} (info : p.Matches q)
      (filter : x.Matches y) (aggregate : k.Matches l) :
      Matches (.arrayAggregate p x k) (.arrayAggregate q y l)
  | computedField {enabled : b.capabilities.computedFields = true} {name : ComputedFieldName}
      {function : FunctionName b} {xs : Arguments V} {ys : Arguments W} {k : ComputedOrder b V}
      {l : ComputedOrder b W} (arguments : xs.Matches ys) (order : k.Matches l) :
      Matches (.computedField enabled name function xs k)
        (.computedField enabled name function ys l)

attribute [mk_iff] Comparison.Corresponds Predicate.Matches Redaction.Matches Argument.Corresponds
  OrderAggregate.Matches ComputedOrder.Matches OrderTerm.Matches

/-! Comparison without values -/

theorem sameList_map_iff {eq : A → A → Bool} {rel : A → B → Prop} {f : B → A} {xs : List A}
    {ys : List B} (hitem : ∀ x ∈ xs, ∀ y, eq x (f y) = true ↔ rel x y) :
    sameList eq xs (ys.map f) = true ↔ List.Forall₂ rel xs ys := by
  induction xs generalizing ys with
  | nil => cases ys <;> simp [sameList]
  | cons x xs ih =>
      rw [List.forall_mem_cons] at hitem
      cases ys with
      | nil => simp [sameList]
      | cons y ys =>
          rw [List.map_cons, sameList, Bool.and_eq_true, hitem.1, ih hitem.2, List.forall₂_cons]

theorem OrderedMap.same_iff_matches [DecidableEq K] {eq : A → A → Bool} {rel : A → A → Prop}
    {xs ys : OrderedMap K A} (hvalue : ∀ x y, eq x y = true ↔ rel x y) :
    xs.same eq ys = true ↔ xs.Matches rel ys := by
  simp only [same_iff_keys, find?_eq_some_iff, hvalue]
  exact ⟨fun ⟨hkeys, hvalues⟩ => ⟨hkeys, hvalues⟩, fun ⟨hkeys, hvalues⟩ => ⟨hkeys, hvalues⟩⟩

theorem OrderedMap.matches_map_iff {rel : A → A → Prop} {f : B → A} {xs : OrderedMap K A}
    {ys : OrderedMap K B} : xs.Matches rel (ys.map f) ↔ xs.Matches (fun x y => rel x (f y)) ys := by
  constructor
  · rintro ⟨hkeys, hvalues⟩
    refine ⟨hkeys, fun key x y hx hy => hvalues key x (f y) hx ?_⟩
    rw [toList_map]
    exact List.mem_map_of_mem (f := fun entry : K × B => (entry.1, f entry.2)) hy
  · rintro ⟨hkeys, hvalues⟩
    refine ⟨hkeys, fun key x y hx hy => ?_⟩
    rw [toList_map] at hy
    obtain ⟨entry, hentry, heq⟩ := List.mem_map.mp hy
    cases heq
    exact hvalues _ _ _ hx hentry

theorem RelationshipInfo.same_iff {x y : RelationshipInfo b} :
    x.same y = true ↔ x.Matches y := by
  have hmapping : x.mapping.same y.mapping = true ↔ x.mapping.Matches (· = ·) y.mapping :=
    OrderedMap.same_iff_matches fun _ _ => beq_iff_eq
  simp only [same, Bool.and_eq_true, beq_iff_eq, hmapping]
  constructor
  · rintro ⟨⟨⟨hname, hkind⟩, hmapping⟩, htarget⟩
    exact ⟨hname, hkind, hmapping, htarget⟩
  · rintro ⟨hname, hkind, hmapping, htarget⟩
    exact ⟨⟨⟨hname, hkind⟩, hmapping⟩, htarget⟩

theorem Comparison.same_erased_iff (x : Comparison Unit) (y : Comparison V) :
    x.same (fun _ _ => true) (erased traverse y) = true ↔ x.Matches y := by
  rw [Matches, corresponds_iff]
  cases x <;> cases y <;> grind [erased, traverse, same]

namespace Predicate

theorem erased_all (items : List (Predicate b V)) :
    erased traverse (all items) = all (items.map (erased traverse)) := by
  rw [erased, traverse, traverseAll_eq, mapA_id]
  rfl

theorem erased_any (items : List (Predicate b V)) :
    erased traverse (any items) = any (items.map (erased traverse)) := by
  rw [erased, traverse, traverseAll_eq, mapA_id]
  rfl

theorem same_erased_iff (x : Predicate b Unit) (y : Predicate b V) :
    x.same (fun _ _ => true) (erased traverse y) = true ↔ x.Matches y := by
  induction x using induction generalizing y with
  | all items ih =>
      cases y with
      | all others =>
          rw [erased_all, same, sameAll_eq, sameList_map_iff ih]
          grind [matches_iff]
      | _ => exact iff_of_false Bool.false_ne_true (by rintro ⟨⟩)
  | any items ih =>
      cases y with
      | any others =>
          rw [erased_any, same, sameAll_eq, sameList_map_iff ih]
          grind [matches_iff]
      | _ => exact iff_of_false Bool.false_ne_true (by rintro ⟨⟩)
  | column info comparisons =>
      cases y with
      | column other others =>
          rw [erased_column, same, Bool.and_eq_true, beq_iff_eq,
            sameList_map_iff fun comparison _ => Comparison.same_erased_iff comparison]
          grind [matches_iff]
      | _ => exact iff_of_false Bool.false_ne_true (by rintro ⟨⟩)
  | not item ih =>
      cases y with
      | not other => exact (ih other).trans ⟨.not, fun | .not hitem => hitem⟩
      | _ => exact iff_of_false Bool.false_ne_true (by rintro ⟨⟩)
  | someRow table filter ih =>
      cases y with
      | someRow other filter' =>
          change (table == other && filter.same _ (erased traverse filter')) = true ↔ _
          grind [matches_iff]
      | _ => exact iff_of_false Bool.false_ne_true (by rintro ⟨⟩)
  | relationship info targetFilter filter ihTarget ih =>
      cases y with
      | relationship other targetFilter' filter' =>
          change (info.same other && targetFilter.same _ (erased traverse targetFilter') &&
            filter.same _ (erased traverse filter')) = true ↔ _
          grind [matches_iff, RelationshipInfo.same_iff]
      | _ => exact iff_of_false Bool.false_ne_true (by rintro ⟨⟩)

end Predicate

theorem Redaction.same_erased_iff (x : Redaction b Unit) (y : Redaction b V) :
    x.same (fun _ _ => true) (erased traverse y) = true ↔ x.Matches y := by
  cases x with
  | none =>
      cases y with
      | none => exact iff_of_true rfl .none
      | unlessHolds condition => exact iff_of_false Bool.false_ne_true (by rintro ⟨⟩)
  | unlessHolds condition =>
      cases y with
      | none => exact iff_of_false Bool.false_ne_true (by rintro ⟨⟩)
      | unlessHolds other =>
          exact (condition.same_erased_iff other).trans ⟨.unlessHolds, fun | .unlessHolds h => h⟩

theorem Argument.same_erased_iff (x : Argument Unit) (y : Argument V) :
    x.same (fun _ _ => true) (erased traverse y) = true ↔ x.Matches y := by
  rw [Matches, corresponds_iff]
  cases x <;> cases y <;> grind [erased, traverse, same]

theorem Arguments.same_erased_iff (xs : Arguments Unit) (ys : Arguments V) :
    xs.same (fun _ _ => true) (erased traverse ys) = true ↔ xs.Matches ys := by
  have herased : erased traverse ys = ⟨ys.positional.map (erased Argument.traverse),
      ys.named.map (erased Argument.traverse)⟩ := by
    rw [erased, traverse, mapA_id, OrderedMap.traverse_id]
    rfl
  have hnamed : xs.named.same (Argument.same fun _ _ => true)
      (ys.named.map (erased Argument.traverse)) = true ↔
        xs.named.Matches Argument.Matches ys.named := by
    rw [OrderedMap.same_iff_matches fun _ _ => Iff.rfl, OrderedMap.matches_map_iff]
    simp only [Argument.same_erased_iff]
  rw [herased, same, Bool.and_eq_true, hnamed,
    sameList_map_iff fun argument _ => Argument.same_erased_iff argument]
  constructor
  · rintro ⟨hpositional, hnamed⟩
    exact ⟨hpositional, hnamed⟩
  · rintro ⟨hpositional, hnamed⟩
    exact ⟨hpositional, hnamed⟩

theorem OrderAggregate.same_erased_iff (x : OrderAggregate b Unit) (y : OrderAggregate b V) :
    x.same (fun _ _ => true) (erased traverse y) = true ↔ x.Matches y := by
  cases x with
  | count =>
      cases y with
      | count => exact iff_of_true rfl .count
      | operator name result column redaction =>
          exact iff_of_false Bool.false_ne_true (by rintro ⟨⟩)
  | operator name result column redaction =>
      cases y with
      | count => exact iff_of_false Bool.false_ne_true (by rintro ⟨⟩)
      | operator other result' column' redaction' =>
          change (name == other && result == result' && column == column' &&
            redaction.same _ (erased Redaction.traverse redaction')) = true ↔ _
          grind [matches_iff, Redaction.same_erased_iff]

theorem ComputedOrder.same_erased_iff (x : ComputedOrder b Unit) (y : ComputedOrder b V) :
    x.same (fun _ _ => true) (erased traverse y) = true ↔ x.Matches y := by
  cases x with
  | scalar type redaction =>
      cases y with
      | scalar other redaction' =>
          change (type == other &&
            redaction.same _ (erased Redaction.traverse redaction')) = true ↔ _
          grind [matches_iff, Redaction.same_erased_iff]
      | aggregate table filter inner => exact iff_of_false Bool.false_ne_true (by rintro ⟨⟩)
  | aggregate table filter inner =>
      cases y with
      | scalar type redaction => exact iff_of_false Bool.false_ne_true (by rintro ⟨⟩)
      | aggregate other filter' inner' =>
          change (table == other && filter.same _ (erased Predicate.traverse filter') &&
            inner.same _ (erased OrderAggregate.traverse inner')) = true ↔ _
          grind [matches_iff, Predicate.same_erased_iff, OrderAggregate.same_erased_iff]

theorem OrderTerm.same_erase_iff (x : OrderTerm b Unit) (y : OrderTerm b V) :
    x.same (fun _ _ => true) y.erase = true ↔ x.Matches y := by
  induction x generalizing y with
  | column info redaction =>
      cases y with
      | column other redaction' =>
          change (info == other &&
            redaction.same _ (erased Redaction.traverse redaction')) = true ↔ _
          grind [matches_iff, Redaction.same_erased_iff]
      | _ => exact iff_of_false Bool.false_ne_true (by rintro ⟨⟩)
  | objectRelation info filter term ih =>
      cases y with
      | objectRelation other filter' term' =>
          change (info.same other && filter.same _ (erased Predicate.traverse filter') &&
            term.same _ term'.erase) = true ↔ _
          grind [matches_iff, RelationshipInfo.same_iff, Predicate.same_erased_iff]
      | _ => exact iff_of_false Bool.false_ne_true (by rintro ⟨⟩)
  | arrayAggregate info filter aggregate =>
      cases y with
      | arrayAggregate other filter' aggregate' =>
          change (info.same other && filter.same _ (erased Predicate.traverse filter') &&
            aggregate.same _ (erased OrderAggregate.traverse aggregate')) = true ↔ _
          grind [matches_iff, RelationshipInfo.same_iff, Predicate.same_erased_iff,
            OrderAggregate.same_erased_iff]
      | _ => exact iff_of_false Bool.false_ne_true (by rintro ⟨⟩)
  | computedField enabled name function arguments order =>
      cases y with
      | computedField enabled' other function' arguments' order' =>
          change (name == other && function == function' &&
            arguments.same _ (erased Arguments.traverse arguments') &&
            order.same _ (erased ComputedOrder.traverse order')) = true ↔ _
          grind [matches_iff, Arguments.same_erased_iff, ComputedOrder.same_erased_iff]
      | _ => exact iff_of_false Bool.false_ne_true (by rintro ⟨⟩)

end SelectPlan
