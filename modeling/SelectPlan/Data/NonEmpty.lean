import SelectPlan.Data.Same
import SelectPlan.Json.Basic

/-!
Lists with at least one item.
-/

namespace SelectPlan

/-- A list with at least one item. -/
structure NonEmpty (α : Type) where
  head : α
  tail : List α
deriving DecidableEq, Repr

namespace NonEmpty

variable {α β : Type}

/-- The list of a single item. -/
def singleton (item : α) : NonEmpty α :=
  ⟨item, []⟩

/-- A list as a non-empty one, unless it is empty. -/
def ofList? : List α → Option (NonEmpty α)
  | [] => none
  | head :: tail => some ⟨head, tail⟩

/-- All items in order. -/
def toList (items : NonEmpty α) : List α :=
  items.head :: items.tail

/-- The number of items. -/
def size (items : NonEmpty α) : Nat :=
  items.tail.length + 1

/-- Adds an item at the end. -/
def push (items : NonEmpty α) (item : α) : NonEmpty α :=
  { items with tail := items.tail ++ [item] }

/-- Applies a function to every item. -/
def map (f : α → β) (items : NonEmpty α) : NonEmpty β :=
  ⟨f items.head, items.tail.map f⟩

/-- Runs an effect on every item, first to last. -/
def traverse {F : Type → Type} [Applicative F] (f : α → F β) (items : NonEmpty α) :
    F (NonEmpty β) :=
  mk <$> f items.head <*> items.tail.mapA f

/-- Equality, given an equality of items. -/
def same (eq : α → α → Bool) (xs ys : NonEmpty α) : Bool :=
  eq xs.head ys.head && sameList eq xs.tail ys.tail

instance [HasJson α] : HasJson (NonEmpty α) :=
  ⟨fun items => .object [("head", json items.head), ("tail", json items.tail)]⟩

@[simp]
theorem length_toList (items : NonEmpty α) : items.toList.length = items.size :=
  rfl

@[simp]
theorem toList_push (items : NonEmpty α) (item : α) :
    (items.push item).toList = items.toList ++ [item] :=
  rfl

@[simp]
theorem toList_map (f : α → β) (items : NonEmpty α) : (items.map f).toList = items.toList.map f :=
  rfl

@[simp]
theorem head_map (f : α → β) (items : NonEmpty α) : (items.map f).head = f items.head :=
  rfl

@[simp]
theorem size_map (f : α → β) (items : NonEmpty α) : (items.map f).size = items.size := by
  rw [size, map, List.length_map, size]

theorem ofList?_toList (items : NonEmpty α) : ofList? items.toList = some items :=
  rfl

theorem ofList?_eq_none_iff {items : List α} : ofList? items = none ↔ items = [] := by
  cases items <;> simp [ofList?]

end NonEmpty

end SelectPlan
