/-!
Equality of containers, given an equality of their items.
-/

namespace SelectPlan

variable {A : Type}

/-- Equality of two values that may both be absent. -/
def sameOption (eq : A → A → Bool) : Option A → Option A → Bool
  | none, none => true
  | some x, some y => eq x y
  | _, _ => false

/-- Equality of two lists, item by item. -/
def sameList (eq : A → A → Bool) : List A → List A → Bool
  | [], [] => true
  | x :: xs, y :: ys => eq x y && sameList eq xs ys
  | _, _ => false

end SelectPlan
