/-!
Finite sets, listed in ascending order.
-/

namespace SelectPlan

/-- A set of items of an ordered type, which are texts unless another type is given. -/
structure SortedSet (α : Type := String) [LT α] where
  items : List α
  ascending : items.Pairwise (· < ·)
deriving DecidableEq

namespace SortedSet

variable {α : Type} [LT α]

/-- The set without items. -/
def empty : SortedSet α :=
  ⟨[], List.Pairwise.nil⟩

instance : Membership α (SortedSet α) := ⟨fun set item => item ∈ set.items⟩

variable [DecidableLT α] [DecidableEq α]

/-- Puts an item into an ascending list. -/
def insertSorted (item : α) : List α → List α
  | [] => [item]
  | head :: tail =>
      if item < head then item :: head :: tail
      else if item = head then head :: tail
      else head :: insertSorted item tail

theorem mem_insertSorted {item other : α} {items : List α} :
    other ∈ insertSorted item items ↔ other = item ∨ other ∈ items := by
  induction items with
  | nil => simp [insertSorted]
  | cons head tail ih =>
      rw [insertSorted]
      split
      · simp
      · split
        · next heq => simp [heq]
        · simp [ih, or_left_comm]

variable [LE α] [Std.LawfulOrderLT α] [Std.IsLinearOrder α]

theorem ascending_insertSorted (item : α) {items : List α}
    (h : items.Pairwise (· < ·)) : (insertSorted item items).Pairwise (· < ·) := by
  induction items with
  | nil => simp [insertSorted]
  | cons head tail ih =>
      have hhead := (List.pairwise_cons.mp h).1
      rw [insertSorted]
      split
      · next hlt =>
        refine List.pairwise_cons.mpr ⟨fun other hother => ?_, h⟩
        rcases List.mem_cons.mp hother with rfl | hother
        · exact hlt
        · exact Std.lt_trans hlt (hhead other hother)
      · next hnlt =>
        split
        · exact h
        · next hne =>
          refine List.pairwise_cons.mpr
            ⟨fun other hother => ?_, ih (List.pairwise_cons.mp h).2⟩
          rcases mem_insertSorted.mp hother with rfl | hother
          · rcases Std.lt_trichotomy other head with hlt | heq | hgt
            · exact absurd hlt hnlt
            · exact absurd heq hne
            · exact hgt
          · exact hhead other hother

/-- Adds an item. -/
def insert (set : SortedSet α) (item : α) : SortedSet α :=
  ⟨insertSorted item set.items, ascending_insertSorted item set.ascending⟩

/-- The set of the items of a list. -/
def ofList (items : List α) : SortedSet α :=
  items.foldl insert empty

/-- All items of two sets. -/
def union (a b : SortedSet α) : SortedSet α :=
  b.items.foldl insert a

@[simp]
theorem mem_insert {set : SortedSet α} {item other : α} :
    other ∈ set.insert item ↔ other = item ∨ other ∈ set :=
  mem_insertSorted

end SortedSet

end SelectPlan
