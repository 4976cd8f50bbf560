import SelectPlan.Data.SortedSet
import SelectPlan.Selection.Kind

/-!
Summaries of trees: what is found at each leaf is combined from left to right.
-/

namespace SelectPlan

/-- Types whose values can be combined, starting from an empty one. -/
class Summary (M : Type) where
  empty : M
  combine : M → M → M

namespace Summary

instance : Summary Unit := ⟨(), fun _ _ => ()⟩

/-- Numbers are added. -/
instance : Summary Nat := ⟨0, Nat.add⟩

/-- Texts are joined. -/
instance : Summary String := ⟨"", String.append⟩

/-- Lists are joined. -/
instance {α : Type} : Summary (List α) := ⟨[], List.append⟩

/-- Sets are united. -/
instance {α : Type} [LE α] [LT α] [DecidableEq α] [DecidableLT α] [Std.IsLinearOrder α]
    [Std.LawfulOrderLT α] : Summary (SortedSet α) :=
  ⟨.empty, .union⟩

/-- Pairs are combined side by side. -/
instance {M N : Type} [Summary M] [Summary N] : Summary (M × N) :=
  ⟨(empty, empty), fun x y => (combine x.1 y.1, combine x.2 y.2)⟩

/-- The combination of a list of summaries. -/
def ofList {M : Type} [Summary M] (items : List M) : M :=
  items.foldl combine empty

end Summary

namespace TreeKind

variable {b : Backend} {R V M : Type} [Summary M]

/-- The combination of `f` at the remote targets and `g` at the values of a tree. -/
def summarize (f : R → M) (g : V → M) (kind : TreeKind) (tree : kind.Tree b R V) : M :=
  (kind.leaves tree).foldl
    (fun summary leaf =>
      Summary.combine summary <|
        match leaf with
        | .remote target => f target
        | .value value => g value)
    Summary.empty

/-- The combination of `g` at the values of a tree. -/
def summarizeValues (g : V → M) (kind : TreeKind) (tree : kind.Tree b R V) : M :=
  kind.summarize (fun _ => Summary.empty) g tree

/-- The combination of `f` at the remote targets of a tree. -/
def summarizeRemotes (f : R → M) (kind : TreeKind) (tree : kind.Tree b R V) : M :=
  kind.summarize f (fun _ => Summary.empty) tree

end TreeKind

end SelectPlan
