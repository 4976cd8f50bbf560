import Mathlib.Control.Traversable.Lemmas
import SelectPlan.Proofs.Traversal.Calls
import SelectPlan.Proofs.Traversal.Mapping
import SelectPlan.Proofs.Traversal.Refilling

/-!
The laws of replacing remote targets and values.  Replacing them twice is replacing them once by
both functions, targets and values can be replaced in either order, and functions that keep a state
but never fail do the same whether or not the traversal could fail.  All of this holds because a
tree is determined by its shape and its leaves.
-/

namespace SelectPlan

variable {b : Backend} {E σ A B R S T V W X : Type}

/-! Steps that do not fail -/

namespace Steps

theorem exceptMap_injective {view : A → B} (hview : Function.Injective view) :
    Function.Injective (Except.map view : Except E A → Except E B) := by
  rintro (error | x) (error' | y) hsame
  · exact congrArg _ (Except.error.inj hsame)
  · cases hsame
  · cases hsame
  · exact congrArg _ (hview (Except.ok.inj hsame))

/-- What is seen of the answers of steps tells them apart, if it tells answers apart. -/
theorem map_injective {view : A → B} (hview : Function.Injective view) :
    Function.Injective fun steps : Steps E σ A => view <$> steps := by
  intro first second hsame
  funext state
  have hrun : (view <$> first) state = (view <$> second) state := congrFun hsame state
  rw [map_apply, map_apply] at hrun
  obtain ⟨hanswer, hstate⟩ := Prod.mk.inj hrun
  exact Prod.ext (exceptMap_injective hview hanswer) hstate

/-- Steps that change a state, as steps that could fail. -/
def ofState (E σ : Type) : ApplicativeTransformation (StateM σ) (Steps E σ) where
  app _ steps := ExceptT.lift steps
  preserves_pure' _ := rfl
  preserves_seq' _ _ := rfl

end Steps

section

variable {F G : Type → Type} [Applicative F] [LawfulApplicative F] [Applicative G]
  [LawfulApplicative G] (η : ApplicativeTransformation F G)

theorem mapA_transform (h : A → F B) (items : List A) :
    items.mapA (fun item => η (h item)) = η (items.mapA h) := by
  induction items with
  | nil => rw [List.mapA, List.mapA, η.preserves_pure]
  | cons item items ih =>
      rw [List.mapA, List.mapA, ih, η.preserves_seq, η.preserves_map]

theorem Leaf.traverse_transform (f : R → F S) (g : V → F W) :
    Leaf.traverse (fun target => η (f target)) (fun value => η (g value)) =
      fun leaf => η (Leaf.traverse f g leaf) := by
  funext leaf
  cases leaf with
  | remote target => exact (η.preserves_map _ _).symm
  | value value => exact (η.preserves_map _ _).symm

end

namespace TreeKind

variable {kind : TreeKind}

/-- What is seen of a tree: its leaves and its shape. -/
def view (kind : TreeKind) (tree : kind.Tree b R V) :
    List (Leaf R V) × kind.Tree b Unit Unit :=
  (kind.leaves tree, kind.shape tree)

theorem view_injective : Function.Injective (kind.view (b := b) (R := R) (V := V)) := by
  intro first second hview
  obtain ⟨hleaves, hshape⟩ := Prod.mk.inj hview
  exact ext_shape_leaves hshape hleaves

/-- A traversal does the same whether its effects are seen as steps that could fail before it or
after it. -/
theorem traverse_transform {F : Type → Type} [Applicative F] [LawfulApplicative F]
    (η : ApplicativeTransformation F (Steps E σ)) (f : R → F S) (g : V → F W)
    (tree : kind.Tree b R V) :
    kind.traverse (fun target => η (f target)) (fun value => η (g value)) tree =
      η (kind.traverse f g tree) := by
  refine Steps.map_injective view_injective ?_
  change kind.view <$> _ = kind.view <$> _
  have hbefore := kind.traverse_visits f g tree
  have hafter := kind.traverse_visits (fun target => η (f target)) (fun value => η (g value)) tree
  rw [Leaf.traverse_transform, Visits, mapA_transform, ← η.preserves_map, ← hbefore] at hafter
  exact hafter.trans (η.preserves_map _ _)

/-! The laws -/

/-- Replaces the remote targets of a tree. -/
def mapRemotes (f : R → S) (kind : TreeKind) (tree : kind.Tree b R V) : kind.Tree b S V :=
  kind.bimap f id tree

/-- Replaces the values of a tree. -/
def mapValues (g : V → W) (kind : TreeKind) (tree : kind.Tree b R V) : kind.Tree b R W :=
  kind.bimap id g tree

/-- Replacing twice is replacing once. -/
theorem bimap_bimap (f : R → S) (g : V → W) (f' : S → T) (g' : W → X) (tree : kind.Tree b R V) :
    kind.bimap f' g' (kind.bimap f g tree) = kind.bimap (f' ∘ f) (g' ∘ g) tree := by
  obtain ⟨hleaves, hshape⟩ := kind.bimap_visits f g tree
  obtain ⟨hleaves', hshape'⟩ := kind.bimap_visits f' g' (kind.bimap f g tree)
  obtain ⟨hboth, hsame⟩ := kind.bimap_visits (f' ∘ f) (g' ∘ g) tree
  refine ext_shape_leaves (hshape'.trans (hshape.trans hsame.symm)) ?_
  rw [hleaves', hleaves, hboth, List.map_map]
  refine congrArg (List.map · (kind.leaves tree)) (funext fun leaf => ?_)
  cases leaf <;> rfl

/-- A traversal with functions that never fail is one with functions that cannot. -/
theorem traverse_lift (f : R → StateM σ S) (g : V → StateM σ W) (tree : kind.Tree b R V)
    (start : σ) :
    kind.traverse (F := Steps E σ) (fun target => ExceptT.lift (f target))
        (fun value => ExceptT.lift (g value)) tree start =
      (.ok (kind.traverse f g tree start).1, (kind.traverse f g tree start).2) :=
  congrFun (traverse_transform (Steps.ofState E σ) f g tree) start

theorem traverse_pure (f : R → S) (g : V → W) (tree : kind.Tree b R V) :
    kind.traverse (F := Steps E σ) (fun target => pure (f target)) (fun value => pure (g value))
      tree = pure (kind.bimap f g tree) :=
  traverse_transform (Traversable.PureTransformation (Steps E σ)) _ _ tree

/-- Replacement of remote targets and values obeys the laws of a functor in both, for every kind of
tree.  Replacing twice is replacing once by the compositions; targets first and values first come
to the same; a traversal whose functions never fail ends in the replacement, also when these keep a
state.  And nothing else of the tree changes. -/
theorem bimap_bifunctor (f : R → S) (g : V → W) (kind : TreeKind) (tree : kind.Tree b R V) :
    (∀ {T X : Type} (f' : S → T) (g' : W → X),
      kind.bimap f' g' (kind.bimap f g tree) = kind.bimap (f' ∘ f) (g' ∘ g) tree) ∧
    kind.mapValues g (kind.mapRemotes f tree) = kind.bimap f g tree ∧
    kind.mapRemotes f (kind.mapValues g tree) = kind.bimap f g tree ∧
    (∀ {E σ : Type} (start : σ),
      kind.traverse (F := Steps E σ) (fun target => pure (f target)) (fun value => pure (g value))
        tree start = (.ok (kind.bimap f g tree), start)) ∧
    (∀ {E σ : Type} (f' : R → StateM σ S) (g' : V → StateM σ W) (start : σ),
      kind.traverse (F := Steps E σ) (fun target => ExceptT.lift (f' target))
          (fun value => ExceptT.lift (g' value)) tree start =
        (.ok (kind.traverse f' g' tree start).1, (kind.traverse f' g' tree start).2)) ∧
    kind.Corresponds (fun target replaced => replaced = f target)
      (fun value replaced => replaced = g value) tree (kind.bimap f g tree) := by
  refine ⟨fun f' g' => bimap_bimap f g f' g' tree, bimap_bimap f id id g tree,
    bimap_bimap id g f id tree, fun start => ?_, fun f' g' start => traverse_lift f' g' tree start,
    ?_⟩
  · rw [traverse_pure]
    rfl
  · apply corresponds_traverse
    · exact fun target => rfl
    · exact fun value => rfl

end TreeKind

end SelectPlan
