import Mathlib.Control.Basic
import SelectPlan.Data.NonEmpty
import SelectPlan.Data.OrderedMap

/-!
What it means for a traversal to visit leaves in order: its effects are those of one effect run on
the leaves one after the other, and what it ends in has the results as its leaves and has kept its
shape.  The closure lemmas below follow the ways in which traversals are put together, so that the
traversal of a tree is checked constructor by constructor.
-/

namespace SelectPlan

variable {F : Type → Type} [Applicative F] {A B L M N O P T U X Y Z α β : Type}

/-- The effects of `steps` are those of `h` on the items, in their order.  The leaves of what
`steps` ends in are the results of `h`, and its shape is `kept`. -/
def Visits (h : α → F β) (items : List α) (leaves : T → List β) (shape : T → X) (kept : X)
    (steps : F T) : Prop :=
  (fun result => (leaves result, shape result)) <$> steps =
    (fun results => (results, kept)) <$> items.mapA h

/-- A tree without its leaves, given its traversal. -/
def erased (traverse : (α → Id Unit) → T → Id U) (tree : T) : U :=
  Id.run (traverse (fun _ => pure ()) tree)

theorem mapA_append [LawfulApplicative F] (h : α → F β) (xs ys : List α) :
    (xs ++ ys).mapA h = (· ++ ·) <$> xs.mapA h <*> ys.mapA h := by
  induction xs with
  | nil => simp [List.mapA, functor_norm]
  | cons x xs ih =>
      rw [List.cons_append, List.mapA, ih, List.mapA]
      simp [functor_norm, Function.comp_def]

namespace Visits

variable [LawfulApplicative F] {h : α → F β} {items xs ys zs ws : List α}

theorem pure {leaves : T → List β} {shape : T → X} {kept : X} {result : T}
    (hleaves : leaves result = []) (hshape : shape result = kept) :
    Visits h [] leaves shape kept (Pure.pure result) := by
  rw [Visits, map_pure, List.mapA, map_pure, hleaves, hshape]

/-- The traversal of a single leaf is its effect. -/
theorem leaf (item : α) : Visits h [item] (fun result => [result]) (fun _ => ()) () (h item) := by
  simp [Visits, List.mapA, functor_norm]

/-- A traversal around one part. -/
theorem map {leaves : T → List β} {shape : T → X} {kept : X} {steps : F T}
    {around : U → List β} {outer : U → Y} {build : T → U} (rebuild : X → Y)
    (visits : Visits h items leaves shape kept steps)
    (hleaves : ∀ part, around (build part) = leaves part)
    (hshape : ∀ part, outer (build part) = rebuild (shape part)) :
    Visits h items around outer (rebuild kept) (build <$> steps) := by
  have hview : (fun part => (around (build part), outer (build part))) =
      (fun view : List β × X => (view.1, rebuild view.2)) ∘
        fun part => (leaves part, shape part) := by
    funext part
    simp only [Function.comp, hleaves, hshape]
  rw [Visits] at visits
  rw [Visits, ← comp_map, Function.comp_def, hview, comp_map, visits, ← comp_map]
  rfl

/-- A traversal of two parts, one after the other. -/
theorem seq {leaves₁ : T → List β} {shape₁ : T → X} {kept₁ : X} {steps₁ : F T}
    {leaves₂ : U → List β} {shape₂ : U → Y} {kept₂ : Y} {steps₂ : F U}
    {around : N → List β} {outer : N → Z} {build : T → U → N} (rebuild : X → Y → Z)
    (first : Visits h xs leaves₁ shape₁ kept₁ steps₁)
    (second : Visits h ys leaves₂ shape₂ kept₂ steps₂)
    (hleaves : ∀ x y, around (build x y) = leaves₁ x ++ leaves₂ y)
    (hshape : ∀ x y, outer (build x y) = rebuild (shape₁ x) (shape₂ y)) :
    Visits h (xs ++ ys) around outer (rebuild kept₁ kept₂) (build <$> steps₁ <*> steps₂) := by
  let merge (x : List β × X) (y : List β × Y) : List β × Z :=
    (x.1 ++ y.1, rebuild x.2 y.2)
  rw [Visits] at first second
  calc (fun result => (around result, outer result)) <$> (build <$> steps₁ <*> steps₂)
      = merge <$> ((fun x => (leaves₁ x, shape₁ x)) <$> steps₁) <*>
          ((fun y => (leaves₂ y, shape₂ y)) <$> steps₂) := by
        simp [functor_norm, Function.comp_def, hleaves, hshape, merge]
    _ = merge <$> ((·, kept₁) <$> xs.mapA h) <*> ((·, kept₂) <$> ys.mapA h) := by
        rw [first, second]
    _ = (·, rebuild kept₁ kept₂) <$> (xs ++ ys).mapA h := by
        simp [mapA_append, functor_norm, Function.comp_def, merge]

/-- A traversal of three parts, one after the other. -/
theorem seq₃ {leaves₁ : T → List β} {shape₁ : T → X} {kept₁ : X} {steps₁ : F T}
    {leaves₂ : U → List β} {shape₂ : U → Y} {kept₂ : Y} {steps₂ : F U}
    {leaves₃ : L → List β} {shape₃ : L → Z} {kept₃ : Z} {steps₃ : F L}
    {around : N → List β} {outer : N → O} {build : T → U → L → N} (rebuild : X → Y → Z → O)
    (first : Visits h xs leaves₁ shape₁ kept₁ steps₁)
    (second : Visits h ys leaves₂ shape₂ kept₂ steps₂)
    (third : Visits h zs leaves₃ shape₃ kept₃ steps₃)
    (hleaves : ∀ x y z, around (build x y z) = leaves₁ x ++ leaves₂ y ++ leaves₃ z)
    (hshape : ∀ x y z, outer (build x y z) = rebuild (shape₁ x) (shape₂ y) (shape₃ z)) :
    Visits h (xs ++ ys ++ zs) around outer (rebuild kept₁ kept₂ kept₃)
      (build <$> steps₁ <*> steps₂ <*> steps₃) := by
  have hpair : Visits h (xs ++ ys) (fun p : T × U => leaves₁ p.1 ++ leaves₂ p.2)
      (fun p => (shape₁ p.1, shape₂ p.2)) (kept₁, kept₂) (Prod.mk <$> steps₁ <*> steps₂) :=
    seq Prod.mk first second (fun _ _ => rfl) (fun _ _ => rfl)
  have hsteps : build <$> steps₁ <*> steps₂ <*> steps₃ =
      (fun p z => build p.1 p.2 z) <$> (Prod.mk <$> steps₁ <*> steps₂) <*> steps₃ := by
    simp [functor_norm, Function.comp_def]
  rw [hsteps]
  exact seq (fun p z => rebuild p.1 p.2 z) hpair third (fun _ _ => hleaves _ _ _)
    (fun _ _ => hshape _ _ _)

/-- A traversal of four parts, one after the other. -/
theorem seq₄ {leaves₁ : T → List β} {shape₁ : T → X} {kept₁ : X} {steps₁ : F T}
    {leaves₂ : U → List β} {shape₂ : U → Y} {kept₂ : Y} {steps₂ : F U}
    {leaves₃ : L → List β} {shape₃ : L → Z} {kept₃ : Z} {steps₃ : F L}
    {leaves₄ : M → List β} {shape₄ : M → P} {kept₄ : P} {steps₄ : F M}
    {around : N → List β} {outer : N → O} {build : T → U → L → M → N}
    (rebuild : X → Y → Z → P → O)
    (first : Visits h xs leaves₁ shape₁ kept₁ steps₁)
    (second : Visits h ys leaves₂ shape₂ kept₂ steps₂)
    (third : Visits h zs leaves₃ shape₃ kept₃ steps₃)
    (fourth : Visits h ws leaves₄ shape₄ kept₄ steps₄)
    (hleaves : ∀ x y z w,
      around (build x y z w) = leaves₁ x ++ leaves₂ y ++ leaves₃ z ++ leaves₄ w)
    (hshape : ∀ x y z w,
      outer (build x y z w) = rebuild (shape₁ x) (shape₂ y) (shape₃ z) (shape₄ w)) :
    Visits h (xs ++ ys ++ zs ++ ws) around outer (rebuild kept₁ kept₂ kept₃ kept₄)
      (build <$> steps₁ <*> steps₂ <*> steps₃ <*> steps₄) := by
  have hpair : Visits h (xs ++ ys) (fun p : T × U => leaves₁ p.1 ++ leaves₂ p.2)
      (fun p => (shape₁ p.1, shape₂ p.2)) (kept₁, kept₂) (Prod.mk <$> steps₁ <*> steps₂) :=
    seq Prod.mk first second (fun _ _ => rfl) (fun _ _ => rfl)
  have hsteps : build <$> steps₁ <*> steps₂ <*> steps₃ <*> steps₄ =
      (fun p z w => build p.1 p.2 z w) <$> (Prod.mk <$> steps₁ <*> steps₂) <*> steps₃ <*>
        steps₄ := by
    simp [functor_norm, Function.comp_def]
  rw [hsteps]
  exact seq₃ (fun p z w => rebuild p.1 p.2 z w) hpair third fourth (fun _ _ _ => hleaves _ _ _ _)
    (fun _ _ _ => hshape _ _ _ _)

/-! Containers of parts -/

variable {item : A → List α} {leaves : T → List β} {shape : T → X} {kept : A → X}
  {step : A → F T}

theorem list (visits : ∀ x, Visits h (item x) leaves shape (kept x) (step x)) (parts : List A) :
    Visits h (parts.flatMap item) (List.flatMap leaves) (List.map shape) (parts.map kept)
      (parts.mapA step) := by
  induction parts with
  | nil => exact pure rfl rfl
  | cons part parts ih =>
      rw [List.flatMap_cons, List.mapA, List.map_cons]
      exact seq List.cons (visits part) ih (fun _ _ => List.flatMap_cons) (fun _ _ => rfl)

theorem option (visits : ∀ x, Visits h (item x) leaves shape (kept x) (step x))
    (part : Option A) :
    Visits h (part.toList.flatMap item) (fun result => result.toList.flatMap leaves)
      (Option.map shape) (part.map kept) (part.mapA step) := by
  cases part with
  | none => exact pure rfl rfl
  | some part =>
      rw [Option.toList_some, List.flatMap_singleton]
      exact map some (visits part) (fun _ => List.flatMap_singleton _ _) (fun _ => rfl)

theorem nonEmpty (visits : ∀ x, Visits h (item x) leaves shape (kept x) (step x))
    (parts : NonEmpty A) :
    Visits h (parts.toList.flatMap item) (fun result => result.toList.flatMap leaves)
      (NonEmpty.map shape) (parts.map kept) (parts.traverse step) := by
  rw [NonEmpty.toList, List.flatMap_cons]
  exact seq NonEmpty.mk (visits parts.head) (list visits parts.tail)
    (fun _ _ => List.flatMap_cons) (fun _ _ => rfl)

theorem entries {K : Type} (visits : ∀ x, Visits h (item x) leaves shape (kept x) (step x)) :
    {keys : List K} → (parts : Entries K A keys) →
    Visits h (parts.values.flatMap item) (fun result => result.values.flatMap leaves)
      (Entries.map shape) (parts.map kept) (parts.traverse step)
  | _, .nil => pure rfl rfl
  | _, .cons key fresh part rest => by
      rw [Entries.values, List.flatMap_cons]
      exact seq (Entries.cons key fresh) (visits part) (entries visits rest)
        (fun _ _ => List.flatMap_cons) (fun _ _ => rfl)

theorem orderedMap {K : Type} (visits : ∀ x, Visits h (item x) leaves shape (kept x) (step x))
    (parts : OrderedMap K A) :
    Visits h (parts.values.flatMap item) (fun result => result.values.flatMap leaves)
      (OrderedMap.map shape) (parts.map kept) (parts.traverse step) :=
  map OrderedMap.mk (entries visits parts.entries) (fun _ => rfl) (fun _ => rfl)

end Visits

/-! Without effects a traversal is a map. -/

@[simp]
theorem mapA_id (f : A → Id B) (items : List A) : items.mapA f = items.map f := by
  induction items with
  | nil => rfl
  | cons item items ih => rw [List.mapA, ih]; rfl

@[simp]
theorem optionMapA_id (f : A → Id B) (item : Option A) : item.mapA f = item.map f := by
  cases item <;> rfl

@[simp]
theorem NonEmpty.traverse_id (f : A → Id B) : traverse f = (map f : NonEmpty A → _) := by
  funext items
  rw [traverse, mapA_id]
  rfl

@[simp]
theorem Entries.traverse_id {K : Type} (f : A → Id B) :
    {keys : List K} → (entries : Entries K A keys) → entries.traverse f = entries.map f
  | _, .nil => rfl
  | _, .cons _ _ _ rest => by rw [traverse, rest.traverse_id]; rfl

@[simp]
theorem OrderedMap.traverse_id {K : Type} (f : A → Id B) (items : OrderedMap K A) :
    items.traverse f = OrderedMap.map f items := by
  rw [traverse, Entries.traverse_id]
  rfl

end SelectPlan
