import SelectPlan.Proofs.Traversal.Visits

/-!
What is known of the result of a traversal before it runs.  A test that looks at the shape of a
tree alone gives the same answer before and after its leaves are replaced, and a function that
takes a tree apart by its shape can be run before or after the traversal.  The closure lemmas
follow the ways in which traversals are put together.
-/

namespace SelectPlan

variable {F : Type → Type} [Applicative F] {A B K L M N O T U W X Y Z : Type}

/-- `split` takes the result of `steps` apart into the result of `rest`, which has the same
effects, and something that is `known` before they run. -/
def Separates (split : T → U × X) (steps : F T) (rest : F U) (known : X) : Prop :=
  split <$> steps = (·, known) <$> rest

/-- What `view` sees of the result of `steps` is `known` before they run. -/
def Known (view : T → X) (steps : F T) (known : X) : Prop :=
  Separates (fun result => (result, view result)) steps steps known

namespace Separates

/-- Nothing needs to be known of an effect. -/
theorem trivial (steps : F T) : Separates (·, ()) steps steps () :=
  rfl

variable [LawfulApplicative F] {split : T → U × X} {steps : F T} {rest : F U} {known : X}

theorem pure {result : T} {part : U} (hsplit : split result = (part, known)) :
    Separates split (Pure.pure result : F T) (Pure.pure part) known := by
  rw [Separates, map_pure, map_pure, hsplit]

/-- The result is taken apart as it is built. -/
theorem effect {build : A → T} {part : A → U} {steps : F A}
    (hsplit : ∀ result, split (build result) = (part result, known)) :
    Separates split (build <$> steps) (part <$> steps) known := by
  rw [Separates, ← comp_map, ← comp_map]
  congr 1
  funext result
  exact hsplit result

/-- What is done to the result can be done afterwards. -/
theorem after (part : T → U) (known : X) :
    Separates (fun result => (part result, known)) steps (part <$> steps) known := by
  rw [Separates, ← comp_map]
  rfl

theorem map {outer : L → M × Y} {build : T → L} {part : U → M} (rebuild : X → Y)
    (hsteps : Separates split steps rest known)
    (hsplit : ∀ result, outer (build result) =
      (part (split result).1, rebuild (split result).2)) :
    Separates outer (build <$> steps) (part <$> rest) (rebuild known) := by
  have houter : outer ∘ build = (fun view => (part view.1, rebuild view.2)) ∘ split :=
    funext hsplit
  rw [Separates] at hsteps
  rw [Separates, ← comp_map, houter, comp_map, hsteps, ← comp_map, ← comp_map]
  rfl

theorem seq {split₂ : L → M × Y} {steps₂ : F L} {rest₂ : F M} {known₂ : Y}
    {outer : N → O × Z} {build : T → L → N} {part : U → M → O} (rebuild : X → Y → Z)
    (hfirst : Separates split steps rest known) (hsecond : Separates split₂ steps₂ rest₂ known₂)
    (hsplit : ∀ x y, outer (build x y) =
      (part (split x).1 (split₂ y).1, rebuild (split x).2 (split₂ y).2)) :
    Separates outer (build <$> steps <*> steps₂) (part <$> rest <*> rest₂)
      (rebuild known known₂) := by
  let merge (x : U × X) (y : M × Y) : O × Z := (part x.1 y.1, rebuild x.2 y.2)
  rw [Separates] at hfirst hsecond
  calc outer <$> (build <$> steps <*> steps₂)
      = merge <$> (split <$> steps) <*> (split₂ <$> steps₂) := by
        simp [functor_norm, Function.comp_def, hsplit, merge]
    _ = merge <$> ((·, known) <$> rest) <*> ((·, known₂) <$> rest₂) := by
        rw [hfirst, hsecond]
    _ = (·, rebuild known known₂) <$> (part <$> rest <*> rest₂) := by
        simp [functor_norm, Function.comp_def, merge]

/-- Two effects behind the first one, of which nothing needs to be known. -/
theorem seqTrivial₂ {outer : N → O × X} {build : T → L → M → N} {part : U → L → M → O}
    {second : F L} {third : F M} (hfirst : Separates split steps rest known)
    (hsplit : ∀ x y z, outer (build x y z) = (part (split x).1 y z, (split x).2)) :
    Separates outer (build <$> steps <*> second <*> third) (part <$> rest <*> second <*> third)
      known := by
  have hpair : Separates (fun view : T × L => (((split view.1).1, view.2), (split view.1).2))
      (Prod.mk <$> steps <*> second) (Prod.mk <$> rest <*> second) known :=
    seq (fun known _ => known) hfirst (trivial second) fun _ _ => rfl
  have hsteps : build <$> steps <*> second <*> third =
      (fun view z => build view.1 view.2 z) <$> (Prod.mk <$> steps <*> second) <*> third := by
    simp [functor_norm, Function.comp_def]
  have hrest : part <$> rest <*> second <*> third =
      (fun view z => part view.1 view.2 z) <$> (Prod.mk <$> rest <*> second) <*> third := by
    simp [functor_norm, Function.comp_def]
  rw [hsteps, hrest]
  exact seq (fun known _ => known) hpair (trivial third) fun _ _ => hsplit _ _ _

/-- What is left over is taken apart in turn. -/
theorem andThen {split₂ : U → M × Y} {rest₂ : F M} {known₂ : Y} {whole : T → M × Z}
    (merge : X → Y → Z) (hfirst : Separates split steps rest known)
    (hsecond : Separates split₂ rest rest₂ known₂)
    (hwhole : ∀ result, whole result =
      ((split₂ (split result).1).1, merge (split result).2 (split₂ (split result).1).2)) :
    Separates whole steps rest₂ (merge known known₂) := by
  have hsplit : whole = (fun view : U × X =>
      ((split₂ view.1).1, merge view.2 (split₂ view.1).2)) ∘ split := funext hwhole
  rw [Separates] at hfirst hsecond
  calc whole <$> steps
      = (fun part => ((split₂ part).1, merge known (split₂ part).2)) <$> rest := by
        rw [hsplit, comp_map, hfirst, ← comp_map]
        rfl
    _ = (fun view : M × Y => (view.1, merge known view.2)) <$> (split₂ <$> rest) := by
        rw [← comp_map]
        rfl
    _ = (·, merge known known₂) <$> rest₂ := by
        rw [hsecond, ← comp_map]
        rfl

/-- What is only wrapped up can be unwrapped. -/
theorem unwrap {build : A → T} {steps : F A} {wrap : L → U} {rest : F L}
    (hsteps : Separates split (build <$> steps) (wrap <$> rest) known) (unwrap : U → L)
    (hunwrap : ∀ part, unwrap (wrap part) = part) :
    Separates (fun result => (unwrap (split (build result)).1, (split (build result)).2)) steps
      rest known := by
  rw [Separates] at hsteps
  calc (fun result => (unwrap (split (build result)).1, (split (build result)).2)) <$> steps
      = (fun view : U × X => (unwrap view.1, view.2)) <$> (split <$> (build <$> steps)) := by
        rw [← comp_map, ← comp_map]
        rfl
    _ = (·, known) <$> rest := by
        rw [hsteps, ← comp_map, ← comp_map]
        simp only [Function.comp_def, hunwrap]

end Separates

namespace Known

variable [LawfulApplicative F] {view : T → X} {steps : F T} {known : X}

theorem pure {result : T} (hview : view result = known) :
    Known view (Pure.pure result : F T) known :=
  Separates.pure (congrArg (result, ·) hview)

theorem effect {build : A → T} {steps : F A} (hview : ∀ result, view (build result) = known) :
    Known view (build <$> steps) known :=
  Separates.effect fun result => congrArg (build result, ·) (hview result)

theorem map {outer : L → Y} {build : T → L} (rebuild : X → Y) (hsteps : Known view steps known)
    (hview : ∀ result, outer (build result) = rebuild (view result)) :
    Known outer (build <$> steps) (rebuild known) :=
  Separates.map rebuild hsteps fun result => congrArg (build result, ·) (hview result)

theorem seq {view₂ : L → Y} {steps₂ : F L} {known₂ : Y} {outer : N → Z} {build : T → L → N}
    (rebuild : X → Y → Z) (hfirst : Known view steps known) (hsecond : Known view₂ steps₂ known₂)
    (hview : ∀ x y, outer (build x y) = rebuild (view x) (view₂ y)) :
    Known outer (build <$> steps <*> steps₂) (rebuild known known₂) :=
  Separates.seq rebuild hfirst hsecond fun x y => congrArg (build x y, ·) (hview x y)

/-- What is known can be put in the place of what is seen. -/
theorem use {rest : F U} {part : Y} (hsteps : Known view steps known) (split : T → X → U × Y)
    (hsplit : Separates (split · known) steps rest part) :
    Separates (fun result => split result (view result)) steps rest part := by
  rw [Known, Separates] at hsteps
  rw [Separates] at hsplit ⊢
  calc (fun result => split result (view result)) <$> steps
      = (fun seen : T × X => split seen.1 seen.2) <$>
          ((fun result => (result, view result)) <$> steps) := by
        rw [← comp_map]
        rfl
    _ = (split · known) <$> steps := by
        rw [hsteps, ← comp_map]
        rfl
    _ = (·, part) <$> rest := hsplit

theorem list {view' : B → Y} {step : A → F B} {known : A → Y}
    (hstep : ∀ item, Known view' (step item) (known item)) (items : List A) :
    Known (List.map view') (items.mapA step) (items.map known) := by
  induction items with
  | nil => exact .pure rfl
  | cons item items ih => exact .seq List.cons (hstep item) ih fun _ _ => rfl

theorem firstKey_cons {keys : List K} (test : A → Bool) (key : K) (fresh : key ∉ keys)
    (value : A) (rest : Entries K A keys) :
    Prod.fst <$> Entries.findEntry? test (.cons key fresh value rest) =
      if test value then some key else Prod.fst <$> rest.findEntry? test := by
  change Prod.fst <$> (if test value then some (key, value) else rest.findEntry? test) = _
  split <;> rfl

/-- Which entry is the first to pass a test is known if the answers of the test are. -/
theorem firstKey {test : A → Bool} {test' : B → Bool} {step : A → F B}
    (hstep : ∀ value, Known test' (step value) (test value)) :
    {keys : List K} → (entries : Entries K A keys) →
    Known (fun result => Prod.fst <$> result.findEntry? test') (entries.traverse step)
      (Prod.fst <$> entries.findEntry? test)
  | _, .nil => .pure rfl
  | _, .cons key fresh value rest => by
      rw [firstKey_cons]
      refine .seq (fun passes found => if passes then some key else found) (hstep value)
        (firstKey hstep rest) ?_
      intro result results
      exact firstKey_cons test' key fresh result results

end Known

end SelectPlan
