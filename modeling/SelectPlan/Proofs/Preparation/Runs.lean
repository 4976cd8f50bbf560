import SelectPlan.Proofs.Preparation.Steps

/-!
A preparation is a run on the values of a tree, one after the other.  What it comes to depends on
them alone: whether it fails, which session variables it reads, and what its parameters are.
-/

namespace SelectPlan

variable {b : Backend} {R : Type}

namespace Steps

variable {E σ α β : Type} {h : α → Steps E σ β} {item : α} {items : List α} {state : σ}

theorem mapA_cons_of_ok {result : β} {rest : List β} {after finish : σ}
    (hitem : h item state = (.ok result, after)) (hrest : items.mapA h after = (.ok rest, finish)) :
    (item :: items).mapA h state = (.ok (result :: rest), finish) := by
  rw [mapA_cons_apply, hitem]
  change (List.cons result <$> items.mapA h) after = _
  rw [map_apply, hrest]
  rfl

/-- A run without failure comes to each item behind a run on the items before it. -/
theorem mapA_ok_split {prior rest : List α} {results : List β} {finish : σ}
    (hrun : (prior ++ item :: rest).mapA h state = (.ok results, finish)) :
    ∃ done before result after,
      prior.mapA h state = (.ok done, before) ∧ h item before = (.ok result, after) := by
  induction prior generalizing state results with
  | nil =>
      obtain ⟨result, after, _, hitem, -⟩ := mapA_cons_ok hrun
      exact ⟨[], state, result, after, rfl, hitem⟩
  | cons first prior ih =>
      obtain ⟨result, after, _, hfirst, hrest, -⟩ := mapA_cons_ok hrun
      obtain ⟨done, before, last, finish, hprior, hitem⟩ := ih hrest
      exact ⟨result :: done, before, last, finish, mapA_cons_of_ok hfirst hprior, hitem⟩

/-- A run without failure has come to every item. -/
theorem mapA_ok_mem {results : List β} {finish : σ}
    (hrun : items.mapA h state = (.ok results, finish)) (hmem : item ∈ items) :
    ∃ before result after, h item before = (.ok result, after) := by
  obtain ⟨prior, rest, rfl⟩ := List.append_of_mem hmem
  obtain ⟨_, before, result, after, -, hitem⟩ := mapA_ok_split hrun
  exact ⟨before, result, after, hitem⟩

/-- A run fails as the first step does that fails. -/
theorem mapA_error_iff {error : E} :
    (items.mapA h state).1 = .error error ↔
      ∃ prior item rest results before, items = prior ++ item :: rest ∧
        prior.mapA h state = (.ok results, before) ∧ (h item before).1 = .error error := by
  induction items generalizing state with
  | nil => exact iff_of_false (nomatch ·) (by simp)
  | cons first items ih =>
      rw [mapA_cons_apply]
      rcases hfirst : h first state with ⟨failure | result, after⟩
      · constructor
        · intro herror
          obtain rfl : failure = error := Except.error.inj herror
          exact ⟨[], first, items, [], state, rfl, rfl, congrArg Prod.fst hfirst⟩
        · rintro ⟨prior, item, rest, results, before, hsplit, hprior, hitem⟩
          cases prior with
          | nil =>
              cases hsplit
              cases hprior
              rw [hfirst] at hitem
              cases hitem
              rfl
          | cons _ prior =>
              cases hsplit
              obtain ⟨_, _, _, hok, -⟩ := mapA_cons_ok hprior
              cases hfirst.symm.trans hok
      · change ((List.cons result <$> items.mapA h) after).1 = .error error ↔ _
        have hmap : ((List.cons result <$> items.mapA h) after).1 = .error error ↔
            (items.mapA h after).1 = .error error := by
          rw [map_apply]
          rcases items.mapA h after with ⟨_ | _, _⟩ <;> simp [Except.map]
        rw [hmap, ih]
        constructor
        · rintro ⟨prior, item, rest, results, before, rfl, hprior, hitem⟩
          exact ⟨first :: prior, item, rest, result :: results, before, rfl,
            mapA_cons_of_ok hfirst hprior, hitem⟩
        · rintro ⟨prior, item, rest, results, before, hsplit, hprior, hitem⟩
          cases prior with
          | nil =>
              cases hsplit
              cases hprior
              rw [hfirst] at hitem
              cases hitem
          | cons _ prior =>
              cases hsplit
              obtain ⟨_, _, results, hok, hprior, -⟩ := mapA_cons_ok hprior
              cases hfirst.symm.trans hok
              exact ⟨prior, item, rest, results, before, rfl, hprior, hitem⟩

/-- What holds before the first item and is kept by every step holds of a whole run. -/
theorem mapA_invariant_run (Invariant : List α → List β → σ → Prop)
    (hstep : ∀ {done item results result state after}, Invariant done results state →
      h item state = (.ok result, after) →
      Invariant (done ++ [item]) (results ++ [result]) after)
    {results : List β} {finish : σ} (hstart : Invariant [] [] state)
    (hrun : items.mapA h state = (.ok results, finish)) : Invariant items results finish :=
  mapA_invariant Invariant hstep hstart hrun

/-- A run does not fail if what holds at the start and is kept by every step rules out that the
next step fails. -/
theorem mapA_succeeds (Invariant : List α → List β → σ → Prop)
    (hstep : ∀ {done item results result state after}, Invariant done results state →
      h item state = (.ok result, after) →
      Invariant (done ++ [item]) (results ++ [result]) after)
    {done : List α} {before : List β}
    (hnext : ∀ prior item rest results state, prior ++ item :: rest = done ++ items →
      Invariant prior results state → ∃ result after, h item state = (.ok result, after))
    (hstart : Invariant done before state) :
    ∃ results finish, items.mapA h state = (.ok results, finish) := by
  induction items generalizing done before state with
  | nil => exact ⟨[], state, rfl⟩
  | cons item items ih =>
      obtain ⟨result, after, hitem⟩ := hnext done item items before state rfl hstart
      have hsplit : done ++ item :: items = done ++ [item] ++ items := by simp
      rw [hsplit] at hnext
      obtain ⟨rest, finish, hrest⟩ := ih hnext (hstep hstart hitem)
      exact ⟨result :: rest, finish, mapA_cons_of_ok hitem hrest⟩

end Steps

section

variable {F : Type → Type} [Applicative F] [LawfulApplicative F] {V W : Type}

theorem Leaf.values_map_mapA (h : V → F W) (leaves : List (Leaf R V)) :
    List.filterMap value? <$> leaves.mapA (traverse pure h) = (leaves.filterMap value?).mapA h := by
  induction leaves with
  | nil => exact map_pure _ _
  | cons leaf leaves ih =>
      cases leaf with
      | remote target =>
          change _ = (leaves.filterMap value?).mapA h
          rw [← ih, List.mapA]
          simp only [traverse, functor_norm]
          rfl
      | value value =>
          change _ = (value :: leaves.filterMap value?).mapA h
          rw [List.mapA, List.mapA, ← ih]
          simp [traverse, functor_norm, Function.comp_def, value?]

/-- A traversal that leaves remote targets alone ends in the values that a run on the values ends
in. -/
theorem TreeKind.values_map_traverse (h : V → F W) (kind : TreeKind) (tree : kind.Tree b R V) :
    kind.values <$> kind.traverse pure h tree = (kind.values tree).mapA h := by
  have hvalues : (kind.values : kind.Tree b R W → List W) =
      List.filterMap Leaf.value? ∘ kind.leaves := rfl
  rw [hvalues, comp_map, leaves_map_traverse, Leaf.values_map_mapA]
  rfl

end

namespace TreeKind

variable {session : Session} {share : Bool} {kind : TreeKind} {tree : kind.Tree b R (Unprepared b)}

/-- Steps on a tree that do not fail are a run on its values. -/
theorem prepareSteps_values {prepared : kind.Tree b R (Prepared b)} {before after : Preparation b}
    (hrun : kind.prepareSteps session share tree before = (.ok prepared, after)) :
    (kind.values tree).mapA (Preparation.prepareValue session share) before =
      (.ok (kind.values prepared), after) := by
  rw [← values_map_traverse, Steps.map_apply, ← prepareSteps, hrun]
  rfl

/-- The values of a prepared tree and what they refer to come from a run on the values. -/
theorem prepare_values {prepared : kind.Tree b R (Prepared b)} {bindings : Bindings b}
    (hprepare : kind.prepare session share tree = .ok (prepared, bindings)) :
    ∃ preparation, (kind.values tree).mapA (Preparation.prepareValue session share) {} =
      (.ok (kind.values prepared), preparation) ∧ preparation.bindings = bindings := by
  obtain ⟨preparation, hrun, hbindings⟩ := prepare_ok hprepare
  exact ⟨preparation, prepareSteps_values hrun, hbindings⟩

theorem prepare_succeeds_iff :
    (∃ result, kind.prepare session share tree = .ok result) ↔
      ∃ results finish, (kind.values tree).mapA (Preparation.prepareValue session share) {} =
        (.ok results, finish) := by
  constructor
  · rintro ⟨⟨prepared, bindings⟩, hprepare⟩
    obtain ⟨preparation, hrun, -⟩ := prepare_values hprepare
    exact ⟨_, _, hrun⟩
  · rintro ⟨results, finish, hrun⟩
    rw [← values_map_traverse] at hrun
    obtain ⟨prepared, hsteps, -⟩ := Steps.map_apply_ok hrun
    refine ⟨(prepared, finish.bindings), ?_⟩
    rw [prepare, show Preparation.run (kind.prepareSteps session share tree) = _ from hsteps]

end TreeKind

end SelectPlan
