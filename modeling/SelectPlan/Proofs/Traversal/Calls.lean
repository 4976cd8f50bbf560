import SelectPlan.Proofs.Traversal.Trees

/-!
Traversals with functions that keep a state and may fail.  Such a traversal calls its functions on
the leaves one after the other, up to and including the first call that fails.
-/

namespace SelectPlan

/-- Steps that change a state and may fail. -/
abbrev Steps (E σ : Type) := ExceptT E (StateM σ)

/-- A call of a function: what it was called on and what it answered. -/
structure Call (E α β : Type) where
  item : α
  answer : Except E β

variable {E σ A B U α β : Type}

/-- Runs `h` and writes the call down behind those that were made before. -/
def noted (item : A → α) (result : B → β) (h : A → Steps E σ B) (a : A) :
    Steps E (σ × List (Call E α β)) B :=
  fun (state, calls) =>
    let (answer, state) := h a state
    (answer, state, calls ++ [⟨item a, answer.map result⟩])

/-- The calls of `h` on the items, one after the other, and the state behind them.  There is no
call after one that fails. -/
def callsOn (h : α → Steps E σ β) : List α → σ → List (Call E α β) × σ
  | [], state => ([], state)
  | item :: items, state =>
      match h item state with
      | (.error error, state) => ([⟨item, .error error⟩], state)
      | (.ok result, state) =>
          let (calls, state) := callsOn h items state
          (⟨item, .ok result⟩ :: calls, state)

namespace Call

/-- There was one call on every item, and these are the results. -/
def Completed (items : List α) (results : List β) (calls : List (Call E α β)) : Prop :=
  calls.map item = items ∧ calls.map answer = results.map .ok

/-- There was one call on every item up to the one that failed, and none after it. -/
def Stopped (items : List α) (error : E) (calls : List (Call E α β)) : Prop :=
  ∃ done last rest, items = done.map item ++ last :: rest ∧
    calls = done ++ [⟨last, .error error⟩] ∧ ∀ call ∈ done, ∃ result, call.answer = .ok result

/-- How the calls on the items explain what a traversal came to. -/
def Explain (items : List α) : Except E (List β) → List (Call E α β) → Prop
  | .ok results => Completed items results
  | .error error => Stopped items error

theorem Explain.head {item : α} {items : List α} {outcome : Except E (List β)}
    {calls : List (Call E α β)} {result : β} (hexplain : Explain items outcome calls) :
    Explain (item :: items) (outcome.map (result :: ·)) (⟨item, .ok result⟩ :: calls) := by
  cases outcome with
  | ok results =>
      obtain ⟨hitems, hanswers⟩ := hexplain
      constructor
      · rw [List.map_cons, hitems]
      · rw [List.map_cons, hanswers]
        rfl
  | error error =>
      obtain ⟨done, last, rest, hitems, hcalls, hdone⟩ := hexplain
      refine ⟨⟨item, .ok result⟩ :: done, last, rest, ?_, ?_, ?_⟩
      · rw [List.map_cons, List.cons_append, hitems]
      · rw [hcalls, List.cons_append]
      · intro call hcall
        rcases List.mem_cons.mp hcall with rfl | hcall
        · exact ⟨result, rfl⟩
        · exact hdone call hcall

end Call

namespace Steps

/-- What follows a step, given the answer of that step. -/
def followedBy (next : A → Steps E σ B) : Except E A × σ → Except E B × σ
  | (.ok result, state) => next result state
  | (.error error, state) => (.error error, state)

theorem bind_apply (steps : Steps E σ A) (next : A → Steps E σ B) (state : σ) :
    (steps >>= next) state = followedBy next (steps state) := by
  change ExceptT.bindCont next (steps state).1 (steps state).2 = _
  rcases steps state with ⟨_ | _, after⟩ <;> rfl

theorem map_apply (f : A → B) (steps : Steps E σ A) (state : σ) :
    (f <$> steps) state = ((steps state).1.map f, (steps state).2) := by
  rw [map_eq_pure_bind, bind_apply]
  rcases steps state with ⟨_ | _, after⟩ <;> rfl

theorem seq_apply (steps : Steps E σ (A → B)) (next : Steps E σ A) (state : σ) :
    (steps <*> next) state = followedBy (· <$> next) (steps state) := by
  rw [seq_eq_bind_map, bind_apply]

variable (h : α → Steps E σ β) (item : α) (items : List α) (state : σ)

theorem mapA_cons_apply :
    (item :: items).mapA h state =
      followedBy (fun result => List.cons result <$> items.mapA h) (h item state) := by
  rw [List.mapA, seq_apply, map_apply]
  rcases h item state with ⟨_ | _, after⟩ <;> rfl

theorem map_apply_ok {f : A → B} {steps : Steps E σ A} {before finish : σ} {result : B}
    (hrun : (f <$> steps) before = (.ok result, finish)) :
    ∃ part, steps before = (.ok part, finish) ∧ f part = result := by
  rw [map_apply] at hrun
  rcases hsteps : steps before with ⟨error | part, after⟩
  · rw [hsteps] at hrun
    cases hrun
  · rw [hsteps] at hrun
    cases hrun
    exact ⟨part, rfl, rfl⟩

variable {h item items state} in
theorem mapA_cons_ok {results : List β} {finish : σ}
    (hrun : (item :: items).mapA h state = (.ok results, finish)) :
    ∃ result after rest, h item state = (.ok result, after) ∧
      items.mapA h after = (.ok rest, finish) ∧ results = result :: rest := by
  rw [mapA_cons_apply] at hrun
  rcases hitem : h item state with ⟨error | result, after⟩
  · rw [hitem] at hrun
    cases hrun
  · rw [hitem] at hrun
    obtain ⟨rest, hrest, hresults⟩ := map_apply_ok hrun
    exact ⟨result, after, rest, rfl, hrest, hresults.symm⟩

/-- What holds at the start and is kept by every step holds at the end of a run without failure. -/
theorem mapA_invariant {h : α → Steps E σ β} (Invariant : List α → List β → σ → Prop)
    (hstep : ∀ {done results item result state after}, Invariant done results state →
      h item state = (.ok result, after) →
      Invariant (done ++ [item]) (results ++ [result]) after)
    {done items : List α} {before results : List β} {state finish : σ}
    (hstart : Invariant done before state)
    (hrun : items.mapA h state = (.ok results, finish)) :
    Invariant (done ++ items) (before ++ results) finish := by
  induction items generalizing done before state results with
  | nil =>
      cases hrun
      rw [List.append_nil, List.append_nil]
      exact hstart
  | cons item items ih =>
      obtain ⟨result, after, rest, hitem, hrest, rfl⟩ := mapA_cons_ok hrun
      have hend := ih (hstep hstart hitem) hrest
      rw [List.append_assoc, List.append_assoc] at hend
      exact hend

theorem callsOn_state : (callsOn h items state).2 = (items.mapA h state).2 := by
  induction items generalizing state with
  | nil => rfl
  | cons item items ih =>
      rw [mapA_cons_apply, callsOn]
      rcases h item state with ⟨error | result, after⟩
      · rfl
      · change (callsOn h items after).2 = ((List.cons result <$> items.mapA h) after).2
        rw [map_apply, ih after]

theorem callsOn_explain :
    Call.Explain items (items.mapA h state).1 (callsOn h items state).1 := by
  induction items generalizing state with
  | nil => exact ⟨rfl, rfl⟩
  | cons item items ih =>
      rw [mapA_cons_apply, callsOn]
      rcases h item state with ⟨error | result, after⟩
      · exact ⟨[], item, items, rfl, rfl, fun _ hcall => absurd hcall List.not_mem_nil⟩
      · change Call.Explain (item :: items) ((List.cons result <$> items.mapA h) after).1
          (⟨item, .ok result⟩ :: (callsOn h items after).1)
        rw [map_apply]
        exact (ih after).head

/-- Functions that write their calls down write down the calls on the items. -/
theorem mapA_noted (calls : List (Call E α β)) :
    items.mapA (noted id id h) (state, calls) =
      ((items.mapA h state).1, (items.mapA h state).2, calls ++ (callsOn h items state).1) := by
  induction items generalizing state calls with
  | nil =>
      rw [callsOn, List.append_nil]
      rfl
  | cons item items ih =>
      rw [mapA_cons_apply, mapA_cons_apply, callsOn, noted]
      rcases h item state with ⟨error | result, after⟩
      · rfl
      · change (List.cons result <$> items.mapA (noted id id h)) (after, _) = _
        rw [map_apply, ih after, List.append_assoc]
        change _ = (((List.cons result <$> items.mapA h) after).1,
          ((List.cons result <$> items.mapA h) after).2, _)
        rw [map_apply]
        rfl

end Steps

namespace Leaf

variable {R S V W : Type}

theorem traverse_noted (f : R → Steps E σ S) (g : V → Steps E σ W) :
    traverse (noted remote remote f) (noted value value g) =
      noted (E := E) (α := Leaf R V) id id (traverse f g) := by
  funext leaf ⟨state, calls⟩
  cases leaf with
  | remote target =>
      rw [traverse, Steps.map_apply, noted, noted, traverse, Steps.map_apply]
      rcases f target state with ⟨_ | _, after⟩ <;> rfl
  | value leaf =>
      rw [traverse, Steps.map_apply, noted, noted, traverse, Steps.map_apply]
      rcases g leaf state with ⟨_ | _, after⟩ <;> rfl

end Leaf

namespace TreeKind

variable {b : Backend} {R S V W : Type}

/-- A traversal ends in the leaves that a run on the leaves ends in. -/
theorem leaves_map_traverse {F : Type → Type} [Applicative F] [LawfulApplicative F] (f : R → F S)
    (g : V → F W) (kind : TreeKind) (tree : kind.Tree b R V) :
    kind.leaves <$> kind.traverse f g tree = (kind.leaves tree).mapA (Leaf.traverse f g) := by
  have hvisits := congrArg (Prod.fst <$> ·) (kind.traverse_visits f g tree)
  simpa [← comp_map, Function.comp_def] using hvisits

/-- A run without failure ends in a tree of the same shape, whose leaves are the results on the
leaves. -/
theorem traverse_ok {f : R → Steps E σ S} {g : V → Steps E σ W} {kind : TreeKind}
    {tree : kind.Tree b R V} {result : kind.Tree b S W} {start finish : σ}
    (hrun : kind.traverse f g tree start = (.ok result, finish)) :
    kind.shape result = kind.shape tree ∧
      (kind.leaves tree).mapA (Leaf.traverse f g) start = (.ok (kind.leaves result), finish) := by
  have hvisits := congrFun (kind.traverse_visits f g tree) start
  rw [Steps.map_apply, hrun] at hvisits
  obtain ⟨results, hresults, hview⟩ := Steps.map_apply_ok hvisits.symm
  obtain ⟨rfl, hshape⟩ := Prod.mk.inj hview
  exact ⟨hshape.symm, hresults⟩

/-- A traversal calls its functions on the leaves of the tree, in reading order, up to and
including the first call that fails: it fails as that call does.  If no call fails, the leaves of
the tree it ends in are what the calls answered.  The calls are what functions that write their
calls down have written down at the end. -/
theorem traverse_calls_leaves_in_order (f : R → Steps E σ S) (g : V → Steps E σ W)
    (kind : TreeKind) (tree : kind.Tree b R V) (start : σ) :
    ∃ (outcome : Except E (kind.Tree b S W)) (finish : σ)
      (calls : List (Call E (Leaf R V) (Leaf S W))),
      kind.traverse f g tree start = (outcome, finish) ∧
      (kind.traverse (noted .remote .remote f) (noted .value .value g) tree (start, [])).2 =
        (finish, calls) ∧
      callsOn (Leaf.traverse f g) (kind.leaves tree) start = (calls, finish) ∧
      Call.Explain (kind.leaves tree) (outcome.map kind.leaves) calls := by
  have hrun : ((kind.traverse f g tree start).1.map kind.leaves,
      (kind.traverse f g tree start).2) =
        (kind.leaves tree).mapA (Leaf.traverse f g) start := by
    rw [← Steps.map_apply, leaves_map_traverse]
  have hnoted : (kind.traverse (noted .remote .remote f) (noted .value .value g) tree
      (start, [])).2 = ((kind.leaves tree).mapA (noted id id (Leaf.traverse f g))
        (start, ([] : List (Call E (Leaf R V) (Leaf S W))))).2 := by
    rw [← Leaf.traverse_noted, ← leaves_map_traverse, Steps.map_apply]
  refine ⟨(kind.traverse f g tree start).1, (kind.traverse f g tree start).2,
    (callsOn (Leaf.traverse f g) (kind.leaves tree) start).1, rfl, ?_, ?_, ?_⟩
  · rw [hnoted, Steps.mapA_noted, ← hrun]
    rfl
  · rw [Prod.ext_iff]
    exact ⟨rfl, by rw [Steps.callsOn_state, ← hrun]⟩
  · have hexplain := Steps.callsOn_explain (Leaf.traverse f g) (kind.leaves tree) start
    rw [← hrun] at hexplain
    exact hexplain

end TreeKind

end SelectPlan
