import SelectPlan.Planning.Preparation
import SelectPlan.Proofs.Traversal.Calls

/-!
What the preparation of one value does.  Every case is named once here, with everything that it
does to the parameters; what a whole preparation keeps is proved from these cases.
-/

namespace SelectPlan

variable {b : Backend}

namespace Bindings

theorem parameter?_succ (bindings : Bindings b) (index : Nat) :
    bindings.parameter? (index + 1) = bindings.parameters[index]? :=
  rfl

theorem parameter?_range {bindings : Bindings b} {index : Nat} {value : ColumnValue b}
    (hfound : bindings.parameter? index = some value) :
    1 ≤ index ∧ index ≤ bindings.parameters.length := by
  cases index with
  | zero => cases hfound
  | succ index =>
      rw [parameter?_succ] at hfound
      obtain ⟨hlength, -⟩ := List.getElem?_eq_some_iff.mp hfound
      omega

/-- Parameters stay where they are while others are added behind them. -/
theorem parameter?_of_grown {before after : Bindings b}
    (hgrown : before.parameters <+: after.parameters) {index : Nat} {value : ColumnValue b}
    (hfound : before.parameter? index = some value) : after.parameter? index = some value := by
  cases index with
  | zero => cases hfound
  | succ index =>
      obtain ⟨added, hadded⟩ := hgrown
      rw [parameter?_succ] at hfound ⊢
      obtain ⟨hlength, -⟩ := List.getElem?_eq_some_iff.mp hfound
      rw [← hadded, List.getElem?_append_left hlength, hfound]

end Bindings

namespace Preparation

/-- What the preparation of a value can do to the bindings. -/
inductive ValueStep (before after : Bindings b) : Unprepared b → Prepared b → Prop
  | literal {value : Scalar} (hsame : after = before) :
      ValueStep before after (.literal value) (.literal value)
  | session (hsame : after = before) : ValueStep before after .session .session
  | sessionVariable {name : String} {type : ScalarType b}
      (hsame : after.parameters = before.parameters) :
      ValueStep before after (.sessionVariable name type) (.sessionVariable name type)
  /-- The value becomes a new parameter. -/
  | added {provenance : Provenance} {value : ColumnValue b}
      (hafter : after = { before with parameters := before.parameters ++ [value] }) :
      ValueStep before after (.parameter provenance value)
        (.param (before.parameters.length + 1))
  /-- The value is a parameter already. -/
  | shared {provenance : Provenance} {value : ColumnValue b} {index : Nat}
      (hfound : before.parameter? index = some value) (hsame : after = before) :
      ValueStep before after (.parameter provenance value) (.param index)

variable {session : Session} {share : Bool} {preparation after : Preparation b}

theorem addParameter_eq (preparation : Preparation b) (value : ColumnValue b) :
    preparation.addParameter value =
      (preparation.bindings.parameters.length + 1,
        { preparation with bindings := { preparation.bindings with
          parameters := preparation.bindings.parameters ++ [value] } }) := by
  rw [addParameter, List.length_append, List.length_singleton]

/-- How a parameter is bound, with everything that binding it changes. -/
inductive Binds (share : Bool) (provenance : Provenance) (value : ColumnValue b)
    (before : Preparation b) : Nat → Preparation b → Prop
  /-- A new parameter that no other use shares. -/
  | alone (hname : share = true → provenance.variableName? = none) :
      Binds share provenance value before (before.bindings.parameters.length + 1)
        { before with
          bindings := { before.bindings with parameters := before.bindings.parameters ++ [value] } }
  /-- A new parameter for the first use of a variable. -/
  | first {name : String} (hshare : share = true) (hname : provenance.variableName? = some name)
      (hfresh : before.bound.lookup name = none) :
      Binds share provenance value before (before.bindings.parameters.length + 1)
        { before with
          bindings := { before.bindings with parameters := before.bindings.parameters ++ [value] }
          bound := before.bound ++ [(name, before.bindings.parameters.length + 1)] }
  /-- The parameter that an earlier use of the variable is bound to. -/
  | again {name : String} {index : Nat} (hshare : share = true)
      (hname : provenance.variableName? = some name)
      (hbound : before.bound.lookup name = some index)
      (hfound : before.bindings.parameter? index = some value) :
      Binds share provenance value before index
        { before with reuses := before.reuses ++ [⟨name, index⟩] }

theorem bindNew_ok_iff {provenance : Provenance} {value : ColumnValue b} {index : Nat}
    (hname : share = true → provenance.variableName? = none) :
    bindNew value preparation = (.ok index, after) ↔
      Binds share provenance value preparation index after := by
  rw [bindNew, addParameter_eq]
  constructor
  · intro hrun
    cases hrun
    exact .alone hname
  · intro hbinds
    cases hbinds with
    | alone _ => rfl
    | first hshare hsome _ => cases (hname hshare).symm.trans hsome
    | again hshare hsome _ _ => cases (hname hshare).symm.trans hsome

theorem bindVariable_ok_iff {provenance : Provenance} {name : String} {value : ColumnValue b}
    {index : Nat} (hname : provenance.variableName? = some name) :
    bindVariable name value preparation = (.ok index, after) ↔
      Binds true provenance value preparation index after := by
  rw [bindVariable]
  constructor
  · intro hrun
    split at hrun
    · next hbound =>
      split at hrun
      · next hfound =>
        cases hrun
        exact .again rfl hname hbound hfound
      · cases hrun
    · next hfresh =>
      rw [addParameter_eq] at hrun
      cases hrun
      exact .first rfl hname hfresh
  · intro hbinds
    cases hbinds with
    | alone hnone => cases (hnone rfl).symm.trans hname
    | first _ hsome hfresh =>
        cases hname.symm.trans hsome
        rw [hfresh, addParameter_eq]
    | again _ hsome hbound hfound =>
        cases hname.symm.trans hsome
        rw [hbound]
        exact if_pos hfound

theorem prepareValue_iff_of_steps {value : Unprepared b} {prepared : Prepared b}
    {steps : PrepareM b Nat} {Bound : Nat → Prop}
    (hsteps : prepareValue session share value = .param <$> steps)
    (hbound : ∀ index, steps preparation = (.ok index, after) ↔ Bound index) :
    prepareValue session share value preparation = (.ok prepared, after) ↔
      ∃ index, Bound index ∧ prepared = .param index := by
  rw [hsteps]
  constructor
  · intro hrun
    obtain ⟨index, hindex, hprepared⟩ := Steps.map_apply_ok hrun
    exact ⟨index, (hbound index).mp hindex, hprepared.symm⟩
  · rintro ⟨index, hindex, rfl⟩
    rw [Steps.map_apply, (hbound index).mpr hindex]
    rfl

/-- A parameter is prepared by binding it, which fails only if its variable is bound to another
value. -/
theorem prepareValue_parameter_iff {provenance : Provenance} {value : ColumnValue b}
    {prepared : Prepared b} :
    prepareValue session share (.parameter provenance value) preparation = (.ok prepared, after) ↔
      ∃ index, Binds share provenance value preparation index after ∧
        prepared = .param index := by
  cases share with
  | false => exact prepareValue_iff_of_steps rfl fun _ => bindNew_ok_iff (nomatch ·)
  | true =>
      cases hname : provenance.variableName? with
      | none =>
          have hsteps : prepareValue session true (.parameter provenance value) =
              .param <$> bindNew value := by simp only [prepareValue, hname]
          exact prepareValue_iff_of_steps hsteps fun _ => bindNew_ok_iff fun _ => hname
      | some name =>
          have hsteps : prepareValue session true (.parameter provenance value) =
              .param <$> bindVariable name value := by simp only [prepareValue, hname]
          exact prepareValue_iff_of_steps hsteps fun _ => bindVariable_ok_iff hname

/-- A preparation once a session variable has been read, which is noted only the first time. -/
def noting (preparation : Preparation b) (name : String) : Preparation b :=
  { preparation with
    bindings := { preparation.bindings with
      sessionVariables :=
        if preparation.bindings.sessionVariables.contains (Text.lowercase name) then
          preparation.bindings.sessionVariables
        else preparation.bindings.sessionVariables ++ [Text.lowercase name] } }

theorem readSessionVariable_ok_iff {name : String} :
    readSessionVariable session name preparation = (.ok (), after) ↔
      session.contains name = true ∧ after = preparation.noting name := by
  rw [noting]
  constructor
  · intro hrun
    simp only [readSessionVariable] at hrun
    split at hrun
    · next hset =>
      refine ⟨hset, ?_⟩
      split at hrun
      · next hread =>
        cases hrun
        rw [if_pos hread]
      · next hread =>
        cases hrun
        rw [if_neg hread]
    · cases hrun
  · rintro ⟨hset, rfl⟩
    simp only [readSessionVariable, hset, if_true]
    split <;> rfl

/-- A session variable is prepared by reading it, which fails only if it is not set. -/
theorem prepareValue_sessionVariable_iff {name : String} {type : ScalarType b}
    {prepared : Prepared b} :
    prepareValue session share (.sessionVariable name type) preparation = (.ok prepared, after) ↔
      session.contains name = true ∧ prepared = .sessionVariable name type ∧
        after = preparation.noting name := by
  constructor
  · intro hrun
    obtain ⟨⟨⟩, hread, hprepared⟩ := Steps.map_apply_ok hrun
    obtain ⟨hset, hafter⟩ := readSessionVariable_ok_iff.mp hread
    exact ⟨hset, hprepared.symm, hafter⟩
  · rintro ⟨hset, rfl, rfl⟩
    have hread : readSessionVariable session name preparation =
        (.ok (), preparation.noting name) := readSessionVariable_ok_iff.mpr ⟨hset, rfl⟩
    have hsteps := Steps.map_apply (fun _ : Unit => Prepared.sessionVariable name type)
      (readSessionVariable session name) preparation
    rw [hread] at hsteps
    exact hsteps

/-- The preparation of a value that does not fail is one of the steps. -/
theorem prepareValue_step {value : Unprepared b} {prepared : Prepared b}
    (hrun : prepareValue session share value preparation = (.ok prepared, after)) :
    ValueStep preparation.bindings after.bindings value prepared := by
  cases value with
  | literal value =>
      cases hrun
      exact .literal rfl
  | parameter provenance value =>
      obtain ⟨index, hbinds, rfl⟩ := prepareValue_parameter_iff.mp hrun
      cases hbinds with
      | alone _ => exact .added rfl
      | first _ _ _ => exact .added rfl
      | again _ _ _ hfound => exact .shared hfound rfl
  | sessionVariable name type =>
      obtain ⟨-, rfl, rfl⟩ := prepareValue_sessionVariable_iff.mp hrun
      exact .sessionVariable rfl
  | session =>
      cases hrun
      exact .session rfl

namespace ValueStep

variable {before after : Bindings b} {value : Unprepared b} {prepared : Prepared b}

/-- Parameters are only ever added behind those that there are. -/
theorem parameters_grown (hstep : ValueStep before after value prepared) :
    before.parameters <+: after.parameters := by
  cases hstep with
  | literal hsame => exact hsame ▸ List.prefix_rfl
  | session hsame => exact hsame ▸ List.prefix_rfl
  | sessionVariable hsame => exact hsame ▸ List.prefix_rfl
  | added hafter =>
      rw [hafter]
      exact List.prefix_append _ _
  | shared hfound hsame => exact hsame ▸ List.prefix_rfl

end ValueStep

end Preparation

namespace TreeKind

/-- A preparation that does not fail is a run of its steps from the start. -/
theorem prepare_ok {R : Type} {session : Session} {share : Bool} {kind : TreeKind}
    {tree : kind.Tree b R (Unprepared b)} {prepared : kind.Tree b R (Prepared b)}
    {bindings : Bindings b}
    (hprepare : kind.prepare session share tree = .ok (prepared, bindings)) :
    ∃ preparation, kind.prepareSteps session share tree {} = (.ok prepared, preparation) ∧
      preparation.bindings = bindings := by
  rw [prepare] at hprepare
  rcases hrun : Preparation.run (kind.prepareSteps session share tree) with
    ⟨error | result, preparation⟩
  · rw [hrun] at hprepare
    cases hprepare
  · rw [hrun] at hprepare
    cases hprepare
    exact ⟨preparation, hrun, rfl⟩

end TreeKind

end SelectPlan
