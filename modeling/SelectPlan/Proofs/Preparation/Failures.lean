import SelectPlan.Proofs.Preparation.Sharing

/-!
Failures of a preparation.  Whether a value can be prepared depends on the session and on the
values before it, and a preparation stops at the first value that cannot.  What it reports is told
by that value and by the values before it.
-/

namespace SelectPlan

variable {b : Backend} {R : Type}

namespace Unprepared

/-- A value that cannot be prepared behind the values before it.  It reads a session variable that
is not set, or uses of a request variable share a parameter and an earlier one has another value. -/
def Bad (session : Session) (share : Bool) (earlier : List (Unprepared b)) : Unprepared b → Prop
  | .sessionVariable name _ => Text.lowercase name ∉ session.names
  | .parameter provenance value =>
      share = true ∧ ∃ use ∈ earlier.filterMap use?,
        use.SharesWith ⟨provenance, value⟩ ∧ use.value ≠ value
  | .literal _ | .session => False

/-- No value is bad. -/
def NoneBad (session : Session) (share : Bool) (values : List (Unprepared b)) : Prop :=
  ∀ prior value later, values = prior ++ value :: later → ¬ value.Bad session share prior

/-- How a bad value is reported.  A session variable is named as it is written.  A request variable
is named with the position of the parameter that its first use brought: as many parameters are
brought up to and including that use. -/
inductive Reports (earlier : List (Unprepared b)) : Unprepared b → Error → Prop
  | sessionVariable {name : String} {type : ScalarType b} :
      Reports earlier (.sessionVariable name type)
        { reason := .notFound name "session variable"
          hints := ["session variables are matched case-insensitively"] }
  | parameter {name : String} {value : ColumnValue b} {before rest : List (ParameterUse b)}
      {first : ParameterUse b} (hearlier : earlier.filterMap use? = before ++ first :: rest)
      (hname : first.provenance = .request (some name))
      (hfirst : ∀ use ∈ before, use.provenance ≠ .request (some name)) :
      Reports earlier (.parameter (.request (some name)) value)
        { reason := .bug (some ("variable `" ++ name ++ "` bound to parameter $" ++
            toString (ParameterUse.firstUses (before ++ [first])).length ++
            " with a different value")) }

end Unprepared

namespace Preparation

variable {session : Session} {share : Bool} {before after preparation : Preparation b}

/-! One value -/

/-- Why a value cannot be prepared, in terms of what has been prepared. -/
inductive Fails (session : Session) (share : Bool) (before : Preparation b) :
    Unprepared b → PreparationError → Prop
  | unset {name : String} {type : ScalarType b} (hunset : session.contains name = false) :
      Fails session share before (.sessionVariable name type) (.unknownSessionVariable name)
  | rebound {provenance : Provenance} {value : ColumnValue b} {name : String} {index : Nat}
      (hshare : share = true) (hname : provenance.variableName? = some name)
      (hbound : before.bound.lookup name = some index)
      (hother : before.bindings.parameter? index ≠ some value) :
      Fails session share before (.parameter provenance value) (.rebound name index)

theorem map_error_iff {α β : Type} {f : α → β} {steps : PrepareM b α} {cause : PreparationError} :
    ((f <$> steps) before).1 = .error cause ↔ (steps before).1 = .error cause := by
  rw [Steps.map_apply]
  rcases steps before with ⟨_ | _, _⟩ <;> simp [Except.map]

theorem readSessionVariable_error_iff {name : String} {cause : PreparationError} :
    (readSessionVariable session name before).1 = .error cause ↔
      session.contains name = false ∧ .unknownSessionVariable name = cause := by
  simp only [readSessionVariable]
  by_cases hset : session.contains name = true
  · rw [if_pos hset]
    refine iff_of_false ?_ (by simp [hset])
    split <;> simp
  · simp [hset]

theorem bindVariable_error_iff {name : String} {value : ColumnValue b} {cause : PreparationError} :
    (bindVariable name value before).1 = .error cause ↔
      ∃ index, before.bound.lookup name = some index ∧
        before.bindings.parameter? index ≠ some value ∧ .rebound name index = cause := by
  rw [bindVariable]
  cases hbound : before.bound.lookup name with
  | none => simp
  | some index => by_cases hfound : before.bindings.parameter? index = some value <;> simp [hfound]

/-- The preparation of a value fails in one of these ways and in no other. -/
theorem prepareValue_error_iff {value : Unprepared b} {cause : PreparationError} :
    (prepareValue session share value before).1 = .error cause ↔
      Fails session share before value cause := by
  cases value with
  | literal value => refine iff_of_false ?_ ?_ <;> rintro ⟨⟩
  | session => refine iff_of_false ?_ ?_ <;> rintro ⟨⟩
  | sessionVariable name type =>
      have hsteps : prepareValue session share (.sessionVariable name type) =
          (fun _ => Prepared.sessionVariable name type) <$> readSessionVariable session name := rfl
      rw [hsteps, map_error_iff, readSessionVariable_error_iff]
      constructor
      · rintro ⟨hunset, rfl⟩
        exact .unset hunset
      · rintro ⟨hunset⟩
        exact ⟨hunset, rfl⟩
  | parameter provenance value =>
      by_cases hnamed : share = true ∧ ∃ name, provenance.variableName? = some name
      · obtain ⟨rfl, name, hname⟩ := hnamed
        have hsteps : prepareValue session true (.parameter provenance value) =
            .param <$> bindVariable name value := by simp only [prepareValue, hname]
        rw [hsteps, map_error_iff, bindVariable_error_iff]
        constructor
        · rintro ⟨index, hbound, hother, rfl⟩
          exact .rebound rfl hname hbound hother
        · rintro (_ | ⟨_, hsome, hbound, hother⟩)
          cases hname.symm.trans hsome
          exact ⟨_, hbound, hother, rfl⟩
      · have hbinds : ∃ index after, Binds share provenance value before index after := by
          refine ⟨_, _, .alone fun hshare => ?_⟩
          rw [Option.eq_none_iff_forall_ne_some]
          exact fun name hname => hnamed ⟨hshare, name, hname⟩
        obtain ⟨index, after, hbinds⟩ := hbinds
        have hok : prepareValue session share (.parameter provenance value) before =
            (.ok (.param index), after) := prepareValue_parameter_iff.mpr ⟨index, hbinds, rfl⟩
        rw [hok]
        refine iff_of_false (by rintro ⟨⟩) ?_
        rintro (_ | ⟨hshare, hname, _, _⟩)
        exact hnamed ⟨hshare, _, hname⟩

/-! The values before it -/

/-- What holds while uses of one variable share a parameter: every variable is bound to the
parameter that its first use brought. -/
structure Accounted (uses : List (ParameterUse b)) (indices : List Nat)
    (preparation : Preparation b) : Prop extends Shared uses indices preparation where
  first_bound : ∀ earlier first rest name, uses = earlier ++ first :: rest →
    first.provenance = .request (some name) →
    (∀ use ∈ earlier, use.provenance ≠ .request (some name)) →
    preparation.bound.lookup name = some (ParameterUse.firstUses (earlier ++ [first])).length

namespace Accounted

variable {uses : List (ParameterUse b)} {indices : List Nat} {index : Nat}

theorem nil : Accounted ([] : List (ParameterUse b)) [] {} where
  toShared := .nil
  first_bound earlier first rest name hsplit := by simp at hsplit

theorem of_unchanged (haccounted : Accounted uses indices before)
    (hparameters : after.bindings.parameters = before.bindings.parameters)
    (hbound : after.bound = before.bound) : Accounted uses indices after where
  toShared := haccounted.toShared.of_unchanged hparameters hbound
  first_bound := hbound ▸ haccounted.first_bound

/-- A variable that no use has named is not bound. -/
theorem lookup_eq_none (haccounted : Accounted uses indices before) {name : String}
    (hunused : ∀ use ∈ uses, use.provenance ≠ .request (some name)) :
    before.bound.lookup name = none := by
  rw [Option.eq_none_iff_forall_ne_some]
  intro index hlookup
  obtain ⟨use, hmem, hname⟩ := (haccounted.bound_iff name index).mp hlookup
  exact hunused use (List.of_mem_zip hmem).1 hname

theorem of_binds {provenance : Provenance} {value : ColumnValue b}
    (haccounted : Accounted uses indices before)
    (hbinds : Binds true provenance value before index after) :
    Accounted (uses ++ [⟨provenance, value⟩]) (indices ++ [index]) after where
  toShared := haccounted.toShared.of_binds hbinds
  first_bound earlier first rest name hsplit hname hfirst := by
    -- the first use of the variable is the new one, or it was there before
    rcases List.eq_nil_or_concat rest with rfl | ⟨rest, last, rfl⟩
    · obtain ⟨rfl, hlast⟩ := List.append_inj' hsplit rfl
      cases hlast
      have hunbound := haccounted.lookup_eq_none hfirst
      have hnamed := Provenance.variableName?_eq_some_iff.mpr hname
      cases hbinds with
      | alone hnone => cases (hnone rfl).symm.trans hnamed
      | again _ hsome hlookup _ =>
          cases hnamed.symm.trans hsome
          cases hunbound.symm.trans hlookup
      | first _ hsome _ =>
          cases hnamed.symm.trans hsome
          have hnone : ¬ ∃ use ∈ uses, use.SharesWith ⟨provenance, value⟩ := by
            rintro ⟨use, hmem, other, hother, hsame⟩
            cases hname.symm.trans hsame
            exact hfirst use hmem hother
          rw [List.lookup_append, hunbound, ParameterUse.firstUses_concat, if_neg hnone,
            List.length_append, haccounted.parameters_eq, List.length_map]
          simp
    · have hinit : uses ++ [⟨provenance, value⟩] = (earlier ++ first :: rest) ++ [last] := by
        rw [hsplit, List.append_assoc, List.cons_append, List.concat_eq_append]
      obtain ⟨huses, -⟩ := List.append_inj' hinit rfl
      have hbound := haccounted.first_bound earlier first rest name huses hname hfirst
      cases hbinds with
      | alone _ => exact hbound
      | again _ _ _ _ => exact hbound
      | first _ _ _ => rw [List.lookup_append, hbound, Option.some_or]

/-- A variable that is bound was used, and its first use has bound it. -/
theorem exists_first (haccounted : Accounted uses indices preparation) {name : String}
    (hlookup : preparation.bound.lookup name = some index) :
    ∃ earlier first rest, uses = earlier ++ first :: rest ∧
      first.provenance = .request (some name) ∧
      (∀ use ∈ earlier, use.provenance ≠ .request (some name)) ∧
      index = (ParameterUse.firstUses (earlier ++ [first])).length := by
  obtain ⟨use, hmem, hname⟩ := (haccounted.bound_iff name index).mp hlookup
  let named (use : ParameterUse b) : Bool := use.provenance = .request (some name)
  have hsome : (uses.find? named).isSome := by
    rw [List.find?_isSome]
    exact ⟨use, (List.of_mem_zip hmem).1, decide_eq_true hname⟩
  obtain ⟨first, hfind⟩ := Option.isSome_iff_exists.mp hsome
  obtain ⟨hfirst, earlier, rest, huses, hearlier⟩ := List.find?_eq_some_iff_append.mp hfind
  have hfirst : first.provenance = .request (some name) := of_decide_eq_true hfirst
  have hearlier : ∀ use ∈ earlier, use.provenance ≠ .request (some name) := by
    intro use huse
    simpa [named] using hearlier use huse
  have hbound := haccounted.first_bound earlier first rest name huses hfirst hearlier
  exact ⟨earlier, first, rest, huses, hfirst, hearlier, Option.some.inj (hlookup.symm.trans hbound)⟩

end Accounted

/-- What holds behind some values, as far as failures depend on it. -/
def Behind (share : Bool) (earlier : List (Unprepared b)) (results : List (Prepared b))
    (preparation : Preparation b) : Prop :=
  share = true → Accounted (earlier.filterMap Unprepared.use?)
    (results.filterMap Prepared.index?) preparation

theorem Behind.step {earlier : List (Unprepared b)} {results : List (Prepared b)}
    {value : Unprepared b} {result : Prepared b} (hbehind : Behind share earlier results before)
    (hrun : prepareValue session share value before = (.ok result, after)) :
    Behind share (earlier ++ [value]) (results ++ [result]) after := by
  rintro rfl
  exact uses_step Accounted Accounted.of_unchanged Accounted.of_binds (hbehind rfl) hrun

variable {earlier : List (Unprepared b)} {results : List (Prepared b)} {value : Unprepared b}

/-- A run on values without failure keeps what holds behind them. -/
theorem behind_of_run
    (hrun : earlier.mapA (prepareValue session share) {} = (.ok results, preparation)) :
    Behind share earlier results preparation :=
  Steps.mapA_invariant_run (Behind share) Behind.step (fun _ => .nil) hrun

namespace Behind

/-- What fails is bad, and it is reported as it is to be. -/
theorem bad_of_fails (hbehind : Behind share earlier results preparation)
    {cause : PreparationError} (hfails : Fails session share preparation value cause) :
    value.Bad session share earlier ∧ value.Reports earlier cause.error := by
  cases hfails with
  | @unset name type hunset =>
      refine ⟨fun hset => ?_, .sessionVariable⟩
      rw [← Session.contains_iff, hunset] at hset
      cases hset
  | @rebound provenance value name index hshare hname hbound hother =>
      have haccounted := hbehind hshare
      rw [Provenance.variableName?_eq_some_iff] at hname
      subst hname
      obtain ⟨before, first, rest, huses, hfirst, hbefore, rfl⟩ := haccounted.exists_first hbound
      refine ⟨⟨hshare, ?_⟩, .parameter huses hfirst hbefore⟩
      obtain ⟨use, hmem, hname⟩ := (haccounted.bound_iff name _).mp hbound
      refine ⟨use, (List.of_mem_zip hmem).1, ⟨name, hname, rfl⟩, fun hvalue => hother ?_⟩
      rw [haccounted.holds use _ hmem, hvalue]

/-- What is bad fails. -/
theorem fails_of_bad (hbehind : Behind share earlier results preparation)
    (hbad : value.Bad session share earlier) :
    ∃ cause, Fails session share preparation value cause := by
  cases value with
  | literal value => exact hbad.elim
  | session => exact hbad.elim
  | sessionVariable name type =>
      refine ⟨_, .unset ?_⟩
      rw [Bool.eq_false_iff, ne_eq, Session.contains_iff]
      exact hbad
  | parameter provenance value =>
      obtain ⟨hshare, use, hmem, ⟨name, hname, hsame⟩, hvalue⟩ := hbad
      obtain ⟨index, hbound, hfound⟩ := (hbehind hshare).bound_of_mem hmem hname
      refine ⟨_, .rebound hshare (Provenance.variableName?_eq_some_iff.mpr hsame) hbound ?_⟩
      rw [hfound]
      exact fun hother => hvalue (Option.some.inj hother)

/-- There is one way to report a failure. -/
theorem error_of_reports (hbehind : Behind share earlier results preparation)
    {cause : PreparationError} {error : Error}
    (hfails : Fails session share preparation value cause)
    (hreports : value.Reports earlier error) : cause.error = error := by
  cases hreports with
  | sessionVariable =>
      cases hfails
      rfl
  | @parameter name value before rest first huses hfirst hbefore =>
      cases hfails with
      | rebound hshare hname hbound _ =>
          cases hname
          rw [(hbehind hshare).first_bound before first rest name huses hfirst hbefore] at hbound
          cases hbound
          rfl

end Behind

/-! All values -/

theorem mapA_prepareValue_ok_iff (values : List (Unprepared b)) :
    (∃ results finish, values.mapA (prepareValue session share) {} = (.ok results, finish)) ↔
      Unprepared.NoneBad session share values := by
  constructor
  · rintro ⟨results, finish, hrun⟩ prior value later rfl hbad
    obtain ⟨done, before, result, after, hprior, hvalue⟩ := Steps.mapA_ok_split hrun
    obtain ⟨cause, hfails⟩ := (behind_of_run hprior).fails_of_bad hbad
    have herror := prepareValue_error_iff.mpr hfails
    rw [hvalue] at herror
    cases herror
  · intro hgood
    rcases hrun : values.mapA (prepareValue session share) {} with ⟨cause | results, finish⟩
    · obtain ⟨prior, value, later, results, before, hsplit, hprior, hvalue⟩ :=
        Steps.mapA_error_iff.mp (congrArg Prod.fst hrun)
      have hfails := prepareValue_error_iff.mp hvalue
      exact absurd ((behind_of_run hprior).bad_of_fails hfails).1 (hgood prior value later hsplit)
    · exact ⟨results, finish, rfl⟩

theorem mapA_prepareValue_error_iff (values : List (Unprepared b)) (error : Error) :
    (∃ cause, (values.mapA (prepareValue session share) {}).1 = .error cause ∧
        cause.error = error) ↔
      ∃ prior value later, values = prior ++ value :: later ∧
        Unprepared.NoneBad session share prior ∧ value.Bad session share prior ∧
        value.Reports prior error := by
  constructor
  · rintro ⟨cause, hrun, rfl⟩
    obtain ⟨prior, value, later, results, before, hsplit, hprior, hvalue⟩ :=
      Steps.mapA_error_iff.mp hrun
    have hgood := (mapA_prepareValue_ok_iff prior).mp ⟨results, before, hprior⟩
    obtain ⟨hbad, hreports⟩ :=
      (behind_of_run hprior).bad_of_fails (prepareValue_error_iff.mp hvalue)
    exact ⟨prior, value, later, hsplit, hgood, hbad, hreports⟩
  · rintro ⟨prior, value, later, hsplit, hgood, hbad, hreports⟩
    obtain ⟨results, before, hprior⟩ := (mapA_prepareValue_ok_iff prior).mpr hgood
    obtain ⟨cause, hfails⟩ := (behind_of_run hprior).fails_of_bad hbad
    refine ⟨cause, ?_, (behind_of_run hprior).error_of_reports hfails hreports⟩
    exact Steps.mapA_error_iff.mpr ⟨prior, value, later, results, before, hsplit, hprior,
      prepareValue_error_iff.mpr hfails⟩

end Preparation

namespace TreeKind

theorem prepare_error_iff {session : Session} {share : Bool} {kind : TreeKind}
    {tree : kind.Tree b R (Unprepared b)} {cause : PreparationError} :
    kind.prepare session share tree = .error cause ↔
      ((kind.values tree).mapA (Preparation.prepareValue session share) {}).1 = .error cause := by
  have hrun : Preparation.run (kind.prepareSteps session share tree) =
      kind.prepareSteps session share tree {} := rfl
  rw [← values_map_traverse, ← prepareSteps, Preparation.map_error_iff, prepare, hrun]
  rcases kind.prepareSteps session share tree {} with ⟨failure | prepared, finish⟩ <;> simp

/-- A preparation fails exactly if some value is bad: it reads a session variable that is not set,
or parameters are shared and an earlier use of its variable has another value.  It stops at the
first value that is bad in reading order and reports that one. -/
theorem prepare_reports_first_culprit (session : Session) (share : Bool) (kind : TreeKind)
    (tree : kind.Tree b R (Unprepared b)) :
    ((∃ result, kind.prepare session share tree = .ok result) ↔
      Unprepared.NoneBad session share (kind.values tree)) ∧
    ∀ error, (kind.prepare session share tree).mapError PreparationError.error = .error error ↔
      ∃ prior value later, kind.values tree = prior ++ value :: later ∧
        Unprepared.NoneBad session share prior ∧ value.Bad session share prior ∧
        value.Reports prior error := by
  constructor
  · rw [prepare_succeeds_iff, Preparation.mapA_prepareValue_ok_iff]
  · intro error
    rw [← Preparation.mapA_prepareValue_error_iff]
    simp only [← prepare_error_iff]
    cases kind.prepare session share tree with
    | error cause => simp [Except.mapError]
    | ok result => simp [Except.mapError]

end TreeKind

end SelectPlan
