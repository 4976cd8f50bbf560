import SelectPlan.Proofs.Preparation.Sharing

/-!
Reuses of parameters.  Where the uses of a request variable share a parameter, every use but the
first is a reuse, so there are as many reuses as there are named uses beyond the distinct names.
-/

namespace SelectPlan

variable {b : Backend} {R : Type}

/-- The request variable that a value names. -/
def Unprepared.variableName? (value : Unprepared b) : Option String :=
  value.use?.bind fun use => use.provenance.variableName?

namespace Preparation

/-- What holds while uses of one variable share a parameter: the names of the uses so far, and the
reuses among them. -/
structure Tallied (names : List String) (preparation : Preparation b) : Prop where
  bound_eq : preparation.bound.map Prod.fst = names.eraseDups
  count_eq : preparation.reuses.length + names.eraseDups.length = names.length

namespace Tallied

variable {names : List String} {before after : Preparation b}

theorem nil : Tallied [] ({} : Preparation b) where
  bound_eq := rfl
  count_eq := rfl

theorem of_unchanged (htallied : Tallied names before) (hbound : after.bound = before.bound)
    (hreuses : after.reuses = before.reuses) : Tallied names after where
  bound_eq := hbound ▸ htallied.bound_eq
  count_eq := hreuses ▸ htallied.count_eq

/-- The names that are bound are those that have been used. -/
theorem lookup_isSome_iff (htallied : Tallied names before) {name : String} :
    (before.bound.lookup name).isSome ↔ name ∈ names := by
  rw [← List.mem_eraseDups, ← htallied.bound_eq, List.lookup_isSome_iff, List.mem_map]
  simp only [beq_iff_eq, eq_comm (a := name)]

/-- The first use of a variable is no reuse, but every later one is. -/
theorem of_binds {provenance : Provenance} {value : ColumnValue b} {index : Nat}
    (htallied : Tallied names before) (hbinds : Binds true provenance value before index after) :
    Tallied (names ++ provenance.variableName?.toList) after := by
  cases hbinds with
  | alone hname =>
      rw [hname rfl, Option.toList_none, List.append_nil]
      exact htallied.of_unchanged rfl rfl
  | @first name _ hname hfresh =>
      have hnew : names.contains name = false := by
        rw [Bool.eq_false_iff, ne_eq, List.contains_iff_mem, ← htallied.lookup_isSome_iff, hfresh]
        exact Bool.false_ne_true
      have hnames : (names ++ [name]).eraseDups = names.eraseDups ++ [name] := by
        rw [eraseDups_concat, hnew, if_neg Bool.false_ne_true]
      rw [hname, Option.toList_some]
      constructor
      · rw [hnames, List.map_append, htallied.bound_eq, List.map_singleton]
      · rw [hnames, List.length_append, List.length_append, ← htallied.count_eq, Nat.add_assoc]
  | @again name _ _ hname hlookup hfound =>
      have hused : names.contains name = true := by
        rw [List.contains_iff_mem, ← htallied.lookup_isSome_iff, hlookup]
        rfl
      have hnames : (names ++ [name]).eraseDups = names.eraseDups := by
        rw [eraseDups_concat, hused, if_pos rfl]
      rw [hname, Option.toList_some]
      constructor
      · rw [hnames, htallied.bound_eq]
      · rw [hnames, List.length_append, List.length_append, ← htallied.count_eq,
          Nat.add_right_comm]
        rfl

end Tallied

/-- The preparation of a value binds a parameter, or it leaves alone what is bound. -/
theorem prepareValue_binds {session : Session} {share : Bool} {value : Unprepared b}
    {result : Prepared b} {before after : Preparation b}
    (hrun : prepareValue session share value before = (.ok result, after)) :
    (∃ provenance content index, value = .parameter provenance content ∧
        Binds share provenance content before index after) ∨
      value.use? = none ∧ after.bound = before.bound ∧ after.reuses = before.reuses := by
  cases value with
  | literal value =>
      cases hrun
      exact .inr ⟨rfl, rfl, rfl⟩
  | parameter provenance value =>
      obtain ⟨index, hbinds, -⟩ := prepareValue_parameter_iff.mp hrun
      exact .inl ⟨provenance, value, index, rfl, hbinds⟩
  | sessionVariable name type =>
      obtain ⟨-, -, rfl⟩ := prepareValue_sessionVariable_iff.mp hrun
      exact .inr ⟨rfl, rfl, rfl⟩
  | session =>
      cases hrun
      exact .inr ⟨rfl, rfl, rfl⟩

theorem Tallied.step {session : Session} {done : List (Unprepared b)} {value : Unprepared b}
    {result : Prepared b} {before after : Preparation b}
    (hdone : Tallied (done.filterMap Unprepared.variableName?) before)
    (hrun : prepareValue session true value before = (.ok result, after)) :
    Tallied ((done ++ [value]).filterMap Unprepared.variableName?) after := by
  have hlast : [value].filterMap Unprepared.variableName? = value.variableName?.toList := by
    cases hname : value.variableName? <;> simp [hname]
  rw [List.filterMap_append, hlast]
  rcases prepareValue_binds hrun with
    ⟨provenance, content, index, rfl, hbinds⟩ | ⟨hunused, hbound, hreuses⟩
  · exact hdone.of_binds hbinds
  · rw [Unprepared.variableName?, hunused, Option.bind_none, Option.toList_none, List.append_nil]
    exact hdone.of_unchanged hbound hreuses

theorem reuses_nil_step {session : Session} {value : Unprepared b} {result : Prepared b}
    {before after : Preparation b} (hdone : before.reuses = [])
    (hrun : prepareValue session false value before = (.ok result, after)) : after.reuses = [] := by
  rcases prepareValue_binds hrun with ⟨_, _, _, rfl, hbinds⟩ | ⟨-, -, hreuses⟩
  · cases hbinds with
    | alone _ => exact hdone
    | first hshare _ _ => cases hshare
    | again hshare _ _ _ => cases hshare
  · rw [hreuses, hdone]

end Preparation

namespace TreeKind

variable {session : Session} {kind : TreeKind} {tree : kind.Tree b R (Unprepared b)}
  {prepared : kind.Tree b R (Prepared b)} {preparation : Preparation b}

/-- The request variables that a tree names, in reading order and once for every use. -/
def variableNames (kind : TreeKind) (tree : kind.Tree b R (Unprepared b)) : List String :=
  (kind.values tree).filterMap Unprepared.variableName?

/-- There are as many reuses as there are named uses beyond the distinct names. -/
theorem prepareSteps_reuses
    (hrun : kind.prepareSteps session true tree {} = (.ok prepared, preparation)) :
    preparation.reuses.length + (kind.variableNames tree).eraseDups.length =
      (kind.variableNames tree).length := by
  let OfValues (done : List (Unprepared b)) (_ : List (Prepared b)) : Preparation b → Prop :=
    Preparation.Tallied (done.filterMap Unprepared.variableName?)
  have hfinish := Steps.mapA_invariant_run OfValues Preparation.Tallied.step .nil
    (prepareSteps_values hrun)
  exact hfinish.count_eq

theorem prepareSteps_unshared_reuses
    (hrun : kind.prepareSteps session false tree {} = (.ok prepared, preparation)) :
    preparation.reuses = [] :=
  Steps.mapA_invariant_run (fun _ _ preparation => preparation.reuses = [])
    Preparation.reuses_nil_step rfl (prepareSteps_values hrun)

end TreeKind

end SelectPlan
