import SelectPlan.Planning.Plan

/-!
What a plan is made of.  A run of the planner that succeeds has passed through all of its steps, so
its plan is the preparation of the select that is left after the split.  It succeeds whenever the
select is valid and that preparation does.
-/

namespace SelectPlan

variable {b : Backend} {R : Type}

namespace PlanM

variable {A B : Type} {before after : Recorder}

/-- Steps that succeed have a first step that succeeds, and go on from where it ends. -/
theorem bind_ok {steps : PlanM A} {next : A → PlanM B} {result : B}
    (hrun : (steps >>= next) before = (.ok result, after)) :
    ∃ answer middle, steps before = (.ok answer, middle) ∧
      next answer middle = (.ok result, after) := by
  change ExceptT.bindCont next (steps before).1 (steps before).2 = _ at hrun
  rcases hsteps : steps before with ⟨error | answer, middle⟩
  · rw [hsteps] at hrun
    cases hrun
  · rw [hsteps] at hrun
    exact ⟨answer, middle, rfl, hrun⟩

/-- Steps behind a check that is made on request run only if there is nothing wrong. -/
theorem check_ok {requested : Bool} {f : Recorder → Recorder} {found : Except Errors Unit}
    {next : Unit → PlanM A} {result : A}
    (hrun : (if requested then do record f; let passed ← check found; next passed else next ())
      before = (.ok result, after)) :
    (requested = true → found = .ok ()) ∧ ∃ middle, next () middle = (.ok result, after) := by
  cases requested with
  | false => exact ⟨(nomatch ·), before, hrun⟩
  | true =>
      obtain ⟨_, _, -, hrun⟩ := bind_ok hrun
      obtain ⟨_, _, hcheck, hrun⟩ := bind_ok hrun
      cases hcheck
      exact ⟨fun _ => rfl, _, hrun⟩

/-- Steps come to a result, whatever has been recorded before. -/
def Succeeds (steps : PlanM A) (result : A) : Prop :=
  ∀ before, ∃ after, steps before = (.ok result, after)

namespace Succeeds

theorem pure (result : A) : Succeeds (Pure.pure result) result :=
  fun before => ⟨before, rfl⟩

theorem record (f : Recorder → Recorder) : Succeeds (PlanM.record f) () :=
  fun before => ⟨f before, rfl⟩

theorem bind {steps : PlanM A} {next : A → PlanM B} {answer : A} {result : B}
    (hsteps : Succeeds steps answer) (hnext : Succeeds (next answer) result) :
    Succeeds (steps >>= next) result := by
  intro before
  obtain ⟨middle, hfirst⟩ := hsteps before
  obtain ⟨after, hsecond⟩ := hnext middle
  refine ⟨after, ?_⟩
  change ExceptT.bindCont next (steps before).1 (steps before).2 = _
  rw [hfirst]
  exact hsecond

/-- A check that finds nothing wrong lets the steps behind it run. -/
theorem check {requested : Bool} {f : Recorder → Recorder} {found : Except Errors Unit}
    {next : Unit → PlanM A} {result : A} (hfound : requested = true → found = .ok ())
    (hnext : Succeeds (next ()) result) :
    Succeeds (if requested then do PlanM.record f; let passed ← PlanM.check found; next passed
      else next ()) result := by
  cases requested with
  | false => exact hnext
  | true =>
      have hcheck : Succeeds (PlanM.check found) () := fun before => ⟨before, by
        rw [PlanM.check, hfound rfl]⟩
      exact bind (record f) (bind hcheck hnext)

theorem forM {steps : A → PlanM Unit} (hsteps : ∀ item, Succeeds (steps item) ())
    (items : List A) : Succeeds (items.forM steps) () := by
  induction items with
  | nil => exact pure ()
  | cons item items ih => exact bind (hsteps item) ih

end Succeeds

end PlanM

namespace Selection

variable {before after : Recorder}

theorem planSplit_ok [HasJson R] {select : Select b R (Unprepared b)}
    {parts : Select b Empty (Unprepared b) × Option (JoinTree R)}
    (hrun : select.planSplit before = (.ok parts, after)) : parts = select.splitRemotes := by
  rw [planSplit] at hrun
  rcases hsplit : select.splitRemotes with ⟨stripped, _ | joins⟩
  · rw [hsplit] at hrun
    cases hrun
    rfl
  · rw [hsplit] at hrun
    cases hrun
    rfl

theorem planPrepare_ok {select : Select b Empty (Unprepared b)} {session : Session} {share : Bool}
    {prepared : Select b Empty (Prepared b) × Bindings b}
    (hrun : select.planPrepare session share before = (.ok prepared, after)) :
    TreeKind.prepare session share (.part _) select = .ok prepared := by
  rw [planPrepare] at hrun
  rw [TreeKind.prepare]
  rcases hsteps : Preparation.run (TreeKind.prepareSteps session share (.part _) select) with
    ⟨error | result, preparation⟩
  · rw [hsteps] at hrun
    obtain ⟨_, _, -, hthrow⟩ := PlanM.bind_ok hrun
    cases hthrow
  · rw [hsteps] at hrun
    obtain ⟨_, _, -, hpure⟩ := PlanM.bind_ok hrun
    cases hpure
    rfl

theorem planPasses_ok [HasJson R] {select : Select b R (Unprepared b)} {session : Session}
    {catalog : Catalog b} {options : Options} {prepared : Select b Empty (Prepared b)}
    {joins : Option (JoinTree R)} {bindings : Bindings b}
    (hrun : select.planPasses session catalog options before =
      (.ok (prepared, joins, bindings), after)) :
    let named := select.withDefaultNaming options.namingConvention
    (options.validate = true → named.validate catalog = .ok ()) ∧
      joins = (splitRemotes named).2 ∧
      TreeKind.prepare session options.dedupeParameters (.part _) (splitRemotes named).1 =
        .ok (prepared, bindings) := by
  rw [planPasses] at hrun
  obtain ⟨_, _, -, hrun⟩ := PlanM.bind_ok hrun
  obtain ⟨_, _, -, hrun⟩ := PlanM.bind_ok hrun
  obtain ⟨_, _, -, hrun⟩ := PlanM.bind_ok hrun
  obtain ⟨hvalid, _, hrun⟩ := PlanM.check_ok hrun
  obtain ⟨_, _, -, hrun⟩ := PlanM.bind_ok hrun
  obtain ⟨parts, _, hsplit, hrun⟩ := PlanM.bind_ok hrun
  obtain ⟨_, _, -, hrun⟩ := PlanM.bind_ok hrun
  obtain ⟨⟨result, found⟩, _, hprepare, hrun⟩ := PlanM.bind_ok hrun
  cases hrun
  rw [planSplit_ok hsplit] at hprepare ⊢
  exact ⟨hvalid, rfl, planPrepare_ok hprepare⟩

/-- The plan of a select is the preparation of what is left of it after the split, with the joins
that were split off.  If the planner was asked to, it has validated the select. -/
theorem plan_ok [HasJson R] {select : Select b R (Unprepared b)} {session : Session}
    {catalog : Catalog b} {options : Options} {plan : Plan b R}
    (hplan : select.plan session catalog options before = (.ok plan, after)) :
    let named := select.withDefaultNaming options.namingConvention
    (options.validate = true → named.validate catalog = .ok ()) ∧
      plan.remoteJoins = (splitRemotes named).2 ∧
      TreeKind.prepare session options.dedupeParameters (.part _) (splitRemotes named).1 =
        .ok (plan.select, plan.bindings) := by
  rw [Selection.plan] at hplan
  rcases hrun : (ExceptT.run (select.planPasses session catalog options)).run
      (if options.debugLog then before.start else before) with
    ⟨error | ⟨prepared, joins, bindings⟩, finish⟩
  · rw [hrun] at hplan
    cases hplan
  · rw [hrun] at hplan
    obtain ⟨hresult, -⟩ := Prod.mk.inj hplan
    cases hresult
    exact planPasses_ok hrun

theorem planSplit_succeeds [HasJson R] (select : Select b R (Unprepared b)) :
    PlanM.Succeeds select.planSplit select.splitRemotes := by
  rw [planSplit]
  rcases select.splitRemotes with ⟨stripped, _ | joins⟩
  · exact .bind (.record _) (.pure _)
  · exact .bind (.record _) (.bind (.record _) (.bind (.record _) (.pure _)))

theorem planPrepare_succeeds {select : Select b Empty (Unprepared b)} {session : Session}
    {share : Bool} {prepared : Select b Empty (Prepared b) × Bindings b}
    (hprepare : TreeKind.prepare session share (.part _) select = .ok prepared) :
    PlanM.Succeeds (select.planPrepare session share) prepared := by
  rw [TreeKind.prepare] at hprepare
  rw [planPrepare]
  rcases hsteps : Preparation.run (TreeKind.prepareSteps session share (.part _) select) with
    ⟨error | result, preparation⟩
  · rw [hsteps] at hprepare
    cases hprepare
  · rw [hsteps] at hprepare
    cases hprepare
    exact .bind (.forM (fun _ => .record _) _) (.bind (.record _) (.bind (.record _) (.pure _)))

/-- A select has a plan exactly if it is valid, where the planner was asked to validate it, and
what is left of it after the split can be prepared. -/
theorem plan_succeeds_iff [HasJson R] (select : Select b R (Unprepared b)) (session : Session)
    (catalog : Catalog b) (options : Options) (before : Recorder) :
    (∃ plan after, select.plan session catalog options before = (.ok plan, after)) ↔
      let named := select.withDefaultNaming options.namingConvention
      (options.validate = true → named.validate catalog = .ok ()) ∧
        ∃ prepared, TreeKind.prepare session options.dedupeParameters (.part _)
          (splitRemotes named).1 = .ok prepared := by
  constructor
  · rintro ⟨plan, after, hplan⟩
    obtain ⟨hvalid, -, hprepare⟩ := plan_ok hplan
    exact ⟨hvalid, _, hprepare⟩
  · rintro ⟨hvalid, ⟨prepared, bindings⟩, hprepare⟩
    have hpasses : PlanM.Succeeds (select.planPasses session catalog options)
        (prepared, _, bindings) :=
      .bind (.record _) <| .bind (.record _) <| .bind (.record _) <| .check hvalid <|
        .bind (.record _) <| .bind (planSplit_succeeds _) <| .bind (.record _) <|
          .bind (planPrepare_succeeds hprepare) (.pure _)
    obtain ⟨after, hrun⟩ := hpasses (if options.debugLog then before.start else before)
    rw [plan, show (ExceptT.run (select.planPasses session catalog options)).run _ = _ from hrun]
    exact ⟨_, _, rfl⟩

end Selection

end SelectPlan
