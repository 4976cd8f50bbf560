import SelectPlan.Planning.Plan
import SelectPlan.Proofs.Logging.Events

/-!
The log of a plan.  The planner never looks at its recorder: what it comes to and what it tells the
recorder do not depend on what has been recorded before.  So a run is described by its result and
by the events that it tells, and a plan has a log exactly if one was asked for.
-/

namespace SelectPlan

variable {b : Backend} {R : Type}

namespace Recorder

variable (recorder : Recorder)

@[simp]
theorem isActive_tellAll (events : List LogEvent) :
    (recorder.tellAll events).isActive = recorder.isActive := by
  rw [tellAll_eq, isActive, Option.isSome_map]
  rfl

theorem tellAll_append (first second : List LogEvent) :
    recorder.tellAll (first ++ second) = (recorder.tellAll first).tellAll second :=
  List.foldl_append

theorem isActive_start : recorder.start.isActive = true := by
  rw [start]
  split
  · rw [report_eq]
    split <;> rfl
  · rfl

end Recorder

namespace PlanM

variable {A B : Type}

/-- Steps come to a result and tell the recorder events, whatever has been recorded before. -/
def Performs (steps : PlanM A) (events : List LogEvent) (result : Except Errors A) : Prop :=
  ∀ before, steps before = (result, before.tellAll events)

namespace Performs

variable {steps : PlanM A} {next : A → PlanM B} {events later : List LogEvent}

theorem pure (result : A) : Performs (Pure.pure result) [] (.ok result) :=
  fun _ => rfl

theorem throw (errors : Errors) : Performs (throw errors : PlanM A) [] (.error errors) :=
  fun _ => rfl

theorem found (result : Except Errors Unit) : Performs (PlanM.check result) [] result :=
  fun _ => rfl

theorem snapshot {α : Type} [HasJson α] (value : α) :
    Performs (record (·.snapshot value)) [.snapshot (json value)] (.ok ()) :=
  fun before => congrArg (Prod.mk _) (before.tell_snapshot value).symm

theorem enter (stage : Stage) : Performs (record (·.enter stage)) [.enter stage] (.ok ()) :=
  fun _ => rfl

theorem report (level : Level) (place text : String) :
    Performs (record (·.report level place text)) [.report level place text] (.ok ()) :=
  fun _ => rfl

theorem bind {answer : A} {result : Except Errors B} (hsteps : Performs steps events (.ok answer))
    (hnext : Performs (next answer) later result) :
    Performs (steps >>= next) (events ++ later) result := by
  intro before
  change ExceptT.bindCont next (steps before).1 (steps before).2 = _
  rw [hsteps before, Recorder.tellAll_append, ← hnext]
  rfl

theorem bind_error {errors : Errors} (hsteps : Performs steps events (.error errors)) :
    Performs (steps >>= next) events (.error errors) := by
  intro before
  change ExceptT.bindCont next (steps before).1 (steps before).2 = _
  rw [hsteps before]
  rfl

theorem forM {steps : A → PlanM Unit} {event : A → LogEvent}
    (hsteps : ∀ item, Performs (steps item) [event item] (.ok ())) (items : List A) :
    Performs (items.forM steps) (items.map event) (.ok ()) := by
  induction items with
  | nil => exact pure ()
  | cons item items ih => exact bind (hsteps item) ih

end Performs

/-- Steps do not look at the recorder. -/
def Oblivious (steps : PlanM A) : Prop :=
  ∃ events result, Performs steps events result

namespace Oblivious

theorem pure (result : A) : Oblivious (Pure.pure result) :=
  ⟨_, _, .pure result⟩

theorem throw (errors : Errors) : Oblivious (throw errors : PlanM A) :=
  ⟨_, _, .throw errors⟩

theorem snapshot {α : Type} [HasJson α] (value : α) : Oblivious (record (·.snapshot value)) :=
  ⟨_, _, .snapshot value⟩

theorem enter (stage : Stage) : Oblivious (record (·.enter stage)) :=
  ⟨_, _, .enter stage⟩

theorem report (level : Level) (place text : String) :
    Oblivious (record (·.report level place text)) :=
  ⟨_, _, .report level place text⟩

theorem bind {steps : PlanM A} {next : A → PlanM B} (hsteps : Oblivious steps)
    (hnext : ∀ answer, Oblivious (next answer)) : Oblivious (steps >>= next) := by
  obtain ⟨events, errors | answer, hsteps⟩ := hsteps
  · exact ⟨_, _, .bind_error hsteps⟩
  · obtain ⟨later, result, hnext⟩ := hnext answer
    exact ⟨_, _, .bind hsteps hnext⟩

/-- So are steps behind a check that is made on request. -/
theorem check {requested : Bool} {f : Recorder → Recorder} {found : Except Errors Unit}
    {next : Unit → PlanM A} (hrecord : Oblivious (record f)) (hnext : Oblivious (next ())) :
    Oblivious (if requested then do PlanM.record f; let passed ← PlanM.check found; next passed
      else next ()) := by
  cases requested with
  | false => exact hnext
  | true => exact bind hrecord fun _ => bind ⟨_, _, .found found⟩ fun _ => hnext

theorem forM {steps : A → PlanM Unit} (hsteps : ∀ item, Oblivious (steps item)) (items : List A) :
    Oblivious (items.forM steps) := by
  induction items with
  | nil => exact pure ()
  | cons item items ih => exact bind (hsteps item) fun _ => ih

end Oblivious

/-- Steps neither start nor end a log. -/
def KeepsLog (steps : PlanM A) : Prop :=
  ∀ before, (steps before).2.isActive = before.isActive

theorem Oblivious.keepsLog {steps : PlanM A} (hsteps : Oblivious steps) : KeepsLog steps := by
  obtain ⟨events, result, hperforms⟩ := hsteps
  intro before
  rw [hperforms before]
  exact before.isActive_tellAll events

end PlanM

namespace Selection

open PlanM.Oblivious

theorem planSplit_oblivious [HasJson R] (select : Select b R (Unprepared b)) :
    PlanM.Oblivious select.planSplit := by
  rw [planSplit]
  rcases select.splitRemotes with ⟨stripped, _ | joins⟩
  · exact bind (snapshot _) fun _ => pure _
  · exact bind (report _ _ _) fun _ => bind (snapshot _) fun _ => bind (snapshot _) fun _ => pure _

theorem planPrepare_oblivious (select : Select b Empty (Unprepared b)) (session : Session)
    (share : Bool) : PlanM.Oblivious (select.planPrepare session share) := by
  rw [planPrepare]
  rcases Preparation.run (TreeKind.prepareSteps session share (.part _) select) with
    ⟨error | prepared, preparation⟩
  · exact bind (forM (fun _ => report _ _ _) _) fun _ => throw _
  · exact bind (forM (fun _ => report _ _ _) _) fun _ => bind (snapshot _) fun _ =>
      bind (report _ _ _) fun _ => pure _

theorem planPasses_oblivious [HasJson R] (select : Select b R (Unprepared b)) (session : Session)
    (catalog : Catalog b) (options : Options) :
    PlanM.Oblivious (select.planPasses session catalog options) := by
  rw [planPasses]
  refine bind (snapshot _) fun _ => bind (report _ _ _) fun _ => bind (enter _) fun _ => ?_
  refine check (enter _) ?_
  refine bind (enter _) fun _ => bind (planSplit_oblivious _) fun parts => ?_
  exact bind (enter _) fun _ => bind (planPrepare_oblivious _ _ _) fun _ => pure _

/-- A plan is what the passes come to, and its log, if one was asked for, holds what they tell. -/
theorem plan_eq [HasJson R] {select : Select b R (Unprepared b)} {session : Session}
    {catalog : Catalog b} {options : Options} {events : List LogEvent}
    {result : Except Errors (Select b Empty (Prepared b) × Option (JoinTree R) × Bindings b)}
    (hpasses : PlanM.Performs (select.planPasses session catalog options) events result)
    (before : Recorder) :
    select.plan session catalog options before =
      let finish := (if options.debugLog then before.start else before).tellAll events
      let log := if options.debugLog then finish.log else none
      (result.map fun (prepared, joins, bindings) => ⟨prepared, joins, bindings, log⟩,
        if options.debugLog then { finish with log := none } else finish) := by
  rw [plan]
  have hrun := hpasses (if options.debugLog then before.start else before)
  rw [show (ExceptT.run (select.planPasses session catalog options)).run _ = _ from hrun]
  cases options.debugLog <;> rfl

/-- A plan has a log exactly if one was asked for. -/
theorem plan_log_isSome [HasJson R] {select : Select b R (Unprepared b)} {session : Session}
    {catalog : Catalog b} {options : Options} {before after : Recorder} {plan : Plan b R}
    (hplan : select.plan session catalog options before = (.ok plan, after)) :
    plan.log.isSome = options.debugLog := by
  have hkeeps := (select.planPasses_oblivious session catalog options).keepsLog
  rw [Selection.plan] at hplan
  rcases hrun : (ExceptT.run (select.planPasses session catalog options)).run
      (if options.debugLog then before.start else before) with
    ⟨error | ⟨prepared, joins, bindings⟩, finish⟩
  · rw [hrun] at hplan
    cases hplan
  · rw [hrun] at hplan
    obtain ⟨hresult, -⟩ := Prod.mk.inj hplan
    cases hresult
    cases hlog : options.debugLog with
    | false => rfl
    | true =>
        rw [hlog, if_pos rfl] at hrun
        have hactive : finish.isActive = before.start.isActive := by
          rw [← hkeeps before.start, show select.planPasses session catalog options _ = _ from hrun]
        exact hactive.trans before.isActive_start

end Selection

end SelectPlan
