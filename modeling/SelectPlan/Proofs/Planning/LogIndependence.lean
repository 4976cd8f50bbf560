import SelectPlan.Proofs.Planning.RequestData

/-!
Logging in the course of planning.  Whether a run is logged, and what was being logged before it,
changes nothing of what it comes to.  A log that was asked for is always taken out of the recorder
again, and without one the log that was there before is only added to.
-/

namespace SelectPlan

variable {b : Backend} {R : Type}

/-- What a plan says apart from its log. -/
def Plan.withoutLog (plan : Plan b R) : Plan b R :=
  { plan with log := none }

namespace Selection

theorem plan_withoutLog [HasJson R] {select : Select b R (Unprepared b)} {session : Session}
    {catalog : Catalog b} {options : Options} {events : List LogEvent}
    {result : Except Errors (Select b Empty (Prepared b) × Option (JoinTree R) × Bindings b)}
    (hpasses : PlanM.Performs (select.planPasses session catalog options) events result)
    (before : Recorder) :
    (select.plan session catalog options before).1.map Plan.withoutLog =
      result.map fun (prepared, joins, bindings) => ⟨prepared, joins, bindings, none⟩ := by
  rw [plan_eq hpasses before]
  cases result <;> rfl

/-- Logging never changes a plan and is always cleaned up.  Whether or not a run is logged, and
whatever has been recorded before up to whichever level, the plan or the errors are the same.  If
the run is logged, then no log is active afterwards, and a plan comes with the log.  If it is not, a
log is active afterwards exactly if one was active before, and the entries of that one are still
there. -/
theorem plan_unaffected_by_logging [HasJson R] (select : Select b R (Unprepared b))
    (session : Session) (catalog : Catalog b) (options : Options) (before : Recorder) :
    let run := select.plan session catalog options before
    (∀ (logged : Bool) (other : Recorder),
      (select.plan session catalog { options with debugLog := logged } other).1.map
        Plan.withoutLog = run.1.map Plan.withoutLog) ∧
    (options.debugLog = true →
      run.2.isActive = false ∧ ∀ plan, run.1 = .ok plan → plan.log.isSome) ∧
    (options.debugLog = false →
      (∀ plan, run.1 = .ok plan → plan.log = none) ∧
        run.2.isActive = before.isActive ∧
        ∀ log, before.log = some log →
          ∃ later, run.2.log = some later ∧ log.entries <+: later.entries) := by
  obtain ⟨events, result, hpasses⟩ := select.planPasses_oblivious session catalog options
  intro run
  have hlog : ∀ plan, run.1 = .ok plan → plan.log.isSome = options.debugLog := fun plan hplan =>
    plan_log_isSome (Prod.ext hplan rfl)
  refine ⟨fun logged other => ?_, fun hlogged => ?_, fun hunlogged => ?_⟩
  · -- the passes do not read the option
    have hother : PlanM.Performs
        (select.planPasses session catalog { options with debugLog := logged }) events result :=
      hpasses
    exact (plan_withoutLog hother other).trans (plan_withoutLog hpasses before).symm
  · refine ⟨?_, fun plan hplan => (hlog plan hplan).trans hlogged⟩
    have hafter : run.2 = { before.start.tellAll events with log := none } := by
      rw [show run = _ from plan_eq hpasses before, hlogged]
      rfl
    rw [hafter]
    rfl
  · have hafter : run.2 = before.tellAll events := by
      rw [show run = _ from plan_eq hpasses before, hunlogged]
      rfl
    refine ⟨fun plan hplan => ?_, ?_, fun log hbefore => ?_⟩
    · exact Option.not_isSome_iff_eq_none.mp (by rw [hlog plan hplan, hunlogged]; decide)
    · rw [hafter, Recorder.isActive_tellAll]
    · refine ⟨log.told before.threshold events, ?_, List.prefix_append _ _⟩
      rw [hafter, Recorder.tellAll_eq, hbefore]
      rfl

/-- A log that was left unfinished while a select was validated. -/
def unfinishedLog : DebugLog :=
  { entries := [⟨.validation, .snapshot (.ofJson (.string "book"))⟩], stage := .validation }

theorem plan_booksOfUser_unaffected_by_logging :
    let run (logged : Bool) (before : Recorder) :=
      (booksOfUser "Emma").plan (Session.ofList [("X-User", "7")]) ⟨∅⟩ { debugLog := logged } before
    let unfinished : Recorder := { log := some unfinishedLog, threshold := some .trace }
    (run true unfinished).1.map Plan.withoutLog = (run false {}).1.map Plan.withoutLog ∧
      (run true unfinished).2.isActive = false ∧
      ∃ later, (run false unfinished).2.log = some later ∧
        unfinishedLog.entries <+: later.entries := by
  intro run unfinished
  have hlogged := (booksOfUser "Emma").plan_unaffected_by_logging
    (Session.ofList [("X-User", "7")]) ⟨∅⟩ { debugLog := true } unfinished
  have hunlogged := (booksOfUser "Emma").plan_unaffected_by_logging
    (Session.ofList [("X-User", "7")]) ⟨∅⟩ {} unfinished
  exact ⟨(hlogged.1 false {}).symm, (hlogged.2.1 rfl).1, (hunlogged.2.2 rfl).2.2 _ rfl⟩

end Selection

end SelectPlan
