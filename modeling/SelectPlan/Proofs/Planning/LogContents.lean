import SelectPlan.Proofs.Planning.RequestData
import SelectPlan.Proofs.Preparation.Reuses

/-!
What stands in the log of a plan.  A run that succeeds tells its recorder a list of events that
follows from the select and the outcome of the passes, and the log keeps them in that order.
-/

namespace SelectPlan

variable {b : Backend} {R : Type}

/-- The message about a reuse. -/
def Reuse.event (reuse : Reuse) : LogEvent :=
  .report .trace "qir::planner::prepare" ("reusing parameter $" ++ toString reuse.index ++
    " for variable Some(" ++ Text.quoted reuse.variableName ++ ")")

/-- Whether an entry is a message about a reuse. -/
def EntryKind.reportsReuse : EntryKind → Bool
  | snapshot _ => false
  | message content =>
      content.level == Level.trace.name &&
        "reusing parameter $".toList.isPrefixOf content.text.toList

namespace LogEvent

/-- Whether an event leaves a message about a reuse in a log at the lowest level. -/
def reportsReuse (event : LogEvent) : Bool :=
  event.reaches (some .trace) && event.kind.reportsReuse

@[simp]
theorem reportsReuse_snapshot (document : Json) : (snapshot document).reportsReuse = false :=
  rfl

@[simp]
theorem reportsReuse_enter (stage : Stage) : (enter stage).reportsReuse = false :=
  rfl

@[simp]
theorem reportsReuse_debug (place text : String) :
    (report .debug place text).reportsReuse = false :=
  Bool.and_false _

@[simp]
theorem reportsReuse_reuse (reuse : Reuse) : reuse.event.reportsReuse = true := by
  have hown : reuse.event.isOwn = true := rfl
  have htext : "reusing parameter $".toList <+: ("reusing parameter $" ++ toString reuse.index ++
      " for variable Some(" ++ Text.quoted reuse.variableName ++ ")").toList := by
    simp only [String.toList_append, List.append_assoc]
    exact List.prefix_append _ _
  rw [reportsReuse, reaches_trace, hown, Bool.true_and]
  exact List.isPrefixOf_iff_prefix.mpr htext

end LogEvent

namespace PlanM.Performs

theorem reuse (reuse : Reuse) : Performs (reportReuse reuse) [reuse.event] (.ok ()) :=
  report _ _ _

theorem of_eq {A : Type} {steps : PlanM A} {events events' : List LogEvent}
    {result : Except Errors A} (hsteps : Performs steps events result)
    (hevents : events = events') : Performs steps events' result :=
  hevents ▸ hsteps

/-- Steps behind a check that is made on request tell what comes with the request as well. -/
theorem check {A : Type} {requested : Bool} {f : Recorder → Recorder}
    {found : Except Errors Unit} {next : Unit → PlanM A} {first later : List LogEvent}
    {result : Except Errors A} (hfound : requested = true → found = .ok ())
    (hrecord : Performs (record f) first (.ok ())) (hnext : Performs (next ()) later result) :
    Performs (if requested then do PlanM.record f; let passed ← PlanM.check found; next passed
      else next ()) ((if requested then first else []) ++ later) result := by
  cases requested with
  | false => exact hnext
  | true =>
      have hpassed : Performs (PlanM.check found) [] (.ok ()) := hfound rfl ▸ .found (.ok ())
      exact bind hrecord (bind hpassed hnext)

end PlanM.Performs

namespace Selection

/-- What is told about the parts of a select. -/
def splitEvents [HasJson R] (parts : Select b Empty (Unprepared b) × Option (JoinTree R)) :
    List LogEvent :=
  let collected (joins : JoinTree R) : LogEvent := .report .debug "qir::planner::remote_join"
    ("collected " ++ toString joins.leaves.length ++ " remote joins")
  parts.2.toList.map collected ++
    .snapshot (json parts.1) :: parts.2.toList.map fun joins => .snapshot (json joins)

/-- What is told about a preparation that succeeds. -/
def preparationEvents (prepared : Select b Empty (Prepared b)) (preparation : Preparation b) :
    List LogEvent :=
  preparation.reuses.map Reuse.event ++
    [.snapshot (json prepared), .report .debug "qir::planner"
      ("prepared " ++ toString preparation.bindings.parameters.length ++ " parameters, " ++
        toString preparation.bindings.sessionVariables.length ++ " session variables")]

/-- What a run that succeeds tells. -/
def planEvents [HasJson R] (select : Select b R (Unprepared b)) (options : Options)
    (prepared : Select b Empty (Prepared b)) (preparation : Preparation b) : List LogEvent :=
  [.snapshot (json select),
      .report .debug "qir::planner" ("planning select for backend " ++ b.name),
      .enter .namingConvention] ++
    (if options.validate then [.enter .validation] else []) ++
    .enter .remoteJoins ::
      splitEvents (select.withDefaultNaming options.namingConvention).splitRemotes ++
    .enter .preparation :: preparationEvents prepared preparation

theorem planSplit_performs [HasJson R] (select : Select b R (Unprepared b)) :
    PlanM.Performs select.planSplit (splitEvents select.splitRemotes)
      (.ok select.splitRemotes) := by
  rw [planSplit]
  rcases select.splitRemotes with ⟨stripped, _ | joins⟩
  · exact .of_eq (.bind (.snapshot _) (.pure _)) rfl
  · exact .of_eq (.bind (.report _ _ _) (.bind (.snapshot _) (.bind (.snapshot _) (.pure _)))) rfl

theorem planPrepare_performs {select : Select b Empty (Unprepared b)} {session : Session}
    {share : Bool} {prepared : Select b Empty (Prepared b)} {preparation : Preparation b}
    (hrun : TreeKind.prepareSteps session share (.part _) select {} = (.ok prepared, preparation)) :
    PlanM.Performs (select.planPrepare session share) (preparationEvents prepared preparation)
      (.ok (prepared, preparation.bindings)) := by
  rw [planPrepare, show Preparation.run (TreeKind.prepareSteps session share (.part _) select) = _
    from hrun]
  exact .of_eq (.bind (.forM .reuse _) (.bind (.snapshot _) (.bind (.report _ _ _) (.pure _)))) rfl

theorem planPasses_performs [HasJson R] {select : Select b R (Unprepared b)} {session : Session}
    {catalog : Catalog b} {options : Options} {prepared : Select b Empty (Prepared b)}
    {preparation : Preparation b}
    (hvalid : options.validate = true →
      (select.withDefaultNaming options.namingConvention).validate catalog = .ok ())
    (hrun : TreeKind.prepareSteps session options.dedupeParameters (.part _)
      (select.withDefaultNaming options.namingConvention).splitRemotes.1 {} =
        (.ok prepared, preparation)) :
    PlanM.Performs (select.planPasses session catalog options)
      (planEvents select options prepared preparation)
      (.ok (prepared, (select.withDefaultNaming options.namingConvention).splitRemotes.2,
        preparation.bindings)) := by
  have hsplit := planSplit_performs (select.withDefaultNaming options.namingConvention)
  rw [planPasses, planEvents]
  generalize (select.withDefaultNaming options.namingConvention).splitRemotes = parts at *
  obtain ⟨stripped, joins⟩ := parts
  refine .of_eq (.bind (.snapshot _) <| .bind (.report _ _ _) <| .bind (.enter _) <|
    .check hvalid (.enter _) <| .bind (.enter _) <| .bind hsplit <| .bind (.enter _) <|
      .bind (planPrepare_performs hrun) (.pure _)) ?_
  simp only [List.append_nil, List.append_assoc, List.cons_append, List.nil_append]

/-! What the events of a run have in common -/

section

open LogEvent

variable [HasJson R] (select : Select b R (Unprepared b)) (options : Options)
  (parts : Select b Empty (Unprepared b) × Option (JoinTree R))
  (prepared : Select b Empty (Prepared b)) (preparation : Preparation b)

theorem entered_splitEvents : (splitEvents parts).filterMap entered? = [] := by
  rcases parts with ⟨stripped, _ | joins⟩ <;> rfl

theorem entered_preparationEvents :
    (preparationEvents prepared preparation).filterMap entered? = [] := by
  have hreuses : (preparation.reuses.map Reuse.event).filterMap entered? = [] := by
    simp [Reuse.event, entered?]
  rw [preparationEvents, List.filterMap_append, hreuses]
  rfl

/-- The stages of a run, in the order in which it enters them. -/
theorem entered_planEvents :
    (planEvents select options prepared preparation).filterMap entered? =
      .namingConvention :: (if options.validate then [.validation] else []) ++
        [.remoteJoins, .preparation] := by
  cases hvalidate : options.validate <;>
    simp [planEvents, hvalidate, List.filterMap_cons, entered?, entered_splitEvents,
      entered_preparationEvents]

theorem snapshots_splitEvents (stage : Stage) (later : List LogEvent) :
    snapshots stage (splitEvents parts ++ later) =
      (stage, .ofJson (json parts.1)) ::
        parts.2.toList.map (fun joins => (stage, .ofJson (json joins))) ++
          snapshots stage later := by
  rcases parts with ⟨stripped, _ | joins⟩ <;> rfl

theorem snapshots_preparationEvents (stage : Stage) :
    snapshots stage (preparationEvents prepared preparation) =
      [(stage, .ofJson (json prepared))] := by
  rw [preparationEvents]
  induction preparation.reuses with
  | nil => rfl
  | cons reuse reuses ih => exact ih

theorem snapshots_planEvents :
    let parts := (select.withDefaultNaming options.namingConvention).splitRemotes
    snapshots .initial (planEvents select options prepared preparation) =
      (.initial, .ofJson (json select)) :: (.remoteJoins, .ofJson (json parts.1)) ::
        parts.2.toList.map (fun joins => (.remoteJoins, .ofJson (json joins))) ++
          [(.preparation, .ofJson (json prepared))] := by
  cases hvalidate : options.validate <;>
    simp [planEvents, hvalidate, snapshots, snapshots_splitEvents, snapshots_preparationEvents]

/-- A run tells of every reuse of a parameter, and of nothing else in the same way. -/
theorem countP_reportsReuse :
    (planEvents select options prepared preparation).countP reportsReuse =
      preparation.reuses.length := by
  cases hvalidate : options.validate <;>
    simp [planEvents, hvalidate, splitEvents, preparationEvents, Function.comp_def]

end

/-- A run that is logged and succeeds keeps what it tells in a log of its own. -/
theorem plan_logged [HasJson R] {select : Select b R (Unprepared b)} {session : Session}
    {catalog : Catalog b} {options : Options} {events : List LogEvent}
    {prepared : Select b Empty (Prepared b)} {joins : Option (JoinTree R)} {bindings : Bindings b}
    (hpasses : PlanM.Performs (select.planPasses session catalog options) events
      (.ok (prepared, joins, bindings)))
    (hlogged : options.debugLog = true) (before : Recorder) (hinactive : before.log = none) :
    select.plan session catalog options before =
      (.ok ⟨prepared, joins, bindings, some (DebugLog.told {} before.threshold events)⟩,
        before) := by
  rcases before with ⟨log, threshold⟩
  change log = none at hinactive
  rw [plan_eq hpasses, hlogged, hinactive]
  simp only [if_true, Recorder.tellAll_eq]
  rfl

/-- The log of a plan holds what the run tells, as much of it as the level lets through. -/
theorem plan_log_eq [HasJson R] {select : Select b R (Unprepared b)} {session : Session}
    {catalog : Catalog b} {options : Options} {before after : Recorder} {plan : Plan b R}
    (hlogged : options.debugLog = true) (hinactive : before.log = none)
    (hplan : select.plan session catalog options before = (.ok plan, after)) :
    ∃ preparation,
      TreeKind.prepareSteps session options.dedupeParameters (.part _)
        (select.withDefaultNaming options.namingConvention).splitRemotes.1 {} =
          (.ok plan.select, preparation) ∧
      ∀ threshold,
        let log := DebugLog.told {} threshold (planEvents select options plan.select preparation)
        select.plan session catalog options { before with threshold } =
          (.ok { plan with log := some log }, { before with threshold }) := by
  obtain ⟨hvalid, hremotes, hprepare⟩ := plan_ok hplan
  obtain ⟨preparation, hrun, hbindings⟩ := TreeKind.prepare_ok hprepare
  refine ⟨preparation, hrun, fun threshold => ?_⟩
  have hlog := plan_logged (planPasses_performs hvalid hrun) hlogged { before with threshold }
    hinactive
  rwa [hbindings, ← hremotes] at hlog

/-- A run reuses a parameter for every named use of a variable but the first, and never if
parameters are not shared. -/
theorem length_reuses {select : Select b R (Unprepared b)} {session : Session} {options : Options}
    {prepared : Select b Empty (Prepared b)} {preparation : Preparation b}
    (hrun : TreeKind.prepareSteps session options.dedupeParameters (.part _)
      (select.withDefaultNaming options.namingConvention).splitRemotes.1 {} =
        (.ok prepared, preparation)) :
    let names := TreeKind.variableNames (.part (.select .row)) select
    (options.dedupeParameters = true →
      preparation.reuses.length + names.eraseDups.length = names.length) ∧
    (options.dedupeParameters = false → preparation.reuses.length = 0) := by
  intro names
  have hnames : TreeKind.variableNames (.part (.select .row))
      (select.withDefaultNaming options.namingConvention).splitRemotes.1 = names := by
    rw [TreeKind.variableNames, values_splitRemotes]
    cases select
    rfl
  constructor
  · intro hshare
    rw [hshare] at hrun
    rw [← hnames]
    exact TreeKind.prepareSteps_reuses hrun
  · intro hunshared
    rw [hunshared] at hrun
    exact List.length_eq_zero_iff.mpr (TreeKind.prepareSteps_unshared_reuses hrun)

/-- The log of a run that succeeds is faithful at every level.  Its snapshots are those of the
select, of what is left of it after the split, of the joins if there are any, and of the select of
the plan, each at its stage.  The stages of its entries never go back, and validation is not among
them if the select is not validated.  Its entries are those at the lowest level but for messages
that are too detailed; there, the reuses of parameters are as many as there are named uses beyond
the distinct names of request variables, and none if parameters are not shared. -/
theorem plan_log_faithful [HasJson R] {select : Select b R (Unprepared b)} {session : Session}
    {catalog : Catalog b} {options : Options} {before after : Recorder} {plan : Plan b R}
    (hlogged : options.debugLog = true) (hinactive : before.log = none)
    (hplan : select.plan session catalog options before = (.ok plan, after)) :
    let stripped := (splitRemotes (select.withDefaultNaming options.namingConvention)).1
    let names := TreeKind.variableNames (.part (.select .row)) select
    ∃ log, plan.log = some log ∧
      log.entries.filterMap LogEntry.snapshot? =
        (.initial, .ofJson (json select)) :: (.remoteJoins, .ofJson (json stripped)) ::
          plan.remoteJoins.toList.map (fun joins => (.remoteJoins, .ofJson (json joins))) ++
            [(.preparation, .ofJson (json plan.select))] ∧
      log.entries.Pairwise (·.stage.position ≤ ·.stage.position) ∧
      (options.validate = false → ∀ entry ∈ log.entries, entry.stage ≠ .validation) ∧
      ∃ full finish,
        select.plan session catalog options { before with threshold := some .trace } =
          (.ok { plan with log := some full }, finish) ∧
        log.entries = full.entries.filter (·.kind.within before.threshold) ∧
        (options.dedupeParameters = true →
          full.entries.countP (·.kind.reportsReuse) + names.eraseDups.length = names.length) ∧
        (options.dedupeParameters = false →
          full.entries.countP (·.kind.reportsReuse) = 0) := by
  intro stripped names
  obtain ⟨preparation, hrun, hlogs⟩ := plan_log_eq hlogged hinactive hplan
  let events := planEvents select options plan.select preparation
  have hlog : plan.log = some (DebugLog.told {} before.threshold events) := by
    have hsame := Except.ok.inj (Prod.mk.inj (hplan.symm.trans (hlogs before.threshold))).1
    exact congrArg Plan.log hsame
  have hforward : (Stage.initial :: events.filterMap LogEvent.entered?).Pairwise
      (·.position ≤ ·.position) := by
    rw [entered_planEvents]
    cases options.validate <;> decide
  have hreuses : (LogEvent.entries (some .trace) .initial events).countP (·.kind.reportsReuse) =
      preparation.reuses.length :=
    (LogEvent.countP_entries _ _ _ _).trans (countP_reportsReuse select options _ preparation)
  obtain ⟨hshared, hunshared⟩ := length_reuses hrun
  refine ⟨DebugLog.told {} before.threshold events, hlog, ?_, LogEvent.entries_ordered hforward, ?_,
    DebugLog.told {} (some .trace) events, _, hlogs (some .trace),
    LogEvent.entries_eq_filter _ _ _, fun hshare => ?_, fun hshare => ?_⟩
  · obtain ⟨-, hremotes, -⟩ := plan_ok hplan
    rw [hremotes]
    exact (LogEvent.snapshots_entries _ _ _).trans
      (snapshots_planEvents select options plan.select preparation)
  · intro hunchecked entry hmem hstage
    have hreached := LogEvent.stage_mem_of_entries hmem
    rw [hstage, entered_planEvents, hunchecked] at hreached
    exact absurd hreached (by decide)
  · exact (congrArg (· + _) hreuses).trans (hshared hshare)
  · exact hreuses.trans (hunshared hshare)

theorem plan_booksOfUser_log_faithful :
    let options : Options := { debugLog := true }
    ∃ plan after log, ∃ full : DebugLog,
      (booksOfUser "Emma").plan (Session.ofList [("X-User", "7")]) ⟨∅⟩ options
        { threshold := some .debug } = (.ok plan, after) ∧
      plan.log = some log ∧
      (log.entries.filterMap LogEntry.snapshot?).map Prod.fst =
        [.initial, .remoteJoins, .remoteJoins, .preparation] ∧
      log.entries = full.entries.filter (·.kind.within (some .debug)) ∧
      full.entries.countP (·.kind.reportsReuse) = 1 := by
  intro options
  have hplan : (booksOfUser "Emma").plan (Session.ofList [("X-User", "7")]) ⟨∅⟩ options
    { threshold := some .debug } = (.ok _, _) := rfl
  obtain ⟨log, hlog, hsnapshots, -, -, full, _, -, hentries, hreuses, -⟩ :=
    plan_log_faithful rfl rfl hplan
  refine ⟨_, _, log, full, hplan, hlog, ?_, hentries, Nat.add_right_cancel (hreuses rfl)⟩
  rw [hsnapshots]
  rfl

end Selection

end SelectPlan
