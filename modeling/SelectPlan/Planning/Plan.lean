import SelectPlan.Log.Recorder
import SelectPlan.Planning.Preparation
import SelectPlan.Planning.RemoteJoins
import SelectPlan.Planning.Validation

/-!
Plans.  A select is given its naming convention, validated, split from its remote relationships
and prepared; what comes out is ready for a generator of queries.
-/

namespace SelectPlan

variable {b : Backend} {R : Type}

/-- What planning is asked to do. -/
structure Options where
  /-- Whether a select is validated first. -/
  validate : Bool := true
  /-- Whether all uses of a request variable share one parameter. -/
  dedupeParameters : Bool := true
  /-- The naming convention of a select that does not set its own. -/
  namingConvention : NamingConvention := .hasura
  /-- Whether the run is logged. -/
  debugLog : Bool := false
deriving DecidableEq

namespace Options

/-- The options without validation. -/
def withoutValidation (options : Options) : Options :=
  { options with validate := false }

instance : HasJson Options :=
  ⟨fun options =>
    .object [("validate", json options.validate),
      ("dedupe_parameters", json options.dedupeParameters),
      ("naming_convention", json options.namingConvention),
      ("debug_log", json options.debugLog)]⟩

end Options

/-- A select ready for a generator of queries. -/
structure Plan (b : Backend) (R : Type) where
  select : Select b Empty (Prepared b)
  /-- The joins to run against other sources once the select has returned. -/
  remoteJoins : Option (JoinTree R)
  bindings : Bindings b
  log : Option DebugLog

/-- Steps of planning.  What was recorded before an error is kept. -/
abbrev PlanM := ExceptT Errors (StateM Recorder)

namespace PlanM

/-- Changes the recorder. -/
def record (f : Recorder → Recorder) : PlanM Unit :=
  fun recorder => (.ok (), f recorder)

/-- Stops with errors, or goes on. -/
def check (result : Except Errors Unit) : PlanM Unit :=
  fun recorder => (result, recorder)

/-- Reports the reuse of a parameter. -/
def reportReuse (reuse : Reuse) : PlanM Unit :=
  record (·.report .trace "qir::planner::prepare" ("reusing parameter $" ++ toString reuse.index ++
    " for variable Some(" ++ Text.quoted reuse.variableName ++ ")"))

end PlanM

namespace Selection

/-- The select with a naming convention, unless it has one. -/
def withDefaultNaming {V : Type} (select : Select b R V) (convention : NamingConvention) :
    Select b R V :=
  select.mapQuery fun query => { query with naming := some (query.naming.getD convention) }

/-- Splits a select and records both parts. -/
def planSplit [HasJson R] (select : Select b R (Unprepared b)) :
    PlanM (Select b Empty (Unprepared b) × Option (JoinTree R)) := do
  let (stripped, joins) := select.splitRemotes
  match joins with
  | some joins =>
      PlanM.record (·.report .debug "qir::planner::remote_join"
        ("collected " ++ toString joins.leaves.length ++ " remote joins"))
  | none => pure ()
  PlanM.record (·.snapshot stripped)
  match joins with
  | some joins => PlanM.record (·.snapshot joins)
  | none => pure ()
  pure (stripped, joins)

/-- Prepares a select and records the result. -/
def planPrepare (select : Select b Empty (Unprepared b)) (session : Session) (share : Bool) :
    PlanM (Select b Empty (Prepared b) × Bindings b) := do
  let (result, preparation) := Preparation.run <|
    TreeKind.prepareSteps session share (.part (.select .row)) select
  preparation.reuses.forM PlanM.reportReuse
  match result with
  | .error error => throw (.ofError error.error)
  | .ok prepared =>
      PlanM.record (·.snapshot prepared)
      PlanM.record (·.report .debug "qir::planner"
        ("prepared " ++ toString preparation.bindings.parameters.length ++ " parameters, " ++
          toString preparation.bindings.sessionVariables.length ++ " session variables"))
      pure (prepared, preparation.bindings)

/-- All passes of planning, one after the other. -/
def planPasses [HasJson R] (select : Select b R (Unprepared b)) (session : Session)
    (catalog : Catalog b) (options : Options) :
    PlanM (Select b Empty (Prepared b) × Option (JoinTree R) × Bindings b) := do
  PlanM.record (·.snapshot select)
  PlanM.record (·.report .debug "qir::planner" ("planning select for backend " ++ b.name))
  PlanM.record (·.enter .namingConvention)
  let select := select.withDefaultNaming options.namingConvention
  if options.validate then
    PlanM.record (·.enter .validation)
    PlanM.check (select.validate catalog)
  PlanM.record (·.enter .remoteJoins)
  let (stripped, joins) ← select.planSplit
  PlanM.record (·.enter .preparation)
  let (prepared, bindings) ← stripped.planPrepare session options.dedupeParameters
  pure (prepared, joins, bindings)

/-- The plan of a select, or the errors that prevent it, and the recorder afterwards.  With the
option set, the run is logged into a log of its own. -/
def plan [HasJson R] (select : Select b R (Unprepared b)) (session : Session)
    (catalog : Catalog b) (options : Options) (recorder : Recorder) :
    Except Errors (Plan b R) × Recorder :=
  let started := if options.debugLog then recorder.start else recorder
  let (result, recorder) := (ExceptT.run (select.planPasses session catalog options)).run started
  let (log, recorder) := if options.debugLog then recorder.finish else (none, recorder)
  (result.map fun (select, remoteJoins, bindings) => { select, remoteJoins, bindings, log },
    recorder)

end Selection

end SelectPlan
