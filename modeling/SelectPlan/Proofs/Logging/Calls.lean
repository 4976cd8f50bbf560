import Mathlib.Data.List.Induction
import SelectPlan.Proofs.Logging.Events

/-!
The life of a log.  A log can be started, told stages and entries, and ended, in any order and any
number of times.  A log that is given out holds what was added since it was started, and the
messages of the log itself that the level lets through, and nothing else.
-/

namespace SelectPlan

/-- What can be asked of a log.  The steps that come to an entry may act on a world of their
own. -/
inductive LogCall (W : Type) where
  | start
  | enter (stage : Stage)
  | add (steps : StateM W EntryKind)
  | snapshot (document : Except String Json)
  | finish

namespace LogCall

variable {W : Type}

/-- Does what is asked of a log. -/
def perform (recorder : Recorder) : LogCall W → StateM W Recorder
  | start => pure recorder.start
  | enter stage => pure (recorder.enter stage)
  | add steps => recorder.addFrom steps
  | snapshot document => pure (recorder.snapshotOrError document)
  | finish => pure recorder.finish.2

/-- Does all that is asked, first to last, where there is no log at the beginning. -/
def run (threshold : Option Level) (calls : List (LogCall W)) : StateM W Recorder :=
  calls.foldlM perform { threshold }

/-- The stage that a call goes on to. -/
def entered? : LogCall W → Option Stage
  | enter stage => some stage
  | start | add _ | snapshot _ | finish => none

/-- The message that a log has of a new stage. -/
def stageMessages (threshold : Option Level) (stage : Stage) : List EntryKind :=
  if Level.debug.within threshold then
    [.message ⟨"DEBUG", some "qir::debug::log", "stage " ++ stage.name⟩]
  else []

/-- What a log keeps of a call. -/
def kinds (threshold : Option Level) : LogCall W → StateM W (List EntryKind)
  | start | finish => pure []
  | enter stage => pure (stageMessages threshold stage)
  | add steps => (fun kind => [kind]) <$> steps
  | snapshot (.ok document) => pure [.snapshot (.ofJson document)]
  | snapshot (.error message) =>
      pure [.snapshot (.ofJson (.string ("<cannot serialize: " ++ message ++ ">")))]

/-- The entries that a log keeps of calls, starting from a stage.  Each is labelled with the stage
that was gone on to last. -/
def entries (threshold : Option Level) : Stage → List (LogCall W) → StateM W (List LogEntry)
  | _, [] => pure []
  | stage, call :: calls => do
      let stage := call.entered?.getD stage
      let kinds ← call.kinds threshold
      let later ← entries threshold stage calls
      return kinds.map (⟨stage, ·⟩) ++ later

/-- The entries that a log has as soon as it is started: a warning, if it replaces another one. -/
def firstEntries (threshold : Option Level) (replaces : Bool) : List LogEntry :=
  if replaces && Level.warn.within threshold then
    [⟨.initial, .message ⟨"WARN", some "qir::debug::log",
      "debug log started while another one was active"⟩⟩]
  else []

variable {call : LogCall W} {calls : List (LogCall W)} (threshold : Option Level) (world : W)

/-! What one call does -/

theorem start_eq (recorder : Recorder) :
    recorder.start =
      { recorder with
        log := some { entries := firstEntries recorder.threshold recorder.isActive } } := by
  obtain ⟨_ | log, threshold⟩ := recorder
  · rfl
  · change Recorder.report ⟨some {}, threshold⟩ .warn _ _ = _
    rw [Recorder.report_eq]
    change (if Level.warn.within threshold = true then _ else _) =
      Recorder.mk (some { entries := if Level.warn.within threshold = true then _ else _ }) _
    cases Level.warn.within threshold <;> rfl

theorem enter_eq (log : DebugLog) (stage : Stage) :
    Recorder.enter ⟨some log, threshold⟩ stage =
      ⟨some { log with
        entries := log.entries ++ (stageMessages threshold stage).map (⟨stage, ·⟩)
        stage }, threshold⟩ := by
  change Recorder.tell ⟨some log, threshold⟩ (.enter stage) = _
  have hreaches : (LogEvent.enter stage).reaches threshold = Level.debug.within threshold := rfl
  rw [Recorder.tell_eq, Option.map_some, DebugLog.told, LogEvent.entries_singleton, hreaches,
    stageMessages]
  cases Level.debug.within threshold <;> rfl

/-- A log that is neither replaced nor ended keeps what it is told. -/
theorem perform_active (log : DebugLog) (hstart : call ≠ .start) (hfinish : call ≠ .finish) :
    let stage := call.entered?.getD log.stage
    let kept := call.kinds threshold world
    perform ⟨some log, threshold⟩ call world =
      (⟨some { log with entries := log.entries ++ kept.1.map (⟨stage, ·⟩), stage }, threshold⟩,
        kept.2) := by
  cases call with
  | start => exact absurd rfl hstart
  | finish => exact absurd rfl hfinish
  | enter stage => exact congrArg (·, world) (enter_eq threshold log stage)
  | add steps => rfl
  | snapshot document => cases document <;> rfl

/-- Without a log only a start does anything. -/
theorem perform_inactive (hstart : call ≠ .start) :
    perform ⟨none, threshold⟩ call world = (⟨none, threshold⟩, world) := by
  cases call with
  | start => exact absurd rfl hstart
  | snapshot document => cases document <;> rfl
  | enter stage => rfl
  | add steps => rfl
  | finish => rfl

/-- Only a start and an end change whether there is a log. -/
theorem isActive_perform (recorder : Recorder) (hstart : call ≠ .start) (hfinish : call ≠ .finish) :
    (perform recorder call world).1.isActive = recorder.isActive := by
  obtain ⟨_ | log, threshold⟩ := recorder
  · rw [perform_inactive threshold world hstart]
  · rw [perform_active threshold world log hstart hfinish]
    rfl

/-- No call changes the level. -/
theorem threshold_perform (recorder : Recorder) :
    (perform recorder call world).1.threshold = recorder.threshold := by
  obtain ⟨log, threshold⟩ := recorder
  by_cases hstart : call = .start
  · subst hstart
    change (Recorder.start _).threshold = _
    rw [start_eq]
  · by_cases hfinish : call = .finish
    · subst hfinish
      rfl
    · cases log with
      | none => rw [perform_inactive threshold world hstart]
      | some log => rw [perform_active threshold world log hstart hfinish]

/-! Runs -/

theorem run_append (earlier later : List (LogCall W)) :
    run threshold (earlier ++ later) world =
      later.foldlM perform (run threshold earlier world).1 (run threshold earlier world).2 := by
  rw [run, List.foldlM_append]
  rfl

theorem threshold_run (calls : List (LogCall W)) :
    (run threshold calls world).1.threshold = threshold := by
  induction calls using List.reverseRecOn with
  | nil => rfl
  | append_singleton calls call ih =>
      rw [run_append]
      exact (threshold_perform _ _).trans ih

/-- Without a log, and as long as none is started, nothing is kept and no steps are run. -/
theorem foldlM_inactive (hstart : .start ∉ calls) :
    calls.foldlM perform ⟨none, threshold⟩ world = (⟨none, threshold⟩, world) := by
  induction calls with
  | nil => rfl
  | cons call calls ih =>
      rw [List.mem_cons, not_or] at hstart
      have hcall := perform_inactive threshold world (Ne.symm hstart.1)
      change calls.foldlM perform (perform _ call world).1 (perform _ call world).2 = _
      rw [hcall]
      exact ih hstart.2

/-- As long as it is neither replaced nor ended, a log keeps what it is told. -/
theorem foldlM_active (log : DebugLog) (hstart : .start ∉ calls) (hfinish : .finish ∉ calls) :
    let kept := entries threshold log.stage calls world
    ∃ stage, calls.foldlM perform ⟨some log, threshold⟩ world =
      (⟨some { log with entries := log.entries ++ kept.1, stage }, threshold⟩, kept.2) := by
  induction calls generalizing log world with
  | nil =>
      refine ⟨log.stage, ?_⟩
      change _ = (Recorder.mk (some { log with entries := log.entries ++ [] }) _, world)
      rw [List.append_nil]
      rfl
  | cons call calls ih =>
      rw [List.mem_cons, not_or] at hstart hfinish
      have hcall := perform_active threshold world log (Ne.symm hstart.1) (Ne.symm hfinish.1)
      obtain ⟨stage, hcalls⟩ := ih (call.kinds threshold world).2
        { log with
          entries := log.entries ++ (call.kinds threshold world).1.map
            (⟨call.entered?.getD log.stage, ·⟩)
          stage := call.entered?.getD log.stage } hstart.2 hfinish.2
      refine ⟨stage, ?_⟩
      change calls.foldlM perform (perform _ call world).1 (perform _ call world).2 = _
      rw [hcall, hcalls, List.append_assoc]
      rfl

/-- One more call starts a log, or does not end one that was started before. -/
theorem started_concat_iff : (∃ earlier later, calls ++ [call] = earlier ++ .start :: later ∧
      .finish ∉ later) ↔
    call = .start ∨ call ≠ .finish ∧ ∃ earlier later, calls = earlier ++ .start :: later ∧
      .finish ∉ later := by
  constructor
  · rintro ⟨earlier, later, hcalls, hlater⟩
    rcases List.eq_nil_or_concat later with rfl | ⟨later, last, rfl⟩
    · exact Or.inl (List.singleton_inj.mp (List.append_inj_right' hcalls rfl))
    · rw [List.concat_eq_append, List.mem_append, not_or] at hlater
      rw [List.concat_eq_append, ← List.cons_append, ← List.append_assoc] at hcalls
      have hlast : call = last := List.singleton_inj.mp (List.append_inj_right' hcalls rfl)
      refine Or.inr ⟨fun hfinish => hlater.2 ?_, earlier, later, List.append_inj_left' hcalls rfl,
        hlater.1⟩
      rw [← hfinish, hlast]
      exact List.mem_singleton_self last
  · rintro (rfl | ⟨hfinish, earlier, later, rfl, hlater⟩)
    · exact ⟨calls, [], rfl, List.not_mem_nil⟩
    · refine ⟨earlier, later ++ [call], by rw [List.append_assoc, List.cons_append], ?_⟩
      rw [List.mem_append, List.mem_singleton]
      exact not_or.mpr ⟨hlater, Ne.symm hfinish⟩

/-- A log is active if it was started after it was ended last. -/
theorem isActive_run_iff (calls : List (LogCall W)) :
    (run threshold calls world).1.isActive = true ↔
      ∃ earlier later, calls = earlier ++ .start :: later ∧ .finish ∉ later := by
  induction calls using List.reverseRecOn with
  | nil =>
      refine iff_of_false Bool.false_ne_true ?_
      rintro ⟨earlier, later, hcalls, -⟩
      exact List.append_ne_nil_of_right_ne_nil earlier (List.cons_ne_nil _ _) hcalls.symm
  | append_singleton calls call ih =>
      rw [run_append, started_concat_iff, ← ih]
      change (perform (run threshold calls world).1 call _).1.isActive = true ↔ _
      by_cases hstart : call = .start
      · subst hstart
        refine iff_of_true ?_ (Or.inl rfl)
        change (Recorder.start _).isActive = true
        rw [start_eq]
        rfl
      · by_cases hfinish : call = .finish
        · subst hfinish
          refine iff_of_false Bool.false_ne_true ?_
          rintro (hstart | ⟨hfinish, -⟩)
          · cases hstart
          · exact hfinish rfl
        · rw [isActive_perform _ _ hstart hfinish]
          exact ⟨fun hactive => Or.inr ⟨hfinish, hactive⟩,
            fun hactive => (hactive.resolve_left hstart).2⟩

/-- A log records its run, whatever is asked and at every level.  There is one if it was started
after it was ended last, and then the end gives it out.  It holds the warning that it replaces
another one, if it does and the level lets the warning through, and then what was told since it was
started last, in the order in which it was told and labelled with the stage that was gone on to
last.  The steps that come to entries are run once each, in that order; where there is no log they
are not run, and nothing changes. -/
theorem run_records (calls : List (LogCall W)) :
    let reached : Recorder × W := run threshold calls world
    (reached.1.isActive = true ↔
      ∃ earlier later, calls = earlier ++ .start :: later ∧ .finish ∉ later) ∧
    (reached.1.finish.1 = none ↔ reached.1.isActive = false) ∧
    (∀ earlier later, calls = earlier ++ .start :: later → .start ∉ later → .finish ∉ later →
      let before : Recorder × W := run threshold earlier world
      let kept : List LogEntry × W := entries threshold .initial later before.2
      reached.2 = kept.2 ∧ ∃ log, reached.1.finish.1 = some log ∧ log.version = version ∧
        log.entries = firstEntries threshold before.1.isActive ++ kept.1) ∧
    (∀ earlier later, calls = earlier ++ later →
      (run threshold earlier world).1.isActive = false → .start ∉ later →
        reached = run threshold earlier world) := by
  intro reached
  refine ⟨isActive_run_iff threshold world calls, ?_, ?_, ?_⟩
  · change reached.1.log = none ↔ reached.1.log.isSome = false
    rw [Option.isSome_eq_false_iff, Option.isNone_iff_eq_none]
  · intro earlier later hcalls hstart hfinish before kept
    obtain ⟨stage, hlater⟩ := foldlM_active threshold before.2
      { entries := firstEntries threshold before.1.isActive } hstart hfinish
    have hstarted : before.1.start =
        ⟨some { entries := firstEntries threshold before.1.isActive }, threshold⟩ := by
      rw [start_eq, threshold_run]
    have hreached : reached = later.foldlM perform before.1.start before.2 :=
      (congrArg (run threshold · world) hcalls).trans (run_append threshold world _ _)
    rw [hreached, hstarted, hlater]
    exact ⟨rfl, _, rfl, rfl, rfl⟩
  · intro earlier later hcalls hinactive hstart
    have hreached : reached = later.foldlM perform (run threshold earlier world).1
        (run threshold earlier world).2 :=
      (congrArg (run threshold · world) hcalls).trans (run_append threshold world _ _)
    rw [hreached]
    generalize run threshold earlier world = before at hinactive
    obtain ⟨⟨_ | log, threshold⟩, world⟩ := before
    · exact foldlM_inactive threshold world hstart
    · cases hinactive

/-- A log of two entries replaces one that was never ended.  The steps before any log is started
are not run: the count is of the two that are added to a log. -/
theorem run_records_replacing_log :
    let count (text : String) : StateM Nat EntryKind :=
      fun n => (.snapshot (.ofJson (.string text)), n + 1)
    let earlier : List (LogCall Nat) := [.add (count "early"), .start, .add (count "dropped")]
    let later : List (LogCall Nat) :=
      [.add (count "kept"), .enter .validation, .snapshot (.ok .null)]
    let reached : Recorder × Nat := run (some .debug) (earlier ++ .start :: later) 0
    reached.2 = 2 ∧ reached.1.isActive = true ∧
      reached.1.finish.1.map DebugLog.entries =
        some [⟨.initial, .message ⟨"WARN", some "qir::debug::log",
            "debug log started while another one was active"⟩⟩,
          ⟨.initial, .snapshot (.ofJson (.string "kept"))⟩,
          ⟨.validation, .message ⟨"DEBUG", some "qir::debug::log", "stage Validation"⟩⟩,
          ⟨.validation, .snapshot (.ofJson .null)⟩] := by
  intro count earlier later reached
  obtain ⟨hactive, -, hlog, -⟩ := run_records (some .debug) 0 (earlier ++ .start :: later)
  have hstart : LogCall.start ∉ later := by simp [later]
  have hfinish : LogCall.finish ∉ later := by simp [later]
  obtain ⟨hworld, log, hlog, -, hentries⟩ := hlog earlier later rfl hstart hfinish
  refine ⟨hworld.trans rfl, hactive.mpr ⟨earlier, later, rfl, hfinish⟩, ?_⟩
  rw [hlog, Option.map_some, hentries]
  rfl

end LogCall

end SelectPlan
