import SelectPlan.Log.Recorder

/-!
Events of a log.  Everything that the planner tells a recorder is one of three events.  A log keeps
what it is told as entries, each with the stage that had been reached, and gains nothing else.
Which events leave an entry depends on the level alone, so the entries at one level can be read off
those at another.
-/

namespace SelectPlan

/-- How many stages come before. -/
def Stage.position (stage : Stage) : Nat :=
  all.idxOf stage

/-- Whether messages of a level reach a log. -/
def Level.within (threshold : Option Level) (level : Level) : Bool :=
  threshold.any fun threshold => level.verbosity ≤ threshold.verbosity

theorem Level.within_trace (level : Level) : level.within (some .trace) = true := by
  cases level <;> rfl

/-- The level of a message. -/
def Message.level? (message : Message) : Option Level :=
  Level.all.find? fun level => level.name == message.level

theorem Message.level?_name (level : Level) (modulePath : Option String) (text : String) :
    level? ⟨level.name, modulePath, text⟩ = some level := by
  cases level <;> rfl

/-- Whether an entry stands in a log up to a level.  Snapshots do at every level. -/
def EntryKind.within (threshold : Option Level) : EntryKind → Bool
  | snapshot _ => true
  | message content => content.level?.any (Level.within threshold)

/-- Something that the planner tells a recorder. -/
inductive LogEvent where
  | snapshot (document : Json)
  | enter (stage : Stage)
  | report (level : Level) (place text : String)

namespace LogEvent

/-- The stage that an event goes on to. -/
def entered? : LogEvent → Option Stage
  | enter stage => some stage
  | snapshot _ | report _ _ _ => none

/-- What a log keeps of an event. -/
def kind : LogEvent → EntryKind
  | snapshot document => .snapshot (.ofJson document)
  | enter stage => .message ⟨Level.debug.name, some "qir::debug::log", "stage " ++ stage.name⟩
  | report level place text => .message ⟨level.name, some place, text⟩

/-- The level of the message that an event comes with. -/
def level? : LogEvent → Option Level
  | snapshot _ => none
  | enter _ => some .debug
  | report level _ _ => some level

/-- Whether an event is of a part of the planner. -/
def isOwn : LogEvent → Bool
  | snapshot _ | enter _ => true
  | report _ place _ => Recorder.ownTarget.toList.isPrefixOf place.toList

/-- Whether an event leaves an entry in a log. -/
def reaches (threshold : Option Level) (event : LogEvent) : Bool :=
  event.isOwn && event.level?.all (Level.within threshold)

theorem within_kind (threshold : Option Level) (event : LogEvent) :
    event.kind.within threshold = event.level?.all (Level.within threshold) := by
  cases event with
  | snapshot document => rfl
  | enter stage => simp [kind, level?, EntryKind.within, Message.level?_name]
  | report level place text => simp [kind, level?, EntryKind.within, Message.level?_name]

/-- Every event of the planner leaves an entry at the lowest level. -/
theorem reaches_trace (event : LogEvent) : event.reaches (some .trace) = event.isOwn := by
  have hall : event.level?.all (Level.within (some .trace)) = true := by
    cases event.level? with
    | none => rfl
    | some level => exact level.within_trace
  rw [reaches, hall, Bool.and_true]

/-- Events with the stages that have been reached by them. -/
def labelled (stage : Stage) : List LogEvent → List (Stage × LogEvent)
  | [] => []
  | event :: events =>
      let stage := event.entered?.getD stage
      (stage, event) :: labelled stage events

/-- The entry that a log keeps of an event at a stage. -/
def entry (step : Stage × LogEvent) : LogEntry :=
  ⟨step.1, step.2.kind⟩

/-- The entries that a log keeps of events, starting from a stage. -/
def entries (threshold : Option Level) (stage : Stage) (events : List LogEvent) : List LogEntry :=
  ((labelled stage events).filter fun step => step.2.reaches threshold).map entry

/-- The stage that is reached by events. -/
def lastStage (stage : Stage) (events : List LogEvent) : Stage :=
  events.foldl (fun stage event => event.entered?.getD stage) stage

variable {threshold : Option Level} {stage : Stage} {event : LogEvent} {events : List LogEvent}

theorem entries_singleton : entries threshold stage [event] =
    if event.reaches threshold then [⟨event.entered?.getD stage, event.kind⟩] else [] := by
  cases hreaches : event.reaches threshold <;> simp [entries, labelled, entry, hreaches]

theorem entries_cons : entries threshold stage (event :: events) =
    entries threshold stage [event] ++
      entries threshold (event.entered?.getD stage) events := by
  cases hreaches : event.reaches threshold <;> simp [entries, labelled, hreaches]

/-- The entries at a level are those at the lowest level but for the messages that are too
detailed. -/
theorem entries_eq_filter (threshold : Option Level) (stage : Stage) (events : List LogEvent) :
    entries threshold stage events =
      (entries (some .trace) stage events).filter fun entry => entry.kind.within threshold := by
  rw [entries, entries, List.filter_map, List.filter_filter]
  refine congrArg (List.map entry) (List.filter_congr fun step _ => ?_)
  change step.2.reaches threshold = (step.2.kind.within threshold && _)
  rw [reaches_trace, within_kind, reaches, Bool.and_comm]

/-- What the entries keep does not depend on the stages. -/
theorem kinds_entries (threshold : Option Level) (stage : Stage) (events : List LogEvent) :
    (entries threshold stage events).map LogEntry.kind =
      (events.filter (reaches threshold)).map kind := by
  induction events generalizing stage with
  | nil => rfl
  | cons event events ih =>
      rw [entries_cons, List.map_append, ih]
      cases hreaches : event.reaches threshold <;> simp [entries, labelled, entry, hreaches]

theorem countP_entries (p : EntryKind → Bool) (threshold : Option Level) (stage : Stage)
    (events : List LogEvent) :
    (entries threshold stage events).countP (p ·.kind) =
      events.countP fun event => event.reaches threshold && p event.kind := by
  have hkinds := congrArg (List.countP p) (kinds_entries threshold stage events)
  rw [List.countP_map, List.countP_map, List.countP_filter] at hkinds
  simpa only [Function.comp_def, Bool.and_comm] using hkinds

/-- The stages that are reached after an event are among those reached with it. -/
theorem reached_sublist (stage : Stage) (event : LogEvent) (events : List LogEvent) :
    (event.entered?.getD stage :: events.filterMap entered?).Sublist
      (stage :: (event :: events).filterMap entered?) := by
  cases event with
  | snapshot document => exact .refl _
  | enter next => exact .cons _ (.refl _)
  | report level place text => exact .refl _

theorem stage_mem_of_labelled {step : Stage × LogEvent} (hmem : step ∈ labelled stage events) :
    step.1 ∈ stage :: events.filterMap entered? := by
  induction events generalizing stage with
  | nil => cases hmem
  | cons event events ih =>
      refine (reached_sublist stage event events).subset ?_
      rcases List.mem_cons.mp hmem with rfl | hmem
      · exact List.mem_cons_self
      · exact ih hmem

/-- If no stage is gone back to, the labels do not go back either. -/
theorem labelled_ordered
    (hforward : (stage :: events.filterMap entered?).Pairwise (·.position ≤ ·.position)) :
    (labelled stage events).Pairwise (·.1.position ≤ ·.1.position) := by
  induction events generalizing stage with
  | nil => exact .nil
  | cons event events ih =>
      have hrest := hforward.sublist (reached_sublist stage event events)
      refine List.pairwise_cons.mpr ⟨fun step hmem => ?_, ih hrest⟩
      rcases List.mem_cons.mp (stage_mem_of_labelled hmem) with hlabel | hlabel
      · exact Nat.le_of_eq (congrArg Stage.position hlabel.symm)
      · exact (List.pairwise_cons.mp hrest).1 _ hlabel

/-- An entry is labelled with a stage that has been reached. -/
theorem stage_mem_of_entries {entry : LogEntry} (hmem : entry ∈ entries threshold stage events) :
    entry.stage ∈ stage :: events.filterMap entered? := by
  obtain ⟨step, hstep, rfl⟩ := List.mem_map.mp hmem
  exact stage_mem_of_labelled (List.mem_filter.mp hstep).1

theorem entries_ordered
    (hforward : (stage :: events.filterMap entered?).Pairwise (·.position ≤ ·.position)) :
    (entries threshold stage events).Pairwise (·.stage.position ≤ ·.stage.position) :=
  List.pairwise_map.mpr ((labelled_ordered hforward).sublist List.filter_sublist)

end LogEvent

/-- The snapshot that an entry keeps, with its stage. -/
def LogEntry.snapshot? : LogEntry → Option (Stage × JsonValue)
  | ⟨stage, .snapshot value⟩ => some (stage, value)
  | ⟨_, .message _⟩ => none

namespace LogEvent

/-- The snapshots that events take, each with the stage that has been reached. -/
def snapshots (stage : Stage) : List LogEvent → List (Stage × JsonValue)
  | [] => []
  | snapshot document :: events => (stage, .ofJson document) :: snapshots stage events
  | enter next :: events => snapshots next events
  | report _ _ _ :: events => snapshots stage events

/-- The snapshots of a log are those of the events, at every level. -/
theorem snapshots_entries (threshold : Option Level) (stage : Stage) (events : List LogEvent) :
    (entries threshold stage events).filterMap LogEntry.snapshot? = snapshots stage events := by
  induction events generalizing stage with
  | nil => rfl
  | cons event events ih =>
      rw [entries_cons, List.filterMap_append, ih, entries_singleton]
      cases event with
      | snapshot document => rfl
      | enter next => split <;> rfl
      | report level place text => split <;> rfl

end LogEvent

/-- A log once it has been told events. -/
def DebugLog.told (log : DebugLog) (threshold : Option Level) (events : List LogEvent) :
    DebugLog :=
  { log with
    entries := log.entries ++ LogEvent.entries threshold log.stage events
    stage := LogEvent.lastStage log.stage events }

namespace DebugLog

variable (log : DebugLog) (threshold : Option Level) (event : LogEvent)

theorem told_nil : log.told threshold [] = log := by
  rw [told, LogEvent.entries, LogEvent.labelled]
  simp [LogEvent.lastStage]

theorem told_cons (events : List LogEvent) :
    log.told threshold (event :: events) = (log.told threshold [event]).told threshold events := by
  rw [told, LogEvent.entries_cons, ← List.append_assoc]
  rfl

theorem told_singleton :
    log.told threshold [event] =
      let log := { log with stage := event.entered?.getD log.stage }
      if event.reaches threshold then log.push event.kind else log := by
  rw [told, LogEvent.entries_singleton]
  split
  · rfl
  · rw [List.append_nil]
    rfl

end DebugLog

namespace Recorder

variable (recorder : Recorder)

/-- Tells a recorder an event. -/
def tell (recorder : Recorder) : LogEvent → Recorder
  | .snapshot document => recorder.snapshotJson document
  | .enter stage => recorder.enter stage
  | .report level place text => recorder.report level place text

/-- Tells a recorder events, one after the other. -/
def tellAll (recorder : Recorder) (events : List LogEvent) : Recorder :=
  events.foldl tell recorder

theorem tell_snapshot {α : Type} [HasJson α] (value : α) :
    recorder.tell (.snapshot (json value)) = recorder.snapshot value := by
  rcases recorder with ⟨_ | log, threshold⟩ <;> rfl

theorem report_eq (level : Level) (place text : String) :
    recorder.report level place text =
      if (LogEvent.report level place text).reaches recorder.threshold then
        recorder.add (.message ⟨level.name, some place, text⟩)
      else recorder := by
  rcases recorder with ⟨_ | log, _ | threshold⟩
  · simp [report, add]
  · simp [report, offer, admits, isActive, add]
  · simp [report, LogEvent.reaches, LogEvent.level?, Level.within]
  · simp [report, offer, admits, isActive, LogEvent.reaches, LogEvent.level?, Level.within,
      LogEvent.isOwn, and_comm]

/-- A recorder keeps the entry of an event in its log, if there is one. -/
theorem tell_eq (event : LogEvent) :
    recorder.tell event =
      { recorder with log := recorder.log.map (·.told recorder.threshold [event]) } := by
  rcases recorder with ⟨_ | log, threshold⟩
  · cases event with
    | snapshot document => rfl
    | enter stage => rfl
    | report level place text =>
        rw [tell, report_eq]
        exact ite_self _
  · rw [Option.map_some, DebugLog.told_singleton]
    cases event with
    | snapshot document => rfl
    | enter stage =>
        change report ⟨some { log with stage }, threshold⟩ .debug _ _ = _
        rw [report_eq]
        have hreaches : (LogEvent.enter stage).reaches threshold = (LogEvent.report .debug
            "qir::debug::log" ("stage " ++ stage.name)).reaches threshold := rfl
        rw [hreaches]
        split <;> rfl
    | report level place text =>
        rw [tell, report_eq]
        split <;> rfl

/-- All that a recorder does with events is to keep their entries in its log, if there is one. -/
theorem tellAll_eq (events : List LogEvent) :
    recorder.tellAll events =
      { recorder with log := recorder.log.map (·.told recorder.threshold events) } := by
  induction events generalizing recorder with
  | nil => simp [tellAll, DebugLog.told_nil]
  | cons event events ih =>
      rw [tellAll, List.foldl_cons, ← tellAll, ih, tell_eq, Option.map_map]
      simp only [Function.comp_def, ← DebugLog.told_cons]

end Recorder

end SelectPlan
