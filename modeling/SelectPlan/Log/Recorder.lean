import SelectPlan.Json.Canonical

/-!
The debug log of a planning run: snapshots of what the passes work on, interleaved with their
messages.  A recorder holds the log that is being collected, if there is one, and says which
messages reach it.
-/

namespace SelectPlan

/-- The version of this library, which debug logs name. -/
def version : String := "0.3.0"

/-- How important a message is. -/
inductive Level where
  | error
  | warn
  | info
  | debug
  | trace
deriving DecidableEq

namespace Level

/-- The levels, the most important first. -/
def all : List Level :=
  [error, warn, info, debug, trace]

/-- How many levels are more important. -/
def verbosity : Level → Nat
  | error => 0
  | warn => 1
  | info => 2
  | debug => 3
  | trace => 4

/-- The word for a level. -/
def name : Level → String
  | error => "ERROR"
  | warn => "WARN"
  | info => "INFO"
  | debug => "DEBUG"
  | trace => "TRACE"

/-- The level that a word stands for, in capital or small letters. -/
def ofName? (text : String) : Option Level :=
  all.find? fun level => level.name == text.toUpper

end Level

/-- The stages of planning. -/
inductive Stage where
  | initial
  | namingConvention
  | validation
  | remoteJoins
  | preparation
deriving DecidableEq

namespace Stage

/-- The stages in their order. -/
def all : List Stage :=
  [initial, namingConvention, validation, remoteJoins, preparation]

/-- The name of a stage. -/
def name : Stage → String
  | initial => "Initial"
  | namingConvention => "NamingConvention"
  | validation => "Validation"
  | remoteJoins => "RemoteJoins"
  | preparation => "Preparation"

/-- The stage with a name. -/
def ofName? (text : String) : Option Stage :=
  all.find? fun stage => stage.name == text

end Stage

/-- A message as a log keeps it. -/
structure Message where
  level : String
  modulePath : Option String
  text : String
deriving DecidableEq

instance : HasJson Message :=
  ⟨fun message =>
    .object [("level", json message.level), ("module_path", json message.modulePath),
      ("text", json message.text)]⟩

/-- A message on its way to a log. -/
structure LogRecord where
  target : String
  level : Level
  modulePath : Option String
  text : String
deriving DecidableEq

/-- What a log keeps. -/
inductive EntryKind where
  /-- A snapshot of something that the planner works on. -/
  | snapshot (value : JsonValue)
  | message (message : Message)
deriving DecidableEq

/-- An entry of a log, with the stage that had been reached. -/
structure LogEntry where
  stage : Stage
  kind : EntryKind
deriving DecidableEq

/-- The log of one run. -/
structure DebugLog where
  version : String := SelectPlan.version
  entries : List LogEntry := []
  /-- The stage that new entries are labelled with. -/
  stage : Stage := .initial
deriving DecidableEq

namespace DebugLog

/-- The entries of one stage. -/
def entriesOf (log : DebugLog) (stage : Stage) : List LogEntry :=
  log.entries.filter fun entry => entry.stage == stage

/-- Adds an entry. -/
def push (log : DebugLog) (kind : EntryKind) : DebugLog :=
  { log with entries := log.entries ++ [⟨log.stage, kind⟩] }

end DebugLog

/-- The log that is being collected, and the level up to which messages reach it.  Without a level
none do. -/
structure Recorder where
  log : Option DebugLog := none
  threshold : Option Level := none
deriving DecidableEq

namespace Recorder

/-- What the targets of messages begin with that may reach the log. -/
def ownTarget : String := "qir"

/-- Whether a log is being collected. -/
def isActive (recorder : Recorder) : Bool :=
  recorder.log.isSome

/-- Adds an entry, if a log is being collected. -/
def add (recorder : Recorder) (kind : EntryKind) : Recorder :=
  { recorder with log := recorder.log.map (·.push kind) }

/-- Adds the entry that steps come to, if a log is being collected.  If none is, the steps are not
run. -/
def addFrom {m : Type → Type} [Monad m] (recorder : Recorder) (steps : m EntryKind) :
    m Recorder :=
  if recorder.isActive then recorder.add <$> steps else pure recorder

/-- Whether a record may reach the log at a level. -/
def admits (recorder : Recorder) (maxLevel : Level) (record : LogRecord) : Bool :=
  record.level.verbosity ≤ maxLevel.verbosity && ownTarget.toList.isPrefixOf record.target.toList &&
    recorder.isActive

/-- Adds a record as a message, if it may reach the log. -/
def offer (recorder : Recorder) (maxLevel : Level) (record : LogRecord) : Recorder :=
  if recorder.admits maxLevel record then
    recorder.add (.message ⟨record.level.name, record.modulePath, record.text⟩)
  else recorder

/-- Reports a message of a part of the planner. -/
def report (recorder : Recorder) (level : Level) (place text : String) : Recorder :=
  match recorder.threshold with
  | some threshold => recorder.offer threshold ⟨place, level, some place, text⟩
  | none => recorder

/-- Starts a log.  One that was not finished is dropped. -/
def start (recorder : Recorder) : Recorder :=
  let started := { recorder with log := some {} }
  if recorder.isActive then
    started.report .warn "qir::debug::log" "debug log started while another one was active"
  else started

/-- Ends the log and gives it out. -/
def finish (recorder : Recorder) : Option DebugLog × Recorder :=
  (recorder.log, { recorder with log := none })

/-- Goes on to a stage. -/
def enter (recorder : Recorder) (stage : Stage) : Recorder :=
  match recorder.log with
  | some log =>
      { recorder with log := some { log with stage } }.report .debug "qir::debug::log"
        ("stage " ++ stage.name)
  | none => recorder

/-- Adds a snapshot of a document. -/
def snapshotJson (recorder : Recorder) (document : Json) : Recorder :=
  recorder.add (.snapshot (.ofJson document))

/-- Adds a snapshot of something that may have no document form. -/
def snapshotOrError (recorder : Recorder) : Except String Json → Recorder
  | .ok document => recorder.snapshotJson document
  | .error message => recorder.snapshotJson (.string ("<cannot serialize: " ++ message ++ ">"))

/-- Adds a snapshot of a value. -/
def snapshot {α : Type} [HasJson α] (recorder : Recorder) (value : α) : Recorder :=
  match recorder.log with
  | some _ => recorder.snapshotJson (json value)
  | none => recorder

end Recorder

end SelectPlan
