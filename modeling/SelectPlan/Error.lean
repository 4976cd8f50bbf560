import SelectPlan.Json.Basic

/-!
Errors of planning: what went wrong, where in the response, and what may help.
-/

namespace SelectPlan

/-- Why planning failed. -/
inductive Reason where
  | simple (text : String)
  | expected (who : Option String) (expected found : String)
  | notFound (name kind : String)
  | unsupported (feature backend : String)
  /-- Something that the planner takes to be impossible. -/
  | bug (details : Option String)
deriving DecidableEq

/-- The kind of a message. -/
inductive Severity where
  | error
  | warning
  | lint
deriving DecidableEq

/-- One error. -/
structure Error where
  severity : Severity := .error
  reason : Reason
  hints : List String := []
  /-- An identifier for machines. -/
  code : Option String := none
  /-- The names of the response fields that lead from the root to the offending node. -/
  path : List String := []
deriving DecidableEq

/-- Errors in the order in which they were found. -/
structure Errors where
  list : List Error
deriving DecidableEq

/-- The wording of a reason. -/
def Reason.message : Reason → String
  | simple text => text
  | expected who wanted found =>
      (match who with
        | some who => who ++ " "
        | none => "") ++ "expected " ++ wanted ++ ", but found " ++ found
  | notFound name kind => kind ++ " `" ++ name ++ "` not found"
  | unsupported feature backend =>
      feature ++ " is not supported by the " ++ backend ++ " backend"
  | bug details =>
      "internal planner error" ++
        match details with
        | some details => "; " ++ details
        | none => ""

/-- The name of a severity. -/
def Severity.name : Severity → String
  | error => "Error"
  | warning => "Warning"
  | lint => "Lint"

namespace Error

/-- An error with a plain text. -/
def simple (text : String) : Error :=
  { reason := .simple text }

/-- A broken assumption of the planner. -/
def assertion (details : String) : Error :=
  { reason := .bug (some details) }

/-- Adds a hint after the others. -/
def pushHint (error : Error) (hint : String) : Error :=
  { error with hints := error.hints ++ [hint] }

/-- Replaces the hints. -/
def withHints (error : Error) (hints : List String) : Error :=
  { error with hints }

/-- Sets the code. -/
def withCode (error : Error) (code : String) : Error :=
  { error with code := some code }

/-- Puts a response field in front of the path. -/
def under (error : Error) (field : String) : Error :=
  { error with path := field :: error.path }

/-- The text of an error: its path, the reason, and each hint on a line of its own. -/
def message (error : Error) : String :=
  (if error.path.isEmpty then "" else "at " ++ ".".intercalate error.path ++ ": ") ++
    error.reason.message ++ String.join (error.hints.map ("\nhint: " ++ ·))

end Error

namespace Errors

/-- A single error. -/
def ofError (error : Error) : Errors :=
  ⟨[error]⟩

/-- Whether there is no error. -/
def isEmpty (errors : Errors) : Bool :=
  errors.list.isEmpty

/-- Success if there is no error. -/
def toExcept (errors : Errors) : Except Errors Unit :=
  if errors.isEmpty then .ok () else .error errors

theorem toExcept_eq_ok_iff {errors : Errors} : errors.toExcept = .ok () ↔ errors.list = [] := by
  rw [toExcept, isEmpty, ← List.isEmpty_iff]
  split
  · next hempty => exact iff_of_true rfl hempty
  · next hsome => exact iff_of_false (nomatch ·) hsome

theorem toExcept_eq_error_iff {errors others : Errors} :
    errors.toExcept = .error others ↔ errors.list ≠ [] ∧ others.list = errors.list := by
  rw [toExcept, isEmpty, ne_eq, ← List.isEmpty_iff]
  split
  · next hempty => exact iff_of_false (nomatch ·) fun hother => hother.1 hempty
  · next hsome =>
    constructor
    · intro hothers
      cases hothers
      exact ⟨hsome, rfl⟩
    · rintro ⟨-, hlist⟩
      exact congrArg (Except.error ∘ Errors.mk) hlist.symm

/-- Changes every error. -/
def map (f : Error → Error) (errors : Errors) : Errors :=
  ⟨errors.list.map f⟩

/-- The texts of the errors, each on lines of its own. -/
def message (errors : Errors) : String :=
  "\n".intercalate (errors.list.map Error.message)

end Errors

end SelectPlan
