import SelectPlan.Selection.Kind
import SelectPlan.Session

/-!
Preparation of leaf values.  Data of the request moves into a list of parameters and the values
keep its position there; every session variable that is read must be set.
-/

namespace SelectPlan

variable {b : Backend}

/-- What prepared values refer to. -/
structure Bindings (b : Backend) where
  parameters : List (ColumnValue b) := []
  /-- The lowercased names of the session variables that are read, in order of first use. -/
  sessionVariables : List String := []
deriving DecidableEq

namespace Bindings

/-- The parameter at a position, counted from one. -/
def parameter? (bindings : Bindings b) (index : Nat) : Option (ColumnValue b) :=
  match index with
  | 0 => none
  | index + 1 => bindings.parameters[index]?

instance : HasJson (Bindings b) :=
  ⟨fun bindings =>
    .object [("parameters", json bindings.parameters),
      ("session_variables", json bindings.sessionVariables)]⟩

end Bindings

/-- A second use of a request variable, which shares the parameter of the first. -/
structure Reuse where
  variableName : String
  index : Nat
deriving DecidableEq

/-- How far a preparation has come. -/
structure Preparation (b : Backend) where
  bindings : Bindings b := {}
  /-- The positions of the parameters that request variables are bound to. -/
  bound : List (String × Nat) := []
  reuses : List Reuse := []
deriving DecidableEq

/-- Why a preparation stops. -/
inductive PreparationError where
  | unknownSessionVariable (name : String)
  /-- A request variable that is bound to a parameter comes with another value. -/
  | rebound (variableName : String) (index : Nat)
deriving DecidableEq

/-- The error that reports why a preparation stopped. -/
def PreparationError.error : PreparationError → Error
  | unknownSessionVariable name =>
      { reason := .notFound name "session variable"
        hints := ["session variables are matched case-insensitively"] }
  | rebound name index =>
      .assertion ("variable `" ++ name ++ "` bound to parameter $" ++ toString index ++
        " with a different value")

/-- Steps of a preparation.  What was done before an error is kept. -/
abbrev PrepareM (b : Backend) := ExceptT PreparationError (StateM (Preparation b))

namespace Preparation

/-- Adds a parameter and gives its position. -/
def addParameter (preparation : Preparation b) (value : ColumnValue b) : Nat × Preparation b :=
  let parameters := preparation.bindings.parameters ++ [value]
  (parameters.length,
    { preparation with bindings := { preparation.bindings with parameters } })

/-- Binds a parameter that no other use may share. -/
def bindNew (value : ColumnValue b) : PrepareM b Nat :=
  fun preparation =>
    let (index, preparation) := preparation.addParameter value
    (.ok index, preparation)

/-- Binds a request variable: the first use adds a parameter, later ones share it. -/
def bindVariable (name : String) (value : ColumnValue b) : PrepareM b Nat :=
  fun preparation =>
    match preparation.bound.lookup name with
    | some index =>
        if preparation.bindings.parameter? index = some value then
          (.ok index, { preparation with reuses := preparation.reuses ++ [⟨name, index⟩] })
        else (.error (.rebound name index), preparation)
    | none =>
        let (index, preparation) := preparation.addParameter value
        (.ok index, { preparation with bound := preparation.bound ++ [(name, index)] })

/-- Notes that a session variable is read. -/
def readSessionVariable (session : Session) (name : String) : PrepareM b Unit :=
  fun preparation =>
    if session.contains name then
      let name := Text.lowercase name
      let names := preparation.bindings.sessionVariables
      if names.contains name then (.ok (), preparation)
      else
        (.ok (), { preparation with
          bindings := { preparation.bindings with sessionVariables := names ++ [name] } })
    else (.error (.unknownSessionVariable name), preparation)

/-- Prepares one value.  `share` says whether the uses of a request variable share a parameter. -/
def prepareValue (session : Session) (share : Bool) : Unprepared b → PrepareM b (Prepared b)
  | .literal value => pure (.literal value)
  | .parameter provenance value =>
      match share, provenance.variableName? with
      | true, some name => .param <$> bindVariable name value
      | _, _ => .param <$> bindNew value
  | .sessionVariable name type => do
      readSessionVariable session name
      pure (.sessionVariable name type)
  | .session => pure .session

/-- Runs steps from the start. -/
def run {α : Type} (steps : PrepareM b α) : Except PreparationError α × Preparation b :=
  (ExceptT.run steps).run {}

end Preparation

namespace TreeKind

/-- Prepares the values of a tree in reading order. -/
def prepareSteps {R : Type} (session : Session) (share : Bool) (kind : TreeKind)
    (tree : kind.Tree b R (Unprepared b)) : PrepareM b (kind.Tree b R (Prepared b)) :=
  kind.traverse pure (Preparation.prepareValue session share) tree

/-- A tree with prepared values and what these refer to, or why there is none. -/
def prepare {R : Type} (session : Session) (share : Bool) (kind : TreeKind)
    (tree : kind.Tree b R (Unprepared b)) :
    Except PreparationError (kind.Tree b R (Prepared b) × Bindings b) :=
  match Preparation.run (kind.prepareSteps session share tree) with
  | (.ok prepared, preparation) => .ok (prepared, preparation.bindings)
  | (.error error, _) => .error error

end TreeKind

end SelectPlan
