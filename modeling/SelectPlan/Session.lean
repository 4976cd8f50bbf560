import SelectPlan.Data.OrderedMap
import SelectPlan.Text.Lowercase

/-!
The session of a request: variables whose names are matched without regard to letter case.
-/

namespace SelectPlan

/-- Session variables by their lowercased names, in the order in which they were first set. -/
structure Session where
  entries : OrderedMap String String

namespace Session

/-- The session without variables. -/
def empty : Session :=
  ⟨∅⟩

/-- Sets a variable. -/
def insert (session : Session) (name value : String) : Session :=
  ⟨session.entries.insert (Text.lowercase name) value⟩

/-- The session in which variables are set one after the other. -/
def ofList (pairs : List (String × String)) : Session :=
  pairs.foldl (fun session (name, value) => session.insert name value) empty

/-- The value of a variable. -/
def find? (session : Session) (name : String) : Option String :=
  session.entries.find? (Text.lowercase name)

/-- Whether a variable is set. -/
def contains (session : Session) (name : String) : Bool :=
  session.entries.contains (Text.lowercase name)

/-- The lowercased names of the variables. -/
def names (session : Session) : List String :=
  session.entries.keys

instance : HasJson Session := ⟨fun session => json session.entries⟩

theorem contains_iff {session : Session} {name : String} :
    session.contains name = true ↔ Text.lowercase name ∈ session.names := by
  rw [contains, OrderedMap.contains, decide_eq_true_iff, names]

end Session

end SelectPlan
