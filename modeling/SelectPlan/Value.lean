import SelectPlan.Dialect

/-!
Leaf values.  A select arrives with unprepared values, some of them bound to data of the request;
planning turns them into prepared ones, which refer to that data by position.
-/

namespace SelectPlan

/-- A literal. -/
inductive Scalar where
  | null
  | bool (value : Bool)
  | int (value : Int64)
  /-- A number kept as text, so that no digit is lost. -/
  | numeric (digits : String)
  | text (value : String)
  | json (value : JsonValue)
deriving DecidableEq

instance : HasJson Scalar :=
  ⟨fun
    | .null => .string "Null"
    | .bool value => .tagged "Bool" (json value)
    | .int value => .tagged "Int" (json value)
    | .numeric digits => .tagged "Numeric" (json digits)
    | .text value => .tagged "Text" (json value)
    | .json value => .tagged "Json" (json value)⟩

/-- The type of a column. -/
inductive ColumnType (b : Backend) where
  | scalar (type : ScalarType b)
  /-- The values that an enum table lists, by the name of the table. -/
  | enumReference (table : String)
deriving DecidableEq

instance {b : Backend} : HasJson (ColumnType b) :=
  ⟨fun
    | .scalar type => .tagged "Scalar" (json type)
    | .enumReference table => .tagged "EnumReference" (json table)⟩

/-- A literal with the type of the column it is meant for. -/
structure ColumnValue (b : Backend) where
  type : ColumnType b
  value : Scalar
deriving DecidableEq

instance {b : Backend} : HasJson (ColumnValue b) :=
  ⟨fun value => .object [("ty", json value.type), ("value", json value.value)]⟩

/-- Where a parameter comes from. -/
inductive Provenance where
  /-- A variable of the request, or an argument written in place, which has no name. -/
  | request (name : Option String)
  /-- The engine itself. -/
  | internal (text : String)
deriving DecidableEq

instance : HasJson Provenance :=
  ⟨fun
    | .request name => .tagged "FromGraphQL" (.object [("variable", json name)])
    | .internal text => .tagged "FromInternal" (json text)⟩

/-- The variable of the request that a parameter is bound to. -/
def Provenance.variableName? : Provenance → Option String
  | request name => name
  | internal _ => none

/-- A value as the request brings it. -/
inductive Unprepared (b : Backend) where
  | literal (value : Scalar)
  | parameter (provenance : Provenance) (value : ColumnValue b)
  | sessionVariable (name : String) (type : ScalarType b)
  /-- The whole session. -/
  | session
deriving DecidableEq

instance {b : Backend} : HasJson (Unprepared b) :=
  ⟨fun
    | .literal value => .tagged "Literal" (json value)
    | .parameter provenance value =>
        .tagged "Parameter" (.object [("provenance", json provenance), ("value", json value)])
    | .sessionVariable name type =>
        .tagged "SessionVariable" (.object [("name", json name), ("ty", json type)])
    | .session => .string "Session"⟩

/-- A value as a generator of queries takes it. -/
inductive Prepared (b : Backend) where
  | literal (value : Scalar)
  /-- The parameter at a position, counted from one. -/
  | param (index : Nat)
  | sessionVariable (name : String) (type : ScalarType b)
  | session
deriving DecidableEq

instance {b : Backend} : HasJson (Prepared b) :=
  ⟨fun
    | .literal value => .tagged "Literal" (json value)
    | .param index => .tagged "Param" (json index)
    | .sessionVariable name type =>
        .tagged "SessionVariable" (.object [("name", json name), ("ty", json type)])
    | .session => .string "Session"⟩

end SelectPlan
