import SelectPlan.Data.NonEmpty
import SelectPlan.Data.OrderedMap
import SelectPlan.Error
import SelectPlan.Json.Canonical

/-!
Requests.  A front end hands over selects, sessions and catalogs as documents.  They have the form
in which this library writes them, with two differences: a map is a list of pairs, so that the
order of its entries does not hang on the order of members, and an absent member stands for null.
-/

namespace SelectPlan

/-- Why a request is refused. -/
inductive Refusal where
  /-- A document does not have the form that is expected in its place. -/
  | malformed
  /-- A part of a select needs a capability that its backend lacks. -/
  | unavailable
  /-- The request names a backend that does not exist. -/
  | unknownBackend (error : Error)
deriving DecidableEq, Inhabited

/-- The result of reading a part of a request. -/
abbrev Reading := Except Refusal

/-- Types whose values can be read from requests. -/
class Readable (α : Type) where
  /-- The value that a document stands for. -/
  fromJson : Json → Reading α

export Readable (fromJson)

namespace Reading

variable {α : Type}

/-- Refuses a document of another form. -/
def malformed : Reading α :=
  throw .malformed

/-- A value that may be missing. -/
def ofOption : Option α → Reading α
  | some value => pure value
  | none => malformed

end Reading

namespace Json

variable {α β : Type}

/-- Reads a member of an object. -/
def getWith (document : Json) (name : String) (read : Json → Reading α) : Reading α :=
  match document with
  | object members => read ((members.lookup name).getD null)
  | _ => .malformed

/-- The member of an object. -/
def get [Readable α] (document : Json) (name : String) : Reading α :=
  document.getWith name fromJson

/-- Reads every item of a list. -/
def readList (read : Json → Reading α) : Json → Reading (List α)
  | array items => items.mapM read
  | _ => .malformed

/-- Reads the two items of a pair. -/
def readPair (left : Json → Reading α) (right : Json → Reading β) : Json → Reading (α × β)
  | array [a, b] => do return (← left a, ← right b)
  | _ => .malformed

/-- Reads a value, or null where there is none. -/
def readOption (read : Json → Reading α) : Json → Reading (Option α)
  | null => pure none
  | document => some <$> read document

/-- Reads a map with a reader of its values. -/
def readMap {K : Type} [DecidableEq K] [Readable K] (read : Json → Reading α) (document : Json) :
    Reading (OrderedMap K α) :=
  OrderedMap.ofList <$> document.readList (readPair fromJson read)

/-- Reads one of several names. -/
def readChoice (alternatives : List (String × α)) : Json → Reading α
  | string name => .ofOption (alternatives.lookup name)
  | _ => .malformed

/-- Reads a natural number below a bound. -/
def readBelow (bound : Nat) : Json → Reading Nat
  | number (.integer (.ofNat value)) => if value < bound then pure value else .malformed
  | _ => .malformed

/-- Reads the marker of a part that needs a capability: a null, where the capability is there. -/
def getMarker (document : Json) (name : String) (capability : Bool) :
    Reading (PLift (capability = true)) :=
  if available : capability = true then
    document.getWith name fun
      | null => pure ⟨available⟩
      | _ => .malformed
  else throw .unavailable

end Json

variable {α β : Type}

instance : Readable Json := ⟨pure⟩

instance : Readable JsonValue := ⟨fun document => pure (.ofJson document)⟩

instance : Readable Unit :=
  ⟨fun
    | .null => pure ()
    | _ => .malformed⟩

instance : Readable Empty := ⟨fun _ => .malformed⟩

instance : Readable Bool :=
  ⟨fun
    | .bool value => pure value
    | _ => .malformed⟩

instance : Readable String :=
  ⟨fun
    | .string text => pure text
    | _ => .malformed⟩

/-- Counts in requests fit into a machine word. -/
instance : Readable Nat := ⟨Json.readBelow UInt64.size⟩

instance : Readable UInt16 :=
  ⟨fun document => UInt16.ofNat <$> document.readBelow UInt16.size⟩

instance : Readable UInt32 :=
  ⟨fun document => UInt32.ofNat <$> document.readBelow UInt32.size⟩

instance : Readable UInt64 :=
  ⟨fun document => UInt64.ofNat <$> document.readBelow UInt64.size⟩

instance : Readable Int64 :=
  ⟨fun
    | .number (.integer value) =>
        if Int64.minValue.toInt ≤ value && value ≤ Int64.maxValue.toInt then
          pure (Int64.ofInt value)
        else .malformed
    | _ => .malformed⟩

/-- Integers in requests fit into a machine word. -/
instance : Readable Int := ⟨fun document => Int64.toInt <$> fromJson document⟩

instance [Readable α] : Readable (Option α) := ⟨Json.readOption fromJson⟩

instance [Readable α] : Readable (List α) := ⟨Json.readList fromJson⟩

instance [Readable α] [Readable β] : Readable (α × β) := ⟨Json.readPair fromJson fromJson⟩

instance [DecidableEq α] [Readable α] [Readable β] : Readable (OrderedMap α β) :=
  ⟨Json.readMap fromJson⟩

instance [Readable α] : Readable (NonEmpty α) :=
  ⟨fun document => do return ⟨← document.get "head", ← document.get "tail"⟩⟩

end SelectPlan
