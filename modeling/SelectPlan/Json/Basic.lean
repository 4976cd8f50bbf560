/-!
JSON documents.  The members of an object are kept in the order in which they are written.
-/

namespace SelectPlan

/-- A JSON number: an integer, or the decimal fraction `units / 10 ^ (places + 1)`, which is written
with `places + 1` digits after the point. -/
inductive Json.Number where
  | integer (value : Int)
  | decimal (units : Int) (places : Nat)
deriving DecidableEq, Repr

/-- A JSON document. -/
inductive Json where
  | null
  | bool (value : Bool)
  | number (value : Json.Number)
  | string (text : String)
  | array (items : List Json)
  | object (members : List (String × Json))
deriving Inhabited

namespace Json

/-- An integer as a document. -/
def integer (value : Int) : Json :=
  .number (.integer value)

/-- An object with a single member, which is how an alternative with a payload is written. -/
def tagged (tag : String) (payload : Json) : Json :=
  .object [(tag, payload)]

/-- The members of an object. -/
def members : Json → List (String × Json)
  | object members => members
  | null | bool _ | number _ | string _ | array _ => []

mutual

/-- How many arrays and objects are nested within each other, at most. -/
def depth : Json → Nat
  | array items => depthOfItems items + 1
  | object members => depthOfMembers members + 1
  | null | bool _ | number _ | string _ => 0

/-- The depth of the deepest item. -/
def depthOfItems : List Json → Nat
  | [] => 0
  | item :: rest => max item.depth (depthOfItems rest)

/-- The depth of the deepest member. -/
def depthOfMembers : List (String × Json) → Nat
  | [] => 0
  | (_, value) :: rest => max value.depth (depthOfMembers rest)

end

mutual

/-- Identity of documents is decidable. -/
def decEq : (a b : Json) → Decidable (a = b)
  | .null, .null => isTrue rfl
  | .bool a, .bool b => decidable_of_iff (a = b) (by simp)
  | .number a, .number b => decidable_of_iff (a = b) (by simp)
  | .string a, .string b => decidable_of_iff (a = b) (by simp)
  | .array a, .array b =>
      haveI := decEqItems a b
      decidable_of_iff (a = b) (by simp)
  | .object a, .object b =>
      haveI := decEqMembers a b
      decidable_of_iff (a = b) (by simp)
  | .null, .bool _ | .null, .number _ | .null, .string _ | .null, .array _ | .null, .object _
  | .bool _, .null | .bool _, .number _ | .bool _, .string _ | .bool _, .array _
  | .bool _, .object _ | .number _, .null | .number _, .bool _ | .number _, .string _
  | .number _, .array _ | .number _, .object _ | .string _, .null | .string _, .bool _
  | .string _, .number _ | .string _, .array _ | .string _, .object _ | .array _, .null
  | .array _, .bool _ | .array _, .number _ | .array _, .string _ | .array _, .object _
  | .object _, .null | .object _, .bool _ | .object _, .number _ | .object _, .string _
  | .object _, .array _ => isFalse (by simp)

/-- Identity of lists of documents is decidable. -/
def decEqItems : (a b : List Json) → Decidable (a = b)
  | [], [] => isTrue rfl
  | a :: as, b :: bs =>
      haveI := decEq a b
      haveI := decEqItems as bs
      decidable_of_iff (a = b ∧ as = bs) (by simp)
  | [], _ :: _ | _ :: _, [] => isFalse (by simp)

/-- Identity of lists of members is decidable. -/
def decEqMembers : (a b : List (String × Json)) → Decidable (a = b)
  | [], [] => isTrue rfl
  | (m, a) :: as, (n, b) :: bs =>
      haveI := decEq a b
      haveI := decEqMembers as bs
      decidable_of_iff ((m = n ∧ a = b) ∧ as = bs) (by simp)
  | [], _ :: _ | _ :: _, [] => isFalse (by simp)

end

instance : DecidableEq Json := decEq

end Json

/-- Types whose values have a document form. -/
class HasJson (α : Type) where
  /-- The document form of a value. -/
  json : α → Json

export HasJson (json)

instance : HasJson Bool := ⟨.bool⟩

instance : HasJson String := ⟨.string⟩

instance : HasJson Nat := ⟨fun value => .integer value⟩

instance : HasJson Int := ⟨.integer⟩

instance : HasJson Unit := ⟨fun _ => .null⟩

instance : HasJson Empty := ⟨nofun⟩

instance : HasJson UInt16 := ⟨fun value => .integer value.toNat⟩

instance : HasJson UInt32 := ⟨fun value => .integer value.toNat⟩

instance : HasJson UInt64 := ⟨fun value => .integer value.toNat⟩

instance : HasJson Int64 := ⟨fun value => .integer value.toInt⟩

/-- An absent value is written as null. -/
instance {α : Type} [HasJson α] : HasJson (Option α) :=
  ⟨fun
    | none => .null
    | some value => json value⟩

instance {α : Type} [HasJson α] : HasJson (List α) :=
  ⟨fun items => .array (items.map json)⟩

/-- A pair is written as a list of two. -/
instance {α β : Type} [HasJson α] [HasJson β] : HasJson (α × β) :=
  ⟨fun pair => .array [json pair.1, json pair.2]⟩

end SelectPlan
