import SelectPlan.Json.Basic

/-!
The compact text of a document: no blanks, members in their order, and in strings only the
escapes that JSON demands.  `write` puts the text in front of what follows it.
-/

namespace SelectPlan.Json

/-- A character as it stands inside a string. -/
def escapedChar (c : Char) : List Char :=
  if c = '"' then ['\\', '"']
  else if c = '\\' then ['\\', '\\']
  else if c = '\x08' then ['\\', 'b']
  else if c = '\x0c' then ['\\', 'f']
  else if c = '\n' then ['\\', 'n']
  else if c = '\r' then ['\\', 'r']
  else if c = '\t' then ['\\', 't']
  else if c.toNat < 0x20 then
    ['\\', 'u', '0', '0', Nat.digitChar (c.toNat / 16), Nat.digitChar (c.toNat % 16)]
  else [c]

/-- A string between its quotes. -/
def writeString (text : String) (rest : List Char) : List Char :=
  '"' :: text.toList.flatMap escapedChar ++ '"' :: rest

namespace Number

/-- Digits filled up with zeros on the left. -/
def padded (width : Nat) (digits : List Char) : List Char :=
  List.replicate (width - digits.length) '0' ++ digits

/-- A number without its sign. -/
def magnitude : Number → List Char
  | integer value => Nat.toDigits 10 value.natAbs
  | decimal units places =>
      let scale := Nat.pow 10 (places + 1)
      Nat.toDigits 10 (units.natAbs / scale) ++
        '.' :: padded (places + 1) (Nat.toDigits 10 (units.natAbs % scale))

/-- Whether a number is written with a minus sign. -/
def isNegative : Number → Bool
  | integer value => value < 0
  | decimal units _ => units < 0

/-- The text of a number. -/
def chars (number : Number) : List Char :=
  if number.isNegative then '-' :: number.magnitude else number.magnitude

end Number

mutual

/-- The text of a document, followed by `rest`. -/
def write : Json → List Char → List Char
  | .null, rest => ['n', 'u', 'l', 'l'] ++ rest
  | .bool true, rest => ['t', 'r', 'u', 'e'] ++ rest
  | .bool false, rest => ['f', 'a', 'l', 's', 'e'] ++ rest
  | .number value, rest => value.chars ++ rest
  | .string text, rest => writeString text rest
  | .array items, rest => '[' :: writeItems items (']' :: rest)
  | .object members, rest => '\x7b' :: writeMembers members ('\x7d' :: rest)

/-- The items of an array with commas between them. -/
def writeItems : List Json → List Char → List Char
  | [], rest => rest
  | [item], rest => item.write rest
  | item :: next :: items, rest => item.write (',' :: writeItems (next :: items) rest)

/-- The members of an object with commas between them. -/
def writeMembers : List (String × Json) → List Char → List Char
  | [], rest => rest
  | [(name, value)], rest => writeString name (':' :: value.write rest)
  | (name, value) :: next :: members, rest =>
      writeString name (':' :: value.write (',' :: writeMembers (next :: members) rest))

end

/-- The text of a document. -/
def text (document : Json) : String :=
  String.ofList (document.write [])

end SelectPlan.Json

namespace SelectPlan

/-- The digits of a number are those of no other. -/
theorem toDigits_injective {m n : Nat} (heq : Nat.toDigits 10 m = Nat.toDigits 10 n) : m = n :=
  calc
    m = Nat.ofDigitChars 10 (Nat.toDigits 10 m) 0 := Nat.ofDigitChars_ten_toDigits.symm
    _ = Nat.ofDigitChars 10 (Nat.toDigits 10 n) 0 := by rw [heq]
    _ = n := Nat.ofDigitChars_ten_toDigits

/-- The exact text of a value: its members in the order in which they are declared or inserted. -/
def exactText {α : Type} [HasJson α] (value : α) : String :=
  (json value).text

end SelectPlan
