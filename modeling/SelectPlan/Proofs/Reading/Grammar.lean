import SelectPlan.Json.Basic

/-!
The texts of JSON.  A document can be written in many ways: with blanks between its parts, with
escapes for characters that need none, and with the members of its objects in any order.  A string
is written character by character, and so is a number, while arrays and objects are written from
the texts of what they hold.
-/

namespace SelectPlan.Json

/-- Blanks, as they may stand between the parts of a text. -/
def Blank (text : List Char) : Prop :=
  ∀ c ∈ text, c = ' ' ∨ c = '\n' ∨ c = '\r' ∨ c = '\t'

/-! Strings -/

/-- A hexadecimal digit, in a small or in a capital letter. -/
def IsHexDigit (value : Nat) (c : Char) : Prop :=
  value < 16 ∧ (c = Nat.digitChar value ∨ c = (Nat.digitChar value).toUpper)

/-- A code unit in four hexadecimal digits. -/
inductive UnitText : Nat → List Char → Prop
  | digits {i j k l : Nat} {a b c d : Char} (ha : IsHexDigit i a) (hb : IsHexDigit j b)
      (hc : IsHexDigit k c) (hd : IsHexDigit l d) :
      UnitText (((i * 16 + j) * 16 + k) * 16 + l) [a, b, c, d]

/-- The letters that stand for a character behind a backslash. -/
def escapeLetters : List (Char × Char) :=
  [('"', '"'), ('\\', '\\'), ('/', '/'), ('b', '\x08'), ('f', '\x0c'), ('n', '\n'), ('r', '\r'),
    ('t', '\t')]

/-- A character as it may stand in a string: as it is, behind a backslash, as a code unit, or as
the two code units of a character that has no single one. -/
inductive CharText : Char → List Char → Prop
  | plain {c : Char} (hquote : c ≠ '"') (hslash : c ≠ '\\') (hcontrol : 0x20 ≤ c.toNat) :
      CharText c [c]
  | letter {c letter : Char} (h : (letter, c) ∈ escapeLetters) : CharText c ['\\', letter]
  | unit {c : Char} {digits : List Char} (h : UnitText c.toNat digits) :
      CharText c ('\\' :: 'u' :: digits)
  | pair {c : Char} {high low : List Char} (hc : 0x10000 ≤ c.toNat)
      (hhigh : UnitText (0xD800 + (c.toNat - 0x10000) / 0x400) high)
      (hlow : UnitText (0xDC00 + (c.toNat - 0x10000) % 0x400) low) :
      CharText c ('\\' :: 'u' :: high ++ '\\' :: 'u' :: low)

/-- Characters as they may stand between the quotes of a string. -/
inductive CharsText : List Char → List Char → Prop
  | nil : CharsText [] []
  | cons {c : Char} {chars first rest : List Char} (hc : CharText c first)
      (hchars : CharsText chars rest) : CharsText (c :: chars) (first ++ rest)

/-- A string between its quotes. -/
inductive StringText : String → List Char → Prop
  | quoted {string : String} {text : List Char} (h : CharsText string.toList text) :
      StringText string ('"' :: text ++ ['"'])

/-- What may stand between the quotes of a string that is only skipped.  Half a character may stand
alone there. -/
inductive SkippedChars : List Char → Prop
  | nil : SkippedChars []
  | plain {c : Char} {rest : List Char} (hquote : c ≠ '"') (hslash : c ≠ '\\')
      (hcontrol : 0x20 ≤ c.toNat) (hrest : SkippedChars rest) : SkippedChars (c :: rest)
  | letter {c letter : Char} {rest : List Char} (h : (letter, c) ∈ escapeLetters)
      (hrest : SkippedChars rest) : SkippedChars ('\\' :: letter :: rest)
  | unit {code : Nat} {digits rest : List Char} (h : UnitText code digits)
      (hrest : SkippedChars rest) : SkippedChars ('\\' :: 'u' :: digits ++ rest)

/-! Numbers -/

/-- One digit or more. -/
def Digits (text : List Char) : Prop :=
  text ≠ [] ∧ ∀ c ∈ text, c.isDigit = true

/-- Digits in front of a point.  The first is zero only if it is the only one. -/
def WholeDigits (text : List Char) : Prop :=
  Digits text ∧ (text.head? = some '0' → text = ['0'])

/-- The part of a number behind its point, if it has one. -/
inductive FractionText : List Char → Prop
  | absent : FractionText []
  | digits {text : List Char} (h : Digits text) : FractionText ('.' :: text)

/-- The exponent of a number, if it has one. -/
inductive ExponentText : List Char → Prop
  | absent : ExponentText []
  | digits {mark : Char} {sign text : List Char} (hmark : mark = 'e' ∨ mark = 'E')
      (hsign : sign = [] ∨ sign = ['+'] ∨ sign = ['-']) (h : Digits text) :
      ExponentText (mark :: sign ++ text)

/-- A number. -/
inductive NumberText : List Char → Prop
  | parts {sign whole fraction exponent : List Char} (hsign : sign = [] ∨ sign = ['-'])
      (hwhole : WholeDigits whole) (hfraction : FractionText fraction)
      (hexponent : ExponentText exponent) : NumberText (sign ++ whole ++ fraction ++ exponent)

/-! Values -/

/-- What a text can be the text of. -/
inductive TextPart where
  | value
  /-- A value with the blanks around it. -/
  | spaced
  /-- The items of an array, of which there is one at least. -/
  | items
  /-- The members of an object, of which there is one at least. -/
  | members

/-- Texts of values of any shape, and of their parts. -/
inductive Written : TextPart → List Char → Prop
  | null : Written .value ['n', 'u', 'l', 'l']
  | true : Written .value ['t', 'r', 'u', 'e']
  | false : Written .value ['f', 'a', 'l', 's', 'e']
  | number {text : List Char} (h : NumberText text) : Written .value text
  | string {text : List Char} (h : SkippedChars text) : Written .value ('"' :: text ++ ['"'])
  | emptyArray {text : List Char} (h : Blank text) : Written .value ('[' :: text ++ [']'])
  | array {text : List Char} (h : Written .items text) : Written .value ('[' :: text ++ [']'])
  | emptyObject {text : List Char} (h : Blank text) :
      Written .value ('\x7b' :: text ++ ['\x7d'])
  | object {text : List Char} (h : Written .members text) :
      Written .value ('\x7b' :: text ++ ['\x7d'])
  | spaced {before text after : List Char} (hbefore : Blank before) (h : Written .value text)
      (hafter : Blank after) : Written .spaced (before ++ text ++ after)
  | lastItem {text : List Char} (h : Written .spaced text) : Written .items text
  | item {text rest : List Char} (h : Written .spaced text) (hrest : Written .items rest) :
      Written .items (text ++ ',' :: rest)
  | lastMember {before name after value : List Char} (hbefore : Blank before)
      (hname : SkippedChars name) (hafter : Blank after) (h : Written .spaced value) :
      Written .members (before ++ '"' :: name ++ '"' :: after ++ ':' :: value)
  | member {before name after value rest : List Char} (hbefore : Blank before)
      (hname : SkippedChars name) (hafter : Blank after) (h : Written .spaced value)
      (hrest : Written .members rest) :
      Written .members (before ++ '"' :: name ++ '"' :: after ++ ':' :: value ++ ',' :: rest)

/-! Objects, arrays and strings as the whole of a text -/

/-- A member with a name, given the text of its value with the blanks around it.  A name is a
string, so half a character may not stand alone in it. -/
inductive MemberText : String × List Char → List Char → Prop
  | named {name : String} {before quoted after value : List Char} (hbefore : Blank before)
      (hname : StringText name quoted) (hafter : Blank after) (hvalue : Written .spaced value) :
      MemberText (name, value) (before ++ quoted ++ after ++ ':' :: value)

/-- Members with their names, of which there is one at least. -/
inductive MembersText : List (String × List Char) → List Char → Prop
  | last {member : String × List Char} {text : List Char} (h : MemberText member text) :
      MembersText [member] text
  | cons {member : String × List Char} {members : List (String × List Char)}
      {text rest : List Char} (h : MemberText member text) (hrest : MembersText members rest) :
      MembersText (member :: members) (text ++ ',' :: rest)

/-- The text of an object with the given members, in their order. -/
inductive ObjectText : List (String × List Char) → List Char → Prop
  | empty {before inner after : List Char} (hbefore : Blank before) (hinner : Blank inner)
      (hafter : Blank after) : ObjectText [] (before ++ '\x7b' :: inner ++ '\x7d' :: after)
  | members {members : List (String × List Char)} {before inner after : List Char}
      (hbefore : Blank before) (hinner : MembersText members inner) (hafter : Blank after) :
      ObjectText members (before ++ '\x7b' :: inner ++ '\x7d' :: after)

/-- A string with the blanks around it. -/
inductive SpacedString : String → List Char → Prop
  | spaced {string : String} {before quoted after : List Char} (hbefore : Blank before)
      (h : StringText string quoted) (hafter : Blank after) :
      SpacedString string (before ++ quoted ++ after)

/-- The text of an array of two strings. -/
inductive PairText : String → String → List Char → Prop
  | pair {first second : String} {before one two after : List Char} (hbefore : Blank before)
      (hone : SpacedString first one) (htwo : SpacedString second two) (hafter : Blank after) :
      PairText first second (before ++ '[' :: one ++ ',' :: two ++ ']' :: after)

end SelectPlan.Json
