import SelectPlan.Json.Basic

/-!
Reading documents from text.  The grammar is that of JSON and nothing more.  Every step consumes
characters, so a number of steps that exceeds the length of the text is never used up.
-/

namespace SelectPlan.Json

/-- Drops blanks at the front of a text. -/
def skipBlanks : List Char → List Char
  | [] => []
  | c :: rest => if c = ' ' || c = '\n' || c = '\r' || c = '\t' then skipBlanks rest else c :: rest

/-- The value of a hexadecimal digit. -/
def hexValue? (c : Char) : Option Nat :=
  if '0' ≤ c && c ≤ '9' then some (c.toNat - '0'.toNat)
  else if 'a' ≤ c && c ≤ 'f' then some (c.toNat - 'a'.toNat + 10)
  else if 'A' ≤ c && c ≤ 'F' then some (c.toNat - 'A'.toNat + 10)
  else none

/-- The value of four hexadecimal digits. -/
def hexUnit? (a b c d : Char) : Option Nat := do
  let a ← hexValue? a
  let b ← hexValue? b
  let c ← hexValue? c
  let d ← hexValue? d
  some (((a * 16 + b) * 16 + c) * 16 + d)

/-- What a backslash and one more character stand for. -/
def shortEscape? : Char → Option Char
  | '"' => some '"'
  | '\\' => some '\\'
  | '/' => some '/'
  | 'b' => some '\x08'
  | 'f' => some '\x0c'
  | 'n' => some '\n'
  | 'r' => some '\r'
  | 't' => some '\t'
  | _ => none

/-- Whether a code unit is the first half of a character given by two. -/
def isHighHalf (code : Nat) : Bool :=
  0xD800 ≤ code && code < 0xDC00

/-- Whether a code unit is the second half of a character given by two. -/
def isLowHalf (code : Nat) : Bool :=
  0xDC00 ≤ code && code < 0xE000

/-- The characters up to the closing quote of a string, and what follows it.  `high` is the first
half of a character whose second half must come next.  Half a character that stands alone is
refused, unless the string is only skipped. -/
def readChars (skipping : Bool) (high : Option Nat) : List Char → Option (List Char × List Char)
  | [] => none
  | '\\' :: 'u' :: a :: b :: c :: d :: rest =>
      match hexUnit? a b c d, high with
      | none, _ => none
      | some code, some high =>
          if isLowHalf code then
            let c := Char.ofNat (0x10000 + (high - 0xD800) * 0x400 + (code - 0xDC00))
            (readChars skipping none rest).map fun (chars, rest) => (c :: chars, rest)
          else if skipping then readChars skipping none rest
          else none
      | some code, none =>
          if isHighHalf code then readChars skipping (some code) rest
          else if isLowHalf code && !skipping then none
          else
            (readChars skipping none rest).map fun (chars, rest) => (Char.ofNat code :: chars, rest)
  | c :: rest =>
      if high.isSome && !skipping then none
      else if c = '"' then some ([], rest)
      else if c = '\\' then
        match rest with
        | [] => none
        | c :: rest =>
            match shortEscape? c with
            | none => none
            | some c => (readChars skipping none rest).map fun (chars, rest) => (c :: chars, rest)
      else if c.toNat < 0x20 then none
      else (readChars skipping none rest).map fun (chars, rest) => (c :: chars, rest)

/-- The digits at the front of a text, and what follows them. -/
def spanDigits (input : List Char) : List Char × List Char :=
  input.span Char.isDigit

/-- The number that a list of digits writes. -/
def digitsValue (digits : List Char) : Nat :=
  digits.foldl (fun value digit => value * 10 + (digit.toNat - '0'.toNat)) 0

/-- A fraction of `places` decimal places, with zeros at its end dropped down to the first. -/
def Number.fraction (units : Int) : Nat → Number
  | 0 => .decimal (units * 10) 0
  | 1 => .decimal units 0
  | places + 2 =>
      if units % 10 = 0 then fraction (units / 10) (places + 1) else .decimal units (places + 1)

/-- The largest decimal exponent that is read. -/
def maxExponent : Nat := 308

/-- The exponent of a number, if it has one. -/
def readExponent : List Char → Option (Option Int × List Char)
  | c :: rest =>
      if c = 'e' || c = 'E' then
        let (negative, rest) :=
          match rest with
          | '-' :: rest => (true, rest)
          | '+' :: rest => (false, rest)
          | rest => (false, rest)
        let (digits, rest) := spanDigits rest
        let size : Int := digitsValue digits
        if digits.isEmpty then none else some (some (if negative then -size else size), rest)
      else some (none, c :: rest)
  | [] => some (none, [])

/-- The number with the given digits before and after the point and the given exponent.  An
exponent that is out of range is refused. -/
def Number.ofDigits (sign : Int) (whole : List Char) (part : Option (List Char))
    (exponent : Option Int) : Option Number :=
  let units := sign * digitsValue (whole ++ part.getD [])
  if part.isNone && exponent.isNone then some (.integer units)
  else if maxExponent < (exponent.getD 0).natAbs then none
  else
    let places : Int := (part.getD []).length - exponent.getD 0
    if 0 ≤ places then some (fraction units places.toNat)
    else some (fraction (units * Int.ofNat (Nat.pow 10 (-places).toNat)) 0)

/-- A number at the front of a text.  The value of one that is only skipped is not computed. -/
def readNumber (skipping : Bool) (input : List Char) : Option (Json × List Char) := do
  let (sign, input) : Int × List Char :=
    match input with
    | '-' :: rest => (-1, rest)
    | input => (1, input)
  let (whole, rest) := spanDigits input
  if whole.isEmpty || (whole.head? = some '0' && whole.length ≠ 1) then none
  let (part, rest) ←
    match rest with
    | '.' :: rest =>
        let (part, rest) := spanDigits rest
        if part.isEmpty then none else some (some part, rest)
    | rest => some (none, rest)
  let (exponent, rest) ← readExponent rest
  if skipping then some (.null, rest)
  else some (.number (← Number.ofDigits sign whole part exponent), rest)

mutual

/-- A document at the front of a text, and what follows it. -/
def readValue (skipping : Bool) : Nat → List Char → Option (Json × List Char)
  | 0, _ => none
  | steps + 1, input =>
      match skipBlanks input with
      | 'n' :: 'u' :: 'l' :: 'l' :: rest => some (.null, rest)
      | 't' :: 'r' :: 'u' :: 'e' :: rest => some (.bool true, rest)
      | 'f' :: 'a' :: 'l' :: 's' :: 'e' :: rest => some (.bool false, rest)
      | '"' :: rest =>
          (readChars skipping none rest).map fun (chars, rest) =>
            (.string (String.ofList chars), rest)
      | '[' :: rest =>
          match skipBlanks rest with
          | ']' :: rest => some (.array [], rest)
          | rest =>
              (readItems skipping steps rest).map fun (items, rest) => (.array items, rest)
      | '\x7b' :: rest =>
          match skipBlanks rest with
          | '\x7d' :: rest => some (.object [], rest)
          | rest =>
              (readMembers skipping steps rest).map fun (members, rest) => (.object members, rest)
      | input => readNumber skipping input

/-- The items of an array up to its closing bracket. -/
def readItems (skipping : Bool) : Nat → List Char → Option (List Json × List Char)
  | 0, _ => none
  | steps + 1, input =>
      match readValue skipping steps input with
      | none => none
      | some (item, rest) =>
          match skipBlanks rest with
          | ']' :: rest => some ([item], rest)
          | ',' :: rest =>
              (readItems skipping steps rest).map fun (items, rest) => (item :: items, rest)
          | _ => none

/-- The members of an object up to its closing brace. -/
def readMembers (skipping : Bool) : Nat → List Char → Option (List (String × Json) × List Char)
  | 0, _ => none
  | steps + 1, input =>
      match skipBlanks input with
      | '"' :: rest =>
          match readChars skipping none rest with
          | none => none
          | some (name, rest) =>
              match skipBlanks rest with
              | ':' :: rest =>
                  match readValue skipping steps rest with
                  | none => none
                  | some (value, rest) =>
                      match skipBlanks rest with
                      | '\x7d' :: rest => some ([(String.ofList name, value)], rest)
                      | ',' :: rest =>
                          (readMembers skipping steps rest).map fun (members, rest) =>
                            ((String.ofList name, value) :: members, rest)
                      | _ => none
              | _ => none
      | _ => none

end

/-- The document that a text writes, if it writes one and nothing else. -/
def read (text : String) : Option Json :=
  match readValue false (text.length + 1) text.toList with
  | some (document, rest) => if (skipBlanks rest).isEmpty then some document else none
  | none => none

/-- The members of a record up to its closing brace.  Only members with a known name are kept;
the values of the others are skipped. -/
def readKnownMembers (known : List String) :
    Nat → List Char → Option (List (String × Json) × List Char)
  | 0, _ => none
  | steps + 1, input =>
      match skipBlanks input with
      | '"' :: rest =>
          match readChars false none rest with
          | none => none
          | some (chars, rest) =>
              let name := String.ofList chars
              match skipBlanks rest with
              | ':' :: rest =>
                  match readValue (!known.contains name) steps rest with
                  | none => none
                  | some (value, rest) =>
                      let kept := if known.contains name then [(name, value)] else []
                      match skipBlanks rest with
                      | '\x7d' :: rest => some (kept, rest)
                      | ',' :: rest =>
                          (readKnownMembers known steps rest).map fun (members, rest) =>
                            (kept ++ members, rest)
                      | _ => none
              | _ => none
      | _ => none

/-- A record with known member names, or a document of another form. -/
def readRecord (known : List String) (text : String) : Option Json :=
  match skipBlanks text.toList with
  | '\x7b' :: rest =>
      match skipBlanks rest with
      | '\x7d' :: rest => if (skipBlanks rest).isEmpty then some (.object []) else none
      | rest =>
          match readKnownMembers known (text.length + 1) rest with
          | some (members, rest) =>
              if (skipBlanks rest).isEmpty then some (.object members) else none
          | none => none
  | _ => read text

end SelectPlan.Json
