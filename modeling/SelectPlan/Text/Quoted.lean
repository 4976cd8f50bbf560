import SelectPlan.Text.CodePoints
import SelectPlan.Text.HiddenCharacters

/-!
Quoted text for messages: a text between double quotes in which every character is visible.
-/

namespace SelectPlan.Text

/-- A character as it stands between double quotes.  Quotes, backslashes and the common controls
have a short escape, other hidden characters are given by their code point in hexadecimal. -/
def quotedChar (c : Char) : List Char :=
  if c = '\x00' then ['\\', '0']
  else if c = '\t' then ['\\', 't']
  else if c = '\r' then ['\\', 'r']
  else if c = '\n' then ['\\', 'n']
  else if c = '\\' || c = '"' then ['\\', c]
  else if inRanges hiddenRanges c.toNat then
    ['\\', 'u', '\x7b'] ++ Nat.toDigits 16 c.toNat ++ ['\x7d']
  else [c]

/-- The text between double quotes. -/
def quoted (text : String) : String :=
  String.ofList ('"' :: text.toList.flatMap quotedChar ++ ['"'])

end SelectPlan.Text
