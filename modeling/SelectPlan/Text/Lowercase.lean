import SelectPlan.Text.CodePoints
import SelectPlan.Text.LetterCase

/-!
Lower case of a whole text.  A letter is lowered on its own, with two exceptions: a capital I with
a dot becomes two characters, and a capital sigma takes its final form at the end of a word.
-/

namespace SelectPlan.Text

/-- The lower case of a letter that does not depend on its neighbours. -/
def lowerLetter (c : Char) : List Char :=
  if c.toNat < 0x80 then [c.toLower]
  else if c = 'İ' then ['i', '\u0307']
  else
    match loweringRuns.find? fun (first, last, stride, _) =>
        first ≤ c.toNat && c.toNat ≤ last && (c.toNat - first) % stride == 0 with
    | some (_, _, _, offset) => [Char.ofNat (c.toNat + offset).toNat]
    | none => [c]

/-- Whether the first character that is not skipped is part of a cased word. -/
def meetsCased : List Char → Bool
  | [] => false
  | c :: rest =>
      if inRanges caseIgnorableRanges c.toNat then meetsCased rest
      else inRanges casedRanges c.toNat

/-- Lower case of the text that follows `before`, which is given last character first. -/
def lowerFrom (before : List Char) : List Char → List Char
  | [] => []
  | c :: rest =>
      let lowered :=
        if c = 'Σ' then
          if meetsCased before && !meetsCased rest then ['ς'] else ['σ']
        else lowerLetter c
      lowered ++ lowerFrom (c :: before) rest

/-- The lower case of a text. -/
def lowercase (text : String) : String :=
  String.ofList (lowerFrom [] text.toList)

end SelectPlan.Text
