import SelectPlan.Json.Printer
import SelectPlan.Json.Reader
import SelectPlan.Proofs.Reading.Grammar

/-!
Reading strings.  However the characters of a string are written, they are read back, up to the
quote at its end.  One who only skips a string stops at the same quote, and half a character that
stands alone does not keep him from it.
-/

namespace SelectPlan.Json

/-- What a reading leaves behind.  Only one that does not skip may fail. -/
def Leaves {α : Type} (skipping : Bool) (stands : List Char → Prop) :
    Option (α × List Char) → Prop
  | some (_, behind) => stands behind
  | none => skipping = false

/-- What is left does not depend on what is made of the part that was read. -/
theorem Leaves.map {α β : Type} {skipping : Bool} {stands : List Char → Prop}
    {f : α × List Char → β × List Char} {found : Option (α × List Char)}
    (h : Leaves skipping stands found) (hf : ∀ found, (f found).2 = found.2) :
    Leaves skipping stands (found.map f) := by
  cases found with
  | none => exact h
  | some found => exact (congrArg stands (hf found)).mpr h

/-- A reading that leaves something behind has read something, or else it is strict. -/
theorem Leaves.cases {α : Type} {skipping : Bool} {stands : List Char → Prop}
    {found : Option (α × List Char)} (h : Leaves skipping stands found) :
    found = none ∧ skipping = false ∨
      ∃ value behind, found = some (value, behind) ∧ stands behind := by
  cases found with
  | none => exact Or.inl ⟨rfl, h⟩
  | some found => exact Or.inr ⟨found.1, found.2, rfl, h⟩

theorem hexValue?_digitChar : ∀ digit < 16, hexValue? (Nat.digitChar digit) = some digit := by
  decide

theorem hexValue?_of_isHexDigit {value : Nat} {c : Char} (h : IsHexDigit value c) :
    hexValue? c = some value := by
  obtain ⟨hvalue, rfl | rfl⟩ := h
  · exact hexValue?_digitChar value hvalue
  · have hcapital : ∀ digit < 16, hexValue? (Nat.digitChar digit).toUpper = some digit := by
      decide
    exact hcapital value hvalue

theorem hexUnit?_of_unitText {code : Nat} {text : List Char} (h : UnitText code text) :
    ∃ a b c d, text = [a, b, c, d] ∧ hexUnit? a b c d = some code := by
  obtain ⟨ha, hb, hc, hd⟩ := h
  refine ⟨_, _, _, _, rfl, ?_⟩
  rw [hexUnit?, hexValue?_of_isHexDigit ha, hexValue?_of_isHexDigit hb, hexValue?_of_isHexDigit hc,
    hexValue?_of_isHexDigit hd]
  rfl

-- the equations of the reader are worked out once, ahead of the proofs that rewrite with them
attribute [local simp] readChars

section

variable {skipping : Bool} {high : Option Nat} {c letter : Char}

theorem readChars_plain (hhigh : (high.isSome && !skipping) = false) (hquote : c ≠ '"')
    (hslash : c ≠ '\\') (hcontrol : 0x20 ≤ c.toNat) (rest : List Char) :
    readChars skipping high (c :: rest) =
      (readChars skipping none rest).map fun (chars, rest) => (c :: chars, rest) := by
  rw [readChars.eq_def]
  simp [hhigh, hquote, hslash, Nat.not_lt.mpr hcontrol]

theorem readChars_letter (hhigh : (high.isSome && !skipping) = false)
    (h : (letter, c) ∈ escapeLetters) (rest : List Char) :
    readChars skipping high ('\\' :: letter :: rest) =
      (readChars skipping none rest).map fun (chars, rest) => (c :: chars, rest) := by
  have hletters : ∀ escape ∈ escapeLetters,
      escape.1 ≠ 'u' ∧ shortEscape? escape.1 = some escape.2 := by
    decide
  obtain ⟨hu, hescape⟩ := hletters _ h
  rw [readChars.eq_def]
  simp [hhigh, hu, hescape]

/-- The second half of a character must come right behind the first. -/
theorem readChars_lost (hhigh : (high.isSome && !skipping) = true) {text : List Char}
    (htext : ∀ rest, text ≠ '\\' :: 'u' :: rest) : readChars skipping high text = none := by
  rw [readChars.eq_def]
  split
  · rfl
  · exact absurd rfl (htext _)
  · rw [if_pos hhigh]

end

/-- A character of a string is read, however it is written. -/
theorem readChars_charText {c : Char} {text : List Char} (h : CharText c text)
    (rest : List Char) :
    readChars false none (text ++ rest) =
      (readChars false none rest).map fun (chars, rest) => (c :: chars, rest) := by
  have hvalid : c.toNat < 0xD800 ∨ 0xDFFF < c.toNat ∧ c.toNat < 0x110000 := c.valid
  cases h with
  | plain hquote hslash hcontrol => exact readChars_plain rfl hquote hslash hcontrol rest
  | letter h => exact readChars_letter rfl h rest
  | unit h =>
      obtain ⟨a, b, d, e, rfl, hunit⟩ := hexUnit?_of_unitText h
      have hhigh : isHighHalf c.toNat = false := by
        rw [isHighHalf, Bool.and_eq_false_imp, decide_eq_true_eq, decide_eq_false_iff_not]
        omega
      have hlow : isLowHalf c.toNat = false := by
        rw [isLowHalf, Bool.and_eq_false_imp, decide_eq_true_eq, decide_eq_false_iff_not]
        omega
      rw [readChars.eq_def]
      simp [hunit, hhigh, hlow]
  | pair hc hhigh hlow =>
      obtain ⟨a, b, d, e, rfl, hfirst⟩ := hexUnit?_of_unitText hhigh
      obtain ⟨i, j, k, l, rfl, hsecond⟩ := hexUnit?_of_unitText hlow
      have hhigh : isHighHalf (0xD800 + (c.toNat - 0x10000) / 0x400) = true := by
        rw [isHighHalf, Bool.and_eq_true, decide_eq_true_eq, decide_eq_true_eq]
        omega
      have hlow : isLowHalf (0xDC00 + (c.toNat - 0x10000) % 0x400) = true := by
        rw [isLowHalf, Bool.and_eq_true, decide_eq_true_eq, decide_eq_true_eq]
        omega
      have hcode : 0x10000 + (c.toNat - 0x10000) / 0x400 * 0x400 + (c.toNat - 0x10000) % 0x400 =
          c.toNat := by
        omega
      have hhalf (tail : List Char) :
          readChars false none ('\\' :: 'u' :: [a, b, d, e] ++ tail) =
            readChars false (some (0xD800 + (c.toNat - 0x10000) / 0x400)) tail := by
        rw [readChars.eq_def]
        simp [hfirst, hhigh]
      rw [List.append_assoc, hhalf, readChars.eq_def]
      simp [hsecond, hlow, hcode]

/-- A string is read up to its closing quote, however its characters are written. -/
theorem readChars_charsText {chars text : List Char} (h : CharsText chars text)
    (rest : List Char) : readChars false none (text ++ '"' :: rest) = some (chars, rest) := by
  induction h with
  | nil => rw [List.nil_append, readChars.eq_def]; rfl
  | cons hc hchars ih => rw [List.append_assoc, readChars_charText hc, ih, Option.map_some]

/-- A string is left at its quote. -/
theorem leaves_readChars {text : List Char} (h : SkippedChars text) (skipping : Bool)
    (high : Option Nat) (rest : List Char) :
    Leaves skipping (· = rest) (readChars skipping high (text ++ '"' :: rest)) := by
  have hstrict {high : Option Nat} (hhigh : (high.isSome && !skipping) = true) :
      Leaves skipping (· = rest) (none : Option (List Char × List Char)) :=
    Bool.not_eq_true' _ |>.mp (Bool.and_eq_true_iff.mp hhigh).2
  induction h generalizing high with
  | nil =>
      cases hhigh : high.isSome && !skipping with
      | true =>
          rw [readChars_lost hhigh (by rintro _ ⟨⟩)]
          exact hstrict hhigh
      | false =>
          rw [List.nil_append, readChars.eq_def]
          simp [hhigh, Leaves]
  | @plain c tail hquote hslash hcontrol hrest ih =>
      cases hhigh : high.isSome && !skipping with
      | true =>
          rw [List.cons_append, readChars_lost hhigh fun _ heq => hslash (List.cons.inj heq).1]
          exact hstrict hhigh
      | false =>
          rw [List.cons_append, readChars_plain hhigh hquote hslash hcontrol]
          exact (ih none).map fun _ => rfl
  | @letter c letter tail h hrest ih =>
      cases hhigh : high.isSome && !skipping with
      | true =>
          have hletters : ∀ escape ∈ escapeLetters, escape.1 ≠ 'u' := by decide
          rw [List.cons_append, List.cons_append, readChars_lost hhigh fun _ heq =>
            hletters _ h (List.cons.inj (List.cons.inj heq).2).1]
          exact hstrict hhigh
      | false =>
          rw [List.cons_append, List.cons_append, readChars_letter hhigh h]
          exact (ih none).map fun _ => rfl
  | @unit code digits tail h hrest ih =>
      obtain ⟨a, b, c, d, rfl, hunit⟩ := hexUnit?_of_unitText h
      simp only [List.cons_append, List.nil_append]
      rw [readChars.eq_def]
      simp only [hunit]
      cases high with
      | none =>
          dsimp only
          split
          · exact ih (some code)
          · split
            · next hlow => exact (Bool.not_eq_true' _).mp (Bool.and_eq_true_iff.mp hlow).2
            · exact (ih none).map fun _ => rfl
      | some high =>
          dsimp only
          split
          · exact (ih none).map fun _ => rfl
          · split
            · exact ih none
            · next hskipping => exact eq_false_of_ne_true hskipping

/-- What is written between quotes can also be skipped there. -/
theorem CharsText.skipped {chars text : List Char} (h : CharsText chars text) :
    SkippedChars text := by
  induction h with
  | nil => exact SkippedChars.nil
  | cons hc hchars ih =>
      cases hc with
      | plain hquote hslash hcontrol => exact SkippedChars.plain hquote hslash hcontrol ih
      | letter h => exact SkippedChars.letter h ih
      | unit h => exact SkippedChars.unit h ih
      | pair hc hhigh hlow =>
          rw [List.append_assoc]
          exact SkippedChars.unit hhigh (SkippedChars.unit hlow ih)

/-- A string is a value. -/
theorem SpacedString.written {string : String} {text : List Char} (h : SpacedString string text) :
    Written .spaced text := by
  obtain ⟨hbefore, ⟨hchars⟩, hafter⟩ := h
  exact Written.spaced hbefore (Written.string hchars.skipped) hafter

/-! Strings as they are printed -/

/-- A character is printed as it may be written. -/
theorem charText_escapedChar (c : Char) : CharText c (escapedChar c) := by
  unfold escapedChar
  split
  · next hquote => exact CharText.letter (by subst hquote; decide)
  · next hquote =>
    split
    · next hslash => exact CharText.letter (by subst hslash; decide)
    · next hslash =>
      -- the characters that have an escape of their own
      iterate 5
        split
        · next hc => exact CharText.letter (by subst hc; decide)
      split
      · next hcontrol =>
        have hdigit {value : Nat} (hvalue : value < 16) : IsHexDigit value (Nat.digitChar value) :=
          ⟨hvalue, Or.inl rfl⟩
        have hunit := UnitText.digits (hdigit (Nat.zero_lt_succ 15)) (hdigit (Nat.zero_lt_succ 15))
          (hdigit (show c.toNat / 16 < 16 by omega)) (hdigit (Nat.mod_lt c.toNat (by decide)))
        have hcode : ((0 * 16 + 0) * 16 + c.toNat / 16) * 16 + c.toNat % 16 = c.toNat := by omega
        rw [hcode] at hunit
        exact CharText.unit hunit
      · next hcontrol => exact CharText.plain hquote hslash (Nat.not_lt.mp hcontrol)

theorem charsText_escaped (chars : List Char) : CharsText chars (chars.flatMap escapedChar) := by
  induction chars with
  | nil => exact CharsText.nil
  | cons c chars ih => exact CharsText.cons (charText_escapedChar c) ih

/-- A string is printed as it may be written. -/
theorem stringText_written (string : String) : StringText string (writeString string []) :=
  StringText.quoted (charsText_escaped string.toList)

end SelectPlan.Json
