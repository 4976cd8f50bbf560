import Mathlib.Data.List.TakeDrop
import SelectPlan.Proofs.Documents.Printing
import SelectPlan.Proofs.Reading.Strings

/-!
Reading values.  A number ends before the first character that goes into none, and every other
value at its own end, so that one who reads a text stops where it has been written to stop.  One
who only skips it gets there whatever the text holds.
-/

namespace SelectPlan.Json

/-! Blanks -/

theorem skipBlanks_append {before : List Char} (h : Blank before) (rest : List Char) :
    skipBlanks (before ++ rest) = skipBlanks rest := by
  induction before with
  | nil => rfl
  | cons c before ih =>
      obtain ⟨hc, hbefore⟩ := List.forall_mem_cons.mp h
      rw [List.cons_append, skipBlanks, if_pos (by simpa [or_assoc] using hc), ih hbefore]

/-- A character that a document begins with is no blank. -/
theorem skipBlanks_cons {c : Char} (hc : (formOf c).isSome = true) (rest : List Char) :
    skipBlanks (c :: rest) = c :: rest := by
  have hblank : ¬(c = ' ' || c = '\n' || c = '\r' || c = '\t') = true := by
    simp only [Bool.or_eq_true, decide_eq_true_eq]
    rintro (((rfl | rfl) | rfl) | rfl) <;> exact Bool.false_ne_true hc
  rw [skipBlanks, if_neg hblank]

theorem skipBlanks_idem (input : List Char) : skipBlanks (skipBlanks input) = skipBlanks input := by
  induction input with
  | nil => rfl
  | cons c rest ih =>
      rw [skipBlanks]
      split
      · exact ih
      · next hblank => rw [skipBlanks, if_neg hblank]

-- the equations of the readers are worked out once, ahead of the proofs that rewrite with them
attribute [local simp] readValue readItems readMembers

theorem readValue_skipBlanks (skipping : Bool) (steps : Nat) (input : List Char) :
    readValue skipping steps (skipBlanks input) = readValue skipping steps input := by
  cases steps with
  | zero => rw [readValue, readValue]
  | succ steps => rw [readValue, readValue, skipBlanks_idem]

theorem readItems_skipBlanks (skipping : Bool) (steps : Nat) (input : List Char) :
    readItems skipping steps (skipBlanks input) = readItems skipping steps input := by
  cases steps with
  | zero => rw [readItems, readItems]
  | succ steps => rw [readItems, readItems, readValue_skipBlanks]

theorem readMembers_skipBlanks (skipping : Bool) (steps : Nat) (input : List Char) :
    readMembers skipping steps (skipBlanks input) = readMembers skipping steps input := by
  cases steps with
  | zero => rw [readMembers, readMembers]
  | succ steps => rw [readMembers, readMembers, skipBlanks_idem]

/-! Numbers -/

/-- What may stand behind a number. -/
def EndsNumber (rest : List Char) : Prop :=
  ∀ c ∈ rest.head?, c.isDigit = false ∧ c ≠ '.' ∧ c ≠ 'e' ∧ c ≠ 'E'

theorem spanDigits_append {digits rest : List Char} (hdigits : ∀ c ∈ digits, c.isDigit = true)
    (hrest : ∀ c ∈ rest.head?, c.isDigit = false) :
    spanDigits (digits ++ rest) = (digits, rest) := by
  have hnone := takeWhile_eq_nil_of_head hrest
  have hall : rest.dropWhile Char.isDigit = rest := by
    rw [← List.nil_append (rest.dropWhile Char.isDigit), ← hnone,
      List.takeWhile_append_dropWhile]
  rw [spanDigits, List.span_eq_takeWhile_dropWhile, List.takeWhile_append_of_pos hdigits,
    List.dropWhile_append_of_pos hdigits, hnone, hall, List.append_nil]

theorem readExponent_text {exponent rest : List Char} (h : ExponentText exponent)
    (hrest : EndsNumber rest) : ∃ size, readExponent (exponent ++ rest) = some (size, rest) := by
  cases h with
  | absent =>
      cases rest with
      | nil => exact ⟨none, rfl⟩
      | cons c rest =>
          obtain ⟨-, -, hsmall, hcapital⟩ := hrest c rfl
          exact ⟨none, by simp [readExponent, hsmall, hcapital]⟩
  | @digits mark sign digits hmark hsign hdigits =>
      have hspan := spanDigits_append hdigits.2 fun c hc => (hrest c hc).1
      have hnonempty : digits.isEmpty = false := List.isEmpty_eq_false_iff.mpr hdigits.1
      rw [List.cons_append, List.cons_append, List.append_assoc]
      rcases hsign with rfl | rfl | rfl
      · cases digits with
        | nil => exact absurd rfl hdigits.1
        | cons d digits =>
            have hd := hdigits.2 d List.mem_cons_self
            have hminus : d ≠ '-' := by rintro rfl; exact Bool.false_ne_true hd
            have hplus : d ≠ '+' := by rintro rfl; exact Bool.false_ne_true hd
            rw [List.cons_append] at hspan
            simp [readExponent, hmark, hminus, hplus, hspan]
      · simp [readExponent, hmark, hspan, hnonempty]
      · simp [readExponent, hmark, hspan, hnonempty]

theorem endsNumber_exponent {exponent rest : List Char} (h : ExponentText exponent)
    (hrest : EndsNumber rest) : ∀ c ∈ (exponent ++ rest).head?, c.isDigit = false ∧ c ≠ '.' := by
  intro c hc
  cases h with
  | absent =>
      obtain ⟨hdigit, hpoint, -⟩ := hrest c hc
      exact ⟨hdigit, hpoint⟩
  | digits hmark hsign h =>
      obtain rfl := Option.some.inj hc
      rcases hmark with rfl | rfl
      · exact ⟨rfl, by decide⟩
      · exact ⟨rfl, by decide⟩

theorem wholeDigits_cons {whole : List Char} (h : WholeDigits whole) :
    ∃ c digits, whole = c :: digits ∧ c ≠ '-' ∧ ¬(c = '0' ∧ ¬digits = []) := by
  obtain ⟨⟨hne, hdigits⟩, hzero⟩ := h
  obtain ⟨c, digits, rfl⟩ := List.exists_cons_of_ne_nil hne
  refine ⟨c, digits, rfl, ?_, ?_⟩
  · rintro rfl
    exact Bool.false_ne_true (hdigits _ List.mem_cons_self)
  · rintro ⟨rfl, hmore⟩
    exact hmore (List.cons.inj (hzero rfl)).2

theorem isDigit_fraction {fraction tail : List Char} (h : FractionText fraction)
    (htail : ∀ c ∈ tail.head?, c.isDigit = false) :
    ∀ c ∈ (fraction ++ tail).head?, c.isDigit = false := by
  intro c hc
  cases h with
  | absent => exact htail c hc
  | digits h =>
      obtain rfl := Option.some.inj hc
      rfl

/-- A number ends behind its last digit.  Its size matters to the strict reader only. -/
theorem readNumber_text {text rest : List Char} (h : NumberText text) (hrest : EndsNumber rest)
    (skipping : Bool) : ∃ number : Option Number, readNumber skipping (text ++ rest) =
      if skipping then some (.null, rest)
      else number.bind fun number => some (.number number, rest) := by
  obtain @⟨sign, whole, fraction, exponent, hsign, hwhole, hfraction, hexponent⟩ := h
  obtain ⟨size, hsize⟩ := readExponent_text hexponent hrest
  have hstop := endsNumber_exponent hexponent hrest
  have hspan := spanDigits_append hwhole.1.2
    (isDigit_fraction hfraction fun c hc => (hstop c hc).1)
  obtain ⟨c, digits, rfl, hminus, hzero⟩ := wholeDigits_cons hwhole
  rw [List.append_assoc, List.append_assoc, List.append_assoc]
  generalize exponent ++ rest = tail at *
  rw [List.cons_append] at hspan ⊢
  cases hfraction with
  | absent =>
      refine ⟨Number.ofDigits (if sign = [] then 1 else -1) (c :: digits) none size, ?_⟩
      rw [List.nil_append] at hspan ⊢
      cases tail with
      | nil =>
          rw [List.append_nil] at hspan ⊢
          rcases hsign with rfl | rfl <;> simp [readNumber, hminus, hspan, hzero, hsize]
      | cons d tail =>
          have hpoint := (hstop d rfl).2
          rcases hsign with rfl | rfl <;> simp [readNumber, hminus, hspan, hzero, hpoint, hsize]
  | @digits part hpart =>
      refine ⟨Number.ofDigits (if sign = [] then 1 else -1) (c :: digits) (some part) size, ?_⟩
      have hbehind := spanDigits_append hpart.2 fun c hc => (hstop c hc).1
      rw [List.cons_append] at hspan ⊢
      rcases hsign with rfl | rfl <;>
        simp [readNumber, hminus, hspan, hzero, hpart.1, hbehind, hsize]

theorem leaves_readNumber {text rest : List Char} (h : NumberText text) (hrest : EndsNumber rest)
    (skipping : Bool) : Leaves skipping (· = rest) (readNumber skipping (text ++ rest)) := by
  obtain ⟨number, hnumber⟩ := readNumber_text h hrest skipping
  rw [hnumber]
  cases skipping with
  | true => rfl
  | false => cases number <;> rfl

theorem readValue_number {c : Char} (hc : Number.isPart c = true) (skipping : Bool) (steps : Nat)
    (rest : List Char) :
    readValue skipping (steps + 1) (c :: rest) = readNumber skipping (c :: rest) := by
  have hform := formOf_isPart hc
  have hletter (letter : Char) (hletter : formOf letter ≠ some 2) : c ≠ letter := by
    rintro rfl
    exact hletter hform
  rw [readValue, skipBlanks_cons (by rw [hform]; rfl)]
  split
  case h_7 => rfl
  all_goals
    next heq => exact absurd (List.cons.inj heq).1 (hletter _ (by decide))

/-! Values -/

theorem numberText_head {text : List Char} (h : NumberText text) :
    ∃ c tail, text = c :: tail ∧ Number.isPart c = true := by
  obtain ⟨hsign, hwhole, hfraction, hexponent⟩ := h
  obtain ⟨c, digits, rfl⟩ := List.exists_cons_of_ne_nil hwhole.1.1
  rcases hsign with rfl | rfl
  · exact ⟨c, _, rfl, by rw [Number.isPart, hwhole.1.2 c List.mem_cons_self]; rfl⟩
  · exact ⟨'-', _, rfl, rfl⟩

theorem skipBlanks_append_of_cons {text tail : List Char} {c : Char}
    (h : skipBlanks text = c :: tail) (rest : List Char) :
    skipBlanks (text ++ rest) = c :: (tail ++ rest) := by
  induction text with
  | nil => cases h
  | cons d text ih =>
      rw [skipBlanks] at h
      rw [List.cons_append, skipBlanks]
      split at h
      · next hblank => rw [if_pos hblank, ih h]
      · next hblank =>
        obtain ⟨rfl, rfl⟩ := List.cons.inj h
        rw [if_neg hblank]

/-- Behind its blanks a text begins with a character that documents begin with. -/
theorem written_head {part : TextPart} {text : List Char} (h : Written part text) :
    ∃ c tail, skipBlanks text = c :: tail ∧ (formOf c).isSome = true := by
  induction h with
  | number h =>
      obtain ⟨c, tail, rfl, hc⟩ := numberText_head h
      have hform : (formOf c).isSome = true := by rw [formOf_isPart hc]; rfl
      exact ⟨c, tail, skipBlanks_cons hform tail, hform⟩
  | spaced hbefore h hafter ih =>
      obtain ⟨c, tail, hskip, hc⟩ := ih
      rw [List.append_assoc, skipBlanks_append hbefore, skipBlanks_append_of_cons hskip]
      exact ⟨c, _, rfl, hc⟩
  | lastItem h ih => exact ih
  | item h hrest ih =>
      obtain ⟨c, tail, hskip, hc⟩ := ih
      exact ⟨c, _, skipBlanks_append_of_cons hskip _, hc⟩
  | lastMember hbefore hname hafter h =>
      simp only [List.append_assoc]
      rw [skipBlanks_append hbefore]
      exact ⟨'"', _, rfl, rfl⟩
  | member hbefore hname hafter h hrest =>
      simp only [List.append_assoc]
      rw [skipBlanks_append hbefore]
      exact ⟨'"', _, rfl, rfl⟩
  | _ => exact ⟨_, _, rfl, rfl⟩

/-- What may stand behind a value and the blanks that follow it. -/
def EndsValue (rest : List Char) : Prop :=
  ∀ c ∈ rest.head?, c = ',' ∨ c = ']' ∨ c = '\x7d'

theorem endsValue_cons {c : Char} (hc : c = ',' ∨ c = ']' ∨ c = '\x7d') (rest : List Char) :
    EndsValue (c :: rest) := by
  rintro _ ⟨⟩
  exact hc

theorem skipBlanks_endsValue {rest : List Char} (h : EndsValue rest) : skipBlanks rest = rest := by
  cases rest with
  | nil => rfl
  | cons c rest => rcases h c rfl with rfl | rfl | rfl <;> rfl

theorem endsNumber_append {after rest : List Char} (hafter : Blank after) (hrest : EndsValue rest) :
    EndsNumber (after ++ rest) := by
  intro c hc
  cases after with
  | nil => rcases hrest c hc with rfl | rfl | rfl <;> decide
  | cons d after =>
      obtain rfl := Option.some.inj hc
      rcases hafter d List.mem_cons_self with rfl | rfl | rfl | rfl <;> decide

section

variable {skipping : Bool} {steps : Nat} {input tail rest : List Char}

theorem leaves_readItems {close : List Char}
    (h : Leaves skipping (skipBlanks · = close) (readValue skipping steps input))
    (hclose : close = ']' :: rest ∨
      ∃ next, close = ',' :: next ∧ Leaves skipping (· = rest) (readItems skipping steps next)) :
    Leaves skipping (· = rest) (readItems skipping (steps + 1) input) := by
  rw [readItems]
  rcases h.cases with ⟨hfound, hstrict⟩ | ⟨item, behind, hfound, hbehind⟩
  · rw [hfound]
    exact hstrict
  · rw [hfound]
    dsimp only
    rw [hbehind]
    rcases hclose with rfl | ⟨next, rfl, hnext⟩
    · rfl
    · exact hnext.map fun _ => rfl

theorem leaves_readMembers {before name after close : List Char} (hbefore : Blank before)
    (hname : SkippedChars name) (hafter : Blank after)
    (h : Leaves skipping (skipBlanks · = close) (readValue skipping steps tail))
    (hclose : close = '\x7d' :: rest ∨
      ∃ next, close = ',' :: next ∧ Leaves skipping (· = rest) (readMembers skipping steps next)) :
    Leaves skipping (· = rest) (readMembers skipping (steps + 1)
      (before ++ '"' :: name ++ '"' :: after ++ ':' :: tail)) := by
  have hquote : skipBlanks (before ++ '"' :: name ++ '"' :: after ++ ':' :: tail) =
      '"' :: (name ++ '"' :: (after ++ ':' :: tail)) := by
    rw [List.append_assoc, List.append_assoc, skipBlanks_append hbefore]
    exact skipBlanks_cons rfl _
  have hcolon : skipBlanks (after ++ ':' :: tail) = ':' :: tail := skipBlanks_append hafter _
  rw [readMembers, hquote]
  rcases (leaves_readChars hname skipping none (after ++ ':' :: tail)).cases with
    ⟨hchars, hstrict⟩ | ⟨chars, behind, hchars, rfl⟩
  · simpa [hchars, Leaves] using hstrict
  rcases h.cases with ⟨hvalue, hstrict⟩ | ⟨value, behind, hvalue, hbehind⟩
  · simpa [hchars, hcolon, hvalue, Leaves] using hstrict
  rcases hclose with rfl | ⟨next, rfl, hnext⟩
  · simp [hchars, hcolon, hvalue, hbehind, Leaves]
  · simp only [hchars, hcolon, hvalue, hbehind]
    exact hnext.map fun _ => rfl

theorem readValue_string :
    readValue skipping (steps + 1) ('"' :: rest) =
      (readChars skipping none rest).map fun (chars, rest) =>
        (.string (String.ofList chars), rest) := by
  rw [readValue]
  rfl

theorem readValue_emptyArray (h : skipBlanks input = ']' :: rest) :
    readValue skipping (steps + 1) ('[' :: input) = some (.array [], rest) := by
  simp [skipBlanks, h]

theorem readValue_array {c : Char} (h : skipBlanks input = c :: tail)
    (hc : (formOf c).isSome = true) :
    readValue skipping (steps + 1) ('[' :: input) =
      (readItems skipping steps input).map fun (items, rest) => (.array items, rest) := by
  have hclose : c ≠ ']' := by
    rintro rfl
    cases hc
  rw [← readItems_skipBlanks]
  simp [skipBlanks, h, hclose]

theorem readValue_emptyObject (h : skipBlanks input = '\x7d' :: rest) :
    readValue skipping (steps + 1) ('\x7b' :: input) = some (.object [], rest) := by
  simp [skipBlanks, h]

theorem readValue_object {c : Char} (h : skipBlanks input = c :: tail)
    (hc : (formOf c).isSome = true) :
    readValue skipping (steps + 1) ('\x7b' :: input) =
      (readMembers skipping steps input).map fun (members, rest) => (.object members, rest) := by
  have hclose : c ≠ '\x7d' := by
    rintro rfl
    cases hc
  rw [← readMembers_skipBlanks]
  simp [skipBlanks, h, hclose]

end

/-- Every part of a text is read up to its end. -/
def EndsAsWritten : TextPart → List Char → Prop
  | .value, text => ∀ skipping steps rest, EndsNumber rest → text.length < steps →
      Leaves skipping (· = rest) (readValue skipping steps (text ++ rest))
  | .spaced, text => ∀ skipping steps rest, EndsValue rest → text.length < steps →
      Leaves skipping (skipBlanks · = rest) (readValue skipping steps (text ++ rest))
  | .items, text => ∀ skipping steps rest, text.length + 1 < steps →
      Leaves skipping (· = rest) (readItems skipping steps (text ++ ']' :: rest))
  | .members, text => ∀ skipping steps rest, text.length + 1 < steps →
      Leaves skipping (· = rest) (readMembers skipping steps (text ++ '\x7d' :: rest))

/-- Reading ends where the text does, whatever is written in it. -/
theorem endsAsWritten {part : TextPart} {text : List Char} (h : Written part text) :
    EndsAsWritten part text := by
  -- what stands in brackets is shorter than its text by two characters and is read with one step
  -- less, so that the steps never run out
  induction h with
  | null | true | false =>
      rintro skipping (_ | steps) rest - hsteps
      · cases hsteps
      · rw [readValue]
        exact rfl
  | number h =>
      rintro skipping (_ | steps) rest hrest hsteps
      · cases hsteps
      · obtain ⟨c, tail, rfl, hc⟩ := numberText_head h
        rw [List.cons_append, readValue_number hc]
        exact leaves_readNumber h hrest skipping
  | @string text h =>
      rintro skipping (_ | steps) rest - hsteps
      · cases hsteps
      · rw [List.append_assoc, List.cons_append, readValue_string]
        exact (leaves_readChars h skipping none rest).map fun _ => rfl
  | emptyArray h =>
      rintro skipping (_ | steps) rest - hsteps
      · cases hsteps
      · rw [List.append_assoc, List.cons_append, readValue_emptyArray (skipBlanks_append h _)]
        exact rfl
  | @array text h ih =>
      rintro skipping (_ | steps) rest - hsteps
      · cases hsteps
      · obtain ⟨c, tail, hskip, hc⟩ := written_head h
        rw [List.append_assoc, List.cons_append,
          readValue_array (skipBlanks_append_of_cons hskip _) hc]
        exact (ih skipping steps rest (by simpa using hsteps)).map fun _ => rfl
  | emptyObject h =>
      rintro skipping (_ | steps) rest - hsteps
      · cases hsteps
      · rw [List.append_assoc, List.cons_append, readValue_emptyObject (skipBlanks_append h _)]
        exact rfl
  | @object text h ih =>
      rintro skipping (_ | steps) rest - hsteps
      · cases hsteps
      · obtain ⟨c, tail, hskip, hc⟩ := written_head h
        rw [List.append_assoc, List.cons_append,
          readValue_object (skipBlanks_append_of_cons hskip _) hc]
        exact (ih skipping steps rest (by simpa using hsteps)).map fun _ => rfl
  | @spaced before text after hbefore h hafter ih =>
      intro skipping steps rest hrest hsteps
      have hlength : text.length < steps := by
        rw [List.length_append, List.length_append] at hsteps
        omega
      rw [List.append_assoc, List.append_assoc, ← readValue_skipBlanks, skipBlanks_append hbefore,
        readValue_skipBlanks]
      rcases (ih skipping steps _ (endsNumber_append hafter hrest) hlength).cases with
        ⟨hfound, hstrict⟩ | ⟨value, behind, hfound, rfl⟩
      · rw [hfound]
        exact hstrict
      · rw [hfound]
        exact (skipBlanks_append hafter rest).trans (skipBlanks_endsValue hrest)
  | lastItem h ih =>
      rintro skipping (_ | steps) rest hsteps
      · cases hsteps
      · have hclose : EndsValue (']' :: rest) := endsValue_cons (Or.inr (Or.inl rfl)) _
        exact leaves_readItems (ih skipping steps _ hclose (by omega)) (Or.inl rfl)
  | @item text items h hrest ih ihrest =>
      rintro skipping (_ | steps) rest hsteps
      · cases hsteps
      · have hcomma : EndsValue (',' :: (items ++ ']' :: rest)) := endsValue_cons (Or.inl rfl) _
        rw [List.length_append, List.length_cons] at hsteps
        rw [List.append_assoc]
        exact leaves_readItems (ih skipping steps _ hcomma (by omega))
          (Or.inr ⟨_, rfl, ihrest skipping steps rest (by omega)⟩)
  | @lastMember before name after value hbefore hname hafter h ih =>
      rintro skipping (_ | steps) rest hsteps
      · cases hsteps
      · have hclose : EndsValue ('\x7d' :: rest) := endsValue_cons (Or.inr (Or.inr rfl)) _
        simp only [List.length_append, List.length_cons] at hsteps
        rw [List.append_assoc]
        exact leaves_readMembers hbefore hname hafter (ih skipping steps _ hclose (by omega))
          (Or.inl rfl)
  | @member before name after value members hbefore hname hafter h hrest ih ihrest =>
      rintro skipping (_ | steps) rest hsteps
      · cases hsteps
      · have hcomma : EndsValue (',' :: (members ++ '\x7d' :: rest)) :=
          endsValue_cons (Or.inl rfl) _
        simp only [List.length_append, List.length_cons] at hsteps
        rw [List.append_assoc, List.append_assoc]
        exact leaves_readMembers hbefore hname hafter (ih skipping steps _ hcomma (by omega))
          (Or.inr ⟨_, rfl, ihrest skipping steps rest (by omega)⟩)

end SelectPlan.Json
