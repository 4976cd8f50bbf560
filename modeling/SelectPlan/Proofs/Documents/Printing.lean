import SelectPlan.Proofs.Reading.Strings

/-!
The text of a document determines the document.  What stands at the front of a text can be told
from what follows it: a string ends at its quote, a number before the first character that is in no
number, and an array or an object at its bracket.
-/

namespace SelectPlan.Json

/-! Strings -/

theorem writeString_inj {text other : String} {rest rest' : List Char}
    (heq : writeString text rest = writeString other rest') : text = other ∧ rest = rest' := by
  have hchars : text.toList.flatMap escapedChar ++ '"' :: rest =
      other.toList.flatMap escapedChar ++ '"' :: rest' := (List.cons.inj heq).2
  have hread := congrArg (readChars false none) hchars
  rw [readChars_charsText (charsText_escaped _), readChars_charsText (charsText_escaped _)] at hread
  obtain ⟨htext, hrest⟩ := Prod.mk.inj (Option.some.inj hread)
  exact ⟨String.toList_injective htext, hrest⟩

/-! Numbers -/

theorem takeWhile_eq_nil_of_head {p : Char → Bool} {tail : List Char}
    (htail : ∀ c ∈ tail.head?, p c = false) : tail.takeWhile p = [] := by
  cases tail with
  | nil => rfl
  | cons c tail => rw [List.takeWhile_cons, htail c rfl, if_neg Bool.false_ne_true]

/-- Lists that stop at the same kind of character are told apart from what follows them. -/
theorem append_inj_of_stop {p : Char → Bool} {xs ys rest rest' : List Char}
    (hxs : ∀ c ∈ xs, p c = true) (hys : ∀ c ∈ ys, p c = true)
    (hrest : ∀ c ∈ rest.head?, p c = false) (hrest' : ∀ c ∈ rest'.head?, p c = false)
    (heq : xs ++ rest = ys ++ rest') : xs = ys ∧ rest = rest' := by
  have hfront := congrArg (List.takeWhile p) heq
  rw [List.takeWhile_append_of_pos hxs, List.takeWhile_append_of_pos hys,
    takeWhile_eq_nil_of_head hrest, takeWhile_eq_nil_of_head hrest', List.append_nil,
    List.append_nil] at hfront
  subst hfront
  exact ⟨rfl, List.append_cancel_left heq⟩

theorem isDigit_of_mem_toDigits {n : Nat} {c : Char} (hc : c ∈ Nat.toDigits 10 n) :
    c.isDigit = true :=
  Nat.isDigit_of_mem_toDigits (by decide) (by decide) hc

namespace Number

theorem isDigit_of_mem_padded {width n : Nat} {c : Char}
    (hc : c ∈ padded width (Nat.toDigits 10 n)) : c.isDigit = true := by
  rcases List.mem_append.mp hc with hzero | hdigit
  · rw [List.eq_of_mem_replicate hzero]
    rfl
  · exact isDigit_of_mem_toDigits hdigit

theorem length_padded {width n : Nat} (hn : n < Nat.pow 10 (width + 1)) :
    (padded (width + 1) (Nat.toDigits 10 n)).length = width + 1 := by
  have hlength := (Nat.length_toDigits_le_iff (by decide) width.succ_pos).mpr hn
  rw [padded, List.length_append, List.length_replicate]
  omega

theorem length_part (units places : Nat) :
    (padded (places + 1) (Nat.toDigits 10 (units % Nat.pow 10 (places + 1)))).length =
      places + 1 :=
  length_padded (Nat.mod_lt _ (Nat.pow_pos (by decide)))

/-- Zeros in front do not change the number that digits stand for. -/
theorem padded_inj {width m n : Nat}
    (heq : padded width (Nat.toDigits 10 m) = padded width (Nat.toDigits 10 n)) : m = n := by
  have hvalue (n : Nat) : Nat.ofDigitChars 10 (padded width (Nat.toDigits 10 n)) 0 = n := by
    rw [padded, Nat.ofDigitChars_append, Nat.ofDigitChars_replicate_zero, Nat.mul_zero,
      Nat.ofDigitChars_ten_toDigits]
  rw [← hvalue m, heq, hvalue n]

/-- The characters that numbers are written with. -/
def isPart (c : Char) : Bool :=
  c.isDigit || c == '.' || c == '-'

theorem mem_magnitude {number : Number} {c : Char} (hc : c ∈ number.magnitude) :
    c.isDigit = true ∨ c = '.' := by
  cases number with
  | integer value => exact Or.inl (isDigit_of_mem_toDigits hc)
  | decimal units places =>
      rcases List.mem_append.mp hc with hwhole | hc
      · exact Or.inl (isDigit_of_mem_toDigits hwhole)
      · rcases List.mem_cons.mp hc with hpoint | hpart
        · exact Or.inr hpoint
        · exact Or.inl (isDigit_of_mem_padded hpart)

theorem isPart_of_mem_chars {number : Number} {c : Char} (hc : c ∈ number.chars) :
    isPart c = true := by
  have hmagnitude {c : Char} (hc : c ∈ number.magnitude) : isPart c = true := by
    rcases mem_magnitude hc with hdigit | rfl
    · rw [isPart, hdigit]
      rfl
    · rfl
  rw [chars] at hc
  split at hc
  · rcases List.mem_cons.mp hc with rfl | hc
    · rfl
    · exact hmagnitude hc
  · exact hmagnitude hc

/-- The digits of a number before and after its point determine it up to its sign. -/
theorem eq_of_magnitude_eq {a b : Number} (hsign : a.isNegative = b.isNegative)
    (heq : a.magnitude = b.magnitude) : a = b := by
  have hdigit {n : Nat} : ∀ c ∈ Nat.toDigits 10 n, c.isDigit = true :=
    fun _ => isDigit_of_mem_toDigits
  have hinteger {value : Int} : '.' ∉ (integer value).magnitude := fun hmem =>
    Bool.false_ne_true (hdigit _ hmem)
  have hdecimal {units : Int} {places : Nat} : '.' ∈ (decimal units places).magnitude :=
    List.mem_append_right _ List.mem_cons_self
  cases a with
  | integer v =>
      cases b with
      | integer w =>
          have habs := toDigits_injective heq
          simp only [isNegative, decide_eq_decide] at hsign
          congr 1
          omega
      | decimal w q => exact absurd (heq ▸ hdecimal) hinteger
  | decimal v p =>
      cases b with
      | integer w => exact absurd (heq ▸ hdecimal) hinteger
      | decimal w q =>
          have hstop (tail : List Char) : ∀ c ∈ ('.' :: tail).head?, c.isDigit = false := by
            rintro c ⟨⟩
            rfl
          obtain ⟨hwhole, hpart⟩ := append_inj_of_stop hdigit hdigit (hstop _) (hstop _) heq
          have hpart := (List.cons.inj hpart).2
          have hlength := congrArg List.length hpart
          rw [length_part, length_part] at hlength
          obtain rfl : p = q := Nat.succ.inj hlength
          have habs : v.natAbs = w.natAbs := by
            rw [← Nat.div_add_mod v.natAbs (Nat.pow 10 (p + 1)), toDigits_injective hwhole,
              padded_inj hpart, Nat.div_add_mod]
          simp only [isNegative, decide_eq_decide] at hsign
          congr 1
          omega

theorem minus_not_mem_magnitude (number : Number) : '-' ∉ number.magnitude := by
  intro hmem
  rcases mem_magnitude hmem with hdigit | hpoint
  · exact Bool.false_ne_true hdigit
  · exact absurd hpoint (by decide)

theorem chars_injective : Function.Injective chars := by
  intro a b heq
  rw [chars, chars] at heq
  split at heq <;> split at heq
  · next ha hb => exact eq_of_magnitude_eq (ha.trans hb.symm) (List.cons.inj heq).2
  · exact absurd (heq ▸ List.mem_cons_self) (minus_not_mem_magnitude b)
  · exact absurd (heq.symm ▸ List.mem_cons_self) (minus_not_mem_magnitude a)
  · next ha hb =>
    rw [Bool.not_eq_true] at ha hb
    exact eq_of_magnitude_eq (ha.trans hb.symm) heq

theorem chars_ne_nil (number : Number) : number.chars ≠ [] := by
  have hmagnitude : number.magnitude ≠ [] := by
    cases number with
    | integer value => exact Nat.toDigits_ne_nil
    | decimal units places => exact List.append_ne_nil_of_right_ne_nil _ (List.cons_ne_nil _ _)
  rw [chars]
  split
  · exact List.cons_ne_nil _ _
  · exact hmagnitude

end Number

/-! Documents -/

/-- The form of a document, as a number. -/
def form : Json → Nat
  | null => 0
  | bool _ => 1
  | number _ => 2
  | string _ => 3
  | array _ => 4
  | object _ => 5

/-- The form of the documents that begin with a character. -/
def formOf (c : Char) : Option Nat :=
  if c = 'n' then some 0
  else if c = 't' || c = 'f' then some 1
  else if Number.isPart c then some 2
  else if c = '"' then some 3
  else if c = '[' then some 4
  else if c = '\x7b' then some 5
  else none

theorem formOf_isPart {c : Char} (hc : Number.isPart c = true) : formOf c = some 2 := by
  have hletter (letter : Char) (hletter : Number.isPart letter = false) : c ≠ letter := by
    rintro rfl
    exact Bool.false_ne_true (hletter.symm.trans hc)
  simp [formOf, hc, hletter 'n' rfl, hletter 't' rfl, hletter 'f' rfl]

/-- The first character of a document shows its form. -/
theorem formOf_write (document : Json) (rest : List Char) :
    (document.write rest).head?.bind formOf = some document.form := by
  cases document with
  | bool value => cases value <;> rfl
  | number value =>
      cases hchars : value.chars with
      | nil => exact absurd hchars value.chars_ne_nil
      | cons c chars =>
          rw [write, hchars]
          exact formOf_isPart (Number.isPart_of_mem_chars (hchars ▸ List.mem_cons_self))
  | _ => rfl

/-- A text that no number goes on into. -/
def StopsNumber (rest : List Char) : Prop :=
  ∀ c ∈ rest.head?, Number.isPart c = false

theorem form_eq {a b : Json} {rest rest' : List Char} (heq : a.write rest = b.write rest') :
    a.form = b.form := by
  have hform := formOf_write a rest
  rw [heq, formOf_write] at hform
  exact (Option.some.inj hform).symm

/-- Where a list ends there is no document. -/
theorem write_ne_cons {c : Char} (hc : formOf c = none) (document : Json) (rest tail : List Char) :
    document.write rest ≠ c :: tail := by
  intro heq
  have hform := formOf_write document rest
  rw [heq] at hform
  cases hc.symm.trans hform

/-- What comes after an item of an array or a member of an object: the others behind a comma, or
else the bracket. -/
def following {α : Type} (close : Char) (write : List α → List Char → List Char) :
    List α → List Char → List Char
  | [], rest => close :: rest
  | next :: items, rest => ',' :: write (next :: items) (close :: rest)

theorem stopsNumber_following {α : Type} {close : Char} (hclose : Number.isPart close = false)
    (write : List α → List Char → List Char) (items : List α) (rest : List Char) :
    StopsNumber (following close write items rest) := by
  cases items <;> rintro _ ⟨⟩
  · exact hclose
  · rfl

theorem following_inj {α : Type} {close : Char} {write : List α → List Char → List Char}
    {xs ys : List α} {rest rest' : List Char} (hclose : close ≠ ',')
    (hwrite : write xs (close :: rest) = write ys (close :: rest') → xs = ys ∧ rest = rest')
    (heq : following close write xs rest = following close write ys rest') :
    xs = ys ∧ rest = rest' := by
  cases xs with
  | nil =>
      cases ys with
      | nil => exact ⟨rfl, (List.cons.inj heq).2⟩
      | cons y ys => exact absurd (List.cons.inj heq).1 hclose
  | cons x xs =>
      cases ys with
      | nil => exact absurd (List.cons.inj heq).1.symm hclose
      | cons y ys => exact hwrite (List.cons.inj heq).2

theorem writeItems_cons (item : Json) (items : List Json) (rest : List Char) :
    writeItems (item :: items) (']' :: rest) =
      item.write (following ']' writeItems items rest) := by
  cases items <;> rfl

theorem writeMembers_cons (name : String) (value : Json) (members : List (String × Json))
    (rest : List Char) :
    writeMembers ((name, value) :: members) ('\x7d' :: rest) =
      writeString name (':' :: value.write (following '\x7d' writeMembers members rest)) := by
  cases members <;> rfl

mutual

/-- The text of a document ends where the document does. -/
theorem write_inj : ∀ {a b : Json} {rest rest' : List Char}, StopsNumber rest →
    StopsNumber rest' → a.write rest = b.write rest' → a = b ∧ rest = rest'
  | .null, b, rest, rest', _, _, heq => by
      have hform := form_eq heq
      cases b with
      | null => exact ⟨rfl, List.append_cancel_left heq⟩
      | _ => cases hform
  | .bool x, b, rest, rest', _, _, heq => by
      have hform := form_eq heq
      cases b with
      | bool y => cases x <;> cases y <;> simp_all [write]
      | _ => cases hform
  | .number x, b, rest, rest', hrest, hrest', heq => by
      have hform := form_eq heq
      cases b with
      | number y =>
          obtain ⟨hchars, htail⟩ := append_inj_of_stop (fun _ => Number.isPart_of_mem_chars)
            (fun _ => Number.isPart_of_mem_chars) hrest hrest' heq
          exact ⟨congrArg number (Number.chars_injective hchars), htail⟩
      | _ => cases hform
  | .string x, b, rest, rest', _, _, heq => by
      have hform := form_eq heq
      cases b with
      | string y =>
          obtain ⟨rfl, htail⟩ := writeString_inj heq
          exact ⟨rfl, htail⟩
      | _ => cases hform
  | .array xs, b, rest, rest', _, _, heq => by
      have hform := form_eq heq
      cases b with
      | array ys =>
          obtain ⟨rfl, htail⟩ := writeItems_inj (List.cons.inj heq).2
          exact ⟨rfl, htail⟩
      | _ => cases hform
  | .object xs, b, rest, rest', _, _, heq => by
      have hform := form_eq heq
      cases b with
      | object ys =>
          obtain ⟨rfl, htail⟩ := writeMembers_inj (List.cons.inj heq).2
          exact ⟨rfl, htail⟩
      | _ => cases hform

theorem writeItems_inj : ∀ {xs ys : List Json} {rest rest' : List Char},
    writeItems xs (']' :: rest) = writeItems ys (']' :: rest') → xs = ys ∧ rest = rest'
  | [], [], _, _, heq => ⟨rfl, (List.cons.inj heq).2⟩
  | [], y :: ys, _, _, heq => by
      rw [writeItems_cons] at heq
      exact absurd heq.symm (write_ne_cons rfl y _ _)
  | x :: xs, [], _, _, heq => by
      rw [writeItems_cons] at heq
      exact absurd heq (write_ne_cons rfl x _ _)
  | x :: xs, y :: ys, _, _, heq => by
      rw [writeItems_cons, writeItems_cons] at heq
      obtain ⟨hitem, htail⟩ := write_inj (stopsNumber_following rfl _ _ _)
        (stopsNumber_following rfl _ _ _) heq
      obtain ⟨hitems, hrest⟩ := following_inj (by decide) (fun h => writeItems_inj h) htail
      exact ⟨List.cons_eq_cons.mpr ⟨hitem, hitems⟩, hrest⟩

theorem writeMembers_inj : ∀ {xs ys : List (String × Json)} {rest rest' : List Char},
    writeMembers xs ('\x7d' :: rest) = writeMembers ys ('\x7d' :: rest') → xs = ys ∧ rest = rest'
  | [], [], _, _, heq => ⟨rfl, (List.cons.inj heq).2⟩
  | [], (name, y) :: ys, _, _, heq => by
      rw [writeMembers_cons] at heq
      exact absurd (List.cons.inj heq).1 (by decide)
  | (name, x) :: xs, [], _, _, heq => by
      rw [writeMembers_cons] at heq
      exact absurd (List.cons.inj heq).1 (by decide)
  | (name, x) :: xs, (other, y) :: ys, _, _, heq => by
      rw [writeMembers_cons, writeMembers_cons] at heq
      obtain ⟨hname, hvalue⟩ := writeString_inj heq
      obtain ⟨hvalue, htail⟩ := write_inj (stopsNumber_following rfl _ _ _)
        (stopsNumber_following rfl _ _ _) (List.cons.inj hvalue).2
      obtain ⟨hmembers, hrest⟩ := following_inj (by decide) (fun h => writeMembers_inj h) htail
      exact ⟨List.cons_eq_cons.mpr ⟨Prod.ext hname hvalue, hmembers⟩, hrest⟩

end

/-- Different documents have different texts. -/
theorem text_injective : Function.Injective text := by
  intro a b heq
  have hstop : StopsNumber [] := nofun
  exact (write_inj hstop hstop (String.ofList_injective heq)).1

end SelectPlan.Json
