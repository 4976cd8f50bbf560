import SelectPlan.Proofs.Reading.Values

/-!
Reading records.  A member of an object is kept if its name is known, wherever it stands, and what
is written in the others does not matter.
-/

namespace SelectPlan.Json

variable {known : List String} {steps : Nat} {text rest close : List Char}

/-- A string is read with the blanks around it. -/
theorem readValue_spacedString (steps : Nat) {string : String} (h : SpacedString string text)
    (hrest : EndsValue rest) : ∃ behind,
      readValue false (steps + 1) (text ++ rest) = some (.string string, behind) ∧
        skipBlanks behind = rest := by
  obtain @⟨before, _, after, hbefore, @⟨chars, hchars⟩, hafter⟩ := h
  refine ⟨after ++ rest, ?_, (skipBlanks_append hafter rest).trans (skipBlanks_endsValue hrest)⟩
  rw [List.append_assoc, List.append_assoc, ← readValue_skipBlanks, skipBlanks_append hbefore,
    readValue_skipBlanks, List.append_assoc, List.cons_append, readValue_string,
    List.singleton_append, readChars_charsText hchars]
  simp only [Option.map_some, String.ofList_toList]

/-! Members -/

theorem MemberText.value {member : String × List Char} (h : MemberText member text) :
    Written .spaced member.2 ∧ member.2.length < text.length := by
  obtain @⟨name, before, quoted, after, value, hbefore, hname, hafter, hvalue⟩ := h
  refine ⟨hvalue, ?_⟩
  rw [List.length_append, List.length_cons]
  exact Nat.lt_add_left _ (Nat.lt_succ_self _)

/-- Goes on behind a member of which `kept` is kept. -/
def readFurther (known : List String) (steps : Nat) (kept : List (String × Json)) :
    List Char → Option (List (String × Json) × List Char)
  | '\x7d' :: rest => some (kept, rest)
  | ',' :: rest =>
      (readKnownMembers known steps rest).map fun (members, rest) => (kept ++ members, rest)
  | _ => none

/-- The value of a member is skipped unless the name is known. -/
theorem readKnownMembers_member {member : String × List Char} (h : MemberText member text) :
    readKnownMembers known (steps + 1) (text ++ close) =
      match readValue (!known.contains member.1) steps (member.2 ++ close) with
      | none => none
      | some (value, behind) =>
          readFurther known steps (if known.contains member.1 then [(member.1, value)] else [])
            (skipBlanks behind) := by
  obtain @⟨name, before, _, after, value, hbefore, @⟨chars, hchars⟩, hafter, hvalue⟩ := h
  have hquote : skipBlanks (before ++ ('"' :: chars ++ ['"']) ++ after ++ ':' :: value ++ close) =
      '"' :: (chars ++ '"' :: (after ++ ':' :: (value ++ close))) := by
    simp only [List.append_assoc]
    rw [skipBlanks_append hbefore]
    exact skipBlanks_cons rfl _
  have hcolon : skipBlanks (after ++ ':' :: (value ++ close)) = ':' :: (value ++ close) :=
    skipBlanks_append hafter _
  rw [readKnownMembers, hquote]
  simp only [readChars_charsText hchars, hcolon, String.ofList_toList]
  rfl

/-- What is kept of some members: those with known names, in their order, and where the text of a
string stands, the string. -/
structure KeptFrom (known : List String) (members : List (String × List Char))
    (kept : List (String × Json)) : Prop where
  names : kept.map Prod.fst = (members.map Prod.fst).filter known.contains
  values : ∀ entry ∈ kept, ∃ member ∈ members, entry.1 = member.1 ∧
    ∀ string, SpacedString string member.2 → entry.2 = .string string

theorem KeptFrom.append {members others : List (String × List Char)}
    {kept keptOthers : List (String × Json)} (h : KeptFrom known members kept)
    (hothers : KeptFrom known others keptOthers) :
    KeptFrom known (members ++ others) (kept ++ keptOthers) where
  names := by
    rw [List.map_append, List.map_append, List.filter_append, h.names, hothers.names]
  values := by
    intro entry hentry
    rcases List.mem_append.mp hentry with hentry | hentry
    · obtain ⟨member, hmember, hentry⟩ := h.values entry hentry
      exact ⟨member, List.mem_append_left others hmember, hentry⟩
    · obtain ⟨member, hmember, hentry⟩ := hothers.values entry hentry
      exact ⟨member, List.mem_append_right members hmember, hentry⟩

/-- Reading fails at a member only if its name is known and it holds something that is no string. -/
theorem readKnownMembers_cases {member : String × List Char} (h : MemberText member text)
    (hsteps : text.length < steps) (hclose : EndsValue close) :
    (∃ kept, KeptFrom known [member] kept ∧
      readKnownMembers known (steps + 1) (text ++ close) = readFurther known steps kept close) ∨
    readKnownMembers known (steps + 1) (text ++ close) = none ∧
      known.contains member.1 = true ∧ ∀ string, ¬SpacedString string member.2 := by
  obtain ⟨hwritten, hlength⟩ := h.value
  have hstring {string : String} (hstring : SpacedString string member.2) :
      ∃ behind, readValue false steps (member.2 ++ close) = some (.string string, behind) := by
    obtain ⟨steps, rfl⟩ := Nat.exists_eq_add_one_of_ne_zero (Nat.ne_zero_of_lt hsteps)
    obtain ⟨behind, hvalue, -⟩ := readValue_spacedString steps hstring hclose
    exact ⟨behind, hvalue⟩
  rw [readKnownMembers_member h]
  rcases (endsAsWritten hwritten (!known.contains member.1) steps close hclose
    (Nat.lt_trans hlength hsteps)).cases with ⟨hfound, hstrict⟩ | ⟨value, behind, hfound, hbehind⟩
  · refine Or.inr ⟨by rw [hfound], (Bool.not_eq_false' _).mp hstrict, ?_⟩
    intro string hspaced
    obtain ⟨behind, hvalue⟩ := hstring hspaced
    rw [hstrict] at hfound
    cases hfound.symm.trans hvalue
  · refine Or.inl ⟨if known.contains member.1 then [(member.1, value)] else [], ?_, ?_⟩
    · have hnames : [member.1].filter known.contains =
          if known.contains member.1 then [member.1] else [] := by
        rw [List.filter_cons, List.filter_nil]
      cases hknown : known.contains member.1 with
      | false =>
          rw [hknown] at hnames
          exact ⟨hnames.symm, nofun⟩
      | true =>
          rw [hknown] at hnames hfound
          refine ⟨hnames.symm, ?_⟩
          rintro entry (_ | ⟨_, ⟨⟩⟩)
          refine ⟨member, List.mem_cons_self, rfl, ?_⟩
          intro string hspaced
          obtain ⟨behind, hvalue⟩ := hstring hspaced
          exact (Prod.mk.inj (Option.some.inj (hfound.symm.trans hvalue))).1
    · rw [hfound]
      exact congrArg (readFurther known steps _) hbehind

/-- Of an object those members are kept whose names are known.  If reading fails, then one of them
holds something that is no string. -/
theorem readKnownMembers_text {members : List (String × List Char)} (h : MembersText members text)
    (hsteps : text.length + 1 < steps) :
    (∃ kept, KeptFrom known members kept ∧
      readKnownMembers known steps (text ++ '\x7d' :: rest) = some (kept, rest)) ∨
    readKnownMembers known steps (text ++ '\x7d' :: rest) = none ∧
      ∃ member ∈ members, known.contains member.1 = true ∧
        ∀ string, ¬SpacedString string member.2 := by
  induction h generalizing steps with
  | @last member text h =>
      obtain ⟨steps, rfl⟩ := Nat.exists_eq_add_one_of_ne_zero (Nat.ne_zero_of_lt hsteps)
      have hclose : EndsValue ('\x7d' :: rest) := endsValue_cons (Or.inr (Or.inr rfl)) _
      rcases readKnownMembers_cases h (Nat.lt_of_succ_lt_succ hsteps) hclose with
        ⟨kept, hkept, hread⟩ | ⟨hread, hknown⟩
      · exact Or.inl ⟨kept, hkept, hread⟩
      · exact Or.inr ⟨hread, member, List.mem_cons_self, hknown⟩
  | @cons member members text others h hothers ih =>
      obtain ⟨steps, rfl⟩ := Nat.exists_eq_add_one_of_ne_zero (Nat.ne_zero_of_lt hsteps)
      have hcomma : EndsValue (',' :: (others ++ '\x7d' :: rest)) := endsValue_cons (Or.inl rfl) _
      rw [List.length_append, List.length_cons] at hsteps
      rw [List.append_assoc]
      rcases readKnownMembers_cases h (show text.length < steps by omega) hcomma with
        ⟨kept, hkept, hread⟩ | ⟨hread, hknown⟩
      · rcases ih (show others.length + 1 < steps by omega) with
          ⟨keptOthers, hkeptOthers, hreadOthers⟩ | ⟨hreadOthers, other, hother, hknown⟩
        · refine Or.inl ⟨kept ++ keptOthers, hkept.append hkeptOthers, hread.trans ?_⟩
          rw [readFurther, hreadOthers]
          rfl
        · refine Or.inr ⟨hread.trans ?_, other, List.mem_cons_of_mem member hother, hknown⟩
          rw [readFurther, hreadOthers]
          rfl
      · exact Or.inr ⟨hread, member, List.mem_cons_self, hknown⟩

/-! Texts -/

theorem skipBlanks_blank {after : List Char} (h : Blank after) : skipBlanks after = [] := by
  rw [← List.append_nil after, skipBlanks_append h]
  rfl

/-- A text of a string is read as the string. -/
theorem read_spacedString {string text : String} (h : SpacedString string text.toList) :
    read text = some (.string string) := by
  have hend : EndsValue [] := nofun
  obtain ⟨behind, hvalue, hbehind⟩ := readValue_spacedString text.length h hend
  rw [List.append_nil] at hvalue
  rw [read, hvalue]
  simp [hbehind]

theorem readKnownMembers_skipBlanks (input : List Char) :
    readKnownMembers known steps (skipBlanks input) = readKnownMembers known steps input := by
  cases steps with
  | zero => rw [readKnownMembers, readKnownMembers]
  | succ steps => rw [readKnownMembers, readKnownMembers, skipBlanks_idem]

theorem memberText_head {member : String × List Char} (h : MemberText member text) :
    ∃ tail, skipBlanks text = '"' :: tail := by
  obtain @⟨name, before, _, after, value, hbefore, ⟨hchars⟩, hafter, hvalue⟩ := h
  simp only [List.append_assoc]
  rw [skipBlanks_append hbefore]
  exact ⟨_, skipBlanks_cons rfl _⟩

theorem membersText_head {members : List (String × List Char)} (h : MembersText members text) :
    ∃ tail, skipBlanks text = '"' :: tail := by
  cases h with
  | last h => exact memberText_head h
  | cons h hothers =>
      obtain ⟨tail, hskip⟩ := memberText_head h
      exact ⟨_, skipBlanks_append_of_cons hskip _⟩

/-- A text of an object is read as the members whose names are known.  If reading fails, then one of
them holds something that is no string. -/
theorem readRecord_object {members : List (String × List Char)} {text : String}
    (h : ObjectText members text.toList) :
    (∃ kept, KeptFrom known members kept ∧ readRecord known text = some (.object kept)) ∨
    readRecord known text = none ∧ ∃ member ∈ members, known.contains member.1 = true ∧
      ∀ string, ¬SpacedString string member.2 := by
  have hlength : text.length = text.toList.length := rfl
  have hopen {before inner after : List Char} (hbefore : Blank before)
      (htext : text.toList = before ++ '\x7b' :: inner ++ '\x7d' :: after) :
      skipBlanks text.toList = '\x7b' :: (inner ++ '\x7d' :: after) := by
    rw [htext, List.append_assoc, skipBlanks_append hbefore]
    exact skipBlanks_cons rfl _
  generalize htext : text.toList = chars at h
  cases h with
  | @empty before inner after hbefore hinner hafter =>
      have hclose : skipBlanks (inner ++ '\x7d' :: after) = '\x7d' :: after :=
        skipBlanks_append hinner _
      refine Or.inl ⟨[], ⟨rfl, nofun⟩, ?_⟩
      rw [readRecord, hopen hbefore htext]
      simp [hclose, skipBlanks_blank hafter]
  | @members members before inner after hbefore hinner hafter =>
      obtain ⟨tail, hskip⟩ := membersText_head hinner
      have hhead := skipBlanks_append_of_cons hskip ('\x7d' :: after)
      have hsteps : inner.length + 1 < text.length + 1 := by
        rw [hlength, htext, List.length_append, List.length_append, List.length_cons,
          List.length_cons]
        omega
      rw [readRecord, hopen hbefore htext]
      rcases readKnownMembers_text hinner hsteps with ⟨kept, hkept, hfound⟩ | ⟨hfound, hknown⟩
      · rw [← readKnownMembers_skipBlanks, hhead] at hfound
        refine Or.inl ⟨kept, hkept, ?_⟩
        simp [hhead, hfound, skipBlanks_blank hafter]
      · rw [← readKnownMembers_skipBlanks, hhead] at hfound
        refine Or.inr ⟨?_, hknown⟩
        simp [hhead, hfound]

/-- A text of an array of two strings is read as the array. -/
theorem readRecord_pair {first second text : String} (h : PairText first second text.toList) :
    readRecord known text = some (.array [.string first, .string second]) := by
  have hlength : text.length = text.toList.length := rfl
  generalize htext : text.toList = chars at h
  obtain @⟨before, one, two, after, hbefore, hone, htwo, hafter⟩ := h
  have hcomma : EndsValue (',' :: (two ++ ']' :: after)) := endsValue_cons (Or.inl rfl) _
  have hclose : EndsValue (']' :: after) := endsValue_cons (Or.inr (Or.inl rfl)) _
  obtain ⟨steps, hsteps⟩ : ∃ steps, text.length = steps + 3 := by
    rw [hlength, htext]
    exact ⟨before.length + one.length + two.length + after.length, by simp; omega⟩
  have hopen : skipBlanks text.toList = '[' :: (one ++ ',' :: (two ++ ']' :: after)) := by
    rw [htext]
    simp only [List.append_assoc]
    rw [skipBlanks_append hbefore]
    exact skipBlanks_cons rfl _
  have hitems : readItems false (steps + 3) (one ++ ',' :: (two ++ ']' :: after)) =
      some ([.string first, .string second], after) := by
    obtain ⟨behind, hfirst, hcommas⟩ := readValue_spacedString (steps + 1) hone hcomma
    obtain ⟨behindTwo, hsecond, hcloses⟩ := readValue_spacedString steps htwo hclose
    simp [readItems, hfirst, hcommas, hsecond, hcloses]
  obtain ⟨tail, hskip⟩ :
      ∃ tail, skipBlanks (one ++ ',' :: (two ++ ']' :: after)) = '"' :: tail := by
    obtain ⟨hblank, ⟨hchars⟩, -⟩ := hone
    simp only [List.append_assoc]
    rw [skipBlanks_append hblank]
    exact ⟨_, skipBlanks_cons rfl _⟩
  have hvalue : readValue false (text.length + 1) text.toList =
      some (.array [.string first, .string second], after) := by
    rw [hsteps, ← readValue_skipBlanks, hopen, readValue_array hskip rfl, hitems]
    rfl
  rw [readRecord, hopen]
  simp [read, hvalue, skipBlanks_blank hafter]

end SelectPlan.Json
