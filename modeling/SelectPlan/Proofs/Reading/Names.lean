import Mathlib.Data.List.Permutation
import SelectPlan.Proofs.Reading.Records
import SelectPlan.Query.Ordering

/-!
Names that are read back from their texts.  The text of a name can be written in many ways, and
each of them is read as the name that is printed from it.
-/

namespace SelectPlan

open Json

/-! Strings and alternatives -/

namespace Json

theorem spacedString_written (string : String) : SpacedString string (writeString string []) := by
  have hblank : Blank [] := List.forall_mem_nil _
  have hspaced := SpacedString.spaced hblank (stringText_written string) hblank
  rw [List.nil_append, List.append_nil] at hspaced
  exact hspaced

/-- A printed string is a text of it. -/
theorem spacedString_text (string : String) :
    SpacedString string (Json.string string).text.toList := by
  rw [text, String.toList_ofList, write]
  exact spacedString_written string

theorem readAlternative?_text {α : Type} (alternatives : List (String × α)) {tag text : String}
    (h : SpacedString tag text.toList) :
    readAlternative? alternatives text = alternatives.lookup tag := by
  rw [readAlternative?, read_spacedString h]

/-! Members -/

theorem memberText_written (key value : String) :
    MemberText (key, writeString value []) (writeString key [] ++ ':' :: writeString value []) := by
  have hblank : Blank [] := List.forall_mem_nil _
  have hnamed := MemberText.named hblank (stringText_written key) hblank
    (spacedString_written value).written
  rw [List.nil_append, List.append_nil] at hnamed
  exact hnamed

/-- A member whose name stands once is the only one with that name. -/
theorem eq_of_count_one {members : List (String × List Char)} {key : String}
    (hcount : (members.map Prod.fst).count key = 1) {value other : List Char}
    (hvalue : (key, value) ∈ members) (hother : (key, other) ∈ members) : other = value := by
  obtain ⟨front, back, rfl⟩ := List.append_of_mem hvalue
  rw [List.map_append, List.map_cons, List.count_append, List.count_cons_self] at hcount
  have hfront : key ∉ front.map Prod.fst := List.count_eq_zero.mp (by omega)
  have hback : key ∉ back.map Prod.fst := List.count_eq_zero.mp (by omega)
  rcases List.mem_append.mp hother with hother | hother
  · exact absurd (List.mem_map_of_mem hother) hfront
  · rcases List.mem_cons.mp hother with heq | hother
    · exact (Prod.mk.inj heq).2
    · exact absurd (List.mem_map_of_mem hother) hback

theorem entries_of_names {kept : List (String × Json)} {first second : String}
    (h : kept.map Prod.fst = [first, second]) :
    ∃ one two, kept = [(first, one), (second, two)] := by
  obtain ⟨⟨_, one⟩, rest, rfl, rfl, hrest⟩ := List.map_eq_cons_iff.mp h
  obtain ⟨⟨_, two⟩, others, rfl, rfl, hnil⟩ := List.map_eq_cons_iff.mp hrest
  obtain rfl := List.map_eq_nil_iff.mp hnil
  exact ⟨one, two, rfl⟩

end Json

theorem Name.read?_exactText {kind : NameKind} (name : Name kind) :
    Name.read? (exactText name) = some name := by
  rw [Name.read?, exactText, show json name = .string name.text from rfl,
    read_spacedString (spacedString_text name.text)]

theorem Backend.read?_exactText (backend : Backend) :
    Backend.read? (exactText backend) = some backend := by
  rw [Backend.read?, exactText, show json backend = .string backend.tag from rfl,
    readAlternative?_text _ (spacedString_text backend.tag)]
  cases backend <;> rfl

theorem Direction.read?_exactText (direction : Direction) :
    Direction.read? (exactText direction) = some direction := by
  rw [Direction.read?, exactText, show json direction = .string direction.name from rfl,
    readAlternative?_text _ (spacedString_text direction.name)]
  cases direction <;> rfl

theorem NullsOrder.read?_exactText (order : NullsOrder) :
    NullsOrder.read? (exactText order) = some order := by
  rw [NullsOrder.read?, exactText, show json order = .string order.name from rfl,
    readAlternative?_text _ (spacedString_text order.name)]
  cases order <;> rfl

/-! Qualified names -/

namespace QualifiedName

variable {members : List (String × List Char)} {text : String}

/-- Each of the two members of a qualified name stands once among the members of an object, and
holds its string. -/
structure CarriedBy (name : QualifiedName) (members : List (String × List Char)) : Prop where
  schemaOnce : (members.map Prod.fst).count "schema" = 1
  nameOnce : (members.map Prod.fst).count "name" = 1
  schema : ∃ value, ("schema", value) ∈ members ∧ SpacedString name.schema value
  name : ∃ value, ("name", value) ∈ members ∧ SpacedString name.name value

namespace CarriedBy

variable {name : QualifiedName} {value : List Char}

theorem of_schema (h : name.CarriedBy members) (hvalue : ("schema", value) ∈ members) :
    SpacedString name.schema value := by
  obtain ⟨found, hfound, hstring⟩ := h.schema
  rw [eq_of_count_one h.schemaOnce hfound hvalue]
  exact hstring

theorem of_name (h : name.CarriedBy members) (hvalue : ("name", value) ∈ members) :
    SpacedString name.name value := by
  obtain ⟨found, hfound, hstring⟩ := h.name
  rw [eq_of_count_one h.nameOnce hfound hvalue]
  exact hstring

/-- The known names among the members are the two, in one order or the other. -/
theorem names_perm (h : name.CarriedBy members) :
    ((members.map Prod.fst).filter ["schema", "name"].contains).Perm ["schema", "name"] := by
  rw [List.perm_iff_count]
  intro key
  by_cases hkey : key ∈ ["schema", "name"]
  · rw [List.count_filter (List.contains_iff_mem.mpr hkey)]
    rcases List.mem_pair.mp hkey with rfl | rfl
    · exact h.schemaOnce
    · exact h.nameOnce
  · rw [List.count_eq_zero.mpr hkey, List.count_eq_zero]
    intro hmem
    exact hkey (List.contains_iff_mem.mp (List.mem_filter.mp hmem).2)

end CarriedBy

/-- If an object is read as a qualified name, then each of the two members stands in it once. -/
theorem count_of_read? (h : ObjectText members text.toList) {name : QualifiedName}
    (hread : read? text = some name) :
    (members.map Prod.fst).count "schema" = 1 ∧ (members.map Prod.fst).count "name" = 1 := by
  rcases readRecord_object h with ⟨kept, hkept, hrecord⟩ | ⟨hrecord, -⟩
  · have hcount {key : String} (hkey : ["schema", "name"].contains key = true) :
        (members.map Prod.fst).count key = (kept.map Prod.fst).count key := by
      rw [hkept.names, List.count_filter hkey]
    rw [hcount rfl, hcount rfl]
    rw [read?, hrecord] at hread
    split at hread
    · next heq =>
      cases heq
      exact ⟨rfl, rfl⟩
    · next heq =>
      cases heq
      exact ⟨rfl, rfl⟩
    · next heq => cases heq
    · cases hread
  · rw [read?, hrecord] at hread
    cases hread

/-- An object that carries a qualified name is read as it, whatever else it holds. -/
theorem read?_object (h : ObjectText members text.toList) {name : QualifiedName}
    (hcarried : name.CarriedBy members) : read? text = some name := by
  rcases readRecord_object h with
    ⟨kept, hkept, hrecord⟩ | ⟨hrecord, ⟨key, value⟩, hmember, hknown, hstring⟩
  · have hschema {document : Json} (hentry : ("schema", document) ∈ kept) :
        document = .string name.schema := by
      obtain ⟨⟨key, value⟩, hmember, rfl, hvalue⟩ := hkept.values _ hentry
      exact hvalue _ (hcarried.of_schema hmember)
    have hname {document : Json} (hentry : ("name", document) ∈ kept) :
        document = .string name.name := by
      obtain ⟨⟨key, value⟩, hmember, rfl, hvalue⟩ := hkept.values _ hentry
      exact hvalue _ (hcarried.of_name hmember)
    have hperm := hcarried.names_perm
    rw [← hkept.names] at hperm
    rcases List.perm_pair.mp hperm with hnames | hnames
    · obtain ⟨schema, value, rfl⟩ := entries_of_names hnames
      obtain rfl := hschema List.mem_cons_self
      obtain rfl := hname (List.mem_cons_of_mem _ List.mem_cons_self)
      rw [read?, hrecord]
      rfl
    · obtain ⟨value, schema, rfl⟩ := entries_of_names hnames
      obtain rfl := hname List.mem_cons_self
      obtain rfl := hschema (List.mem_cons_of_mem _ List.mem_cons_self)
      rw [read?, hrecord]
      rfl
  · rcases List.mem_pair.mp (List.contains_iff_mem.mp hknown) with rfl | rfl
    · exact absurd (hcarried.of_schema hmember) (hstring name.schema)
    · exact absurd (hcarried.of_name hmember) (hstring name.name)

theorem read?_pair {name : QualifiedName} (h : PairText name.schema name.name text.toList) :
    read? text = some name := by
  rw [read?, readRecord_pair h]

/-- The printed text of a qualified name is that of an object that carries it. -/
theorem objectText_exactText (name : QualifiedName) :
    ObjectText [("schema", writeString name.schema []), ("name", writeString name.name [])]
      (exactText name).toList := by
  have hblank : Blank [] := List.forall_mem_nil _
  have htext : (exactText name).toList =
      [] ++ '\x7b' :: (writeString "schema" [] ++ ':' :: writeString name.schema [] ++
        ',' :: (writeString "name" [] ++ ':' :: writeString name.name [])) ++ '\x7d' :: [] := by
    rw [exactText, text, String.toList_ofList]
    simp [json, write, writeMembers, writeString]
  rw [htext]
  exact ObjectText.members hblank
    (MembersText.cons (memberText_written _ _) (MembersText.last (memberText_written _ _))) hblank

theorem carriedBy_exactText (name : QualifiedName) :
    name.CarriedBy
      [("schema", writeString name.schema []), ("name", writeString name.name [])] where
  schemaOnce := rfl
  nameOnce := rfl
  schema := ⟨_, List.mem_cons_self, spacedString_written name.schema⟩
  name := ⟨_, List.mem_cons_of_mem _ List.mem_cons_self, spacedString_written name.name⟩

theorem read?_exactText (name : QualifiedName) : read? (exactText name) = some name :=
  read?_object (objectText_exactText name) (carriedBy_exactText name)

end QualifiedName

/-- Names are read back from their texts.  A qualified name is also read back from every object in
which its two members stand once each, wherever they stand and whatever else the object holds, and
from the list of the two; an object in which one of them is missing or repeated is refused. -/
theorem names_read_back {kind : NameKind} (name : Name kind) (qualified : QualifiedName)
    (backend : Backend) (direction : Direction) (nulls : NullsOrder) :
    (Name.read? (exactText name) = some name ∧
      QualifiedName.read? (exactText qualified) = some qualified ∧
      Backend.read? (exactText backend) = some backend ∧
      Direction.read? (exactText direction) = some direction ∧
      NullsOrder.read? (exactText nulls) = some nulls) ∧
    (∀ (text : String) (members : List (String × List Char)), ObjectText members text.toList →
      (qualified.CarriedBy members →
        QualifiedName.read? text = QualifiedName.read? (exactText qualified)) ∧
      ((members.map Prod.fst).count "schema" ≠ 1 ∨ (members.map Prod.fst).count "name" ≠ 1 →
        QualifiedName.read? text = none)) ∧
    ∀ text : String, PairText qualified.schema qualified.name text.toList →
      QualifiedName.read? text = QualifiedName.read? (exactText qualified) := by
  refine ⟨⟨name.read?_exactText, qualified.read?_exactText, backend.read?_exactText,
    direction.read?_exactText, nulls.read?_exactText⟩, ?_, ?_⟩
  · intro text members htext
    constructor
    · intro hcarried
      rw [QualifiedName.read?_object htext hcarried, qualified.read?_exactText]
    · intro hcount
      by_contra hread
      obtain ⟨found, hfound⟩ := Option.ne_none_iff_exists'.mp hread
      obtain ⟨hschema, hname⟩ := QualifiedName.count_of_read? htext hfound
      rcases hcount with hcount | hcount
      · exact hcount hschema
      · exact hcount hname
  · intro text htext
    rw [QualifiedName.read?_pair htext, qualified.read?_exactText]

theorem names_read_back_from_other_texts :
    QualifiedName.read? "\x7b\"name\":\"b\",\"x\":[-1],\"sch\\u0065ma\":\"a\"\x7d" =
      QualifiedName.read? (exactText (⟨"a", "b"⟩ : QualifiedName)) ∧
    QualifiedName.read? "[\"a\",\"b\"]" =
      QualifiedName.read? (exactText (⟨"a", "b"⟩ : QualifiedName)) ∧
    QualifiedName.read? "\x7b\"name\":\"b\"\x7d" = none := by
  obtain ⟨-, hobject, hpair⟩ :=
    names_read_back (⟨"c"⟩ : ColumnName) ⟨"a", "b"⟩ .postgres .asc .first
  have hblank : Blank [] := List.forall_mem_nil _
  refine ⟨?_, ?_, ?_⟩
  · have hplain {c : Char} {chars text : List Char}
        (hc : c ≠ '"' ∧ c ≠ '\\' ∧ 0x20 ≤ c.toNat) (hrest : CharsText chars text) :
        CharsText (c :: chars) (c :: text) :=
      CharsText.cons (CharText.plain hc.1 hc.2.1 hc.2.2) hrest
    have hdigit {value : Nat} (hvalue : value < 16) : IsHexDigit value (Nat.digitChar value) :=
      ⟨hvalue, Or.inl rfl⟩
    have hunit : CharText 'e' "\\u0065".toList :=
      CharText.unit (UnitText.digits (hdigit (show 0 < 16 by decide))
        (hdigit (show 0 < 16 by decide)) (hdigit (show 6 < 16 by decide))
        (hdigit (show 5 < 16 by decide)))
    have hchars : CharsText "schema".toList "sch\\u0065ma".toList :=
      show CharsText ['s', 'c', 'h', 'e', 'm', 'a'] _ from
        hplain (by decide) (hplain (by decide) (hplain (by decide)
          (CharsText.cons hunit (hplain (by decide) (hplain (by decide) CharsText.nil)))))
    have hschema := StringText.quoted hchars
    have hnumber : NumberText ['-', '1'] :=
      NumberText.parts (Or.inr rfl)
        (show WholeDigits ['1'] from
          ⟨⟨List.cons_ne_nil _ _, List.forall_mem_singleton.mpr rfl⟩, by decide⟩)
        FractionText.absent ExponentText.absent
    have harray : Written .value ['[', '-', '1', ']'] :=
      Written.array (Written.lastItem (Written.spaced hblank (Written.number hnumber) hblank))
    have hmembers := MembersText.cons (memberText_written "name" "b")
      (MembersText.cons (MemberText.named hblank (stringText_written "x") hblank
          (Written.spaced hblank harray hblank))
        (MembersText.last (MemberText.named hblank hschema hblank
          (spacedString_written "a").written)))
    refine (hobject _ _ (ObjectText.members hblank hmembers hblank)).1 ?_
    exact ⟨rfl, rfl, ⟨_, List.mem_cons_of_mem _ (List.mem_cons_of_mem _ List.mem_cons_self),
      spacedString_written "a"⟩, ⟨_, List.mem_cons_self, spacedString_written "b"⟩⟩
  · exact hpair _
      (PairText.pair hblank (spacedString_written "a") (spacedString_written "b") hblank)
  · exact (hobject _ _ (ObjectText.members hblank
      (MembersText.last (memberText_written "name" "b")) hblank)).2
      (Or.inl (by decide))

end SelectPlan
