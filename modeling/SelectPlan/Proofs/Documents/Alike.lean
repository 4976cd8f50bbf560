import Mathlib.Data.List.Perm.Subperm
import SelectPlan.Json.Canonical

/-!
Documents that hold the same data.  Two documents are alike if they have one canonical form: the
members of their objects may be written in another order.  Here is what that comes to for each form
of a document, and in particular for objects that are written with the same names in the same
order, as the members of a structure are, and for objects that are written from maps.
-/

namespace SelectPlan.Json

/-- Two documents hold the same data. -/
def Alike (a b : Json) : Prop :=
  a.sorted = b.sorted

section

variable {a b : Json} {s t : String}

@[simp]
theorem alike_refl (a : Json) : Alike a a :=
  rfl

@[simp]
theorem alike_null_iff : Alike a .null ↔ a = .null := by
  cases a <;> simp [Alike, sorted]

@[simp]
theorem alike_bool {x y : Bool} : Alike (.bool x) (.bool y) ↔ x = y := by
  simp [Alike, sorted]

@[simp]
theorem alike_number {x y : Number} : Alike (.number x) (.number y) ↔ x = y := by
  simp [Alike, sorted]

@[simp]
theorem alike_string : Alike (.string s) (.string t) ↔ s = t := by
  simp [Alike, sorted]

@[simp]
theorem alike_tagged : Alike (.tagged s a) (.tagged t b) ↔ s = t ∧ Alike a b := by
  simp [Alike, tagged, sorted, sortedMembers, insertMember]

@[simp]
theorem not_alike_string_tagged : ¬ Alike (.string s) (.tagged t b) := by
  simp [Alike, tagged, sorted]

@[simp]
theorem not_alike_tagged_string : ¬ Alike (.tagged s a) (.string t) := by
  simp [Alike, tagged, sorted]

end

section

variable {a b : Json} {as bs : List Json}

@[simp]
theorem alike_array_cons :
    Alike (.array (a :: as)) (.array (b :: bs)) ↔ Alike a b ∧ Alike (.array as) (.array bs) := by
  simp [Alike, sorted, sortedItems]

@[simp]
theorem not_alike_array_nil_cons : ¬ Alike (.array []) (.array (b :: bs)) := by
  simp [Alike, sorted, sortedItems]

@[simp]
theorem not_alike_array_cons_nil : ¬ Alike (.array (a :: as)) (.array []) := by
  simp [Alike, sorted, sortedItems]

end

/-! Objects -/

section

variable {name : String} {value : Json} {members others : List (String × Json)}
  {member : String × Json}

theorem mem_insertMember_iff (hfresh : name ∉ members.map Prod.fst) :
    member ∈ insertMember name value members ↔ member = (name, value) ∨ member ∈ members := by
  induction members with
  | nil => simp [insertMember]
  | cons first members ih =>
      rw [List.map_cons, List.mem_cons, not_or] at hfresh
      rw [insertMember, if_neg hfresh.1]
      split
      · exact List.mem_cons
      · rw [List.mem_cons, ih hfresh.2, List.mem_cons, or_left_comm]

theorem length_insertMember (hfresh : name ∉ members.map Prod.fst) :
    (insertMember name value members).length = members.length + 1 := by
  induction members with
  | nil => rfl
  | cons first members ih =>
      rw [List.map_cons, List.mem_cons, not_or] at hfresh
      rw [insertMember, if_neg hfresh.1]
      split
      · rfl
      · rw [List.length_cons, ih hfresh.2, List.length_cons]

/-- The canonical form has no names but those of the members. -/
theorem name_mem_of_sortedMembers (hmem : member ∈ sortedMembers members) :
    member.1 ∈ members.map Prod.fst := by
  induction members with
  | nil => cases hmem
  | cons first members ih =>
      rw [List.map_cons, List.mem_cons]
      rcases mem_insertMember hmem with rfl | hmem
      · exact .inl rfl
      · exact .inr (ih hmem)

theorem not_mem_names_sortedMembers (hfresh : name ∉ members.map Prod.fst) :
    name ∉ (sortedMembers members).map Prod.fst := by
  rintro hmem
  obtain ⟨member, hmember, rfl⟩ := List.mem_map.mp hmem
  exact hfresh (name_mem_of_sortedMembers hmember)

/-- The canonical form of distinct members holds their canonical forms and no others. -/
theorem mem_sortedMembers_iff (hnodup : (members.map Prod.fst).Nodup) :
    member ∈ sortedMembers members ↔
      ∃ written ∈ members, (written.1, written.2.sorted) = member := by
  induction members with
  | nil => simp [sortedMembers]
  | cons first members ih =>
      obtain ⟨hfresh, hnodup⟩ := List.nodup_cons.mp hnodup
      rw [sortedMembers, mem_insertMember_iff (not_mem_names_sortedMembers hfresh), ih hnodup]
      simp [eq_comm]

theorem length_sortedMembers (hnodup : (members.map Prod.fst).Nodup) :
    (sortedMembers members).length = members.length := by
  induction members with
  | nil => rfl
  | cons first members ih =>
      obtain ⟨hfresh, hnodup⟩ := List.nodup_cons.mp hnodup
      rw [sortedMembers, length_insertMember (not_mem_names_sortedMembers hfresh), ih hnodup,
        List.length_cons]

theorem Ascending.nodup (hascending : Ascending members) : members.Nodup :=
  hascending.imp fun hlt => by rintro rfl; exact String.lt_irrefl _ hlt

/-- Members that ascend are determined by their set. -/
theorem Ascending.eq_of_subset (hmembers : Ascending members) (hothers : Ascending others)
    (hlength : others.length ≤ members.length) (hsubset : members ⊆ others) :
    members = others := by
  have hperm : members.Perm others :=
    (List.subperm_of_subset hmembers.nodup hsubset).perm_of_length_le hlength
  exact hperm.eq_of_pairwise (fun first second _ _ hlt hgt =>
    absurd (String.lt_trans hlt hgt) (String.lt_irrefl _)) hmembers hothers

theorem alike_object : Alike (.object members) (.object others) ↔
    sortedMembers members = sortedMembers others := by
  simp [Alike, sorted]

/-- Objects with distinct members are alike if they have equally many, and every member of the
first is alike to one of the second under the same name. -/
theorem alike_object_iff (hmembers : (members.map Prod.fst).Nodup)
    (hothers : (others.map Prod.fst).Nodup) :
    Alike (.object members) (.object others) ↔
      members.length = others.length ∧
        ∀ member ∈ members, ∃ other ∈ others, other.1 = member.1 ∧ Alike member.2 other.2 := by
  rw [alike_object]
  constructor
  · intro hsame
    refine ⟨?_, fun member hmem => ?_⟩
    · rw [← length_sortedMembers hmembers, hsame, length_sortedMembers hothers]
    · have hsorted : (member.1, member.2.sorted) ∈ sortedMembers members :=
        (mem_sortedMembers_iff hmembers).mpr ⟨member, hmem, rfl⟩
      rw [hsame, mem_sortedMembers_iff hothers] at hsorted
      obtain ⟨other, hother, heq⟩ := hsorted
      obtain ⟨hname, hvalue⟩ := Prod.mk.inj heq
      exact ⟨other, hother, hname, hvalue.symm⟩
  · rintro ⟨hlength, hfound⟩
    have hsorted : (sortedMembers others).length = (sortedMembers members).length := by
      rw [length_sortedMembers hmembers, length_sortedMembers hothers, hlength]
    refine (ascending_sortedMembers members).eq_of_subset (ascending_sortedMembers others)
      (Nat.le_of_eq hsorted) ?_
    intro member hmem
    obtain ⟨written, hwritten, rfl⟩ := (mem_sortedMembers_iff hmembers).mp hmem
    obtain ⟨other, hother, hname, hvalue⟩ := hfound written hwritten
    exact (mem_sortedMembers_iff hothers).mpr ⟨other, hother, by rw [hname, hvalue]⟩

/-- A member that is put in can be taken out again. -/
theorem filter_insertMember (hfresh : name ∉ members.map Prod.fst) :
    (insertMember name value members).filter (·.1 ≠ name) = members := by
  have hkept : ∀ {members : List (String × Json)}, name ∉ members.map Prod.fst →
      members.filter (·.1 ≠ name) = members := by
    intro members hfresh
    refine List.filter_eq_self.mpr fun member hmem => decide_eq_true ?_
    rintro rfl
    exact hfresh (List.mem_map_of_mem hmem)
  induction members with
  | nil => simp [insertMember]
  | cons first members ih =>
      have hrest := hfresh
      rw [List.map_cons, List.mem_cons, not_or] at hrest
      rw [insertMember, if_neg hrest.1]
      split
      · rw [List.filter_cons_of_neg (by simp), hkept hfresh]
      · rw [List.filter_cons_of_pos (by simpa using Ne.symm hrest.1), ih hrest.2]

variable {a b : Json}

/-- Objects with the same first name are alike if their first members and the others are. -/
@[simp]
theorem alike_object_cons (hmembers : name ∉ members.map Prod.fst)
    (hothers : name ∉ others.map Prod.fst) :
    Alike (.object ((name, a) :: members)) (.object ((name, b) :: others)) ↔
      Alike a b ∧ Alike (.object members) (.object others) := by
  have hmembers := not_mem_names_sortedMembers hmembers
  have hothers := not_mem_names_sortedMembers hothers
  rw [alike_object, alike_object, sortedMembers, sortedMembers]
  constructor
  · intro hsame
    refine ⟨?_, ?_⟩
    · have hmem : (name, a.sorted) ∈ insertMember name a.sorted (sortedMembers members) :=
        (mem_insertMember_iff hmembers).mpr (.inl rfl)
      rw [hsame, mem_insertMember_iff hothers] at hmem
      rcases hmem with hmem | hmem
      · exact (Prod.mk.inj hmem).2
      · exact absurd (List.mem_map_of_mem hmem) hothers
    · rw [← filter_insertMember hmembers, hsame, filter_insertMember hothers]
  · rintro ⟨hvalue, hrest⟩
    rw [show a.sorted = b.sorted from hvalue, hrest]

end

end SelectPlan.Json

namespace SelectPlan

theorem JsonValue.ofJson_eq_iff {a b : Json} : ofJson a = ofJson b ↔ a.Alike b := by
  rw [ofJson, ofJson, mk.injEq, Json.Alike]

end SelectPlan
