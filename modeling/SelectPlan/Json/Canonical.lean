import SelectPlan.Json.Basic

/-!
Canonical documents: every object lists its members by name, in ascending order and each name
once.  Two documents that differ only in the order of members have the same canonical form.
-/

namespace SelectPlan.Json

/-- Puts a member into a list sorted by name.  A member already there under the name stays. -/
def insertMember (name : String) (value : Json) : List (String × Json) → List (String × Json)
  | [] => [(name, value)]
  | member :: rest =>
      if name < member.1 then (name, value) :: member :: rest
      else if name = member.1 then member :: rest
      else member :: insertMember name value rest

mutual

/-- The canonical form of a document.  Of several members with one name the last counts. -/
def sorted : Json → Json
  | .array items => .array (sortedItems items)
  | .object members => .object (sortedMembers members)
  | .null => .null
  | .bool value => .bool value
  | .number value => .number value
  | .string text => .string text

/-- The canonical forms of the items of an array. -/
def sortedItems : List Json → List Json
  | [] => []
  | item :: rest => item.sorted :: sortedItems rest

/-- The members of an object in canonical form. -/
def sortedMembers : List (String × Json) → List (String × Json)
  | [] => []
  | (name, value) :: rest => insertMember name value.sorted (sortedMembers rest)

end

/-- Member names ascend strictly. -/
def Ascending (members : List (String × Json)) : Prop :=
  members.Pairwise fun a b => a.1 < b.1

theorem mem_insertMember {name : String} {value : Json} {members : List (String × Json)}
    {member : String × Json} (h : member ∈ insertMember name value members) :
    member = (name, value) ∨ member ∈ members := by
  induction members with
  | nil => simpa [insertMember] using h
  | cons head tail ih =>
      rw [insertMember] at h
      split at h
      · simpa using h
      · split at h
        · exact Or.inr h
        · rcases List.mem_cons.mp h with rfl | h
          · exact Or.inr List.mem_cons_self
          · exact (ih h).imp_right (List.mem_cons_of_mem head)

theorem ascending_insertMember (name : String) (value : Json) {members : List (String × Json)}
    (h : Ascending members) : Ascending (insertMember name value members) := by
  induction members with
  | nil => simp [insertMember, Ascending]
  | cons head tail ih =>
      have htail : Ascending tail := (List.pairwise_cons.mp h).2
      have hhead := (List.pairwise_cons.mp h).1
      rw [insertMember]
      split
      · next hlt =>
        refine List.pairwise_cons.mpr ⟨fun member hmember => ?_, h⟩
        rcases List.mem_cons.mp hmember with rfl | hmember
        · exact hlt
        · exact String.lt_trans hlt (hhead member hmember)
      · next hnlt =>
        split
        · exact h
        · next hne =>
          refine List.pairwise_cons.mpr ⟨fun member hmember => ?_, ih htail⟩
          rcases mem_insertMember hmember with rfl | hmember
          · rcases Std.lt_trichotomy name head.1 with hlt | heq | hgt
            · exact absurd hlt hnlt
            · exact absurd heq hne
            · exact hgt
          · exact hhead member hmember

theorem ascending_sortedMembers (members : List (String × Json)) :
    Ascending (sortedMembers members) := by
  induction members with
  | nil => simp [sortedMembers, Ascending]
  | cons head tail ih => exact ascending_insertMember _ _ ih

theorem insertMember_eq_cons {name : String} {value : Json} {members : List (String × Json)}
    (h : Ascending ((name, value) :: members)) :
    insertMember name value members = (name, value) :: members := by
  cases members with
  | nil => rfl
  | cons head tail =>
      rw [insertMember, if_pos ((List.pairwise_cons.mp h).1 head List.mem_cons_self)]

/-- Members that ascend and hold canonical documents are their own canonical form. -/
theorem sortedMembers_eq_self {members : List (String × Json)} (hascending : Ascending members)
    (hvalues : ∀ member ∈ members, member.2.sorted = member.2) :
    sortedMembers members = members := by
  induction members with
  | nil => rfl
  | cons head tail ih =>
      rw [sortedMembers, ih (List.pairwise_cons.mp hascending).2
        (fun member hmember => hvalues member (List.mem_cons_of_mem head hmember)),
        hvalues head List.mem_cons_self]
      exact insertMember_eq_cons hascending

mutual

/-- A canonical form is its own canonical form. -/
theorem sorted_sorted : ∀ document : Json, document.sorted.sorted = document.sorted
  | .array items => by rw [sorted, sorted, sortedItems_sortedItems items]
  | .object members => by
      rw [sorted, sorted, sortedMembers_eq_self (ascending_sortedMembers members)
        (sorted_of_mem_sortedMembers members)]
  | .null | .bool _ | .number _ | .string _ => rfl

theorem sortedItems_sortedItems :
    ∀ items : List Json, sortedItems (sortedItems items) = sortedItems items
  | [] => rfl
  | item :: rest => by
      rw [sortedItems, sortedItems, sorted_sorted item, sortedItems_sortedItems rest]

theorem sorted_of_mem_sortedMembers : ∀ members : List (String × Json),
    ∀ member ∈ sortedMembers members, member.2.sorted = member.2
  | [] => by simp [sortedMembers]
  | (name, value) :: rest => fun member hmember => by
      rcases mem_insertMember hmember with rfl | hmember
      · exact sorted_sorted value
      · exact sorted_of_mem_sortedMembers rest member hmember

end

end SelectPlan.Json

namespace SelectPlan

/-- A document in canonical form.  Two of them are equal exactly when they hold the same data,
whatever the order in which the members of their objects were written. -/
structure JsonValue where
  document : Json
  canonical : document.sorted = document
deriving DecidableEq

namespace JsonValue

/-- The data of a document. -/
def ofJson (document : Json) : JsonValue :=
  ⟨document.sorted, document.sorted_sorted⟩

instance : HasJson JsonValue := ⟨document⟩

end JsonValue

end SelectPlan
