import Mathlib.Data.List.Forall2
import Mathlib.Data.List.Nodup
import SelectPlan.Data.Name
import SelectPlan.Data.NonEmpty
import SelectPlan.Proofs.Documents.Alike

/-!
Documents that tell values apart.  A document form is legible if the documents of different values
differ in what they hold, and faithful to an equality if they differ exactly where the equality
does, which may ignore the order of a map.  Both pass from the items of a container to the
container.
-/

namespace SelectPlan

/-- Types whose documents are alike only for one and the same value. -/
class Legible (A : Type) [HasJson A] : Prop where
  alike_iff (x y : A) : (json x).Alike (json y) ↔ x = y

/-- Types whose documents are never null. -/
class NeverNull (A : Type) [HasJson A] : Prop where
  json_ne_null (x : A) : json x ≠ .null

/-- The documents of two values are alike exactly if the values are equal in some sense. -/
def Faithful (A : Type) [HasJson A] (eq : A → A → Bool) : Prop :=
  ∀ x y : A, (json x).Alike (json y) ↔ eq x y = true

variable {A B K : Type} [HasJson A] [HasJson B] {eq : A → A → Bool}

@[simp]
theorem alike_json_iff [Legible A] (x y : A) : (json x).Alike (json y) ↔ x = y :=
  Legible.alike_iff x y

theorem Legible.faithful [BEq A] [LawfulBEq A] [Legible A] : Faithful A (· == ·) := fun x y => by
  rw [alike_json_iff, beq_iff_eq]

/-! Lists -/

theorem alike_list_iff (xs ys : List A) :
    (json xs).Alike (json ys) ↔ List.Forall₂ (fun x y => (json x).Alike (json y)) xs ys := by
  change Json.Alike (.array (xs.map json)) (.array (ys.map json)) ↔ _
  induction xs generalizing ys with
  | nil => cases ys <;> simp
  | cons x xs ih =>
      cases ys with
      | nil => simp
      | cons y ys =>
          rw [List.map_cons, List.map_cons, Json.alike_array_cons, ih, List.forall₂_cons]

instance [Legible A] : Legible (List A) where
  alike_iff xs ys := by simp only [alike_list_iff, alike_json_iff, List.forall₂_eq_eq_eq]

instance : NeverNull (List A) where
  json_ne_null _ := nofun

theorem Faithful.list (hitem : Faithful A eq) : Faithful (List A) (sameList eq) := by
  intro xs ys
  rw [alike_list_iff]
  induction xs generalizing ys with
  | nil => cases ys <;> simp [sameList]
  | cons x xs ih => cases ys <;> simp [sameList, hitem x, ih]

theorem alike_nonEmpty_iff (xs ys : NonEmpty A) : (json xs).Alike (json ys) ↔
    (json xs.head).Alike (json ys.head) ∧ (json xs.tail).Alike (json ys.tail) := by
  change Json.Alike (.object [_, _]) (.object [_, _]) ↔ _
  simp

instance [Legible A] : Legible (NonEmpty A) where
  alike_iff := by
    rintro ⟨x, xs⟩ ⟨y, ys⟩
    simp [alike_nonEmpty_iff]

instance : NeverNull (NonEmpty A) where
  json_ne_null _ := nofun

theorem Faithful.nonEmpty (hitem : Faithful A eq) : Faithful (NonEmpty A) (NonEmpty.same eq) := by
  intro xs ys
  rw [alike_nonEmpty_iff, hitem, hitem.list, NonEmpty.same, Bool.and_eq_true]

/-! Values that may be absent -/

theorem alike_option_iff [NeverNull A] : ∀ x y : Option A,
    (json x).Alike (json y) ↔ Option.Rel (fun x y => (json x).Alike (json y)) x y
  | none, none => iff_of_true rfl .none
  | none, some y => iff_of_false
      (fun halike => NeverNull.json_ne_null y (Json.alike_null_iff.mp halike.symm)) nofun
  | some x, none => iff_of_false
      (fun halike => NeverNull.json_ne_null x (Json.alike_null_iff.mp halike)) nofun
  | some x, some y => by
      rw [Option.rel_some_some]
      rfl

instance [Legible A] [NeverNull A] : Legible (Option A) where
  alike_iff x y := by
    rw [alike_option_iff]
    cases x <;> cases y <;> simp

theorem Faithful.option (hitem : Faithful A eq) (hnull : ∀ x : A, json x ≠ .null) :
    Faithful (Option A) (sameOption eq) := by
  have : NeverNull A := ⟨hnull⟩
  intro x y
  rw [alike_option_iff]
  cases x <;> cases y <;> simp [sameOption, hitem _ _]

/-! Pairs -/

theorem alike_pair_iff (x y : A × B) : (json x).Alike (json y) ↔
    (json x.1).Alike (json y.1) ∧ (json x.2).Alike (json y.2) := by
  change Json.Alike (.array [_, _]) (.array [_, _]) ↔ _
  simp

instance [Legible A] [Legible B] : Legible (A × B) where
  alike_iff x y := by
    rw [alike_pair_iff, alike_json_iff, alike_json_iff, Prod.ext_iff]

/-! Maps -/

/-- Keys that are told apart by the names of members. -/
class DistinctNames (K : Type) [MemberName K] : Prop where
  memberName_injective : Function.Injective (memberName : K → String)

instance : DistinctNames String := ⟨fun _ _ => id⟩

instance {kind : NameKind} : DistinctNames (Name kind) := ⟨Name.text_injective⟩

section

variable {C : Type}

theorem OrderedMap.same_singleton [DecidableEq K] (eq : C → C → Bool) (key : K) (x y : C) :
    (OrderedMap.ofList [(key, x)]).same eq (.ofList [(key, y)]) = eq x y := by
  have hwithin : (OrderedMap.ofList [(key, x)]).same eq (.ofList [(key, y)]) =
      Entries.within eq (.cons key List.not_mem_nil y .nil)
        (.cons key List.not_mem_nil x .nil) := rfl
  simp [hwithin, Entries.within, Entries.find?]

variable [MemberName K] [DistinctNames K]

theorem OrderedMap.nodup_memberNames (f : C → Json) (map : OrderedMap K C) :
    ((map.toList.map fun (key, value) => (memberName key, f value)).map Prod.fst).Nodup := by
  have hnames : (map.toList.map fun (key, value) => (memberName key, f value)).map Prod.fst =
      map.keys.map memberName := by
    rw [← map_fst_toList, List.map_map, List.map_map]
    rfl
  rw [hnames]
  exact (List.nodup_map_iff DistinctNames.memberName_injective).mpr map.nodup_keys

/-- Documents of maps are alike if the maps are equally large and hold alike values under the same
keys. -/
theorem alike_members_iff [DecidableEq K] (f : C → Json) (xs ys : OrderedMap K C) :
    Json.Alike (.object (xs.toList.map fun (key, value) => (memberName key, f value)))
        (.object (ys.toList.map fun (key, value) => (memberName key, f value))) ↔
      xs.size = ys.size ∧ ∀ entry ∈ xs.toList, ∃ y, ys.find? entry.1 = some y ∧
        (f entry.2).Alike (f y) := by
  have hlength : ∀ map : OrderedMap K C, map.toList.length = map.size := fun map => by
    rw [OrderedMap.size, ← map.map_fst_toList, List.length_map]
  rw [Json.alike_object_iff (xs.nodup_memberNames f) (ys.nodup_memberNames f), List.length_map,
    List.length_map, hlength, hlength, List.forall_mem_map]
  refine and_congr_right fun _ => forall₂_congr fun (key, value) _ => ?_
  constructor
  · rintro ⟨_, hother, hname, halike⟩
    obtain ⟨⟨other, y⟩, hmem, rfl⟩ := List.mem_map.mp hother
    cases DistinctNames.memberName_injective hname
    exact ⟨y, OrderedMap.find?_eq_some_iff.mpr hmem, halike⟩
  · rintro ⟨y, hfound, halike⟩
    exact ⟨_, List.mem_map_of_mem (OrderedMap.find?_eq_some_iff.mp hfound), rfl, halike⟩

end

theorem Faithful.map [DecidableEq K] [MemberName K] [DistinctNames K] (hitem : Faithful A eq) :
    Faithful (OrderedMap K A) (OrderedMap.same eq) := by
  intro xs ys
  refine (alike_members_iff json xs ys).trans ?_
  simp only [OrderedMap.same_iff, hitem _ _]

end SelectPlan
