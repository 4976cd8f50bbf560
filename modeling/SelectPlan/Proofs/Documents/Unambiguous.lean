import SelectPlan.Proofs.Documents.Queries

/-!
Documents that determine values.  Where the order of the entries of a map counts, no two values of a
query have the same document.
-/

namespace SelectPlan

/-- Types whose values have documents of their own. -/
class Unambiguous (A : Type) [HasJson A] : Prop where
  json_eq_iff (x y : A) : json x = json y ↔ x = y

variable {A B K : Type} [HasJson A] [HasJson B]

@[simp]
theorem json_eq_iff [Unambiguous A] (x y : A) : json x = json y ↔ x = y :=
  Unambiguous.json_eq_iff x y

/-- Documents that hold different data are different. -/
instance (priority := low) [Legible A] : Unambiguous A where
  json_eq_iff x y := ⟨fun heq => (alike_json_iff x y).mp (heq ▸ Json.alike_refl _), congrArg json⟩

@[simp]
theorem Json.tagged_inj_iff {tag other : String} {payload document : Json} :
    Json.tagged tag payload = .tagged other document ↔ tag = other ∧ payload = document := by
  simp [tagged]

@[simp]
theorem Json.string_ne_tagged {text tag : String} {payload : Json} :
    Json.string text ≠ .tagged tag payload :=
  nofun

@[simp]
theorem Json.tagged_ne_string {text tag : String} {payload : Json} :
    Json.tagged tag payload ≠ .string text :=
  nofun

/-! Containers -/

instance [Unambiguous A] : Unambiguous (List A) where
  json_eq_iff xs ys := by
    change Json.array _ = .array _ ↔ _
    rw [Json.array.injEq]
    exact (List.map_injective_iff.mpr fun x y => (json_eq_iff x y).mp).eq_iff

instance [Unambiguous A] : Unambiguous (NonEmpty A) where
  json_eq_iff := by
    rintro ⟨x, xs⟩ ⟨y, ys⟩
    simp +instances [NonEmpty.instHasJson]

instance [Unambiguous A] [NeverNull A] : Unambiguous (Option A) where
  json_eq_iff
    | none, none => iff_of_true rfl rfl
    | none, some y => iff_of_false (NeverNull.json_ne_null y).symm nofun
    | some x, none => iff_of_false (NeverNull.json_ne_null x) nofun
    | some x, some y => (json_eq_iff x y).trans Option.some_inj.symm

instance [Unambiguous A] [Unambiguous B] : Unambiguous (A × B) where
  json_eq_iff := by
    rintro ⟨x, m⟩ ⟨y, n⟩
    change Json.array [_, _] = .array [_, _] ↔ _
    simp

/-- Maps that are written entry by entry are told apart if their values are. -/
theorem OrderedMap.members_injective [MemberName K] [DistinctNames K] {C : Type} {f : C → Json}
    {xs ys : OrderedMap K C} (hf : ∀ entry ∈ xs.toList, ∀ y, f entry.2 = f y → entry.2 = y)
    (heq : xs.toList.map (fun (key, value) => (memberName key, f value)) =
      ys.toList.map fun (key, value) => (memberName key, f value)) : xs = ys := by
  apply toList_injective
  generalize xs.toList = entries at hf heq ⊢
  generalize ys.toList = others at heq ⊢
  induction entries generalizing others with
  | nil => exact (List.map_eq_nil_iff.mp heq.symm).symm
  | cons entry entries ih =>
      cases others with
      | nil => cases heq
      | cons other others =>
          obtain ⟨hentry, hrest⟩ := List.cons.inj heq
          obtain ⟨hname, hvalue⟩ := Prod.mk.inj hentry
          obtain ⟨hfirst, hf⟩ := List.forall_mem_cons.mp hf
          rw [ih hf others hrest]
          congr 1
          exact Prod.ext (DistinctNames.memberName_injective hname) (hfirst _ hvalue)

instance [MemberName K] [DistinctNames K] [Unambiguous A] : Unambiguous (OrderedMap K A) where
  json_eq_iff xs ys := by
    refine ⟨fun heq => ?_, congrArg json⟩
    exact OrderedMap.members_injective (fun _ _ y => (json_eq_iff _ y).mp) (Json.object.inj heq)

/-! Predicates -/

variable {b : Backend} {V : Type} [HasJson V]

instance : Unambiguous (RelationshipInfo b) where
  json_eq_iff := by
    rintro ⟨m, k, xs, s⟩ ⟨n, l, ys, t⟩
    simp +instances [RelationshipInfo.instHasJson]

instance [Unambiguous V] : Unambiguous (Comparison V) where
  json_eq_iff x y := by
    cases x <;> cases y <;> simp +instances [Comparison.instHasJson]

mutual

theorem Predicate.toJson_eq_iff [Unambiguous V] : ∀ x y : Predicate b V, x.toJson = y.toJson ↔ x = y
  | .all xs, y => by cases y <;> simp [toJson, itemsToJson_eq_iff xs]
  | .any xs, y => by cases y <;> simp [toJson, itemsToJson_eq_iff xs]
  | .not x, y => by cases y <;> simp [toJson, toJson_eq_iff x]
  | .someRow s x, y => by cases y <;> simp [toJson, toJson_eq_iff x]
  | .column c xs, y => by cases y <;> simp [toJson]
  | .relationship r x z, y => by cases y <;> simp [toJson, toJson_eq_iff x, toJson_eq_iff z]

theorem Predicate.itemsToJson_eq_iff [Unambiguous V] :
    ∀ xs ys : List (Predicate b V), itemsToJson xs = itemsToJson ys ↔ xs = ys
  | [], ys => by cases ys <;> simp [itemsToJson]
  | x :: xs, ys => by cases ys <;> simp [itemsToJson, toJson_eq_iff x, itemsToJson_eq_iff xs]

end

variable [Unambiguous V]

instance : Unambiguous (Predicate b V) := ⟨Predicate.toJson_eq_iff⟩

instance : NeverNull (Predicate b V) := ⟨Predicate.json_ne_null⟩

/-! Columns, calls and aggregates -/

instance : Unambiguous (Redaction b V) where
  json_eq_iff x y := by
    cases x <;> cases y <;> simp +instances [Redaction.instHasJson]

instance : Unambiguous (ColumnField b V) where
  json_eq_iff := by
    rintro ⟨m, s, t, p, x⟩ ⟨n, s', t', q, y⟩
    simp +instances [ColumnField.instHasJson]

instance : Unambiguous (Argument V) where
  json_eq_iff x y := by
    cases x <;> cases y <;> simp +instances [Argument.instHasJson]

instance : Unambiguous (Arguments V) where
  json_eq_iff := by
    rintro ⟨xs, ms⟩ ⟨ys, ns⟩
    simp +instances [Arguments.instHasJson]

instance : Unambiguous (ScalarCall b V) where
  json_eq_iff := by
    rintro ⟨f, xs, s, p, x⟩ ⟨g, ys, t, q, y⟩
    simp +instances [ScalarCall.instHasJson]

instance : Unambiguous (Count b V) where
  json_eq_iff x y := by
    cases x <;> cases y <;> simp +instances [Count.instHasJson]

instance : Unambiguous (Operand b V) where
  json_eq_iff x y := by
    cases x <;> cases y <;> simp +instances [Operand.instHasJson]

instance : Unambiguous (Aggregate b V) where
  json_eq_iff x y := by
    cases x <;> cases y <;> simp +instances [Aggregate.instHasJson]

/-! Orderings -/

instance : Unambiguous (OrderAggregate b V) where
  json_eq_iff x y := by
    cases x <;> cases y <;> simp +instances [OrderAggregate.instHasJson]

instance : Unambiguous (ComputedOrder b V) where
  json_eq_iff x y := by
    cases x <;> cases y <;> simp +instances [ComputedOrder.instHasJson]

instance : Unambiguous (OrderTerm b V) where
  json_eq_iff x y := by
    change x.toJson = y.toJson ↔ _
    induction x generalizing y with
    | column c x => cases y <;> simp [OrderTerm.toJson]
    | objectRelation r p x ih => cases y <;> simp [OrderTerm.toJson, ih]
    | arrayAggregate r p x => cases y <;> simp [OrderTerm.toJson]
    | computedField enabled m f xs x => cases y <;> simp [OrderTerm.toJson]

instance : Unambiguous (OrderItem b V) where
  json_eq_iff := by
    rintro ⟨x, d, m⟩ ⟨y, e, n⟩
    simp +instances [OrderItem.instHasJson]

/-! Sources, arguments and pages -/

instance : Unambiguous (Source b V) where
  json_eq_iff x y := by
    cases x <;> cases y <;> simp +instances [Source.instHasJson]

instance : Unambiguous (RowPermission b V) where
  json_eq_iff := by
    rintro ⟨p, m⟩ ⟨q, n⟩
    simp +instances [RowPermission.instHasJson]

instance : Unambiguous (SelectArgs b V) where
  json_eq_iff := by
    rintro ⟨p, o, k, l, d⟩ ⟨q, o', k', l', d'⟩
    simp +instances [SelectArgs.instHasJson]

@[simp]
theorem Query.members_eq_iff (x y : Query b V) : x.members = y.members ↔ x = y := by
  obtain ⟨s, p, a, r, n⟩ := x
  obtain ⟨t, q, c, r', n'⟩ := y
  simp [members]

instance : Unambiguous Unit := ⟨fun _ _ => iff_of_true rfl rfl⟩

instance : Unambiguous (PageBound b V) where
  json_eq_iff := by
    rintro ⟨k, x, o⟩ ⟨l, y, o'⟩
    simp +instances [PageBound.instHasJson]

@[simp]
theorem Page.members_eq_iff (x y : Page b V) : x.members = y.members ↔ x = y := by
  obtain ⟨k, m, s⟩ := x
  obtain ⟨l, n, t⟩ := y
  simp [members]

instance : Unambiguous (StreamCursor b V) where
  json_eq_iff := by
    rintro ⟨d, c, x⟩ ⟨e, c', y⟩
    simp +instances [StreamCursor.instHasJson]

instance : Unambiguous (StreamArgs b V) where
  json_eq_iff := by
    rintro ⟨p, k, c⟩ ⟨q, l, c'⟩
    simp +instances [StreamArgs.instHasJson]

/-! Relationships -/

@[simp]
theorem Relationship.wrap_eq_iff (r s : Relationship) (x y : Json) :
    r.wrap x = s.wrap y ↔ r = s ∧ x = y := by
  obtain ⟨m, xs, p⟩ := r
  obtain ⟨n, ys, q⟩ := s
  simp [wrap, and_assoc]

instance {R : Type} [HasJson R] [Unambiguous R] : Unambiguous (RemoteRelationship b R) where
  json_eq_iff := by
    rintro ⟨xs, s⟩ ⟨ys, t⟩
    simp +instances [RemoteRelationship.instHasJson]

end SelectPlan
