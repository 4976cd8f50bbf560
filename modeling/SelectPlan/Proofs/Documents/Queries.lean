import SelectPlan.Proofs.Documents.Values
import SelectPlan.Query.Relationship
import SelectPlan.Selection.Stream

/-!
Documents of the parts of a query.  If the documents of the values are faithful to an equality of
values, then those of everything that holds values are faithful to the equality it makes.
-/

namespace SelectPlan

variable {b : Backend} {V : Type} [HasJson V] {eq : V → V → Bool}

/-! Predicates -/

theorem ColumnMapping.faithful : Faithful ColumnMapping ColumnMapping.same :=
  Legible.faithful.map

theorem RelationshipInfo.faithful : Faithful (RelationshipInfo b) RelationshipInfo.same := by
  rintro ⟨m, k, xs, s⟩ ⟨n, l, ys, t⟩
  simp +instances [instHasJson, same, ColumnMapping.faithful xs ys, and_assoc]

theorem Comparison.faithful (hV : Faithful V eq) :
    Faithful (Comparison V) (Comparison.same eq) := by
  intro x y
  cases x <;> cases y <;> simp +instances [instHasJson, same, hV _ _]

mutual

theorem Predicate.alike_toJson (hV : Faithful V eq) :
    ∀ x y : Predicate b V, x.toJson.Alike y.toJson ↔ x.same eq y = true
  | .all xs, y => by cases y <;> simp [toJson, same, alike_itemsToJson hV xs]
  | .any xs, y => by cases y <;> simp [toJson, same, alike_itemsToJson hV xs]
  | .not x, y => by cases y <;> simp [toJson, same, alike_toJson hV x]
  | .someRow s x, y => by cases y <;> simp [toJson, same, alike_toJson hV x]
  | .column c xs, y => by
      cases y <;> simp [toJson, same, (Comparison.faithful hV).list xs _]
  | .relationship r x z, y => by
      cases y <;> simp [toJson, same, RelationshipInfo.faithful r _, alike_toJson hV x,
        alike_toJson hV z, and_assoc]

theorem Predicate.alike_itemsToJson (hV : Faithful V eq) :
    ∀ xs ys : List (Predicate b V), Json.Alike (.array (itemsToJson xs))
      (.array (itemsToJson ys)) ↔ sameAll eq xs ys = true
  | [], ys => by cases ys <;> simp [itemsToJson, sameAll]
  | x :: xs, ys => by
      cases ys <;> simp [itemsToJson, sameAll, alike_toJson hV x, alike_itemsToJson hV xs]

end

theorem Predicate.itemsToJson_eq_map :
    ∀ items : List (Predicate b V), itemsToJson items = items.map json
  | [] => rfl
  | _ :: items => by rw [itemsToJson, itemsToJson_eq_map items]; rfl

theorem Predicate.faithful (hV : Faithful V eq) : Faithful (Predicate b V) (Predicate.same eq) :=
  alike_toJson hV

/-! Columns, calls and aggregates -/

theorem Redaction.faithful (hV : Faithful V eq) : Faithful (Redaction b V) (Redaction.same eq) := by
  intro x y
  cases x <;> cases y <;> simp +instances [instHasJson, same, Predicate.faithful hV _ _]

theorem ColumnField.faithful (hV : Faithful V eq) :
    Faithful (ColumnField b V) (ColumnField.same eq) := by
  rintro ⟨m, s, t, p, x⟩ ⟨n, s', t', q, y⟩
  simp +instances [instHasJson, same, Redaction.faithful hV x y, and_assoc]

theorem Argument.faithful (hV : Faithful V eq) : Faithful (Argument V) (Argument.same eq) := by
  intro x y
  cases x <;> cases y <;> simp +instances [instHasJson, same, hV _ _]

theorem Arguments.faithful (hV : Faithful V eq) : Faithful (Arguments V) (Arguments.same eq) := by
  rintro ⟨xs, ms⟩ ⟨ys, ns⟩
  simp +instances [instHasJson, same, (Argument.faithful hV).list xs ys,
    (Argument.faithful hV).map ms ns]

theorem ScalarCall.faithful (hV : Faithful V eq) :
    Faithful (ScalarCall b V) (ScalarCall.same eq) := by
  rintro ⟨f, xs, s, p, x⟩ ⟨g, ys, t, q, y⟩
  simp +instances [instHasJson, same, Arguments.faithful hV xs ys, Redaction.faithful hV x y,
    and_assoc]

theorem RedactedColumns.faithful (hV : Faithful V eq) :
    Faithful (RedactedColumns b V) (RedactedColumns.same eq) := by
  have hcolumn : Faithful (ColumnName × Redaction b V)
      fun x y => x.1 == y.1 && x.2.same eq y.2 := fun x y => by
    rw [alike_pair_iff, alike_json_iff, Redaction.faithful hV, Bool.and_eq_true, beq_iff_eq]
  exact hcolumn.list

theorem Count.faithful (hV : Faithful V eq) : Faithful (Count b V) (Count.same eq) := by
  intro x y
  cases x <;> cases y <;> simp +instances [instHasJson, same, RedactedColumns.faithful hV _ _]

theorem Operand.faithful (hV : Faithful V eq) : Faithful (Operand b V) (Operand.same eq) := by
  intro x y
  cases x <;> cases y <;>
    simp +instances [instHasJson, same, Arguments.faithful hV _ _, Redaction.faithful hV _ _,
      and_assoc]

theorem Aggregate.faithful (hV : Faithful V eq) :
    Faithful (Aggregate b V) (Aggregate.same eq) := by
  intro x y
  cases x <;> cases y <;>
    simp +instances [instHasJson, same, Count.faithful hV _ _, (Operand.faithful hV).map _ _]

/-! Orderings -/

theorem OrderAggregate.faithful (hV : Faithful V eq) :
    Faithful (OrderAggregate b V) (OrderAggregate.same eq) := by
  intro x y
  cases x <;> cases y <;>
    simp +instances [instHasJson, same, Redaction.faithful hV _ _, and_assoc]

theorem ComputedOrder.faithful (hV : Faithful V eq) :
    Faithful (ComputedOrder b V) (ComputedOrder.same eq) := by
  intro x y
  cases x <;> cases y <;>
    simp +instances [instHasJson, same, Redaction.faithful hV _ _, Predicate.faithful hV _ _,
      OrderAggregate.faithful hV _ _, and_assoc]

theorem OrderTerm.faithful (hV : Faithful V eq) :
    Faithful (OrderTerm b V) (OrderTerm.same eq) := by
  intro x y
  change x.toJson.Alike y.toJson ↔ _
  induction x generalizing y with
  | column c x => cases y <;> simp [toJson, same, Redaction.faithful hV x _]
  | objectRelation r p x ih =>
      cases y <;> simp [toJson, same, RelationshipInfo.faithful r _, Predicate.faithful hV p _, ih,
        and_assoc]
  | arrayAggregate r p x =>
      cases y <;> simp [toJson, same, RelationshipInfo.faithful r _, Predicate.faithful hV p _,
        OrderAggregate.faithful hV x _, and_assoc]
  | computedField enabled m f xs x =>
      cases y <;> simp [toJson, same, Arguments.faithful hV xs _, ComputedOrder.faithful hV x _,
        and_assoc]

theorem OrderItem.faithful (hV : Faithful V eq) :
    Faithful (OrderItem b V) (OrderItem.same eq) := by
  rintro ⟨x, d, m⟩ ⟨y, e, n⟩
  simp +instances [instHasJson, same, OrderTerm.faithful hV x y, and_assoc]

/-! Sources, arguments and pages -/

theorem Source.faithful (hV : Faithful V eq) : Faithful (Source b V) (Source.same eq) := by
  intro x y
  cases x <;> cases y <;>
    simp +instances [instHasJson, same, Arguments.faithful hV _ _, hV.map _ _, and_assoc]

theorem RowPermission.faithful (hV : Faithful V eq) :
    Faithful (RowPermission b V) (RowPermission.same eq) := by
  rintro ⟨p, m⟩ ⟨q, n⟩
  simp +instances [instHasJson, same, Predicate.faithful hV p q]

theorem Predicate.json_ne_null (x : Predicate b V) : json x ≠ .null := by
  cases x <;> exact nofun

theorem SelectArgs.faithful (hV : Faithful V eq) :
    Faithful (SelectArgs b V) (SelectArgs.same eq) := by
  rintro ⟨p, o, k, l, d⟩ ⟨q, o', k', l', d'⟩
  simp +instances [instHasJson, same,
    (Predicate.faithful hV).option Predicate.json_ne_null p q,
    (OrderItem.faithful hV).nonEmpty.option NeverNull.json_ne_null o o', and_assoc]

/-- A select is written as its fields and its query. -/
theorem Query.alike_select (hV : Faithful V eq) (x y : Query b V) (fields others : Json) :
    Json.Alike (.object (("fields", fields) :: x.members))
        (.object (("fields", others) :: y.members)) ↔
      fields.Alike others ∧ x.same eq y = true := by
  obtain ⟨s, p, a, r, n⟩ := x
  obtain ⟨t, q, c, r', n'⟩ := y
  simp [members, same, Source.faithful hV s t, RowPermission.faithful hV p q,
    SelectArgs.faithful hV a c, and_assoc]

/-- The order of a bound holds no values, so that there is nothing to tell apart in it. -/
theorem PageBound.faithful (hV : Faithful V eq) :
    Faithful (PageBound b V) (PageBound.same eq) := by
  have hunit : Faithful Unit fun _ _ => true := fun _ _ => iff_of_true rfl rfl
  rintro ⟨k, x, o⟩ ⟨l, y, o'⟩
  simp +instances [instHasJson, same, hV x y, OrderItem.faithful hunit o o', and_assoc]

theorem PageBound.faithful_optional (hV : Faithful V eq) :
    Faithful (Option (NonEmpty (PageBound b V))) (sameOption (NonEmpty.same (PageBound.same eq))) :=
  (PageBound.faithful hV).nonEmpty.option NeverNull.json_ne_null

theorem Page.alike_members (hV : Faithful V eq) (x y : Page b V) :
    Json.Alike (.object x.members) (.object y.members) ↔ x.same eq y = true := by
  obtain ⟨k, m, s⟩ := x
  obtain ⟨l, n, t⟩ := y
  simp [members, same, PageBound.faithful_optional hV m n, and_assoc]

/-- A connection is written as its page and its select. -/
theorem Page.alike_connection (hV : Faithful V eq) (x y : Page b V) (select other : Json) :
    Json.Alike (.object (x.members ++ [("select", select)]))
        (.object (y.members ++ [("select", other)])) ↔
      x.same eq y = true ∧ select.Alike other := by
  obtain ⟨k, m, s⟩ := x
  obtain ⟨l, n, t⟩ := y
  simp [members, same, PageBound.faithful_optional hV m n, and_assoc]

theorem StreamCursor.faithful (hV : Faithful V eq) :
    Faithful (StreamCursor b V) (StreamCursor.same eq) := by
  rintro ⟨d, c, x⟩ ⟨e, c', y⟩
  simp +instances [instHasJson, same, hV x y, and_assoc]

theorem StreamArgs.faithful (hV : Faithful V eq) :
    Faithful (StreamArgs b V) (StreamArgs.same eq) := by
  rintro ⟨p, k, c⟩ ⟨q, l, c'⟩
  simp +instances [instHasJson, same,
    (Predicate.faithful hV).option Predicate.json_ne_null p q, StreamCursor.faithful hV c c',
    and_assoc]

/-! Relationships -/

theorem Relationship.alike_wrap (r s : Relationship) (x y : Json) :
    (r.wrap x).Alike (s.wrap y) ↔ r.same s = true ∧ x.Alike y := by
  obtain ⟨m, xs, p⟩ := r
  obtain ⟨n, ys, q⟩ := s
  simp [wrap, same, ColumnMapping.faithful xs ys, and_assoc]

theorem RemoteRelationship.faithful {R : Type} [HasJson R] {eqR : R → R → Bool}
    (hR : Faithful R eqR) : Faithful (RemoteRelationship b R) (RemoteRelationship.same eqR) := by
  rintro ⟨xs, s⟩ ⟨ys, t⟩
  simp +instances [instHasJson, same, Legible.faithful.map xs ys, hR s t]

end SelectPlan
