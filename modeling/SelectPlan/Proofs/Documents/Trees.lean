import SelectPlan.Proofs.Documents.Queries
import SelectPlan.Selection.Kind

/-!
Documents of selections, and of what holds selections.  Several fields are written as one object,
and objects are compared by the names of their members, as equality compares fields.
-/

namespace SelectPlan

namespace Selection

variable {b : Backend} {R V : Type} [HasJson R] [HasJson V] {eqR : R → R → Bool}
  {eqV : V → V → Bool}

/-- Whether the document of a part is alike to that of its counterpart.  Several fields are held
against what is found under their names. -/
def Resembles : {part : Part} → Selection b R V part → Counterpart b R V part → Prop
  | .fields _ _, x, find => ∀ entry ∈ x.toMap.toList, ∃ y, find entry.1 = some y ∧
      entry.2.toJson.Alike y.toJson
  | .field _, x, y => x.toJson.Alike (toJson y)
  | .select _, x, y => x.toJson.Alike (toJson y)
  | .object, x, y => x.toJson.Alike (toJson y)
  | .array, x, y => x.toJson.Alike (toJson y)
  | .connection, x, y => x.toJson.Alike (toJson y)
  | .computed, x, y => x.toJson.Alike (toJson y)

/-- Several fields are written as their map is. -/
theorem toJson_fields {vocabulary : Vocabulary} : {names : List FieldName} →
    (fields : Selection b R V (.fields vocabulary names)) →
    fields.toJson =
      .object (fields.toMap.toList.map fun (name, field) => (memberName name, field.toJson))
  | _, nil => rfl
  | _, cons _ _ _ rest => by
      rw [toJson, toJson_fields rest]
      rfl

theorem alike_fields_iff {vocabulary : Vocabulary} {names others : List FieldName}
    (x : Selection b R V (.fields vocabulary names))
    (y : Selection b R V (.fields vocabulary others)) :
    x.toJson.Alike y.toJson ↔ x.size = y.size ∧ x.Resembles y.find? := by
  rw [toJson_fields, toJson_fields]
  exact alike_members_iff toJson x.toMap y.toMap

theorem alike_fields_iff_agrees {vocabulary : Vocabulary} {names others : List FieldName}
    {x : Selection b R V (.fields vocabulary names)}
    (hx : ∀ find, x.Resembles find ↔ x.agrees eqR eqV find = true)
    (y : Selection b R V (.fields vocabulary others)) :
    x.toJson.Alike y.toJson ↔ x.size = y.size ∧ x.agrees eqR eqV y.find? = true :=
  (alike_fields_iff x y).trans (and_congr_right fun _ => hx y.find?)

/-- The documents of a part and of its counterpart are alike exactly if the two are equal. -/
theorem resembles_iff_agrees (hR : Faithful R eqR) (hV : Faithful V eqV) {part : Part}
    (x : Selection b R V part) (y : Counterpart b R V part) :
    x.Resembles y ↔ x.agrees eqR eqV y = true := by
  -- a counterpart is a part itself unless it stands for several fields, so `ih` is told its type
  induction x with
  | column x =>
      cases y <;> simp [Resembles, agrees, toJson, ColumnField.faithful hV x _]
  | objectRelation r x ih =>
      have ih (y : Selection b R V .object) : x.toJson.Alike y.toJson ↔ _ := ih y
      cases y <;> simp [Resembles, agrees, toJson, Relationship.alike_wrap, ih]
  | arrayRelation x ih =>
      have ih (y : Selection b R V .array) : x.toJson.Alike y.toJson ↔ _ := ih y
      cases y <;> simp [Resembles, agrees, toJson, ih]
  | computedField enabled name x ih =>
      have ih (y : Selection b R V .computed) : x.toJson.Alike y.toJson ↔ _ := ih y
      cases y <;> simp [Resembles, agrees, toJson, ih]
  | remote x =>
      cases y <;> simp [Resembles, agrees, toJson, RemoteRelationship.faithful hR x _]
  | nodeId | constant | aggregateConstant | connectionTypeName | edgeTypeName | cursor =>
      cases y <;> simp [Resembles, agrees, toJson]
  | aggregates xs =>
      cases y <;> simp [Resembles, agrees, toJson, (Aggregate.faithful hV).map xs _]
  | pageInfo xs =>
      cases y <;> simp [Resembles, agrees, toJson, Legible.faithful.map xs _]
  | nodes enabled xs ih | edges xs ih | node xs ih =>
      cases y <;> simp [Resembles, agrees, toJson, alike_fields_iff_agrees ih]
  | nil => exact iff_of_true (List.forall_mem_nil _) rfl
  | cons name fresh x rest ih ihrest =>
      have ih (y : Selection b R V (.field _)) : x.toJson.Alike y.toJson ↔ _ := ih y
      change (∀ entry ∈ (name, x) :: rest.toMap.toList, _) ↔ _
      rw [List.forall_mem_cons, agrees, Bool.and_eq_true]
      refine and_congr ?_ (ihrest y)
      cases y name with
      | none => simp
      | some found => simpa using ih found
  | select xs query ih =>
      cases y
      simp [Resembles, agrees, toJson, alike_fields_iff_agrees ih, Query.alike_select hV query _]
  | object xs target filter ih =>
      cases y
      simp [Resembles, agrees, toJson, alike_fields_iff_agrees ih, Source.faithful hV target _,
        Predicate.faithful hV filter _, and_assoc]
  | simple r x ih | aggregate r x ih =>
      have ih (y : Selection b R V (.select _)) : x.toJson.Alike y.toJson ↔ _ := ih y
      cases y <;> simp [Resembles, agrees, toJson, Relationship.alike_wrap, ih]
  | connection r x ih =>
      have ih (y : Selection b R V .connection) : x.toJson.Alike y.toJson ↔ _ := ih y
      cases y <;> simp [Resembles, agrees, toJson, Relationship.alike_wrap, ih]
  | page enabled window x ih =>
      have ih (y : Selection b R V (.select _)) : x.toJson.Alike y.toJson ↔ _ := ih y
      cases y
      simp [Resembles, agrees, toJson, Page.alike_connection hV window _, ih]
  | scalar call =>
      cases y <;> simp [Resembles, agrees, toJson, ScalarCall.faithful hV call _]
  | table shape x ih =>
      have ih (y : Selection b R V (.select _)) : x.toJson.Alike y.toJson ↔ _ := ih y
      cases y <;> simp [Resembles, agrees, toJson, ih]

theorem alike_fields_iff_size (hR : Faithful R eqR) (hV : Faithful V eqV)
    {vocabulary : Vocabulary} {names others : List FieldName}
    (x : Selection b R V (.fields vocabulary names))
    (y : Selection b R V (.fields vocabulary others)) :
    x.toJson.Alike y.toJson ↔ x.size = y.size ∧ x.agrees eqR eqV y.find? = true :=
  alike_fields_iff_agrees (resembles_iff_agrees hR hV x) y

theorem faithful (hR : Faithful R eqR) (hV : Faithful V eqV) {part : Part} :
    Faithful (Selection b R V part) (same eqR eqV) := by
  intro x y
  cases part with
  | fields vocabulary names =>
      exact (alike_fields_iff_size hR hV x y).trans (and_iff_right rfl)
  | _ => exact resembles_iff_agrees hR hV x y

end Selection

section

variable {b : Backend} {R V : Type} [HasJson R] [HasJson V] {eqR : R → R → Bool}
  {eqV : V → V → Bool}

theorem Stream.faithful (hR : Faithful R eqR) (hV : Faithful V eqV) :
    Faithful (Stream b R V) (Stream.same eqR eqV) := by
  rintro ⟨_, xs, s, p, a, m⟩ ⟨_, ys, t, q, c, n⟩
  have hfields : (json xs).Alike (json ys) ↔ _ := Selection.alike_fields_iff_size hR hV xs ys
  simp +instances [instHasJson, same, hfields, Source.faithful hV s t,
    RowPermission.faithful hV p q, StreamArgs.faithful hV a c, and_assoc]

theorem SelectFrame.faithful (hR : Faithful R eqR) (hV : Faithful V eqV) :
    Faithful (SelectFrame b R V) (SelectFrame.same eqR eqV) := by
  rintro ⟨xs, p⟩ ⟨ys, q⟩
  simp +instances [instHasJson, same, Query.alike_select hV p q, hR.map xs ys]

theorem RelationFrame.faithful (hR : Faithful R eqR) :
    Faithful (RelationFrame R) (RelationFrame.same eqR) := by
  rintro ⟨r, x⟩ ⟨s, y⟩
  simp +instances [instHasJson, same, Relationship.alike_wrap, hR x y]

theorem OrderFrame.faithful (hR : Faithful R eqR) :
    Faithful (OrderFrame R) (OrderFrame.same eqR) := by
  rintro ⟨x, d, m⟩ ⟨y, e, n⟩
  simp +instances [instHasJson, same, hR x y, and_assoc]

/-! Remote targets -/

theorem RemoteSchemaCall.faithful : Faithful RemoteSchemaCall RemoteSchemaCall.same := by
  rintro ⟨m, p, xs, s⟩ ⟨n, q, ys, t⟩
  simp +instances [instHasJson, same, Legible.faithful.map xs ys, and_assoc]

theorem SourceSelection.faithful (hR : Faithful R eqR) (hV : Faithful V eqV) :
    Faithful (SourceSelection b R V) (SourceSelection.same eqR eqV) := by
  intro x y
  cases x <;> cases y <;>
    simp +instances [instHasJson, same, Selection.faithful hR hV _ _, Selection.same]

theorem SourceSelect.faithful (hR : Faithful R eqR) (hV : Faithful V eqV) :
    Faithful (SourceSelect b R V) (SourceSelect.same eqR eqV) := by
  rintro ⟨m, c, x, xs, p⟩ ⟨n, d, y, ys, q⟩
  simp +instances [instHasJson, same, SourceSelection.faithful hR hV x y,
    Legible.faithful.map xs ys, and_assoc]

end

end SelectPlan
