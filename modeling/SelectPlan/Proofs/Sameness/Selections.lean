import SelectPlan.Proofs.Sameness.Queries
import SelectPlan.Selection.Leaves
import SelectPlan.Selection.Same
import SelectPlan.Selection.Traverse

/-!
Equality of selections.  Fields are compared by their names, whatever their order, so two equal
selections have no list of fields in common that a proof could follow.  Equality is therefore
described by a relation first, which says form by form when two parts are alike and speaks of the
fields under each name; the laws are then proved by induction on it.
-/

namespace SelectPlan

variable {b : Backend} {R S V W : Type} {eqR : R → R → Bool} {eqV : V → V → Bool}

theorem Relationship.equating : Equating Relationship.same :=
  ((Equating.beq.on name).and (ColumnMapping.equating.on mapping)).and (Equating.beq.on nullable)

theorem RemoteRelationship.equating (heqR : Equating eqR) :
    Equating (RemoteRelationship.same (b := b) eqR) :=
  (Equating.beq.map.on joinFields).and (heqR.on target)

namespace Selection

variable {vocabulary : Vocabulary} {names others : List FieldName}

theorem find?_cons (first name : FieldName) (fresh : first ∉ names)
    (field : Selection b R V (.field vocabulary))
    (rest : Selection b R V (.fields vocabulary names)) :
    (cons first fresh field rest).find? name =
      if first = name then some field else rest.find? name :=
  rfl

/-- Several fields agree with what is found under their names if each of them does. -/
theorem agrees_fields_iff {xs : Selection b R V (.fields vocabulary names)}
    {find : FieldName → Option (Selection b R V (.field vocabulary))} :
    xs.agrees eqR eqV find = true ↔
      ∀ entry ∈ xs.toMap.toList, ∃ y, find entry.1 = some y ∧ entry.2.same eqR eqV y = true := by
  obtain ⟨entries, rfl⟩ : ∃ entries, xs = ofEntries entries := ⟨_, (ofEntries_toEntries xs).symm⟩
  rw [toMap, toEntries_ofEntries]
  induction entries with
  | nil => exact iff_of_true rfl (List.forall_mem_nil _)
  | cons name fresh x rest ih =>
      change (_ && _) = true ↔ ∀ entry ∈ (name, x) :: rest.toList, _
      rw [Bool.and_eq_true, List.forall_mem_cons]
      refine and_congr ?_ ih
      cases find name with
      | none => simp
      | some y => simp [same]

/-- Fields are compared as the entries of maps are. -/
theorem fields_same_eq (xs : Selection b R V (.fields vocabulary names))
    (ys : Selection b R V (.fields vocabulary others)) :
    (xs.size == ys.size && xs.agrees eqR eqV ys.find?) =
      xs.toMap.same (same eqR eqV) ys.toMap := by
  rw [Bool.eq_iff_iff, OrderedMap.same_iff]
  exact (Bool.and_eq_true_iff.trans (and_congr_left' beq_iff_eq)).trans
    (and_congr_right' agrees_fields_iff)

theorem fields_same_iff {xs : Selection b R V (.fields vocabulary names)}
    {ys : Selection b R V (.fields vocabulary others)} :
    (xs.size == ys.size && xs.agrees eqR eqV ys.find?) = true ↔
      names.Perm others ∧ ∀ name x y, xs.find? name = some x → ys.find? name = some y →
        x.same eqR eqV y = true := by
  rw [fields_same_eq, OrderedMap.same_iff_keys]
  rfl

/-- Two parts of a selection are alike: they have one form, and their fields, under the same names
in some order, are alike name by name. -/
inductive Alike (eqR : R → R → Bool) (eqV : V → V → Bool) :
    {part : Part} → Selection b R V part → Selection b R V part → Prop
  | column {x y} (field : x.same eqV y = true) : Alike eqR eqV (.column x) (.column y)
  | objectRelation {r s x y} (relationship : r.same s = true) (select : Alike eqR eqV x y) :
      Alike eqR eqV (.objectRelation r x) (.objectRelation s y)
  | arrayRelation {x y} (select : Alike eqR eqV x y) :
      Alike eqR eqV (.arrayRelation x) (.arrayRelation y)
  | computedField {enabled name x y} (select : Alike eqR eqV x y) :
      Alike eqR eqV (.computedField enabled name x) (.computedField enabled name y)
  | remote {x y} (relationship : x.same eqR y = true) : Alike eqR eqV (.remote x) (.remote y)
  | nodeId {enabled table primaryKey} :
      Alike eqR eqV (.nodeId enabled table primaryKey) (.nodeId enabled table primaryKey)
  | constant {text} : Alike eqR eqV (.constant text) (.constant text)
  | aggregates {xs ys} (aggregates : xs.same (Aggregate.same eqV) ys = true) :
      Alike eqR eqV (.aggregates xs) (.aggregates ys)
  | nodes {enabled} {names others : List FieldName} {xs : Selection b R V (.fields .row names)}
      {ys : Selection b R V (.fields .row others)} (keys : names.Perm others)
      (fields : ∀ name x y, xs.find? name = some x → ys.find? name = some y → Alike eqR eqV x y) :
      Alike eqR eqV (.nodes enabled xs) (.nodes enabled ys)
  | aggregateConstant {text} : Alike eqR eqV (.aggregateConstant text) (.aggregateConstant text)
  | connectionTypeName {text} : Alike eqR eqV (.connectionTypeName text) (.connectionTypeName text)
  | pageInfo {xs ys} (info : xs.same (· == ·) ys = true) :
      Alike eqR eqV (.pageInfo xs) (.pageInfo ys)
  | edges {names others : List FieldName} {xs : Selection b R V (.fields .edge names)}
      {ys : Selection b R V (.fields .edge others)} (keys : names.Perm others)
      (fields : ∀ name x y, xs.find? name = some x → ys.find? name = some y → Alike eqR eqV x y) :
      Alike eqR eqV (.edges xs) (.edges ys)
  | edgeTypeName {text} : Alike eqR eqV (.edgeTypeName text) (.edgeTypeName text)
  | cursor : Alike eqR eqV .cursor .cursor
  | node {names others : List FieldName} {xs : Selection b R V (.fields .row names)}
      {ys : Selection b R V (.fields .row others)} (keys : names.Perm others)
      (fields : ∀ name x y, xs.find? name = some x → ys.find? name = some y → Alike eqR eqV x y) :
      Alike eqR eqV (.node xs) (.node ys)
  | fields {vocabulary : Vocabulary} {names : List FieldName}
      {xs ys : Selection b R V (.fields vocabulary names)}
      (fields : ∀ name x y, xs.find? name = some x → ys.find? name = some y → Alike eqR eqV x y) :
      Alike eqR eqV xs ys
  | select {vocabulary : Vocabulary} {names others : List FieldName}
      {xs : Selection b R V (.fields vocabulary names)}
      {ys : Selection b R V (.fields vocabulary others)} {p q} (keys : names.Perm others)
      (fields : ∀ name x y, xs.find? name = some x → ys.find? name = some y → Alike eqR eqV x y)
      (query : p.same eqV q = true) : Alike eqR eqV (.select xs p) (.select ys q)
  | object {names others : List FieldName} {xs : Selection b R V (.fields .row names)}
      {ys : Selection b R V (.fields .row others)} {s t p q} (keys : names.Perm others)
      (fields : ∀ name x y, xs.find? name = some x → ys.find? name = some y → Alike eqR eqV x y)
      (target : s.same eqV t = true) (filter : p.same eqV q = true) :
      Alike eqR eqV (.object xs s p) (.object ys t q)
  | simple {r s x y} (relationship : r.same s = true) (select : Alike eqR eqV x y) :
      Alike eqR eqV (.simple r x) (.simple s y)
  | aggregate {r s x y} (relationship : r.same s = true) (select : Alike eqR eqV x y) :
      Alike eqR eqV (.aggregate r x) (.aggregate s y)
  | connection {r s x y} (relationship : r.same s = true) (select : Alike eqR eqV x y) :
      Alike eqR eqV (.connection r x) (.connection s y)
  | page {enabled p q x y} (page : p.same eqV q = true) (select : Alike eqR eqV x y) :
      Alike eqR eqV (.page enabled p x) (.page enabled q y)
  | scalar {x y} (call : x.same eqV y = true) : Alike eqR eqV (.scalar x) (.scalar y)
  | table {shape x y} (select : Alike eqR eqV x y) :
      Alike eqR eqV (.table shape x) (.table shape y)

-- the equations of the comparison are worked out once, ahead of the proofs that rewrite with them
attribute [local simp] agrees

theorem same_of_alike {part : Part} {x y : Selection b R V part} (halike : Alike eqR eqV x y) :
    x.same eqR eqV y = true := by
  induction halike with
  | nodes keys _ ih | edges keys _ ih | node keys _ ih =>
      rw [same, agrees]
      exact fields_same_iff.mpr ⟨keys, ih⟩
  | fields _ ih => exact (Bool.and_eq_true_iff.mp (fields_same_iff.mpr ⟨.rfl, ih⟩)).2
  | select keys _ query ih =>
      rw [same, agrees, query, Bool.and_true]
      exact fields_same_iff.mpr ⟨keys, ih⟩
  | object keys _ target filter ih =>
      rw [same, agrees, target, filter, Bool.and_true, Bool.and_true]
      exact fields_same_iff.mpr ⟨keys, ih⟩
  | _ => simp_all only [same, agrees, beq_self_eq_true, Bool.and_self]

/-- What a counterpart must be for a part to be alike to it.  Each of several fields is held
against what is found under its name. -/
def AlikeTo (eqR : R → R → Bool) (eqV : V → V → Bool) :
    {part : Part} → Selection b R V part → Counterpart b R V part → Prop
  | .fields _ _, x, find => ∀ entry ∈ x.toMap.toList, ∃ y, find entry.1 = some y ∧
      entry.2.Alike eqR eqV y
  | .field _, x, y => x.Alike eqR eqV y
  | .select _, x, y => x.Alike eqR eqV y
  | .object, x, y => x.Alike eqR eqV y
  | .array, x, y => x.Alike eqR eqV y
  | .connection, x, y => x.Alike eqR eqV y
  | .computed, x, y => x.Alike eqR eqV y

/-- Fields that are alike to what is found among as many others have the names of those and are
alike to them name by name. -/
theorem alike_fields {xs : Selection b R V (.fields vocabulary names)}
    {ys : Selection b R V (.fields vocabulary others)}
    (halike : xs.agrees eqR eqV ys.find? = true → xs.AlikeTo eqR eqV ys.find?)
    (hsame : (xs.size == ys.size && xs.agrees eqR eqV ys.find?) = true) :
    names.Perm others ∧ ∀ name x y, xs.find? name = some x → ys.find? name = some y →
      x.Alike eqR eqV y := by
  refine ⟨(fields_same_iff.mp hsame).1, fun name x y hx hy => ?_⟩
  rw [Bool.and_eq_true] at hsame
  obtain ⟨y', hy', hfield⟩ := halike hsame.2 (name, x) (OrderedMap.find?_eq_some_iff.mp hx)
  cases hy.symm.trans hy'
  exact hfield

theorem alikeTo_of_agrees {part : Part} {x : Selection b R V part} {y : Counterpart b R V part}
    (hagrees : x.agrees eqR eqV y = true) : x.AlikeTo eqR eqV y := by
  induction x with
  | column field =>
      cases y <;> simp only [agrees, Bool.false_eq_true] at hagrees
      exact .column hagrees
  | objectRelation relationship select ih =>
      cases y <;> simp only [agrees, Bool.and_eq_true, Bool.false_eq_true] at hagrees
      exact .objectRelation hagrees.1 (ih hagrees.2)
  | arrayRelation select ih =>
      cases y <;> simp only [agrees, Bool.false_eq_true] at hagrees
      exact .arrayRelation (ih hagrees)
  | computedField enabled name select ih =>
      cases y <;> simp only [agrees, Bool.and_eq_true, beq_iff_eq, Bool.false_eq_true] at hagrees
      obtain ⟨rfl, hselect⟩ := hagrees
      exact .computedField (ih hselect)
  | remote relationship =>
      cases y <;> simp only [agrees, Bool.false_eq_true] at hagrees
      exact .remote hagrees
  | nodeId enabled table primaryKey =>
      cases y <;> simp only [agrees, Bool.and_eq_true, beq_iff_eq, Bool.false_eq_true] at hagrees
      obtain ⟨rfl, rfl⟩ := hagrees
      exact .nodeId
  | constant text =>
      cases y <;> simp only [agrees, beq_iff_eq, Bool.false_eq_true] at hagrees
      exact hagrees ▸ .constant
  | aggregates aggregates =>
      cases y <;> simp only [agrees, Bool.false_eq_true] at hagrees
      exact .aggregates hagrees
  | nodes enabled xs ih =>
      cases y <;> simp only [agrees, Bool.false_eq_true] at hagrees
      obtain ⟨keys, fields⟩ := alike_fields ih hagrees
      exact .nodes keys fields
  | aggregateConstant text =>
      cases y <;> simp only [agrees, beq_iff_eq, Bool.false_eq_true] at hagrees
      exact hagrees ▸ .aggregateConstant
  | connectionTypeName text =>
      cases y <;> simp only [agrees, beq_iff_eq, Bool.false_eq_true] at hagrees
      exact hagrees ▸ .connectionTypeName
  | pageInfo info =>
      cases y <;> simp only [agrees, Bool.false_eq_true] at hagrees
      exact .pageInfo hagrees
  | edges xs ih =>
      cases y <;> simp only [agrees, Bool.false_eq_true] at hagrees
      obtain ⟨keys, fields⟩ := alike_fields ih hagrees
      exact .edges keys fields
  | edgeTypeName text =>
      cases y <;> simp only [agrees, beq_iff_eq, Bool.false_eq_true] at hagrees
      exact hagrees ▸ .edgeTypeName
  | cursor =>
      cases y <;> simp only [agrees, Bool.false_eq_true] at hagrees
      exact .cursor
  | node xs ih =>
      cases y <;> simp only [agrees, Bool.false_eq_true] at hagrees
      obtain ⟨keys, fields⟩ := alike_fields ih hagrees
      exact .node keys fields
  | nil => exact List.forall_mem_nil _
  | cons name fresh field rest ih ihRest =>
      rw [agrees, Bool.and_eq_true] at hagrees
      obtain ⟨hfield, hrest⟩ := hagrees
      refine List.forall_mem_cons.mpr ⟨?_, ihRest hrest⟩
      cases hfound : y name with
      | none => simp [hfound] at hfield
      | some found => exact ⟨found, rfl, ih (by simpa [hfound] using hfield)⟩
  | select xs query ih =>
      cases y
      rw [agrees, Bool.and_eq_true] at hagrees
      obtain ⟨keys, fields⟩ := alike_fields ih hagrees.1
      exact .select keys fields hagrees.2
  | object xs target filter ih =>
      cases y
      rw [agrees, Bool.and_eq_true, Bool.and_eq_true] at hagrees
      obtain ⟨⟨hfields, htarget⟩, hfilter⟩ := hagrees
      obtain ⟨keys, fields⟩ := alike_fields ih hfields
      exact .object keys fields htarget hfilter
  | simple relationship select ih =>
      cases y <;> simp only [agrees, Bool.and_eq_true, Bool.false_eq_true] at hagrees
      exact .simple hagrees.1 (ih hagrees.2)
  | aggregate relationship select ih =>
      cases y <;> simp only [agrees, Bool.and_eq_true, Bool.false_eq_true] at hagrees
      exact .aggregate hagrees.1 (ih hagrees.2)
  | connection relationship select ih =>
      cases y <;> simp only [agrees, Bool.and_eq_true, Bool.false_eq_true] at hagrees
      exact .connection hagrees.1 (ih hagrees.2)
  | page enabled page select ih =>
      cases y
      rw [agrees, Bool.and_eq_true] at hagrees
      exact .page hagrees.1 (ih hagrees.2)
  | scalar call =>
      cases y <;> simp only [agrees, Bool.false_eq_true] at hagrees
      exact .scalar hagrees
  | table shape select ih =>
      cases y <;> simp only [agrees, Bool.and_eq_true, beq_iff_eq, Bool.false_eq_true] at hagrees
      obtain ⟨rfl, hselect⟩ := hagrees
      exact .table (ih hselect)

/-- Equality of selections is alikeness. -/
theorem same_iff_alike {part : Part} {x y : Selection b R V part} :
    x.same eqR eqV y = true ↔ x.Alike eqR eqV y := by
  refine ⟨fun hsame => ?_, same_of_alike⟩
  cases part with
  | fields vocabulary names =>
      have hfields : (x.size == y.size && x.agrees eqR eqV y.find?) = true :=
        Bool.and_eq_true_iff.mpr ⟨beq_self_eq_true _, hsame⟩
      exact .fields (alike_fields alikeTo_of_agrees hfields).2
  | _ => exact alikeTo_of_agrees hsame

namespace Alike

/-- Lists of fields that are alike are alike name by name. -/
theorem find {xs ys : Selection b R V (.fields vocabulary names)} (halike : xs.Alike eqR eqV ys) :
    ∀ name x y, xs.find? name = some x → ys.find? name = some y → x.Alike eqR eqV y := by
  cases halike with
  | fields fields => exact fields

theorem refl (heqR : Equating eqR) (heqV : Equating eqV) {part : Part}
    (x : Selection b R V part) : x.Alike eqR eqV x := by
  induction x with
  | column field => exact .column ((ColumnField.equating heqV).refl field)
  | objectRelation relationship _ ih => exact .objectRelation (Relationship.equating.refl _) ih
  | arrayRelation _ ih => exact .arrayRelation ih
  | computedField _ _ _ ih => exact .computedField ih
  | remote relationship => exact .remote ((RemoteRelationship.equating heqR).refl relationship)
  | nodeId => exact .nodeId
  | constant => exact .constant
  | aggregates aggregates => exact .aggregates ((Aggregate.equating heqV).map.refl aggregates)
  | nodes _ _ ih => exact .nodes .rfl ih.find
  | aggregateConstant => exact .aggregateConstant
  | connectionTypeName => exact .connectionTypeName
  | pageInfo info => exact .pageInfo (Equating.beq.map.refl info)
  | edges _ ih => exact .edges .rfl ih.find
  | edgeTypeName => exact .edgeTypeName
  | cursor => exact .cursor
  | node _ ih => exact .node .rfl ih.find
  | nil => exact .fields nofun
  | cons first fresh field rest ih ihRest =>
      refine .fields fun name x y hx hy => ?_
      rw [find?_cons] at hx hy
      split at hx
      · next hname =>
        rw [if_pos hname] at hy
        cases hx
        cases hy
        exact ih
      · next hname =>
        rw [if_neg hname] at hy
        exact ihRest.find name x y hx hy
  | select _ query ih => exact .select .rfl ih.find ((Query.equating heqV).refl query)
  | object _ target filter ih =>
      exact .object .rfl ih.find ((Source.equating heqV).refl target)
        ((Predicate.equating heqV).refl filter)
  | simple _ _ ih => exact .simple (Relationship.equating.refl _) ih
  | aggregate _ _ ih => exact .aggregate (Relationship.equating.refl _) ih
  | connection _ _ ih => exact .connection (Relationship.equating.refl _) ih
  | page _ page _ ih => exact .page ((Page.equating heqV).refl page) ih
  | scalar call => exact .scalar ((ScalarCall.equating heqV).refl call)
  | table _ _ ih => exact .table ih

theorem fields_symm {xs : Selection b R V (.fields vocabulary names)}
    {ys : Selection b R V (.fields vocabulary others)}
    (hfields : ∀ name x y, xs.find? name = some x → ys.find? name = some y → y.Alike eqR eqV x) :
    ∀ name y x, ys.find? name = some y → xs.find? name = some x → y.Alike eqR eqV x :=
  fun name y x hy hx => hfields name x y hx hy

theorem symm (heqR : Equating eqR) (heqV : Equating eqV) {part : Part} {x y : Selection b R V part}
    (halike : x.Alike eqR eqV y) : y.Alike eqR eqV x := by
  induction halike with
  | column field => exact .column ((ColumnField.equating heqV).symm field)
  | objectRelation relationship _ ih =>
      exact .objectRelation (Relationship.equating.symm relationship) ih
  | arrayRelation _ ih => exact .arrayRelation ih
  | computedField _ ih => exact .computedField ih
  | remote relationship => exact .remote ((RemoteRelationship.equating heqR).symm relationship)
  | nodeId => exact .nodeId
  | constant => exact .constant
  | aggregates aggregates => exact .aggregates ((Aggregate.equating heqV).map.symm aggregates)
  | nodes keys _ ih => exact .nodes keys.symm (fields_symm ih)
  | aggregateConstant => exact .aggregateConstant
  | connectionTypeName => exact .connectionTypeName
  | pageInfo info => exact .pageInfo (Equating.beq.map.symm info)
  | edges keys _ ih => exact .edges keys.symm (fields_symm ih)
  | edgeTypeName => exact .edgeTypeName
  | cursor => exact .cursor
  | node keys _ ih => exact .node keys.symm (fields_symm ih)
  | fields _ ih => exact .fields (fields_symm ih)
  | select keys _ query ih =>
      exact .select keys.symm (fields_symm ih) ((Query.equating heqV).symm query)
  | object keys _ target filter ih =>
      exact .object keys.symm (fields_symm ih) ((Source.equating heqV).symm target)
        ((Predicate.equating heqV).symm filter)
  | simple relationship _ ih => exact .simple (Relationship.equating.symm relationship) ih
  | aggregate relationship _ ih => exact .aggregate (Relationship.equating.symm relationship) ih
  | connection relationship _ ih => exact .connection (Relationship.equating.symm relationship) ih
  | page page _ ih => exact .page ((Page.equating heqV).symm page) ih
  | scalar call => exact .scalar ((ScalarCall.equating heqV).symm call)
  | table _ ih => exact .table ih

/-- A field of `x` and one of `z` are alike through the field between them that has their name. -/
theorem fields_trans {last : List FieldName} {xs : Selection b R V (.fields vocabulary names)}
    {ys : Selection b R V (.fields vocabulary others)}
    {zs : Selection b R V (.fields vocabulary last)} (keys : names.Perm others)
    (hfirst : ∀ name x y, xs.find? name = some x → ys.find? name = some y →
      ∀ {z}, y.Alike eqR eqV z → x.Alike eqR eqV z)
    (hsecond : ∀ name y z, ys.find? name = some y → zs.find? name = some z → y.Alike eqR eqV z) :
    ∀ name x z, xs.find? name = some x → zs.find? name = some z → x.Alike eqR eqV z := by
  intro name x z hx hz
  have hname : name ∈ xs.toMap.keys := OrderedMap.mem_keys_iff.mpr ⟨x, hx⟩
  have hname : name ∈ ys.toMap.keys := keys.mem_iff.mp hname
  obtain ⟨y, hy⟩ := OrderedMap.mem_keys_iff.mp hname
  exact hfirst name x y hx hy (hsecond name y z hy hz)

theorem trans (heqR : Equating eqR) (heqV : Equating eqV) {part : Part}
    {x y z : Selection b R V part} (halike : x.Alike eqR eqV y) (hother : y.Alike eqR eqV z) :
    x.Alike eqR eqV z := by
  induction halike with
  | column field =>
      cases hother with
      | column other => exact .column ((ColumnField.equating heqV).trans field other)
  | objectRelation relationship _ ih =>
      cases hother with
      | objectRelation other select =>
          exact .objectRelation (Relationship.equating.trans relationship other) (ih select)
  | arrayRelation _ ih =>
      cases hother with
      | arrayRelation select => exact .arrayRelation (ih select)
  | computedField _ ih =>
      cases hother with
      | computedField select => exact .computedField (ih select)
  | remote relationship =>
      cases hother with
      | remote other => exact .remote ((RemoteRelationship.equating heqR).trans relationship other)
  | nodeId | constant | aggregateConstant | connectionTypeName | edgeTypeName | cursor =>
      exact hother
  | aggregates aggregates =>
      cases hother with
      | aggregates other => exact .aggregates ((Aggregate.equating heqV).map.trans aggregates other)
  | nodes keys _ ih =>
      cases hother with
      | nodes others fields => exact .nodes (keys.trans others) (fields_trans keys ih fields)
  | pageInfo info =>
      cases hother with
      | pageInfo other => exact .pageInfo (Equating.beq.map.trans info other)
  | edges keys _ ih =>
      cases hother with
      | edges others fields => exact .edges (keys.trans others) (fields_trans keys ih fields)
  | node keys _ ih =>
      cases hother with
      | node others fields => exact .node (keys.trans others) (fields_trans keys ih fields)
  | fields _ ih => exact .fields (fields_trans .rfl ih hother.find)
  | select keys _ query ih =>
      cases hother with
      | select others fields other =>
          exact .select (keys.trans others) (fields_trans keys ih fields)
            ((Query.equating heqV).trans query other)
  | object keys _ target filter ih =>
      cases hother with
      | object others fields target' filter' =>
          exact .object (keys.trans others) (fields_trans keys ih fields)
            ((Source.equating heqV).trans target target')
            ((Predicate.equating heqV).trans filter filter')
  | simple relationship _ ih =>
      cases hother with
      | simple other select =>
          exact .simple (Relationship.equating.trans relationship other) (ih select)
  | aggregate relationship _ ih =>
      cases hother with
      | aggregate other select =>
          exact .aggregate (Relationship.equating.trans relationship other) (ih select)
  | connection relationship _ ih =>
      cases hother with
      | connection other select =>
          exact .connection (Relationship.equating.trans relationship other) (ih select)
  | page page _ ih =>
      cases hother with
      | page other select => exact .page ((Page.equating heqV).trans page other) (ih select)
  | scalar call =>
      cases hother with
      | scalar other => exact .scalar ((ScalarCall.equating heqV).trans call other)
  | table _ ih =>
      cases hother with
      | table select => exact .table (ih select)

end Alike

theorem fields_same_iff_alike {xs : Selection b R V (.fields vocabulary names)}
    {ys : Selection b R V (.fields vocabulary others)} :
    (xs.size == ys.size && xs.agrees eqR eqV ys.find?) = true ↔
      names.Perm others ∧ ∀ name x y, xs.find? name = some x → ys.find? name = some y →
        x.Alike eqR eqV y := by
  simp only [fields_same_iff, same_iff_alike]

theorem equating (heqR : Equating eqR) (heqV : Equating eqV) {part : Part} :
    Equating fun x y : Selection b R V part => x.same eqR eqV y where
  refl x := same_iff_alike.mpr (.refl heqR heqV x)
  symm hsame := same_iff_alike.mpr ((same_iff_alike.mp hsame).symm heqR heqV)
  trans hsame hother :=
    same_iff_alike.mpr ((same_iff_alike.mp hsame).trans heqR heqV (same_iff_alike.mp hother))

end Selection

end SelectPlan
