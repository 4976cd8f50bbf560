import SelectPlan.Proofs.Documents.Kinds
import SelectPlan.Proofs.Documents.Printing
import SelectPlan.Proofs.Documents.Unambiguous

/-!
Texts that determine trees.  A tree of a query is written with its fields and the entries of its
maps in their order, so no other tree has its text.
-/

namespace SelectPlan

namespace Selection

variable {b : Backend} {R V : Type} [HasJson R] [HasJson V]

/-- No other part of the kind has the document of this one.  Of several fields the names are part of
what is determined. -/
def Determined : {part : Part} → Selection b R V part → Prop
  | .fields vocabulary names, x => ∀ {others : List FieldName}
      (y : Selection b R V (.fields vocabulary others)),
      x.toJson = y.toJson ↔ names = others ∧ x ≍ y
  | .field _, x => ∀ y, x.toJson = toJson y ↔ x = y
  | .select _, x => ∀ y, x.toJson = toJson y ↔ x = y
  | .object, x => ∀ y, x.toJson = toJson y ↔ x = y
  | .array, x => ∀ y, x.toJson = toJson y ↔ x = y
  | .connection, x => ∀ y, x.toJson = toJson y ↔ x = y
  | .computed, x => ∀ y, x.toJson = toJson y ↔ x = y

theorem toJson_cons_eq_iff {vocabulary : Vocabulary} {names others : List FieldName}
    {name other : FieldName} {fresh : name ∉ names} {fresh' : other ∉ others}
    (x y : Selection b R V (.field vocabulary)) (xs : Selection b R V (.fields vocabulary names))
    (ys : Selection b R V (.fields vocabulary others)) :
    (cons name fresh x xs).toJson = (cons other fresh' y ys).toJson ↔
      name = other ∧ x.toJson = y.toJson ∧ xs.toJson = ys.toJson := by
  rw [toJson, toJson, toJson_fields xs, toJson_fields ys]
  simp [Json.members, Name.text_injective.eq_iff, and_assoc]

theorem determined [Unambiguous R] [Unambiguous V] {part : Part} (x : Selection b R V part) :
    x.Determined := by
  induction x with
  | nil =>
      intro others y
      cases y with
      | nil => simp
      | cons name fresh field rest => simp [toJson]
  | cons name fresh x rest ih ihrest =>
      intro others y
      cases y with
      | nil => simp [toJson]
      | cons other fresh' y ys =>
          have ih : ∀ y, x.toJson = y.toJson ↔ x = y := ih
          rw [toJson_cons_eq_iff, ih, ihrest]
          constructor
          · rintro ⟨rfl, rfl, rfl, hrest⟩
            cases hrest
            exact ⟨rfl, .rfl⟩
          · rintro ⟨hnames, hcons⟩
            cases hnames
            cases hcons
            exact ⟨rfl, rfl, rfl, .rfl⟩
  | column x | nodeId | constant | aggregateConstant | connectionTypeName | edgeTypeName | cursor
  | aggregates | pageInfo | remote | scalar =>
      intro y
      cases y <;> simp [toJson]
  | objectRelation r x ih | arrayRelation x ih | computedField enabled name x ih | simple r x ih
  | aggregate r x ih | connection r x ih | page enabled window x ih | table shape x ih =>
      have ih : ∀ y, x.toJson = y.toJson ↔ x = y := ih
      intro y
      cases y <;> simp [toJson, ih]
  | nodes enabled xs ih | edges xs ih | node xs ih =>
      have ih : ∀ {others} (ys : Selection b R V (.fields _ others)),
          xs.toJson = ys.toJson ↔ _ := ih
      intro y
      cases y <;> simp [toJson, ih]
  | select xs query ih =>
      have ih : ∀ {others} (ys : Selection b R V (.fields _ others)),
          xs.toJson = ys.toJson ↔ _ := ih
      intro y
      cases y
      simp [toJson, ih, and_assoc]
  | object xs target filter ih =>
      have ih : ∀ {others} (ys : Selection b R V (.fields _ others)),
          xs.toJson = ys.toJson ↔ _ := ih
      intro y
      cases y
      simp [toJson, ih, and_assoc]

theorem fields_eq_iff [Unambiguous R] [Unambiguous V] {vocabulary : Vocabulary}
    {names others : List FieldName} (x : Selection b R V (.fields vocabulary names))
    (y : Selection b R V (.fields vocabulary others)) :
    x.toJson = y.toJson ↔ names = others ∧ x ≍ y :=
  determined x y

instance [Unambiguous R] [Unambiguous V] {part : Part} : Unambiguous (Selection b R V part) where
  json_eq_iff x y := by
    cases part with
    | fields vocabulary names =>
        refine (fields_eq_iff x y).trans ?_
        rw [heq_iff_eq, and_iff_right rfl]
    | _ => exact determined x y

end Selection

section

variable {b : Backend} {R V : Type} [HasJson R] [HasJson V] [Unambiguous R] [Unambiguous V]

instance : Unambiguous (Stream b R V) where
  json_eq_iff := by
    rintro ⟨_, xs, s, p, a, m⟩ ⟨_, ys, t, q, c, n⟩
    have hfields : json xs = json ys ↔ _ := Selection.fields_eq_iff xs ys
    simp +instances [Stream.instHasJson, hfields, and_assoc]

instance : Unambiguous (SelectFrame b R V) where
  json_eq_iff := by
    rintro ⟨xs, p⟩ ⟨ys, q⟩
    simp +instances [SelectFrame.instHasJson]

instance : Unambiguous (RelationFrame R) where
  json_eq_iff := by
    rintro ⟨r, x⟩ ⟨s, y⟩
    simp +instances [RelationFrame.instHasJson]

instance : Unambiguous (OrderFrame R) where
  json_eq_iff := by
    rintro ⟨x, d, m⟩ ⟨y, e, n⟩
    simp +instances [OrderFrame.instHasJson]

/-! Remote targets -/

instance : Unambiguous RemoteSchemaCall where
  json_eq_iff := by
    rintro ⟨m, p, xs, s⟩ ⟨n, q, ys, t⟩
    simp +instances [RemoteSchemaCall.instHasJson]

instance : Unambiguous (SourceSelection b R V) where
  json_eq_iff x y := by
    cases x <;> cases y <;> simp +instances [SourceSelection.instHasJson]

instance : Unambiguous (SourceSelect b R V) where
  json_eq_iff := by
    rintro ⟨m, c, x, xs, p⟩ ⟨n, d, y, ys, q⟩
    simp +instances [SourceSelect.instHasJson]

end

section

variable {Value : Backend → Type} [∀ b, HasJson (Value b)] [∀ b, Unambiguous (Value b)]

instance {R : Type} [HasJson R] [Unambiguous R] : Unambiguous (RemoteTarget Value R) where
  json_eq_iff x y := by
    cases x with
    | schema x => cases y <;> simp +instances [RemoteTarget.instHasJson]
    | source b x =>
        cases y with
        | schema y => simp +instances [RemoteTarget.instHasJson]
        | source c y =>
            by_cases hbackend : b = c
            · subst hbackend
              simp +instances [RemoteTarget.instHasJson]
            · have htag : b.tag ≠ c.tag := fun heq => hbackend (Backend.tag_injective heq)
              simp +instances [RemoteTarget.instHasJson, htag, hbackend]

instance : Unambiguous Empty := ⟨nofun⟩

theorem NestedTarget.unambiguous : ∀ depth, Unambiguous (NestedTarget Value depth)
  | 0 => inferInstanceAs (Unambiguous (RemoteTarget Value Empty))
  | depth + 1 =>
      haveI := NestedTarget.unambiguous depth
      inferInstanceAs (Unambiguous (RemoteTarget Value (NestedTarget Value depth)))

instance {depth : Nat} : Unambiguous (NestedTarget Value depth) := NestedTarget.unambiguous depth

/-- A name stands without a tag, since no target is written as a string. -/
instance {depth : Nat} : Unambiguous (TargetOrName (NestedTarget Value depth)) where
  json_eq_iff x y := by
    have htext (text : String) (x : NestedTarget Value depth) : Json.string text ≠ json x :=
      fun heq => NestedTarget.not_alike_string text x (heq ▸ Json.alike_refl _)
    cases x with
    | name s =>
        cases y with
        | name t => simp +instances [TargetOrName.instHasJson]
        | target y => exact iff_of_false (htext s y) nofun
    | target x =>
        cases y with
        | name t => exact iff_of_false (htext t x).symm nofun
        | target y => exact (json_eq_iff x y).trans (by rw [TargetOrName.target.injEq])

end

/-! Trees of every kind -/

namespace TreeKind

variable {b : Backend} {R V : Type} [HasJson R] [HasJson V] [Unambiguous R] [Unambiguous V]

theorem toJson_eq_iff {kind : TreeKind} (hkind : kind.OptionsApart) :
    ∀ x y : kind.Tree b R V, kind.toJson x = kind.toJson y ↔ x = y := by
  induction kind with
  | fieldMap vocabulary =>
      intro x y
      refine ⟨fun heq => ?_, congrArg _⟩
      obtain ⟨hkeys, hfields⟩ := (Selection.fields_eq_iff _ _).mp heq
      obtain ⟨xs⟩ := x
      obtain ⟨ys⟩ := y
      cases hkeys
      rw [← Selection.toEntries_ofEntries xs, eq_of_heq hfields, Selection.toEntries_ofEntries]
  | page => exact fun x y => by rw [toJson, toJson, Json.object.injEq, Page.members_eq_iff]
  | selectFrame inner ih | relationFrame inner ih | orderFrame inner ih | list inner ih
  | nonEmpty inner ih | map key inner ih =>
      let _ : HasJson (inner.Tree b R V) := ⟨toJson inner⟩
      have : Unambiguous (inner.Tree b R V) := ⟨ih hkind⟩
      exact json_eq_iff
  | optional inner ih =>
      obtain ⟨hinner, happart⟩ := optionsApart_optional.mp hkind
      let _ : HasJson (inner.Tree b R V) := ⟨toJson inner⟩
      have : Unambiguous (inner.Tree b R V) := ⟨ih happart⟩
      have : NeverNull (inner.Tree b R V) := ⟨toJson_ne_null hinner⟩
      exact json_eq_iff
  | _ => exact json_eq_iff

/-- Whether the texts of trees of a kind are the same exactly for one and the same tree. -/
def TextsTell (b : Backend) (R : Type) [HasJson R] (kind : TreeKind) : Prop :=
  ∀ x y : kind.Tree b R (Unprepared b), (kind.toJson x).text = (kind.toJson y).text ↔ x = y

theorem textsTell {kind : TreeKind} (hkind : kind.OptionsApart) : kind.TextsTell b R :=
  fun x y => by rw [Json.text_injective.eq_iff, toJson_eq_iff hkind]

/-- The text of a tree of a query tells everything about it, the order of its fields and of the
entries of its maps included, whether its remote targets are names, targets that nest to any depth,
or either. -/
theorem texts_determine_trees (b : Backend) (kind : TreeKind) (hkind : kind.OptionsApart) :
    kind.TextsTell b String ∧
    ∀ depth, kind.TextsTell b (NestedTarget Unprepared depth) ∧
      kind.TextsTell b (TargetOrName (NestedTarget Unprepared depth)) :=
  ⟨textsTell hkind, fun _ => ⟨textsTell hkind, textsTell hkind⟩⟩

/-- Books whose fields are in another order are equal, but they are not written alike. -/
theorem texts_determine_reordered_books :
    let kind := TreeKind.optional (.fieldMap .row)
    let Target := NestedTarget Unprepared 1
    let reviews : Field .postgres Target (Unprepared .postgres) :=
      .remote { joinFields := ∅, target := reviewsWithAuthors "people" }
    let book : kind.Tree .postgres Target (Unprepared .postgres) :=
      some (.ofList [(⟨"type"⟩, .constant "book"), (⟨"reviews"⟩, reviews)])
    let reordered : kind.Tree .postgres Target (Unprepared .postgres) :=
      some (.ofList [(⟨"reviews"⟩, reviews), (⟨"type"⟩, .constant "book")])
    kind.OptionsApart ∧
      kind.same (NestedTarget.same fun _ => (· == ·)) (· == ·) book reordered = true ∧
      (kind.toJson book).text ≠ (kind.toJson reordered).text := by
  intro kind Target reviews book reordered
  have htell := ((texts_determine_trees .postgres kind trivial).2 1).1
  refine ⟨trivial, rfl, fun heq => ?_⟩
  have hkeys := congrArg (Option.map OrderedMap.keys) ((htell book reordered).mp heq)
  exact absurd hkeys (by decide)

end TreeKind

end SelectPlan
