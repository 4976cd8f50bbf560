import SelectPlan.Proofs.Documents.Trees

/-!
Documents of remote targets, nested to any depth, and of trees of every kind.  The documents of two
trees hold the same data exactly if the trees are equal up to the order of map entries.  That fails
only where a value that may be absent is directly another one, since both are written as null.
-/

namespace SelectPlan

theorem Backend.tag_injective : Function.Injective Backend.tag := by
  intro b c heq
  cases b <;> cases c <;> first | rfl | exact absurd heq (by decide)

/-! Remote targets -/

section

variable {Value : Backend → Type} [∀ b, HasJson (Value b)]
  {eqV : (b : Backend) → Value b → Value b → Bool}

theorem RemoteTarget.faithful {R : Type} [HasJson R] {eqR : R → R → Bool} (hR : Faithful R eqR)
    (hV : ∀ b, Faithful (Value b) (eqV b)) :
    Faithful (RemoteTarget Value R) (RemoteTarget.same eqR eqV) := by
  intro x y
  cases x with
  | schema x =>
      cases y <;> simp +instances [instHasJson, same, RemoteSchemaCall.faithful x _]
  | source b x =>
      cases y with
      | schema y => simp +instances [instHasJson, same]
      | source c y =>
          by_cases hbackend : b = c
          · subst hbackend
            simp +instances [instHasJson, same, SourceSelect.faithful hR (hV b) x y]
          · have htag : b.tag ≠ c.tag := fun heq => hbackend (Backend.tag_injective heq)
            simp +instances [instHasJson, same, htag, hbackend]

theorem NestedTarget.faithful (hV : ∀ b, Faithful (Value b) (eqV b)) :
    ∀ depth, Faithful (NestedTarget Value depth) (NestedTarget.same eqV)
  | 0 => RemoteTarget.faithful nofun hV
  | depth + 1 => RemoteTarget.faithful (NestedTarget.faithful hV depth) hV

theorem RemoteTarget.not_alike_string {R : Type} [HasJson R] (text : String)
    (x : RemoteTarget Value R) : ¬ Json.Alike (.string text) (json x) := by
  cases x <;> exact Json.not_alike_string_tagged

theorem NestedTarget.not_alike_string (text : String) :
    ∀ {depth} (x : NestedTarget Value depth), ¬ Json.Alike (.string text) (json x)
  | 0, x => RemoteTarget.not_alike_string text x
  | _ + 1, x => RemoteTarget.not_alike_string text x

end

/-- A name stands without a tag, since no target is written as a string. -/
theorem Faithful.targetOrName {T : Type} [HasJson T] {eq : T → T → Bool} (hT : Faithful T eq)
    (htext : ∀ text (x : T), ¬ Json.Alike (.string text) (json x)) :
    Faithful (TargetOrName T) (TargetOrName.same eq) := by
  intro x y
  cases x with
  | name s =>
      cases y with
      | name t => simp +instances [TargetOrName.instHasJson, TargetOrName.same]
      | target y => exact iff_of_false (htext s y) nofun
  | target x =>
      cases y with
      | name t => exact iff_of_false (fun halike => htext t x halike.symm) nofun
      | target y => exact hT x y

/-! Trees of every kind -/

namespace TreeKind

variable {b : Backend} {R V : Type} [HasJson R] [HasJson V] {eqR : R → R → Bool}
  {eqV : V → V → Bool}

/-- No value that may be absent is directly another one, as none is in a query.  Both are written as
null where they are absent, so that a document would not say which of them is. -/
def OptionsApart : TreeKind → Prop
  | optional (optional _) => False
  | selectFrame inner | relationFrame inner | orderFrame inner | list inner | optional inner
  | nonEmpty inner | map _ inner => inner.OptionsApart
  | _ => True

instance (key : KeyKind) : DistinctNames key.Key :=
  match key with
  | .text => inferInstanceAs (DistinctNames String)
  | .name kind => inferInstanceAs (DistinctNames (Name kind))

instance : (key : KeyKind) → Inhabited key.Key
  | .text => ⟨""⟩
  | .name _ => ⟨⟨""⟩⟩

theorem optionsApart_optional {item : TreeKind} :
    (optional item).OptionsApart ↔ (∀ inner, item ≠ .optional inner) ∧ item.OptionsApart := by
  cases item <;> simp [OptionsApart]

/-- Only a value that may be absent is written as null. -/
theorem toJson_ne_null {kind : TreeKind} (hkind : ∀ inner, kind ≠ .optional inner)
    (x : kind.Tree b R V) : kind.toJson x ≠ .null := by
  cases kind with
  | optional inner => exact absurd rfl (hkind inner)
  | part part => cases x <;> exact nofun
  | fieldMap vocabulary =>
      change (Selection.ofEntries x.entries).toJson ≠ .null
      rw [Selection.toJson_fields]
      exact nofun
  | predicate => exact Predicate.json_ne_null x
  | sourceSelection | aggregate | operand | count | redaction | comparison | argument | orderTerm
  | orderAggregate | computedOrder | source => cases x <;> exact nofun
  | _ => exact nofun

theorem alike_toJson_iff (hR : Faithful R eqR) (hV : Faithful V eqV) {kind : TreeKind}
    (hkind : kind.OptionsApart) :
    ∀ x y : kind.Tree b R V,
      (kind.toJson x).Alike (kind.toJson y) ↔ kind.same eqR eqV x y = true := by
  induction kind with
  | part part => exact Selection.faithful hR hV
  | fieldMap vocabulary =>
      intro x y
      rw [same, Bool.and_eq_true, beq_iff_eq]
      exact Selection.alike_fields_iff_size hR hV _ _
  | stream => exact Stream.faithful hR hV
  | sourceSelect => exact SourceSelect.faithful hR hV
  | sourceSelection => exact SourceSelection.faithful hR hV
  | remoteRelationship => exact RemoteRelationship.faithful hR
  | aggregate => exact Aggregate.faithful hV
  | operand => exact Operand.faithful hV
  | count => exact Count.faithful hV
  | columnField => exact ColumnField.faithful hV
  | scalarCall => exact ScalarCall.faithful hV
  | redaction => exact Redaction.faithful hV
  | predicate => exact Predicate.faithful hV
  | predicates =>
      intro xs ys
      have halike := Predicate.alike_itemsToJson hV xs ys
      rwa [Predicate.itemsToJson_eq_map, Predicate.itemsToJson_eq_map] at halike
  | comparison => exact Comparison.faithful hV
  | argument => exact Argument.faithful hV
  | arguments => exact Arguments.faithful hV
  | orderBy => exact (OrderItem.faithful hV).nonEmpty
  | orderItem => exact OrderItem.faithful hV
  | orderTerm => exact OrderTerm.faithful hV
  | orderAggregate => exact OrderAggregate.faithful hV
  | computedOrder => exact ComputedOrder.faithful hV
  | source => exact Source.faithful hV
  | permission => exact RowPermission.faithful hV
  | args => exact SelectArgs.faithful hV
  | page => exact Page.alike_members hV
  | pageBound => exact PageBound.faithful hV
  | streamArgs => exact StreamArgs.faithful hV
  | selectFrame field ih => exact SelectFrame.faithful (ih hkind) hV
  | relationFrame inner ih => exact RelationFrame.faithful (ih hkind)
  | orderFrame term ih => exact OrderFrame.faithful (ih hkind)
  | list item ih => exact Faithful.list (ih hkind)
  | optional item ih =>
      obtain ⟨hitem, happart⟩ := optionsApart_optional.mp hkind
      exact Faithful.option (ih happart) (toJson_ne_null hitem)
  | nonEmpty item ih => exact Faithful.nonEmpty (ih hkind)
  | map key item ih => exact Faithful.map (ih hkind)

/-- Where options are not apart, there are trees that differ and are written as one document. -/
theorem exists_confused {kind : TreeKind} (hkind : ¬ kind.OptionsApart) :
    ∃ x y : kind.Tree b R V, kind.toJson x = kind.toJson y ∧ kind.same eqR eqV x y = false := by
  induction kind with
  | optional item ih =>
      by_cases hitem : ∃ inner, item = .optional inner
      · obtain ⟨inner, rfl⟩ := hitem
        exact ⟨none, some none, rfl, rfl⟩
      · have happart : ¬ item.OptionsApart := fun happart =>
          hkind (optionsApart_optional.mpr ⟨fun inner heq => hitem ⟨inner, heq⟩, happart⟩)
        obtain ⟨x, y, hdocument, hdiffer⟩ := ih happart
        exact ⟨some x, some y, hdocument, hdiffer⟩
  | list item ih =>
      obtain ⟨x, y, hdocument, hdiffer⟩ := ih hkind
      refine ⟨[x], [y], congrArg (fun document => Json.array [document]) hdocument, ?_⟩
      simp [same, sameList, hdiffer]
  | nonEmpty item ih =>
      obtain ⟨x, y, hdocument, hdiffer⟩ := ih hkind
      refine ⟨⟨x, []⟩, ⟨y, []⟩, ?_, ?_⟩
      · exact congrArg (fun document => Json.object [("head", document), ("tail", .array [])])
          hdocument
      · simp [same, NonEmpty.same, hdiffer]
  | map key item ih =>
      obtain ⟨x, y, hdocument, hdiffer⟩ := ih hkind
      refine ⟨.ofList [(default, x)], .ofList [(default, y)], ?_, ?_⟩
      · exact congrArg (fun document => Json.object [(memberName (default : key.Key), document)])
          hdocument
      · exact (OrderedMap.same_singleton _ default x y).trans hdiffer
  | selectFrame item ih =>
      obtain ⟨x, y, hdocument, hdiffer⟩ := ih hkind
      let query : Query b V := { source := .identifier ⟨""⟩, permission := .unrestricted }
      refine ⟨⟨.ofList [(⟨""⟩, x)], query⟩, ⟨.ofList [(⟨""⟩, y)], query⟩, ?_, ?_⟩
      · exact congrArg (fun document => Json.object
          (("fields", .object [("", document)]) :: query.members)) hdocument
      · simp [same, SelectFrame.same, OrderedMap.same_singleton, hdiffer]
  | relationFrame item ih =>
      obtain ⟨x, y, hdocument, hdiffer⟩ := ih hkind
      let relationship : Relationship := { name := ⟨""⟩, mapping := ∅ }
      refine ⟨⟨relationship, x⟩, ⟨relationship, y⟩, congrArg relationship.wrap hdocument, ?_⟩
      simp [same, RelationFrame.same, hdiffer]
  | orderFrame item ih =>
      obtain ⟨x, y, hdocument, hdiffer⟩ := ih hkind
      refine ⟨⟨x, none, none⟩, ⟨y, none, none⟩, ?_, ?_⟩
      · exact congrArg (fun document => Json.object
          [("element", document), ("direction", .null), ("nulls", .null)]) hdocument
      · simp [same, OrderFrame.same, hdiffer]
  | _ => exact absurd trivial hkind

/-- Whether the documents of trees of a kind hold the same data exactly if the trees are equal, up
to the order of map entries and given an equality of remote targets. -/
def DocumentsTell (b : Backend) (R : Type) [HasJson R] (eqR : R → R → Bool) (kind : TreeKind) :
    Prop :=
  ∀ x y : kind.Tree b R (Unprepared b),
    JsonValue.ofJson (kind.toJson x) = JsonValue.ofJson (kind.toJson y) ↔
      kind.same eqR (· == ·) x y = true

theorem documentsTell_iff (hR : Faithful R eqR) {kind : TreeKind} :
    kind.DocumentsTell b R eqR ↔ kind.OptionsApart := by
  constructor
  · intro htell
    by_contra hkind
    obtain ⟨x, y, hdocument, hdiffer⟩ : ∃ x y : kind.Tree b R (Unprepared b),
        kind.toJson x = kind.toJson y ∧ kind.same eqR (· == ·) x y = false := exists_confused hkind
    have hsame := (htell x y).mp (congrArg JsonValue.ofJson hdocument)
    exact Bool.false_ne_true (hdiffer.symm.trans hsame)
  · intro hkind x y
    rw [JsonValue.ofJson_eq_iff]
    exact alike_toJson_iff hR Legible.faithful hkind x y

/-- Documents tell the trees of a query apart exactly as equality does, whether its remote targets
are names, targets that nest to any depth, or either. -/
theorem documents_tell_trees_apart (b : Backend) (kind : TreeKind) (hkind : kind.OptionsApart) :
    kind.DocumentsTell b String (· == ·) ∧
    ∀ depth,
      kind.DocumentsTell b (NestedTarget Unprepared depth) (NestedTarget.same fun _ => (· == ·)) ∧
      kind.DocumentsTell b (TargetOrName (NestedTarget Unprepared depth))
        (TargetOrName.same (NestedTarget.same fun _ => (· == ·))) := by
  refine ⟨(documentsTell_iff Legible.faithful).mpr hkind, fun depth => ?_⟩
  have htarget : Faithful (NestedTarget Unprepared depth) (NestedTarget.same fun _ => (· == ·)) :=
    NestedTarget.faithful (fun _ => Legible.faithful) depth
  have heither := htarget.targetOrName fun text => NestedTarget.not_alike_string text
  exact ⟨(documentsTell_iff htarget).mpr hkind, (documentsTell_iff heither).mpr hkind⟩

/-- The reviews on another source, whose authors a remote schema knows. -/
def reviewsWithAuthors (schema : String) : NestedTarget Unprepared 1 :=
  let authors : RemoteTarget Unprepared Empty :=
    .schema { schema := ⟨schema⟩, fieldPath := ["author"], arguments := ∅, selectionSet := "name" }
  let author : Field .mySql (NestedTarget Unprepared 0) (Unprepared .mySql) :=
    .remote { joinFields := ∅, target := authors }
  RemoteTarget.source .mySql
    { name := ⟨"reviews"⟩
      config := .mySql "localhost" 3306 "reviews" rfl
      selection := .array <| Selection.ofFields (.ofList [(⟨"author"⟩, author)])
        { source := .identifier ⟨"review"⟩, permission := .unrestricted }
      joinMapping := .ofList [(⟨"isbn"⟩, (⟨"isbn"⟩, .builtin "Text" (by decide)))]
      numbers := .stringify }

/-- The order of the fields of a book does not show, but the name of the schema two targets below
does. -/
theorem documents_tell_reordered_books :
    let kind := TreeKind.optional (.fieldMap .row)
    let Target := NestedTarget Unprepared 1
    let reviews (schema : String) : Field .postgres Target (Unprepared .postgres) :=
      .remote { joinFields := ∅, target := reviewsWithAuthors schema }
    let book : kind.Tree .postgres Target (Unprepared .postgres) :=
      some (.ofList [(⟨"type"⟩, .constant "book"), (⟨"reviews"⟩, reviews "people")])
    let reordered : kind.Tree .postgres Target (Unprepared .postgres) :=
      some (.ofList [(⟨"reviews"⟩, reviews "people"), (⟨"type"⟩, .constant "book")])
    let other : kind.Tree .postgres Target (Unprepared .postgres) :=
      some (.ofList [(⟨"type"⟩, .constant "book"), (⟨"reviews"⟩, reviews "persons")])
    kind.OptionsApart ∧
      JsonValue.ofJson (kind.toJson book) = JsonValue.ofJson (kind.toJson reordered) ∧
      JsonValue.ofJson (kind.toJson book) ≠ JsonValue.ofJson (kind.toJson other) := by
  intro kind Target reviews book reordered other
  have htell := ((documents_tell_trees_apart .postgres kind trivial).2 1).1
  exact ⟨trivial, (htell book reordered).mpr rfl, fun heq => by cases (htell book other).mp heq⟩

end TreeKind

end SelectPlan
