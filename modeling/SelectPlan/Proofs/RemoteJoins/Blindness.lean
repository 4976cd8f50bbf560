import SelectPlan.Proofs.RemoteJoins.Levels
import SelectPlan.Proofs.Traversal.Separation
import SelectPlan.Selection.Traverse

/-!
The joins of a level do not depend on its values.  Which field carries a join value and which one
has to be added is known before the values are replaced, and an added field has none itself.
-/

namespace SelectPlan

variable {F : Type → Type} [Applicative F] [LawfulApplicative F] {b : Backend}
  {A B K R S V W : Type}

/-! The test for a field that carries a join value -/

theorem Redaction.known_isRedacted (g : V → F W) (redaction : Redaction b V) :
    Known isRedacted (redaction.traverse g) redaction.isRedacted := by
  cases redaction with
  | none => exact .pure rfl
  | unlessHolds condition => exact .effect fun _ => rfl

/-- Whether an argument is the row of the table. -/
def Argument.isTableRow : Argument V → Bool
  | tableRow => true
  | input _ => false

theorem Argument.known_isTableRow (g : V → F W) (argument : Argument V) :
    Known isTableRow (argument.traverse g) argument.isTableRow := by
  cases argument with
  | tableRow => exact .pure rfl
  | input value => exact .effect fun _ => rfl

namespace Arguments

theorem isTableRow_eq (arguments : Arguments V) :
    arguments.isTableRow =
      (arguments.positional.map Argument.isTableRow == [true] && arguments.named.isEmpty) := by
  obtain ⟨positional, named⟩ := arguments
  match positional with
  | [] => rfl
  | [.tableRow] => rfl
  | [.input value] => rfl
  | .tableRow :: _ :: _ => rfl
  | .input value :: _ :: _ => rfl

theorem known_isTableRow (g : V → F W) (arguments : Arguments V) :
    Known isTableRow (arguments.traverse g) arguments.isTableRow := by
  rw [isTableRow_eq]
  have hnamed : Known OrderedMap.isEmpty (arguments.named.traverse (Argument.traverse g))
      arguments.named.isEmpty := .effect fun _ => rfl
  exact .seq (fun rows empty => rows == [true] && empty)
    (.list (Argument.known_isTableRow g) arguments.positional) hnamed
    fun positional named => isTableRow_eq ⟨positional, named⟩

end Arguments

theorem ColumnField.known_isPlain (g : V → F W) (name : ColumnName) (field : ColumnField b V) :
    Known (fun field => field.column == name && field.isPlain) (field.traverse g)
      (field.column == name && field.isPlain) :=
  .map (fun redacted => field.column == name && (!field.asText && field.path.isNone && !redacted))
    (field.redaction.known_isRedacted g) fun _ => rfl

theorem ScalarCall.known_isPlain (g : V → F W) (call : ScalarCall b V) :
    Known isPlain (call.traverse g) call.isPlain :=
  .seq (fun row redacted => call.path.isNone && !redacted && row)
    (call.arguments.known_isTableRow g) (call.redaction.known_isRedacted g) fun _ _ => rfl

namespace JoinField

/-- Whether a field carries a join value is known before its values are replaced. -/
theorem known_selectedBy (g : V → F W) (value : JoinField b) (field : Field b Empty V) :
    Known value.selectedBy (field.traverse pure g) (value.selectedBy field) := by
  cases field with
  | column field =>
      cases value with
      | column name type => exact .map id (field.known_isPlain g name) fun _ => rfl
      | computedField enabled name function type => exact .effect fun _ => rfl
  | computedField enabled name inner =>
      cases value with
      | column column type => exact .effect fun _ => rfl
      | computedField enabled' other function type =>
          let carries (inner : Selection b Empty W .computed) : Bool :=
            selectedBy (computedField enabled' other function type)
              (Selection.computedField enabled name inner)
          have hinner : Known carries (inner.traverse pure g)
              (selectedBy (computedField enabled' other function type)
                (Selection.computedField enabled name inner)) := by
            cases inner with
            | scalar call =>
                exact .map (fun plain => name == other && plain) (call.known_isPlain g) fun _ => rfl
            | table shape select => exact .effect fun _ => rfl
          exact .map id hinner fun _ => rfl
  | objectRelation relationship select => cases value <;> exact .effect fun _ => rfl
  | arrayRelation select => cases value <;> exact .effect fun _ => rfl
  | remote relationship => exact relationship.target.elim
  | nodeId enabled table primaryKey => cases value <;> exact .pure rfl
  | constant text => cases value <;> exact .pure rfl

/-- The field that is added for a join value holds no values. -/
theorem traverse_phantom (g : V → F W) (value : JoinField b) :
    (value.phantom : Field b Empty V).traverse pure g = pure value.phantom := by
  cases value with
  | column name type =>
      simp [phantom, Selection.traverse, ColumnField.traverse, Redaction.traverse]
  | computedField enabled name function type =>
      have harguments : (Arguments.ofPositional [.tableRow] : Arguments V).traverse g =
          pure (.ofPositional [.tableRow]) := by
        have hnamed : (∅ : OrderedMap String (Argument V)).traverse (Argument.traverse g) =
            pure ∅ := map_pure _ _
        simp [Arguments.ofPositional, Arguments.traverse, Argument.traverse, List.mapA, hnamed]
      simp [phantom, Selection.traverse, ScalarCall.traverse, Redaction.traverse, harguments]

end JoinField

theorem Entries.traverse_push {key : K} (f : A → F B) {value : A} {result : B}
    (hvalue : f value = pure result) : {keys : List K} → (entries : Entries K A keys) →
    (habsent : key ∉ keys) →
    (entries.push value habsent).traverse f = (·.push result habsent) <$> entries.traverse f
  | _, .nil, _ => by simp [push, traverse, hvalue]
  | _, .cons other fresh first rest, habsent => by
      rw [push, traverse, traverse_push f hvalue rest]
      simp [traverse, functor_norm, Function.comp_def, push]

/-- A value without effects can be added before or after the effects. -/
theorem OrderedMap.traverse_insert [DecidableEq K] (f : A → F B) {key : K} {value : A}
    {result : B} (hvalue : f value = pure result) {map : OrderedMap K A}
    (habsent : key ∉ map.keys) :
    (map.insert key value).traverse f = (·.insert key result) <$> map.traverse f := by
  rw [insert, dif_neg habsent, traverse, map.entries.traverse_push f hvalue, traverse,
    ← comp_map, ← comp_map]
  congr 1
  funext results
  change mk _ = (mk results).insert key result
  rw [insert, dif_neg habsent]

namespace JoinLevel

/-- Runs an effect on the values of a level. -/
def traverse (g : V → F W) (level : JoinLevel b V) : F (JoinLevel b W) :=
  (mk · level.phantoms) <$> level.fields.traverse (Selection.traverse pure g)

/-- The answer of `steps` on a level, and the level after it, can be had before or after `g` is
run on the values of the level: `steps'` are the same steps on a level of other values. -/
def Blind (g : V → F W) (steps : StateM (JoinLevel b V) A) (steps' : StateM (JoinLevel b W) A) :
    Prop :=
  ∀ level, Separates (fun level => ((steps' level).2, (steps' level).1)) (level.traverse g)
    ((steps level).2.traverse g) (steps level).1

namespace Blind

omit [LawfulApplicative F] in
theorem pure (g : V → F W) (answer : A) :
    Blind (b := b) g (Pure.pure answer) (Pure.pure answer) :=
  fun _ => rfl

variable {g : V → F W}

theorem map {steps : StateM (JoinLevel b V) A} {steps' : StateM (JoinLevel b W) A} (f : A → B)
    (hsteps : Blind g steps steps') : Blind g (f <$> steps) (f <$> steps') := by
  intro level
  exact (hsteps level).andThen (fun answer (_ : Unit) => f answer) (.trivial _) fun _ => rfl

theorem seq {steps : StateM (JoinLevel b V) (A → B)} {steps' : StateM (JoinLevel b W) (A → B)}
    {next : StateM (JoinLevel b V) A} {next' : StateM (JoinLevel b W) A}
    (hsteps : Blind g steps steps') (hnext : Blind g next next') :
    Blind g (steps <*> next) (steps' <*> next') := by
  intro level
  exact (hsteps level).andThen (fun f answer => f answer) (hnext _) fun _ => rfl

theorem traverseKeyed {step : K → A → StateM (JoinLevel b V) B}
    {step' : K → A → StateM (JoinLevel b W) B} (hstep : ∀ key value,
      Blind g (step key value) (step' key value)) :
    {keys : List K} → (entries : Entries K A keys) →
    Blind g (entries.traverseKeyed step) (entries.traverseKeyed step')
  | _, .nil => pure g _
  | _, .cons key _ value rest => ((hstep key value).map _).seq (traverseKeyed hstep rest)

theorem mapA {step : A → StateM (JoinLevel b V) B} {step' : A → StateM (JoinLevel b W) B}
    (hstep : ∀ item, Blind g (step item) (step' item)) :
    (items : List A) → Blind g (items.mapA step) (items.mapA step')
  | [] => pure g _
  | item :: items => ((hstep item).map _).seq (mapA hstep items)

end Blind

/-- How a join value is settled, given the name of the first field that carries it. -/
def settleColumn (name : FieldName) (value : JoinField b) (found : Option FieldName)
    (level : JoinLevel b V) : JoinColumn × JoinLevel b V :=
  match found with
  | some found => (if level.phantoms.contains found then .phantom found else .selected found, level)
  | none =>
      let added := unusedName level.fields.keys (phantomMark ++ name.text)
      (.phantom added, level.add added value)

theorem joinColumn_eq (name : FieldName) (value : JoinField b) (level : JoinLevel b V) :
    joinColumn name value level = settleColumn name value
      (Prod.fst <$> level.fields.findEntry? value.selectedBy) level := by
  rw [joinColumn]
  cases level.fields.findEntry? value.selectedBy <;> rfl

theorem traverse_add (g : V → F W) (level : JoinLevel b V) {name : FieldName}
    (value : JoinField b) (hfresh : name ∉ level.fields.keys) :
    (level.add name value).traverse g = (·.add name value) <$> level.traverse g := by
  rw [traverse, add, OrderedMap.traverse_insert _ (value.traverse_phantom g) hfresh, traverse,
    ← comp_map, ← comp_map]
  rfl

/-- One join value is settled without a look at the values of the fields. -/
theorem joinColumn_blind (g : V → F W) (name : FieldName) (value : JoinField b) :
    Blind g (joinColumn name value) (joinColumn name value) := by
  intro level
  have hfields : Known
      (fun fields : FieldMap b Empty W .row => Prod.fst <$> fields.findEntry? value.selectedBy)
      (level.fields.traverse (Selection.traverse pure g))
      (Prod.fst <$> level.fields.findEntry? value.selectedBy) :=
    .map id (.firstKey (value.known_selectedBy g) level.fields.entries) fun _ => rfl
  have hfound : Known
      (fun after : JoinLevel b W => Prod.fst <$> after.fields.findEntry? value.selectedBy)
      (level.traverse g) (Prod.fst <$> level.fields.findEntry? value.selectedBy) :=
    .map id hfields fun _ => rfl
  simp only [joinColumn_eq]
  refine hfound.use (fun after found =>
    ((settleColumn name value found after).2, (settleColumn name value found after).1)) ?_
  cases Prod.fst <$> level.fields.findEntry? value.selectedBy with
  | some found => exact .effect fun _ => rfl
  | none =>
      have hkeys : Known (fun after : JoinLevel b W => after.fields.keys) (level.traverse g)
          level.fields.keys := .map id (.effect fun _ => rfl) fun _ => rfl
      have hfresh := unusedName_not_mem level.fields.keys (phantomMark ++ name.text)
      rw [settleColumn, level.traverse_add g value hfresh]
      exact hkeys.use (fun after keys =>
        let added := unusedName keys (phantomMark ++ name.text)
        (after.add added value, JoinColumn.phantom added)) (.after _ _)

theorem join_blind (g : V → F W) (relationship : RemoteRelationship b R) :
    Blind g (join relationship) (join relationship) :=
  .map _ (.map _ (.traverseKeyed (joinColumn_blind g) relationship.joinFields.entries))

theorem joinAll_blind (g : V → F W) (remotes : List (FieldName × RemoteRelationship b R)) :
    Blind g (joinAll remotes) (joinAll remotes) :=
  .mapA (fun (name, relationship) => .map (name, ·) (join_blind g relationship)) remotes

end JoinLevel

end SelectPlan
