import SelectPlan.Proofs.Planning.Runs
import SelectPlan.Proofs.Preparation.Steps
import SelectPlan.Proofs.RemoteJoins.Reports
import SelectPlan.Proofs.Validation.Operators

/-!
The operators of a plan.  Splitting adds fields that use no operator, and preparing changes nothing
but values, so a plan uses the operators of its select.
-/

namespace SelectPlan

variable {b : Backend} {R V W : Type} {name : String}

/-! Operators and values -/

theorem Aggregates.uses_erased {aggregates : Aggregates b V} :
    Uses name (erased traverseValues aggregates) ↔ aggregates.Uses name := by
  rw [erased_eq, Uses, Uses, OrderedMap.values, OrderedMap.map, Entries.values_map]
  constructor
  · rintro ⟨operands, hmem⟩
    obtain ⟨aggregate, haggregate, heq⟩ := List.mem_map.mp hmem
    cases aggregate with
    | operator other operands' =>
        rw [Aggregate.erased_operator] at heq
        cases heq
        exact ⟨operands', haggregate⟩
    | count counted => cases counted <;> cases heq
    | constant text => cases heq
  · rintro ⟨operands, hmem⟩
    exact ⟨_, List.mem_map.mpr ⟨_, hmem, Aggregate.erased_operator name operands⟩⟩

theorem SelectArgs.uses_erased {args : SelectArgs b V} :
    (erased traverse args).Uses name ↔ args.Uses name := by
  simp only [Uses, orderItems_erased, List.mem_map, exists_exists_and_eq_and]
  exact exists_congr fun item => and_congr_right fun _ => item.term.uses_erase

theorem Page.uses_erased {page : Page b V} :
    (erased traverse page).Uses name ↔ page.Uses name := by
  simp only [Uses, boundList_erased, List.mem_map, exists_exists_and_eq_and]
  exact Iff.rfl

namespace Selection

theorem uses_shape {part : Part} (tree : Selection b R V part) :
    tree.shape.Uses name ↔ tree.Uses name := by
  induction tree with
  | aggregates items => exact Aggregates.uses_erased
  | cons first fresh field rest ihField ihRest => exact or_congr ihField ihRest
  | select fields query ih => exact or_congr ih SelectArgs.uses_erased
  | page enabled window inner ih => exact or_congr Page.uses_erased ih
  | objectRelation relationship inner ih => exact ih
  | arrayRelation inner ih => exact ih
  | computedField enabled field inner ih => exact ih
  | nodes enabled fields ih => exact ih
  | edges fields ih => exact ih
  | node fields ih => exact ih
  | object fields target filter ih => exact ih
  | simple relationship inner ih => exact ih
  | aggregate relationship inner ih => exact ih
  | connection relationship inner ih => exact ih
  | table shape inner ih => exact ih
  | _ => exact Iff.rfl

/-! Operators and added fields -/

theorem uses_fields {vocabulary : Vocabulary} : {names : List FieldName} →
    (fields : Selection b R V (.fields vocabulary names)) →
    (fields.Uses name ↔ ∃ entry ∈ fields.toMap.toList, entry.2.Uses name)
  | _, nil => iff_of_false id fun ⟨_, hentry, _⟩ => List.not_mem_nil hentry
  | _, cons first fresh field rest => by
      change field.Uses name ∨ rest.Uses name ↔
        ∃ entry ∈ (first, field) :: rest.toMap.toList, entry.2.Uses name
      rw [uses_fields rest, List.exists_mem_cons_iff]

theorem not_uses_phantom (value : JoinField b) : ¬ (value.phantom : Field b Empty V).Uses name := by
  cases value <;> exact id

/-- The fields that are added to a level use no operators. -/
theorem uses_settled {names : List FieldName} (fields : Selection b R V (.fields .row names)) :
    (ofEntries (settle fields fields.stripped).2.fields.entries).Uses name ↔
      fields.stripped.Uses name := by
  obtain ⟨added, hfields, -⟩ := settle_reported fields
  rw [uses_fields, uses_fields, toMap_ofEntries, hfields]
  constructor
  · rintro ⟨entry, hentry, huses⟩
    rcases List.mem_append.mp hentry with hown | hadded
    · exact ⟨entry, hown, huses⟩
    · obtain ⟨⟨_, value⟩, -, rfl⟩ := List.mem_map.mp hadded
      exact absurd huses (not_uses_phantom value)
  · rintro ⟨entry, hentry, huses⟩
    exact ⟨entry, List.mem_append_left _ hentry, huses⟩

theorem uses_stripped {part : Part} (tree : Selection b R V part) :
    tree.stripped.Uses name ↔ tree.Uses name := by
  induction tree with
  | cons first fresh field rest ihField ihRest => exact or_congr ihField ihRest
  | @select vocabulary names fields query ih =>
      cases vocabulary with
      | row => exact or_congr ((uses_settled fields).trans ih) Iff.rfl
      | aggregate => exact or_congr ih Iff.rfl
      | connection => exact or_congr ih Iff.rfl
      | edge => exact or_congr ih Iff.rfl
  | object fields target filter ih => exact (uses_settled fields).trans ih
  | nodes enabled fields ih => exact (uses_settled fields).trans ih
  | node fields ih => exact (uses_settled fields).trans ih
  | edges fields ih => exact ih
  | objectRelation relationship inner ih => exact ih
  | arrayRelation inner ih => exact ih
  | computedField enabled field inner ih => exact ih
  | simple relationship inner ih => exact ih
  | aggregate relationship inner ih => exact ih
  | connection relationship inner ih => exact ih
  | page enabled window inner ih => exact or_congr Iff.rfl ih
  | table shape inner ih => exact ih
  | _ => exact Iff.rfl

theorem uses_withDefaultNaming {select : Select b R V} (convention : NamingConvention) :
    (select.withDefaultNaming convention).Uses name ↔ select.Uses name := by
  cases select
  exact Iff.rfl

/-- A plan uses the operators of its select. -/
theorem uses_plan [HasJson R] {select : Select b R (Unprepared b)} {session : Session}
    {catalog : Catalog b} {options : Options} {before after : Recorder} {plan : Plan b R}
    (hplan : select.plan session catalog options before = (.ok plan, after)) :
    plan.select.Uses name ↔ select.Uses name := by
  obtain ⟨-, -, hprepare⟩ := plan_ok hplan
  obtain ⟨preparation, hsteps, -⟩ := TreeKind.prepare_ok hprepare
  obtain ⟨hshape, -⟩ := TreeKind.traverse_ok hsteps
  have hsame : Selection.shape plan.select = _ := hshape
  rw [← uses_shape, hsame]
  exact (uses_shape _).trans ((uses_stripped _).trans (uses_withDefaultNaming _))

/-- If a select was validated, its plan has no aggregate operator anywhere that the backend does
not support, not even in the bounds of a page. -/
theorem plan_operators_supported [HasJson R] {select : Select b R (Unprepared b)}
    {session : Session} {catalog : Catalog b} {options : Options} {before after : Recorder}
    {plan : Plan b R} (hvalidate : options.validate = true)
    (hplan : select.plan session catalog options before = (.ok plan, after)) :
    ∀ name, plan.select.Uses name → b.supportsAggregate name = true := by
  intro name huses
  obtain ⟨hvalid, -, -⟩ := plan_ok hplan
  apply supported_of_validate (hvalid hvalidate)
  rw [uses_withDefaultNaming, ← uses_plan hplan]
  exact huses

/-- Authors with the sum of their pages and a page of their books, which are ordered by their
longest chapter and start behind a cursor.  Their reviews are elsewhere. -/
def authorSelect : Select .postgres String (Unprepared .postgres) :=
  let pages : ColumnInfo .postgres := { column := ⟨"pages"⟩, type := .enumReference "pages" }
  let chapters : RelationshipInfo .postgres :=
    { name := ⟨"chapters"⟩, kind := .array, mapping := ∅,
      target := .qualified ⟨"public", "chapter"⟩ (by decide) }
  let books : Relationship := { name := ⟨"books"⟩, mapping := ∅ }
  let ordering {V : Type} : OrderItem .postgres V :=
    .desc (.arrayAggregate chapters .trivial (.operator "max" pages.type pages .none))
  let query (name : FieldName) (args : SelectArgs .postgres (Unprepared .postgres)) :
      Query .postgres (Unprepared .postgres) :=
    { source := .identifier name, permission := .unrestricted, args }
  let total : AggregateSelect .postgres String (Unprepared .postgres) :=
    ofFields (.ofList [(⟨"aggregate"⟩, .aggregates
      (.ofList [(⟨"sum"⟩, .operator "sum" (.ofList [(⟨"pages"⟩, .column pages .none)]))]))])
      (query ⟨"book"⟩ {})
  let bound : PageBound .postgres (Unprepared .postgres) :=
    { kind := .after, value := .literal (.int 12), order := ordering }
  let fields : FieldMap .postgres String (Unprepared .postgres) .connection :=
    .ofList [(⟨"edges"⟩, .edges (.cons ⟨"cursor"⟩ List.not_mem_nil .cursor .nil))]
  let longest : ConnectionSelect .postgres String (Unprepared .postgres) :=
    .page rfl { primaryKey := .singleton pages, bounds := some (.singleton bound) }
      (ofFields fields (query ⟨"book"⟩ { orderBy := some (.singleton ordering) }))
  ofFields (.ofList [(⟨"total"⟩, .arrayRelation (.aggregate books total)),
    (⟨"longest"⟩, .arrayRelation (.connection books longest)),
    (⟨"reviews"⟩, .remote
      { joinFields := .ofList [(⟨"id"⟩, .column ⟨"id"⟩ pages.type)], target := "reviews" })])
    (query ⟨"author"⟩ {})

theorem plan_authorSelect_operators_supported :
    ∃ plan finish, authorSelect.plan .empty ⟨∅⟩ {} {} = (.ok plan, finish) ∧
      (plan.select.Uses "sum" ∧ Backend.postgres.supportsAggregate "sum" = true) ∧
      plan.select.Uses "max" ∧ Backend.postgres.supportsAggregate "max" = true := by
  have hplan : authorSelect.plan .empty ⟨∅⟩ {} {} = (.ok _, _) := rfl
  have hsum := (uses_plan hplan).mpr
    (show authorSelect.Uses "sum" from .inl (.inl (.inl (.inl ⟨_, List.mem_cons_self⟩))))
  have hmax := (uses_plan hplan).mpr
    (show authorSelect.Uses "max" from .inl (.inr (.inl (.inl ⟨_, List.mem_cons_self, rfl⟩))))
  exact ⟨_, _, hplan, ⟨hsum, plan_operators_supported rfl hplan "sum" hsum⟩, hmax,
    plan_operators_supported rfl hplan "max" hmax⟩

end Selection

end SelectPlan
