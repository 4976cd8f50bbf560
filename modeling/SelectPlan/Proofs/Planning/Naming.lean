import SelectPlan.Proofs.Planning.Runs
import SelectPlan.Proofs.RemoteJoins.Growth
import SelectPlan.Proofs.RemoteJoins.Substitution
import SelectPlan.Proofs.Validation.Replacement

/-!
Naming conventions in a plan.  The selects of a query are planned without being moved, so each of
them can be found in the plan; the convention of the options is given to the outermost one.
-/

namespace SelectPlan

variable {b : Backend} {R V : Type}

namespace Selection

/-- The naming conventions of the selects of a part of a selection, each with the response fields
on the way to the select.  A select comes before those that are nested in it. -/
def namings :
    {part : Part} → Selection b R V part → List (List FieldName × Option NamingConvention)
  | _, column _ => []
  | _, objectRelation _ inner => inner.namings
  | _, arrayRelation inner => inner.namings
  | _, computedField _ _ inner => inner.namings
  | _, remote _ => []
  | _, nodeId _ _ _ => []
  | _, constant _ => []
  | _, aggregates _ => []
  | _, nodes _ fields => fields.namings
  | _, aggregateConstant _ => []
  | _, connectionTypeName _ => []
  | _, pageInfo _ => []
  | _, edges fields => fields.namings
  | _, edgeTypeName _ => []
  | _, cursor => []
  | _, node fields => fields.namings
  | _, nil => []
  | _, cons name _ field rest =>
      (field.namings.map fun (path, naming) => (name :: path, naming)) ++ rest.namings
  | _, select fields query => ([], query.naming) :: fields.namings
  | _, object fields _ _ => fields.namings
  | _, simple _ inner => inner.namings
  | _, aggregate _ inner => inner.namings
  | _, connection _ inner => inner.namings
  | _, page _ _ inner => inner.namings
  | _, scalar _ => []
  | _, table _ inner => inner.namings

/-- A select with a naming convention, or without one. -/
def withNaming (select : Select b R V) (naming : Option NamingConvention) : Select b R V :=
  select.mapQuery fun query => { query with naming }

theorem namings_withNaming (select : Select b R V) (naming : Option NamingConvention) :
    (select.withNaming naming).namings = ([], naming) :: select.namings.tail := by
  cases select
  rfl

theorem withDefaultNaming_eq (select : Select b R V) (convention : NamingConvention) :
    select.withDefaultNaming convention =
      select.withNaming (some (select.query.naming.getD convention)) := by
  cases select
  rfl

theorem withNaming_withNaming (select : Select b R V) (first second : Option NamingConvention) :
    (select.withNaming first).withNaming second = select.withNaming second := by
  cases select
  rfl

theorem plan_of_prepare [HasJson R] {select : Select b R (Unprepared b)} {session : Session}
    {catalog : Catalog b} (options : Options) (before : Recorder)
    {prepared : Select b Empty (Prepared b)} {bindings : Bindings b}
    (hvalid : options.validate = true →
      (select.withDefaultNaming options.namingConvention).validate catalog = .ok ())
    (hprepare : TreeKind.prepare session options.dedupeParameters (.part _)
      (splitRemotes (select.withDefaultNaming options.namingConvention)).1 =
        .ok (prepared, bindings)) :
    ∃ plan after, select.plan session catalog options before = (.ok plan, after) ∧
      plan.select = prepared ∧
      plan.remoteJoins =
        (splitRemotes (select.withDefaultNaming options.namingConvention)).2 ∧
      plan.bindings = bindings := by
  obtain ⟨plan, after, hplan⟩ :=
    (plan_succeeds_iff select session catalog options before).mpr ⟨hvalid, _, hprepare⟩
  obtain ⟨-, hjoins, hplanned⟩ := plan_ok hplan
  obtain ⟨hselect, hbindings⟩ := Prod.mk.inj (Except.ok.inj (hplanned.symm.trans hprepare))
  exact ⟨plan, after, hplan, hselect, hjoins, hbindings⟩

/-! The selects of a query stay in their places. -/

theorem namings_shape {part : Part} (tree : Selection b R V part) :
    tree.shape.namings = tree.namings := by
  induction tree with
  | cons name fresh field rest ihField ihRest =>
      have hshape : (cons name fresh field rest).shape =
          cons name fresh field.shape rest.shape := rfl
      rw [hshape, namings, ihField, ihRest, namings]
  | select fields query ih => exact congrArg (([], query.naming) :: ·) ih
  | objectRelation relationship inner ih => exact ih
  | arrayRelation inner ih => exact ih
  | computedField enabled name inner ih => exact ih
  | nodes enabled fields ih => exact ih
  | edges fields ih => exact ih
  | node fields ih => exact ih
  | object fields target filter ih => exact ih
  | simple relationship inner ih => exact ih
  | aggregate relationship inner ih => exact ih
  | connection relationship inner ih => exact ih
  | page enabled window inner ih => exact ih
  | table shape inner ih => exact ih
  | _ => rfl

theorem namings_fields {vocabulary : Vocabulary} : {names : List FieldName} →
    (fields : Selection b R V (.fields vocabulary names)) →
    fields.namings = fields.toMap.toList.flatMap fun (name, field) =>
      field.namings.map fun (path, naming) => (name :: path, naming)
  | _, nil => rfl
  | _, cons name fresh field rest => by
      rw [namings, namings_fields rest]
      rfl

theorem namings_phantom (value : JoinField b) :
    (value.phantom : Field b Empty V).namings = [] := by
  cases value <;> rfl

/-- No select is added to a level. -/
theorem namings_settled {names : List FieldName} (fields : Selection b R V (.fields .row names)) :
    (ofEntries (settle fields fields.stripped).2.fields.entries).namings =
      fields.stripped.namings := by
  obtain ⟨added, hfields, -⟩ := settle_grows fields fields.stripped
  rw [namings_fields, toMap_ofEntries, hfields, List.flatMap_append, ← namings_fields]
  apply List.append_right_eq_self.mpr
  rw [List.flatMap_map, List.flatMap_eq_nil_iff]
  exact fun entry _ => List.map_eq_nil_iff.mpr (namings_phantom entry.2)

theorem namings_stripped {part : Part} (tree : Selection b R V part) :
    tree.stripped.namings = tree.namings := by
  induction tree with
  | cons name fresh field rest ihField ihRest =>
      rw [stripped, namings, ihField, ihRest, namings]
  | @select vocabulary names fields query ih =>
      cases vocabulary with
      | row => exact congrArg (([], query.naming) :: ·) ((namings_settled fields).trans ih)
      | aggregate => exact congrArg (([], query.naming) :: ·) ih
      | connection => exact congrArg (([], query.naming) :: ·) ih
      | edge => exact congrArg (([], query.naming) :: ·) ih
  | object fields target filter ih => exact (namings_settled fields).trans ih
  | nodes enabled fields ih => exact (namings_settled fields).trans ih
  | node fields ih => exact (namings_settled fields).trans ih
  | edges fields ih => exact ih
  | objectRelation relationship inner ih => exact ih
  | arrayRelation inner ih => exact ih
  | computedField enabled name inner ih => exact ih
  | simple relationship inner ih => exact ih
  | aggregate relationship inner ih => exact ih
  | connection relationship inner ih => exact ih
  | page enabled window inner ih => exact ih
  | table shape inner ih => exact ih
  | _ => rfl

/-! The convention of the outermost select goes through every pass as it is. -/

theorem validate_withNaming (select : Select b R V) (naming : Option NamingConvention)
    (catalog : Catalog b) :
    (select.withNaming naming).validate catalog = select.validate catalog := by
  cases select
  rfl

theorem splitRemotes_withNaming (select : Select b R V) (naming : Option NamingConvention) :
    splitRemotes (select.withNaming naming) =
      ((splitRemotes select).1.withNaming naming, (splitRemotes select).2) := by
  cases select
  rfl

theorem traverse_withNaming {F : Type → Type} [Applicative F] [LawfulApplicative F] {S W : Type}
    (f : R → F S) (g : V → F W) (select : Select b R V) (naming : Option NamingConvention) :
    (select.withNaming naming).traverse f g = (withNaming · naming) <$> select.traverse f g := by
  cases select with
  | select fields query =>
      simp only [withNaming, mapQuery, traverse, Query.traverse, functor_norm, Function.comp_def]

/-- A select is prepared in the same way, whatever its naming convention. -/
theorem prepare_withNaming {select : Select b R (Unprepared b)} {session : Session} {share : Bool}
    {prepared : Select b R (Prepared b)} {bindings : Bindings b}
    (hprepare : TreeKind.prepare session share (.part _) select = .ok (prepared, bindings))
    (naming : Option NamingConvention) :
    TreeKind.prepare session share (.part _) (select.withNaming naming) =
      .ok (prepared.withNaming naming, bindings) := by
  obtain ⟨preparation, hsteps, rfl⟩ := TreeKind.prepare_ok hprepare
  have hnamed := congrFun
    (traverse_withNaming pure (Preparation.prepareValue session share) select naming) {}
  rw [Steps.map_apply] at hnamed
  have hrun : Preparation.run
      (TreeKind.prepareSteps session share (.part _) (select.withNaming naming)) =
        (.ok (prepared.withNaming naming), preparation) :=
    hnamed.trans (congrArg (fun run => (run.1.map (withNaming · naming), run.2)) hsteps)
  rw [TreeKind.prepare, hrun]

theorem namings_eq (select : Select b R V) :
    select.namings = ([], select.query.naming) :: select.namings.tail := by
  cases select
  rfl

/-- Defaults are of no use where everything is set. -/
theorem map_default_eq_self_iff {convention : NamingConvention}
    {namings : List (List FieldName × Option NamingConvention)} :
    namings.map (fun (path, own) => (path, some (own.getD convention))) = namings ↔
      ∀ entry ∈ namings, entry.2 ≠ none := by
  conv_lhs => rw [← List.map_id namings, List.map_map, List.map_inj_left]
  apply forall₂_congr
  rintro ⟨path, own⟩ -
  cases own <;> simp

/-- The outermost select of a plan has the convention that it set itself or else that of the
options, and every select nested in it has what it set itself, a convention or none.  So all selects
have a convention after planning exactly if the nested ones had theirs before.  With another
convention in the options there is a plan, too, which differs in the outermost convention alone. -/
theorem plan_names_outermost_select [HasJson R] {select : Select b R (Unprepared b)}
    {session : Session} {catalog : Catalog b} {options : Options} {before after : Recorder}
    {plan : Plan b R} (hplan : select.plan session catalog options before = (.ok plan, after)) :
    plan.select.namings =
        ([], some (select.query.naming.getD options.namingConvention)) :: select.namings.tail ∧
      (plan.select.namings =
          (select.namings.map fun (path, own) =>
            (path, some (own.getD options.namingConvention))) ↔
        ∀ nested ∈ select.namings.tail, nested.2 ≠ none) ∧
      ∀ convention recorder, ∃ other last,
        select.plan session catalog { options with namingConvention := convention } recorder =
          (.ok other, last) ∧
        other.select = plan.select.withNaming (some (select.query.naming.getD convention)) ∧
        other.remoteJoins = plan.remoteJoins ∧ other.bindings = plan.bindings := by
  obtain ⟨hvalid, hjoins, hprepare⟩ := plan_ok hplan
  generalize hdefault : select.withDefaultNaming options.namingConvention = named
    at hvalid hjoins hprepare
  have hnamings : plan.select.namings =
      ([], some (select.query.naming.getD options.namingConvention)) :: select.namings.tail := by
    rw [← namings_shape, shape_prepare hprepare, namings_shape, ← namings_withNaming,
      ← withDefaultNaming_eq, hdefault]
    exact namings_stripped named
  refine ⟨hnamings, ?_, ?_⟩
  · rw [hnamings, namings_eq select, List.map_cons, List.tail_cons, List.cons_inj_right, eq_comm]
    exact map_default_eq_self_iff
  · intro convention recorder
    have hnamed : select.withDefaultNaming convention =
        named.withNaming (some (select.query.naming.getD convention)) := by
      rw [← hdefault, withDefaultNaming_eq, withDefaultNaming_eq, withNaming_withNaming]
    have hvalid' : options.validate = true →
        (select.withDefaultNaming convention).validate catalog = .ok () := by
      rw [hnamed, validate_withNaming]
      exact hvalid
    have hsplit := splitRemotes_withNaming named (some (select.query.naming.getD convention))
    rw [← hnamed] at hsplit
    have hprepare' : TreeKind.prepare session options.dedupeParameters (.part _)
        (splitRemotes (select.withDefaultNaming convention)).1 =
          .ok (plan.select.withNaming (some (select.query.naming.getD convention)),
            plan.bindings) := by
      rw [hsplit]
      exact prepare_withNaming hprepare _
    obtain ⟨other, last, hplanned, hselect, hremotes, hbindings⟩ :=
      plan_of_prepare { options with namingConvention := convention } recorder hvalid' hprepare'
    refine ⟨other, last, hplanned, hselect, ?_, hbindings⟩
    rw [hremotes, hsplit, hjoins]

/-- Authors with their books, without a naming convention. -/
def authorsWithBooks : Select .postgres String (Unprepared .postgres) :=
  let books : Select .postgres String (Unprepared .postgres) :=
    ofFields (.ofList [(⟨"kind"⟩, .constant "book")])
      { source := .identifier ⟨"book"⟩, permission := .unrestricted }
  let wrote : Relationship :=
    { name := ⟨"books"⟩, mapping := .ofList [(⟨"id"⟩, ⟨"author_id"⟩)] }
  ofFields (.ofList [(⟨"books"⟩, .arrayRelation (.simple wrote books))])
    { source := .identifier ⟨"author"⟩, permission := .unrestricted }

theorem plan_authorsWithBooks_names_outermost_select :
    let options : Options := { namingConvention := .graphql }
    ∃ plan after, authorsWithBooks.plan .empty ⟨∅⟩ options {} = (.ok plan, after) ∧
      plan.select.namings =
        ([], some (authorsWithBooks.query.naming.getD .graphql)) :: authorsWithBooks.namings.tail ∧
      (plan.select.namings =
          (authorsWithBooks.namings.map fun (path, own) => (path, some (own.getD .graphql))) ↔
        ∀ nested ∈ authorsWithBooks.namings.tail, nested.2 ≠ none) ∧
      ∀ convention recorder, ∃ other last,
        authorsWithBooks.plan .empty ⟨∅⟩ { options with namingConvention := convention } recorder =
          (.ok other, last) ∧
        other.select =
          plan.select.withNaming (some (authorsWithBooks.query.naming.getD convention)) ∧
        other.remoteJoins = plan.remoteJoins ∧ other.bindings = plan.bindings := by
  intro options
  have hplan : authorsWithBooks.plan .empty ⟨∅⟩ options {} = (.ok _, _) := rfl
  exact ⟨_, _, hplan, plan_names_outermost_select hplan⟩

/-- The convention of the options does not reach the selects that are nested in another one: the
books do not set theirs, and they have none in the plan. -/
theorem plan_leaves_nested_selects_unnamed :
    (authorsWithBooks.plan .empty ⟨∅⟩ { namingConvention := .graphql } {}).1.toOption.map
        (·.select.namings) = some [([], some .graphql), ([⟨"books"⟩], none)] ∧
      ¬ ∀ (select : Select .postgres String (Unprepared .postgres)) (session : Session)
        (catalog : Catalog .postgres) (options : Options) (before after : Recorder)
        (plan : Plan .postgres String),
        select.plan session catalog options before = (.ok plan, after) →
        plan.select.namings = select.namings.map fun (path, own) =>
          (path, some (own.getD options.namingConvention)) := by
  constructor
  · rfl
  · intro hall
    have hnamings := hall authorsWithBooks .empty ⟨∅⟩ { namingConvention := .graphql } {} _ _ rfl
    exact absurd hnamings (by decide)

end Selection

end SelectPlan
