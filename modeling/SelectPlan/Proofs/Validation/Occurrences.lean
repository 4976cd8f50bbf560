import Mathlib.Data.List.Basic
import SelectPlan.Planning.Validation

/-!
What validation reports.  A select requires columns of its tables, operators of its backend and an
ordering of its pages.  These requirements can be listed without a catalog, field by field in the
order of the response; validation reports those of them that do not hold, and nothing else.
-/

namespace SelectPlan

variable {b : Backend} {R V : Type}

/-- Something that a select relies on and that its type does not ensure. -/
inductive Requirement (b : Backend) (R V : Type) where
  /-- If the rows come from a table, it is tracked and has a column. -/
  | column (rows : Source b V) (name : ColumnName)
  /-- The backend knows an aggregate operator. -/
  | operator (name : String)
  /-- The cursors of a connection follow its ordering. -/
  | page (connection : ConnectionSelect b R V)

namespace Requirement

/-- Whether a requirement is fulfilled.  Of rows that do not come from a table no column is
required. -/
def Holds (catalog : Catalog b) : Requirement b R V → Prop
  | column (.table table) name =>
      ∃ tracked ∈ catalog.tables.toList, tracked.1 = table ∧ name ∈ tracked.2
  | column (.identifier _) _ | column (.function _ _ _) _ | column (.nativeQuery _ _) _ => True
  | operator name => b.supportsAggregate name = true
  | page connection => connection.validatePage = .ok ()

instance (catalog : Catalog b) : DecidablePred (Holds catalog : Requirement b R V → Prop)
  | column (.table table) name =>
      inferInstanceAs
        (Decidable (∃ tracked ∈ catalog.tables.toList, tracked.1 = table ∧ name ∈ tracked.2))
  | column (.identifier _) _ | column (.function _ _ _) _ | column (.nativeQuery _ _) _ =>
      .isTrue trivial
  | operator name => inferInstanceAs (Decidable (b.supportsAggregate name = true))
  | page connection =>
      match hpage : connection.validatePage with
      | .ok () => .isTrue hpage
      | .error _ => .isFalse fun hok => nomatch hpage.symm.trans hok

/-- How it is reported that a requirement is not fulfilled: by one error, or by those of the
page. -/
def errors (catalog : Catalog b) : Requirement b R V → List Error
  | column (.table table) name =>
      if table ∈ catalog.tables.keys then
        [{ reason := .notFound (table.display ++ "." ++ name.text) "column" }]
      else [{ reason := .notFound table.display "table" }]
  | column (.identifier _) _ | column (.function _ _ _) _ | column (.nativeQuery _ _) _ => []
  | operator name =>
      [{ reason := .unsupported ("aggregate operator `" ++ name ++ "`") b.name }]
  | page connection =>
      match connection.validatePage with
      | .ok () => []
      | .error errors => errors.list

/-- The requirement of a column, if there are rows that should have it. -/
def ofColumn (rows : Option (Source b V)) (name : ColumnName) : List (Requirement b R V) :=
  rows.toList.map (column · name)

/-- What a relationship requires: each entry of the mapping a column on either side, the near one
first. -/
def ofMapping (mapping : ColumnMapping) (parent : Option (Source b V)) (target : Source b V) :
    List (Requirement b R V) :=
  mapping.toList.flatMap fun (left, right) => ofColumn parent left ++ ofColumn target right

/-- What a remote relationship requires: the columns among its join fields. -/
def ofJoinFields (joinFields : OrderedMap FieldName (JoinField b)) (rows : Option (Source b V)) :
    List (Requirement b R V) :=
  joinFields.toList.flatMap fun
    | (_, .column name _) => ofColumn rows name
    | (_, .computedField _ _ _ _) => []

/-- What aggregates require: the operators that they apply. -/
def ofAggregates (aggregates : Aggregates b V) : List (Requirement b R V) :=
  aggregates.toList.flatMap fun
    | (_, .operator name _) => [operator name]
    | (_, .count _) | (_, .constant _) => []

/-- What an order by an aggregate requires. -/
def ofOrderAggregate : OrderAggregate b V → List (Requirement b R V)
  | .count => []
  | .operator name _ _ _ => [operator name]

/-- What an order by a term requires, behind any number of relationships. -/
def ofTerm : OrderTerm b V → List (Requirement b R V)
  | .column _ _ => []
  | .objectRelation _ _ term => ofTerm term
  | .arrayAggregate _ _ aggregate => ofOrderAggregate aggregate
  | .computedField _ _ _ _ (.scalar _ _) => []
  | .computedField _ _ _ _ (.aggregate _ _ aggregate) => ofOrderAggregate aggregate

/-- What the ordering of a select requires. -/
def ofOrdering (args : SelectArgs b V) : List (Requirement b R V) :=
  match args.orderBy with
  | some ⟨first, rest⟩ => (first :: rest).flatMap fun item => ofTerm item.term
  | none => []

/-- What the problems of an unfulfilled requirement are. -/
def problems (catalog : Catalog b) : Requirement b R V → List (Problem b)
  | column rows name => catalog.columnProblems rows.table? name
  | operator name => operatorProblems b [name]
  | page (.page _ window inner) => window.problems inner.query.args.orderItems

end Requirement

/-- A field of a selection, with its place in the response and what its rows come from. -/
structure LocatedField (b : Backend) (R V : Type) where
  path : List FieldName
  rows : Option (Source b V)
  {vocabulary : Vocabulary}
  field : Selection b R V (.field vocabulary)

/-- The field as seen from a field above. -/
def LocatedField.under (name : FieldName) (located : LocatedField b R V) : LocatedField b R V :=
  { located with path := name :: located.path }

/-- A requirement of the field at a place in the response. -/
structure Occurrence (b : Backend) (R V : Type) where
  path : List FieldName
  requirement : Requirement b R V

namespace Occurrence

/-- The requirement as seen from a field above. -/
def under (name : FieldName) (occurrence : Occurrence b R V) : Occurrence b R V :=
  { occurrence with path := name :: occurrence.path }

/-- The errors of an unfulfilled requirement, each with the place of the field. -/
def errors (catalog : Catalog b) (occurrence : Occurrence b R V) : List Error :=
  (occurrence.requirement.errors catalog).map fun error =>
    { error with path := occurrence.path.map Name.text ++ error.path }

/-- What is found where a requirement is not fulfilled. -/
def findings (catalog : Catalog b) (occurrence : Occurrence b R V) : List (Finding b) :=
  (occurrence.requirement.problems catalog).map (⟨occurrence.path, ·⟩)

end Occurrence

namespace Selection

/-- The fields below a part of a selection, at every depth, each in front of those below it.
`rows` is what the rows of the part come from; a select has its own. -/
def fieldsBelow : {part : Part} → Selection b R V part → Option (Source b V) →
    List (LocatedField b R V)
  | _, column _, _ => []
  | _, objectRelation _ inner, rows => inner.fieldsBelow rows
  | _, arrayRelation inner, rows => inner.fieldsBelow rows
  | _, computedField _ _ inner, rows => inner.fieldsBelow rows
  | _, remote _, _ => []
  | _, nodeId _ _ _, _ => []
  | _, constant _, _ => []
  | _, aggregates _, _ => []
  | _, nodes _ fields, rows => fields.fieldsBelow rows
  | _, aggregateConstant _, _ => []
  | _, connectionTypeName _, _ => []
  | _, pageInfo _, _ => []
  | _, edges fields, rows => fields.fieldsBelow rows
  | _, edgeTypeName _, _ => []
  | _, cursor, _ => []
  | _, node fields, rows => fields.fieldsBelow rows
  | _, nil, _ => []
  | _, cons name _ field rest, rows =>
      { path := [name], rows, field } ::
        (field.fieldsBelow rows).map (LocatedField.under name) ++ rest.fieldsBelow rows
  | _, select fields query, _ => fields.fieldsBelow query.source
  | _, object fields target _, _ => fields.fieldsBelow target
  | _, simple _ inner, rows => inner.fieldsBelow rows
  | _, aggregate _ inner, rows => inner.fieldsBelow rows
  | _, connection _ inner, rows => inner.fieldsBelow rows
  | _, page _ _ inner, rows => inner.fieldsBelow rows
  | _, scalar _, _ => []
  | _, table _ inner, rows => inner.fieldsBelow rows

/-- What a part of a selection requires by itself, apart from the fields below it: a relationship
its mapping, then a connection its page, then a select the operators that it orders by. -/
def requirements : {part : Part} → Selection b R V part → Option (Source b V) →
    List (Requirement b R V)
  | _, objectRelation relationship (object _ target _), rows =>
      Requirement.ofMapping relationship.mapping rows target
  | _, arrayRelation inner, rows => inner.requirements rows
  | _, computedField _ _ inner, rows => inner.requirements rows
  | _, remote relationship, rows => Requirement.ofJoinFields relationship.joinFields rows
  | _, aggregates items, _ => Requirement.ofAggregates items
  | _, select _ query, _ => Requirement.ofOrdering query.args
  | _, simple relationship (select _ query), rows =>
      Requirement.ofMapping relationship.mapping rows query.source ++
        Requirement.ofOrdering query.args
  | _, aggregate relationship (select _ query), rows =>
      Requirement.ofMapping relationship.mapping rows query.source ++
        Requirement.ofOrdering query.args
  | _, connection relationship (page enabled window (select fields query)), rows =>
      Requirement.ofMapping relationship.mapping rows query.source ++
        .page (page enabled window (select fields query)) :: Requirement.ofOrdering query.args
  | _, page enabled window (select fields query), _ =>
      .page (page enabled window (select fields query)) :: Requirement.ofOrdering query.args
  | _, table _ inner, rows => inner.requirements rows
  | _, _, _ => []

/-- All requirements of a part of a selection: its own, then those of the fields below it. -/
def occurrencesIn {part : Part} (tree : Selection b R V part) (rows : Option (Source b V)) :
    List (Occurrence b R V) :=
  (tree.requirements rows).map (⟨[], ·⟩) ++
    (tree.fieldsBelow rows).flatMap fun located =>
      (located.field.requirements located.rows).map (⟨located.path, ·⟩)

/-- All requirements of a select, in the order of the response. -/
def occurrences (select : Select b R V) : List (Occurrence b R V) :=
  select.occurrencesIn none

end Selection

/-! A requirement is unfulfilled exactly when something is found -/

/-- What is found about a column of a table, in terms of the entries of the catalog. -/
theorem Catalog.columnProblems_of_table (catalog : Catalog b) (table : TableName b)
    (name : ColumnName) :
    catalog.columnProblems (some table) name =
      if table ∉ catalog.tables.keys then [.untrackedTable table]
      else if ∃ tracked ∈ catalog.tables.toList, tracked.1 = table ∧ name ∈ tracked.2 then []
      else [.unknownColumn table name] := by
  rw [columnProblems]
  cases hcolumns : catalog.columns? table with
  | none => rw [if_pos ((Entries.find?_eq_none_iff _).mp hcolumns)]
  | some columns =>
      have htracked : (table, columns) ∈ catalog.tables.toList :=
        OrderedMap.find?_eq_some_iff.mp hcolumns
      have hname : columns.contains name = true ↔
          ∃ tracked ∈ catalog.tables.toList, tracked.1 = table ∧ name ∈ tracked.2 := by
        rw [List.contains_iff_mem]
        constructor
        · exact fun hmem => ⟨_, htracked, rfl, hmem⟩
        · rintro ⟨⟨_, others⟩, hothers, rfl, hmem⟩
          cases hcolumns.symm.trans (OrderedMap.find?_eq_some_iff.mpr hothers)
          exact hmem
      rw [if_neg (not_not_intro (Entries.mem_keys_of_mem_toList htracked))]
      exact if_congr hname rfl rfl

namespace Requirement

theorem columnProblems_eq (catalog : Catalog b) (rows : Option (Source b V)) (name : ColumnName) :
    catalog.columnProblems (rows.bind Source.table?) name =
      (ofColumn rows name : List (Requirement b R V)).flatMap (problems catalog) := by
  cases rows with
  | none => rfl
  | some rows => exact (List.flatMap_singleton _ _).symm

theorem mappingProblems_eq (catalog : Catalog b) (mapping : ColumnMapping)
    (parent : Option (Source b V)) (target : Source b V) :
    catalog.mappingProblems mapping (parent.bind Source.table?) target.table? =
      (ofMapping mapping parent target : List (Requirement b R V)).flatMap (problems catalog) := by
  rw [Catalog.mappingProblems, ofMapping, List.flatMap_assoc]
  refine congrArg (List.flatMap · mapping.toList) (funext fun (left, right) => ?_)
  have htarget := columnProblems_eq (R := R) catalog (some target) right
  rw [List.flatMap_append, ← columnProblems_eq, ← htarget]
  rfl

theorem joinProblems_eq (catalog : Catalog b) (relationship : RemoteRelationship b R)
    (rows : Option (Source b V)) :
    catalog.joinProblems relationship (rows.bind Source.table?) =
      (ofJoinFields relationship.joinFields rows : List (Requirement b R V)).flatMap
        (problems catalog) := by
  rw [Catalog.joinProblems, ofJoinFields, OrderedMap.values, ← Entries.map_snd_toList,
    List.flatMap_map, List.flatMap_assoc]
  refine congrArg (List.flatMap · relationship.joinFields.toList) (funext fun (key, value) => ?_)
  cases value with
  | column name type => exact columnProblems_eq catalog rows name
  | computedField enabled name function type => rfl

theorem operatorProblems_eq (catalog : Catalog b) (names : List String) :
    operatorProblems b names =
      (names.map operator : List (Requirement b R V)).flatMap (problems catalog) := by
  induction names with
  | nil => rfl
  | cons name names ih =>
      have hcons : operatorProblems b (name :: names) =
          operatorProblems b [name] ++ operatorProblems b names := by
        rw [operatorProblems, operatorProblems, operatorProblems, ← List.map_append,
          ← List.filter_append]
        rfl
      rw [hcons, ih]
      rfl

theorem ofAggregates_eq (aggregates : Aggregates b V) :
    (ofAggregates aggregates : List (Requirement b R V)) = aggregates.operators.map operator := by
  rw [ofAggregates, Aggregates.operators, OrderedMap.values, ← Entries.map_snd_toList,
    List.filterMap_map, List.filterMap_eq_flatMap_toList, List.map_flatMap]
  refine congrArg (List.flatMap · _) (funext fun (name, aggregate) => ?_)
  cases aggregate <;> rfl

theorem ofOrderAggregate_eq (aggregate : OrderAggregate b V) :
    (ofOrderAggregate aggregate : List (Requirement b R V)) =
      aggregate.operator?.toList.map operator := by
  cases aggregate <;> rfl

theorem ofTerm_eq (term : OrderTerm b V) :
    (ofTerm term : List (Requirement b R V)) = term.operators.map operator := by
  induction term with
  | column info redaction => rfl
  | objectRelation info filter term ih => exact ih
  | arrayAggregate info filter aggregate => exact ofOrderAggregate_eq aggregate
  | computedField enabled name function arguments order =>
      cases order with
      | scalar type redaction => rfl
      | aggregate table filter inner => exact ofOrderAggregate_eq inner

theorem ofOrdering_eq (args : SelectArgs b V) :
    (ofOrdering args : List (Requirement b R V)) = args.operators.map operator := by
  rw [ofOrdering, SelectArgs.operators, SelectArgs.orderItems]
  cases args.orderBy with
  | none => rfl
  | some items =>
      rw [List.map_flatMap]
      exact congrArg (List.flatMap · items.toList) (funext fun item => ofTerm_eq item.term)

/-- Whether a requirement holds, and what is reported if it does not. -/
theorem problems_spec (catalog : Catalog b) (requirement : Requirement b R V) :
    (requirement.Holds catalog ∧ requirement.problems catalog = []) ∨
      ¬ requirement.Holds catalog ∧ requirement.problems catalog ≠ [] ∧
        (requirement.problems catalog).map Problem.error = requirement.errors catalog := by
  cases requirement with
  | column rows name =>
      cases rows with
      | table table =>
          rw [Holds, problems, Source.table?, Catalog.columnProblems_of_table, errors]
          by_cases htable : table ∈ catalog.tables.keys
          · rw [if_neg (not_not_intro htable), if_pos htable]
            split
            · next hname => exact .inl ⟨hname, rfl⟩
            · next hname => exact .inr ⟨hname, List.cons_ne_nil _ _, rfl⟩
          · rw [if_pos htable, if_neg htable]
            refine .inr ⟨?_, List.cons_ne_nil _ _, rfl⟩
            rintro ⟨tracked, htracked, rfl, -⟩
            exact htable (Entries.mem_keys_of_mem_toList htracked)
      | identifier other => exact .inl ⟨trivial, rfl⟩
      | function other arguments definition => exact .inl ⟨trivial, rfl⟩
      | nativeQuery other arguments => exact .inl ⟨trivial, rfl⟩
  | operator name =>
      rw [Holds, problems, operatorProblems, errors, List.filter]
      cases b.supportsAggregate name with
      | true => exact .inl ⟨rfl, rfl⟩
      | false => exact .inr ⟨Bool.false_ne_true, List.cons_ne_nil _ _, rfl⟩
  | page connection =>
      cases connection with
      | page enabled window inner =>
          rw [Holds, problems, errors, Selection.validatePage, Errors.toExcept]
          cases window.problems inner.query.args.orderItems with
          | nil => exact .inl ⟨rfl, rfl⟩
          | cons problem problems =>
              refine .inr ⟨fun hok => ?_, List.cons_ne_nil _ _, rfl⟩
              cases hok

end Requirement

/-! The findings of a part of a selection come from its requirements -/

namespace Selection

variable (catalog : Catalog b) {part inside : Part} {rows rows' : Option (Source b V)}

theorem requirements_fields {vocabulary : Vocabulary} {names : List FieldName}
    (fields : Selection b R V (.fields vocabulary names)) (rows : Option (Source b V)) :
    fields.requirements rows = [] := by
  cases fields <;> rfl

theorem occurrencesIn_cons {vocabulary : Vocabulary} {names : List FieldName} {name : FieldName}
    (fresh : name ∉ names) (field : Selection b R V (.field vocabulary))
    (rest : Selection b R V (.fields vocabulary names)) (rows : Option (Source b V)) :
    (cons name fresh field rest).occurrencesIn rows =
      (field.occurrencesIn rows).map (Occurrence.under name) ++ rest.occurrencesIn rows := by
  rw [occurrencesIn, requirements_fields, fieldsBelow, occurrencesIn, occurrencesIn,
    requirements_fields, List.map_append, List.map_map, List.map_flatMap, List.cons_append,
    List.flatMap_cons, List.flatMap_append, List.flatMap_map, List.append_assoc]
  simp only [List.map_map]
  rfl

/-- A part finds what its own requirements and the part inside it come to. -/
theorem findings_eq_of_inside {tree : Selection b R V part} (inner : Selection b R V inside)
    (front : List (Requirement b R V))
    (hrequirements : tree.requirements rows = front ++ inner.requirements rows')
    (hbelow : tree.fieldsBelow rows = inner.fieldsBelow rows')
    (hfindings : tree.findings catalog (rows.bind Source.table?) =
      (front.flatMap (Requirement.problems catalog)).map (⟨[], ·⟩) ++
        inner.findings catalog (rows'.bind Source.table?))
    (hinner : inner.findings catalog (rows'.bind Source.table?) =
      (inner.occurrencesIn rows').flatMap (Occurrence.findings catalog)) :
    tree.findings catalog (rows.bind Source.table?) =
      (tree.occurrencesIn rows).flatMap (Occurrence.findings catalog) := by
  have hsplit : tree.occurrencesIn rows = front.map (⟨[], ·⟩) ++ inner.occurrencesIn rows' := by
    rw [occurrencesIn, hrequirements, hbelow, List.map_append, List.append_assoc, occurrencesIn]
  rw [hfindings, hinner, hsplit, List.flatMap_append, List.flatMap_map, List.map_flatMap]
  rfl

/-- A relationship finds what its mapping and the part inside it come to. -/
theorem findings_eq_of_relation {tree : Selection b R V part} (inner : Selection b R V inside)
    (mapping : ColumnMapping) (target : Source b V)
    (hrequirements : tree.requirements rows =
      Requirement.ofMapping mapping rows target ++ inner.requirements rows)
    (hbelow : tree.fieldsBelow rows = inner.fieldsBelow rows)
    (hfindings : tree.findings catalog (rows.bind Source.table?) =
      (catalog.mappingProblems mapping (rows.bind Source.table?) target.table?).map (⟨[], ·⟩) ++
        inner.findings catalog (rows.bind Source.table?))
    (hinner : inner.findings catalog (rows.bind Source.table?) =
      (inner.occurrencesIn rows).flatMap (Occurrence.findings catalog)) :
    tree.findings catalog (rows.bind Source.table?) =
      (tree.occurrencesIn rows).flatMap (Occurrence.findings catalog) := by
  rw [Requirement.mappingProblems_eq] at hfindings
  exact findings_eq_of_inside catalog inner _ hrequirements hbelow hfindings hinner

/-- A part without fields below it finds what its own requirements come to. -/
theorem findings_eq_of_leaf {tree : Selection b R V part} (hbelow : tree.fieldsBelow rows = [])
    (hfindings : tree.findings catalog (rows.bind Source.table?) =
      ((tree.requirements rows).flatMap (Requirement.problems catalog)).map (⟨[], ·⟩)) :
    tree.findings catalog (rows.bind Source.table?) =
      (tree.occurrencesIn rows).flatMap (Occurrence.findings catalog) := by
  rw [hfindings, occurrencesIn, hbelow, List.flatMap_nil, List.append_nil, List.flatMap_map,
    List.map_flatMap]
  rfl

theorem findings_eq {part : Part} (tree : Selection b R V part) (rows : Option (Source b V)) :
    tree.findings catalog (rows.bind Source.table?) =
      (tree.occurrencesIn rows).flatMap (Occurrence.findings catalog) := by
  induction tree generalizing rows with
  | cons name fresh field rest ihField ihRest =>
      rw [findings, occurrencesIn_cons, List.flatMap_append, ihField, ihRest, List.map_flatMap,
        List.flatMap_map]
      refine congrArg (· ++ _) (congrArg (List.flatMap · _) (funext fun occurrence => ?_))
      exact List.map_map.trans rfl
  | select fields query ih =>
      refine findings_eq_of_inside catalog fields (Requirement.ofOrdering query.args) ?_ rfl ?_
        (ih query.source)
      · rw [requirements_fields, List.append_nil, requirements]
      · rw [findings, Requirement.ofOrdering_eq, ← Requirement.operatorProblems_eq]
        rfl
  | object fields target filter ih =>
      exact findings_eq_of_inside catalog fields [] (requirements_fields _ _).symm rfl rfl
        (ih target)
  | nodes enabled fields ih =>
      exact findings_eq_of_inside catalog fields [] (requirements_fields _ _).symm rfl rfl (ih _)
  | edges fields ih =>
      exact findings_eq_of_inside catalog fields [] (requirements_fields _ _).symm rfl rfl (ih _)
  | node fields ih =>
      exact findings_eq_of_inside catalog fields [] (requirements_fields _ _).symm rfl rfl (ih _)
  | objectRelation relationship inner ih =>
      cases inner with
      | object fields target filter =>
          exact findings_eq_of_relation catalog (object fields target filter) relationship.mapping
            target (List.append_nil _).symm rfl rfl (ih rows)
  | arrayRelation inner ih => exact findings_eq_of_inside catalog inner [] rfl rfl rfl (ih rows)
  | computedField enabled name inner ih =>
      exact findings_eq_of_inside catalog inner [] rfl rfl rfl (ih rows)
  | simple relationship inner ih =>
      cases inner with
      | select fields query =>
          exact findings_eq_of_relation catalog (select fields query) relationship.mapping
            query.source rfl rfl rfl (ih rows)
  | aggregate relationship inner ih =>
      cases inner with
      | select fields query =>
          exact findings_eq_of_relation catalog (select fields query) relationship.mapping
            query.source rfl rfl rfl (ih rows)
  | connection relationship inner ih =>
      cases inner with
      | page enabled window inner =>
          cases inner with
          | select fields query =>
              exact findings_eq_of_relation catalog (page enabled window (select fields query))
                relationship.mapping query.source rfl rfl rfl (ih rows)
  | page enabled window inner ih =>
      cases inner with
      | select fields query =>
          refine findings_eq_of_inside catalog (select fields query)
            [.page (page enabled window (select fields query))] rfl rfl ?_ (ih rows)
          rw [findings, List.flatMap_singleton]
          rfl
  | table shape inner ih => exact findings_eq_of_inside catalog inner [] rfl rfl rfl (ih rows)
  | remote relationship =>
      refine findings_eq_of_leaf catalog rfl ?_
      rw [findings, requirements, ← Requirement.joinProblems_eq]
  | aggregates items =>
      refine findings_eq_of_leaf catalog rfl ?_
      rw [findings, requirements, Requirement.ofAggregates_eq, ← Requirement.operatorProblems_eq]
  | _ => rfl

end Selection

namespace Occurrence

/-- What is found for a requirement is reported by its errors, unless it holds. -/
theorem findings_errors (catalog : Catalog b) (occurrence : Occurrence b R V) :
    (occurrence.findings catalog).map Finding.error =
      if occurrence.requirement.Holds catalog then [] else occurrence.errors catalog := by
  rw [findings, errors, List.map_map]
  rcases occurrence.requirement.problems_spec catalog with ⟨hholds, hnil⟩ | ⟨hviolated, -, herrors⟩
  · rw [if_pos hholds, hnil, List.map_nil]
  · rw [if_neg hviolated, ← herrors, List.map_map]
    rfl

theorem findings_eq_nil_iff {catalog : Catalog b} {occurrence : Occurrence b R V} :
    occurrence.findings catalog = [] ↔ occurrence.requirement.Holds catalog := by
  rw [findings, List.map_eq_nil_iff]
  rcases occurrence.requirement.problems_spec catalog with ⟨hholds, hnil⟩ | ⟨hviolated, hsome, -⟩
  · exact iff_of_true hnil hholds
  · exact iff_of_false hsome hviolated

theorem findings_errors_all (catalog : Catalog b) (occurrences : List (Occurrence b R V)) :
    (occurrences.flatMap (findings catalog)).map Finding.error =
      (occurrences.filter fun occurrence => ¬ occurrence.requirement.Holds catalog).flatMap
        (errors catalog) := by
  induction occurrences with
  | nil => rfl
  | cons occurrence occurrences ih =>
      rw [List.flatMap_cons, List.map_append, findings_errors, ih, List.filter_cons]
      by_cases hholds : occurrence.requirement.Holds catalog
      · simp [hholds]
      · simp [hholds]

end Occurrence

namespace Selection

/-- Validation succeeds exactly when every requirement of a select holds, at every depth.  When it
fails, it returns the errors of the requirements that do not hold, in the order of the response:
one for a column or an operator, those of its page for a connection. -/
theorem validate_reports_violations (select : Select b R V) (catalog : Catalog b) :
    (select.validate catalog = .ok () ↔
      ∀ occurrence ∈ select.occurrences, occurrence.requirement.Holds catalog) ∧
    ∀ errors, select.validate catalog = .error errors ↔
      (∃ occurrence ∈ select.occurrences, ¬ occurrence.requirement.Holds catalog) ∧
        errors.list = (select.occurrences.filter fun occurrence =>
          ¬ occurrence.requirement.Holds catalog).flatMap (Occurrence.errors catalog) := by
  have hfindings : select.findings catalog none =
      select.occurrences.flatMap (Occurrence.findings catalog) := findings_eq catalog select none
  have hnil : (select.findings catalog none).map Finding.error = [] ↔
      ∀ occurrence ∈ select.occurrences, occurrence.requirement.Holds catalog := by
    rw [List.map_eq_nil_iff, hfindings, List.flatMap_eq_nil_iff]
    exact forall₂_congr fun _ _ => Occurrence.findings_eq_nil_iff
  constructor
  · rw [validate, Errors.toExcept_eq_ok_iff]
    exact hnil
  · intro errors
    rw [validate, Errors.toExcept_eq_error_iff, ← Occurrence.findings_errors_all, ← hfindings]
    apply and_congr
    · rw [ne_eq, hnil]
      simp only [Classical.not_forall, exists_prop]
    · exact Iff.rfl

/-- A table of a publishing house. -/
def pressTable (name : String) : TableName .postgres :=
  .qualified ⟨"press", name⟩ flat_postgres

/-- The tables of authors and of books are tracked, that of printers is not. -/
def pressCatalog : Catalog .postgres :=
  ⟨.ofList [(pressTable "author", [⟨"id"⟩]), (pressTable "book", [⟨"author"⟩, ⟨"isbn"⟩])]⟩

/-- Authors with their books, which are ordered by their chapters and come with their printer and
with reviews that are elsewhere, with the number of their pages, and with a page of their letters,
each with the archive that keeps it. -/
def pressSelect : Select .postgres String String :=
  let type : ColumnType .postgres := .enumReference "text"
  let query (source : Source .postgres String) (args : SelectArgs .postgres String) :
      Query .postgres String :=
    { source, permission := .unrestricted, args }
  let relationship (name : String) (mapping : List (ColumnName × ColumnName)) : Relationship :=
    { name := ⟨name⟩, mapping := .ofList mapping }
  let chapters : RelationshipInfo .postgres :=
    { name := ⟨"chapters"⟩, kind := .array, mapping := ∅, target := pressTable "chapter" }
  let byChapters : OrderItem .postgres String :=
    .asc (.arrayAggregate chapters .trivial (.operator "mode" type ⟨⟨"pages"⟩, type, true⟩ .none))
  let printer : Field .postgres String String :=
    .objectRelation (relationship "printer" [(⟨"printer"⟩, ⟨"id"⟩)])
      (.object .nil (.table (pressTable "printer")) .trivial)
  let reviews : Field .postgres String String :=
    .remote { joinFields := .ofList [(⟨"isbn"⟩, .column ⟨"isbn"⟩ type),
      (⟨"code"⟩, .column ⟨"code"⟩ type)], target := "reviews" }
  let books : Select .postgres String String :=
    ofFields (.ofList [(⟨"printer"⟩, printer), (⟨"reviews"⟩, reviews)])
      (query (.table (pressTable "book")) { orderBy := some (.singleton byChapters) })
  let pages : AggregateSelect .postgres String String :=
    ofFields (.ofList [(⟨"pages"⟩, .aggregates (.ofList [(⟨"sum"⟩, .operator "sum" ∅),
      (⟨"mode"⟩, .operator "mode" ∅)]))]) (query (.table (pressTable "book")) {})
  let archive : Field .postgres String String :=
    .objectRelation (relationship "archive" [(⟨"archive"⟩, ⟨"id"⟩)])
      (.object .nil (.identifier ⟨"archive"⟩) .trivial)
  let bound : PageBound .postgres String :=
    { kind := .after, value := "cursor", order := .desc (.onColumn ⟨⟨"id"⟩, type, false⟩) }
  let letters : ConnectionSelect .postgres String String :=
    .page relay_postgres
      { primaryKey := .singleton ⟨⟨"id"⟩, type, false⟩, bounds := some (.singleton bound)
        slice := some (.last 5) }
      (ofFields (.ofList [(⟨"edges"⟩, .edges (.cons ⟨"node"⟩ List.not_mem_nil
        (.node (.cons ⟨"archive"⟩ List.not_mem_nil archive .nil)) .nil))])
        (query (.identifier ⟨"letter"⟩) {}))
  ofFields (.ofList [
    (⟨"books"⟩, .arrayRelation (.simple
      (relationship "books" [(⟨"id"⟩, ⟨"author"⟩), (⟨"house"⟩, ⟨"house"⟩)]) books)),
    (⟨"pages"⟩, .arrayRelation (.aggregate (relationship "books" [(⟨"id"⟩, ⟨"author"⟩)]) pages)),
    (⟨"letters"⟩, .arrayRelation (.connection
      (relationship "letters" [(⟨"address"⟩, ⟨"sender"⟩)]) letters))])
    (query (.table (pressTable "author")) {})

theorem validate_pressSelect :
    pressSelect.validate pressCatalog = .error ⟨[
      -- the mapping of the books, on either side, then the order of the books
      { path := ["books"], reason := .notFound "press.author.house" "column" },
      { path := ["books"], reason := .notFound "press.book.house" "column" },
      { path := ["books"]
        reason := .unsupported "aggregate operator `mode`" "postgres" },
      { path := ["books", "printer"], reason := .notFound "press.book.printer" "column" },
      { path := ["books", "printer"], reason := .notFound "press.printer" "table" },
      { path := ["books", "reviews"], reason := .notFound "press.book.code" "column" },
      { path := ["pages", "pages"]
        reason := .unsupported "aggregate operator `mode`" "postgres" },
      -- letters and archives come from no table, so nothing is required of their columns
      { path := ["letters"], reason := .notFound "press.author.address" "column" },
      { path := ["letters"]
        reason := .expected (some "`last`") "a `before` cursor" "an `after` cursor"
        hints := ["use `first` to page forwards"] },
      { path := ["letters"], reason := .simple
          "connection split condition 1 does not follow the ordering of the connection" }]⟩ ∧
    ∃ occurrence ∈ pressSelect.occurrences, ¬ occurrence.requirement.Holds pressCatalog := by
  have hviolated : ∃ occurrence ∈ pressSelect.occurrences,
      ¬ occurrence.requirement.Holds pressCatalog := by decide
  obtain ⟨-, hreported⟩ := validate_reports_violations pressSelect pressCatalog
  exact ⟨(hreported _).mpr ⟨hviolated, by decide⟩, hviolated⟩

end Selection

end SelectPlan
