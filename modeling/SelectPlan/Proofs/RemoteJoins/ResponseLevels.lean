import SelectPlan.Proofs.RemoteJoins.Reports

/-!
The levels of a response.  A select that was split has the levels of the query, and on each of them
the fields of the query in their order, followed by those that its joins report as added.
-/

namespace SelectPlan

variable {b : Backend} {R V : Type}

/-- The fields of one level of a selection, and the table whose rows they belong to. -/
structure ResponseLevel (b : Backend) (R V : Type) where
  owner : Option (TableName b)
  {vocabulary : Vocabulary}
  fields : FieldMap b R V vocabulary

namespace Selection

/-- The level that a path of response fields leads to.  `owner` is the table whose rows the part
belongs to; a select has its own. -/
def levelAt? : {part : Part} → Selection b R V part → Option (TableName b) → List FieldName →
    Option (ResponseLevel b R V)
  | _, column _, _, _ => none
  | _, objectRelation _ inner, owner, path => inner.levelAt? owner path
  | _, arrayRelation inner, owner, path => inner.levelAt? owner path
  | _, computedField _ _ inner, owner, path => inner.levelAt? owner path
  | _, remote _, _, _ => none
  | _, nodeId _ _ _, _, _ => none
  | _, constant _, _, _ => none
  | _, aggregates _, _, _ => none
  | _, nodes _ fields, owner, path => fields.levelAt? owner path
  | _, aggregateConstant _, _, _ => none
  | _, connectionTypeName _, _, _ => none
  | _, pageInfo _, _, _ => none
  | _, edges fields, owner, path => fields.levelAt? owner path
  | _, edgeTypeName _, _, _ => none
  | _, cursor, _, _ => none
  | _, node fields, owner, path => fields.levelAt? owner path
  | .fields vocabulary _, nil, owner, [] => some { owner, vocabulary, fields := ∅ }
  | _, nil, _, _ :: _ => none
  | _, cons name fresh field rest, owner, [] =>
      some { owner, fields := (cons name fresh field rest).toMap }
  | _, cons name _ field rest, owner, first :: below =>
      if name = first then field.levelAt? owner below else rest.levelAt? owner (first :: below)
  | _, select fields query, _, path => fields.levelAt? query.source.table? path
  | _, object fields target _, _, path => fields.levelAt? target.table? path
  | _, simple _ inner, owner, path => inner.levelAt? owner path
  | _, aggregate _ inner, owner, path => inner.levelAt? owner path
  | _, connection _ inner, owner, path => inner.levelAt? owner path
  | _, page _ _ inner, owner, path => inner.levelAt? owner path
  | _, scalar _, _, _ => none
  | _, table _ inner, owner, path => inner.levelAt? owner path

theorem levelAt?_nil {vocabulary : Vocabulary} {names : List FieldName}
    (fields : Selection b R V (.fields vocabulary names)) (owner : Option (TableName b)) :
    fields.levelAt? owner [] = some { owner, fields := fields.toMap } := by
  cases fields <;> rfl

/-- A path into fields leads through the field that it begins with. -/
theorem levelAt?_cons {vocabulary : Vocabulary} (owner : Option (TableName b)) (first : FieldName)
    (below : List FieldName) : {names : List FieldName} →
    (fields : Selection b R V (.fields vocabulary names)) →
    fields.levelAt? owner (first :: below) =
      (fields.toMap.find? first).bind (·.levelAt? owner below)
  | _, nil => rfl
  | _, cons name fresh field rest => by
      change (if name = first then field.levelAt? owner below
        else rest.levelAt? owner (first :: below)) =
        (if name = first then some field else rest.toMap.find? first).bind _
      split
      · rfl
      · exact levelAt?_cons owner first below rest

/-- Where a path leads to the fields of rows, they are a level. -/
theorem levelAt?_of_rowsAt? {part : Part} {tree : Selection b R V part}
    {owner : Option (TableName b)} {path : List FieldName} {rows : FieldMap b R V .row}
    (hrows : tree.rowsAt? path = some rows) :
    ∃ table, tree.levelAt? owner path = some { owner := table, fields := rows } := by
  induction tree generalizing owner path with
  | cons name fresh field rest ihField ihRest =>
      cases path with
      | nil => cases hrows
      | cons first below =>
          change (if name = first then _ else _) = _ at hrows
          change ∃ table, (if name = first then _ else _) = _
          split
          · next hfirst =>
            rw [if_pos hfirst] at hrows
            exact ihField hrows
          · next hfirst =>
            rw [if_neg hfirst] at hrows
            exact ihRest hrows
  | @select vocabulary names fields query ih =>
      cases vocabulary with
      | row => exact of_fields ih hrows
      | aggregate => exact ih hrows
      | connection => exact ih hrows
      | edge => exact ih hrows
  | object fields target filter ih => exact of_fields ih hrows
  | nodes enabled fields ih => exact of_fields ih hrows
  | node fields ih => exact of_fields ih hrows
  | edges fields ih => exact ih hrows
  | objectRelation relationship inner ih => exact ih hrows
  | arrayRelation inner ih => exact ih hrows
  | computedField enabled name inner ih => exact ih hrows
  | simple relationship inner ih => exact ih hrows
  | aggregate relationship inner ih => exact ih hrows
  | connection relationship inner ih => exact ih hrows
  | page enabled window inner ih => exact ih hrows
  | table shape inner ih => exact ih hrows
  | _ => cases hrows
where
  of_fields {names : List FieldName} {fields : Selection b R V (.fields .row names)}
      {owner : Option (TableName b)} {path : List FieldName}
      (hbelow : ∀ {owner : Option (TableName b)} {path}, fields.rowsAt? path = some rows →
        ∃ table, fields.levelAt? owner path = some { owner := table, fields := rows })
      (hrows : (if path.isEmpty then some fields.toMap else fields.rowsAt? path) = some rows) :
      ∃ table, fields.levelAt? owner path = some { owner := table, fields := rows } := by
    cases path with
    | nil =>
        cases hrows
        exact ⟨owner, levelAt?_nil fields owner⟩
    | cons first below => exact hbelow hrows

/-- Nothing lies below a field that was added for a join value. -/
theorem levelAt?_phantom (value : JoinField b) (owner : Option (TableName b))
    (path : List FieldName) : (value.phantom : Field b Empty V).levelAt? owner path = none := by
  cases value <;> rfl

/-- The fields that are added to a level do not change what lies below it. -/
theorem levelAt?_settled {names : List FieldName} (fields : Selection b R V (.fields .row names))
    (owner : Option (TableName b)) (first : FieldName) (below : List FieldName) :
    (ofEntries (settle fields fields.stripped).2.fields.entries).levelAt? owner (first :: below) =
      fields.stripped.levelAt? owner (first :: below) := by
  obtain ⟨added, hfields, -⟩ := settle_reported fields
  rw [levelAt?_cons, levelAt?_cons, toMap_ofEntries]
  cases hown : fields.stripped.toMap.find? first with
  | some field =>
      have hfound : (settle fields fields.stripped).2.fields.find? first = some field :=
        find?_of_grown (hfields ▸ List.prefix_append _ _) hown
      rw [hfound]
  | none =>
      cases hfound : (settle fields fields.stripped).2.fields.find? first with
      | none => rfl
      | some field =>
          rw [OrderedMap.find?_eq_some_iff, hfields, List.mem_append,
            ← OrderedMap.find?_eq_some_iff, hown] at hfound
          obtain ⟨⟨_, value⟩, -, heq⟩ := List.mem_map.mp (hfound.resolve_left (nomatch ·))
          cases heq
          exact levelAt?_phantom value owner below

end Selection

/-- A level has grown at its end, and only by fields of the given names. -/
structure ResponseLevel.GrownBy (names : List FieldName) (own : ResponseLevel b R V)
    (found : ResponseLevel b Empty V) : Prop where
  owner : found.owner = own.owner
  vocabulary : found.vocabulary = own.vocabulary
  keys : ∃ added, found.fields.keys = own.fields.keys ++ added ∧ ∀ name ∈ added, name ∈ names

namespace Selection

/-- The fields of rows grow by what their joins report. -/
theorem levelAt?_settled_grown {names : List FieldName}
    (fields : Selection b R V (.fields .row names)) (owner : Option (TableName b))
    (hbelow : ∀ path, Option.Rel (ResponseLevel.GrownBy (fields.joins.phantomsAt path))
      (fields.levelAt? owner path) (fields.stripped.levelAt? owner path)) (path : List FieldName) :
    Option.Rel (ResponseLevel.GrownBy ((joinTree fields fields.joins).phantomsAt path))
      (fields.levelAt? owner path)
      ((ofEntries (settle fields fields.stripped).2.fields.entries).levelAt? owner path) := by
  cases path with
  | nil =>
      obtain ⟨added, hfields, hreported⟩ := settle_reported fields
      rw [levelAt?_nil, levelAt?_nil, toMap_ofEntries]
      refine .some ⟨rfl, rfl, added.map Prod.fst, ?_, hreported⟩
      have hkeys := congrArg (List.map Prod.fst) hfields
      rw [List.map_append, List.map_map, OrderedMap.map_fst_toList,
        OrderedMap.map_fst_toList] at hkeys
      exact hkeys
  | cons first below =>
      rw [levelAt?_settled, phantomsAt_joinTree, if_neg (List.cons_ne_nil _ _), List.append_nil]
      exact hbelow (first :: below)

/-- Every level of a selection is a level of what is left of it, with the fields that its joins
report at its end, and there are no others. -/
theorem levelAt?_grown {part : Part} (tree : Selection b R V part) (owner : Option (TableName b))
    (path : List FieldName) :
    Option.Rel (ResponseLevel.GrownBy (tree.joins.phantomsAt path)) (tree.levelAt? owner path)
      (tree.stripped.levelAt? owner path) := by
  induction tree generalizing owner path with
  | nil =>
      cases path with
      | nil => exact .some ⟨rfl, rfl, [], rfl, fun _ hname => absurd hname List.not_mem_nil⟩
      | cons first below => exact .none
  | @cons vocabulary names name fresh field rest ihField ihRest =>
      cases path with
      | nil =>
          exact .some ⟨rfl, rfl, [], (List.append_nil _).symm, fun _ hname =>
            absurd hname List.not_mem_nil⟩
      | cons first below =>
          have hfresh := joins_names_fresh fresh rest
          change Option.Rel _ (if name = first then _ else _) (if name = first then _ else _)
          by_cases hfirst : name = first
          · subst hfirst
            rw [if_pos rfl, if_pos rfl, joins, JoinTree.phantomsAt_withSubtree_self hfresh]
            exact ihField owner below
          · rw [if_neg hfirst, if_neg hfirst, joins,
              JoinTree.phantomsAt_withSubtree_of_ne hfresh hfirst]
            exact ihRest owner (first :: below)
  | @select vocabulary names fields query ih =>
      cases vocabulary with
      | row => exact levelAt?_settled_grown fields _ (ih _) path
      | aggregate => exact ih _ path
      | connection => exact ih _ path
      | edge => exact ih _ path
  | object fields target filter ih => exact levelAt?_settled_grown fields _ (ih _) path
  | nodes enabled fields ih => exact levelAt?_settled_grown fields _ (ih _) path
  | node fields ih => exact levelAt?_settled_grown fields _ (ih _) path
  | edges fields ih => exact ih owner path
  | objectRelation relationship inner ih => exact ih owner path
  | arrayRelation inner ih => exact ih owner path
  | computedField enabled name inner ih => exact ih owner path
  | simple relationship inner ih => exact ih owner path
  | aggregate relationship inner ih => exact ih owner path
  | connection relationship inner ih => exact ih owner path
  | page enabled window inner ih => exact ih owner path
  | table shape inner ih => exact ih owner path
  | _ => exact .none

end Selection

end SelectPlan
