import SelectPlan.Proofs.RemoteJoins.ResponseLevels
import SelectPlan.Proofs.RemoteJoins.Substitution

/-!
The response keeps its shape.  Without the fields that its joins report as added, a select that was
split is the select of the query with nulls in place of remote relationships.
-/

namespace SelectPlan

variable {b : Backend} {R V : Type}

/-- What is left of a part of a selection without some of its fields: a part again, but of several
fields a list, because other names may be left. -/
abbrev Part.Pruned (b : Backend) (R V : Type) : Part → Type
  | .fields vocabulary _ => List (FieldName × Selection b R V (.field vocabulary))
  | part => Selection b R V part

namespace Selection

/-- Several fields from a list of them. -/
def ofPairs {vocabulary : Vocabulary}
    (pairs : List (FieldName × Selection b R V (.field vocabulary))) :
    Selection b R V (.fields vocabulary (OrderedMap.ofList pairs).keys) :=
  ofEntries (OrderedMap.ofList pairs).entries

/-- A part of a selection without some of its fields: `removed` says which names are taken out on
which level. -/
def prune : {part : Part} → Selection b R V part → (List FieldName → List FieldName) →
    part.Pruned b R V
  | _, column field, _ => column field
  | _, objectRelation relationship inner, removed =>
      objectRelation relationship (inner.prune removed)
  | _, arrayRelation inner, removed => arrayRelation (inner.prune removed)
  | _, computedField enabled name inner, removed =>
      computedField enabled name (inner.prune removed)
  | _, remote relationship, _ => remote relationship
  | _, nodeId enabled owner primaryKey, _ => nodeId enabled owner primaryKey
  | _, constant text, _ => constant text
  | _, aggregates items, _ => aggregates items
  | _, nodes enabled fields, removed => nodes enabled (ofPairs (fields.prune removed))
  | _, aggregateConstant text, _ => aggregateConstant text
  | _, connectionTypeName text, _ => connectionTypeName text
  | _, pageInfo info, _ => pageInfo info
  | _, edges fields, removed => edges (ofPairs (fields.prune removed))
  | _, edgeTypeName text, _ => edgeTypeName text
  | _, cursor, _ => cursor
  | _, node fields, removed => node (ofPairs (fields.prune removed))
  | _, nil, _ => []
  | _, cons name _ field rest, removed =>
      if (removed []).contains name then rest.prune removed
      else (name, field.prune fun level => removed (name :: level)) :: rest.prune removed
  | _, select fields query, removed => select (ofPairs (fields.prune removed)) query
  | _, object fields target filter, removed =>
      object (ofPairs (fields.prune removed)) target filter
  | _, simple relationship inner, removed => simple relationship (inner.prune removed)
  | _, aggregate relationship inner, removed => aggregate relationship (inner.prune removed)
  | _, connection relationship inner, removed => connection relationship (inner.prune removed)
  | _, page enabled window inner, removed => page enabled window (inner.prune removed)
  | _, scalar call, _ => scalar call
  | _, table shape inner, removed => table shape (inner.prune removed)

/-- A part of a selection with nulls in place of remote relationships. -/
def nulled : {part : Part} → Selection b R V part → Selection b Empty V part
  | _, column field => column field
  | _, objectRelation relationship inner => objectRelation relationship inner.nulled
  | _, arrayRelation inner => arrayRelation inner.nulled
  | _, computedField enabled name inner => computedField enabled name inner.nulled
  | _, remote _ => constant "null"
  | _, nodeId enabled owner primaryKey => nodeId enabled owner primaryKey
  | _, constant text => constant text
  | _, aggregates items => aggregates items
  | _, nodes enabled fields => nodes enabled fields.nulled
  | _, aggregateConstant text => aggregateConstant text
  | _, connectionTypeName text => connectionTypeName text
  | _, pageInfo info => pageInfo info
  | _, edges fields => edges fields.nulled
  | _, edgeTypeName text => edgeTypeName text
  | _, cursor => cursor
  | _, node fields => node fields.nulled
  | _, nil => nil
  | _, cons name fresh field rest => cons name fresh field.nulled rest.nulled
  | _, select fields query => select fields.nulled query
  | _, object fields target filter => object fields.nulled target filter
  | _, simple relationship inner => simple relationship inner.nulled
  | _, aggregate relationship inner => aggregate relationship inner.nulled
  | _, connection relationship inner => connection relationship inner.nulled
  | _, page enabled window inner => page enabled window inner.nulled
  | _, scalar call => scalar call
  | _, table shape inner => table shape inner.nulled

/-- A part of a selection with all of its fields left. -/
def unpruned : {part : Part} → Selection b R V part → part.Pruned b R V
  | .field _, tree | .select _, tree | .object, tree | .array, tree | .connection, tree
  | .computed, tree => tree
  | .fields _ _, fields => fields.toMap.toList

/-! Pruning the fields of a level -/

variable {part : Part} {vocabulary : Vocabulary} {names : List FieldName}

/-- Around fields that are all left, a part is what it was. -/
theorem ofPairs_unpruned (build : {names : List FieldName} →
    Selection b R V (.fields vocabulary names) → Selection b R V part)
    {fields : Selection b R V (.fields vocabulary names)}
    {pairs : List (FieldName × Selection b R V (.field vocabulary))}
    (hpairs : pairs = fields.unpruned) : build (ofPairs pairs) = build fields := by
  have hmap : OrderedMap.ofList pairs = fields.toMap := by
    rw [hpairs]
    exact OrderedMap.ofList_toList fields.toMap
  let rebuild (map : FieldMap b R V vocabulary) := build (ofEntries map.entries)
  exact (congrArg rebuild hmap).trans (congrArg build (ofEntries_toEntries fields))

/-- Pruning leaves the fields that are not removed, each of them pruned below. -/
theorem prune_fields (removed : List FieldName → List FieldName) : {names : List FieldName} →
    (fields : Selection b R V (.fields vocabulary names)) →
    fields.prune removed = (fields.toMap.toList.filter fun entry => entry.1 ∉ removed []).map
      fun entry => (entry.1, entry.2.prune fun level => removed (entry.1 :: level))
  | _, nil => rfl
  | _, cons name fresh field rest => by
      change (if (removed []).contains name then _ else _) =
        (((name, field) :: rest.toMap.toList).filter _).map _
      rw [prune_fields removed rest, List.filter_cons]
      by_cases hname : name ∈ removed []
      · rw [if_pos (List.contains_iff_mem.mpr hname), if_neg (by simpa using hname)]
      · rw [if_neg (hname ∘ List.contains_iff_mem.mp), if_pos (by simpa using hname)]
        rfl

/-- What is removed elsewhere does not matter. -/
theorem prune_congr {removed others : List FieldName → List FieldName}
    (fields : Selection b R V (.fields vocabulary names))
    (hlevel : ∀ name ∈ names, name ∈ removed [] ↔ name ∈ others [])
    (hbelow : ∀ name ∈ names, ∀ level, removed (name :: level) = others (name :: level)) :
    fields.prune removed = fields.prune others := by
  have hnames : ∀ entry ∈ fields.toMap.toList, entry.1 ∈ names := fun _ hentry =>
    Entries.mem_keys_of_mem_toList hentry
  have hfilter : (fields.toMap.toList.filter fun entry => entry.1 ∉ removed []) =
      fields.toMap.toList.filter fun entry => entry.1 ∉ others [] :=
    List.filter_congr fun entry hentry => by simp [hlevel entry.1 (hnames entry hentry)]
  rw [prune_fields, prune_fields, hfilter]
  apply List.map_congr_left
  intro entry hentry
  have hremoved := funext (hbelow entry.1 (hnames entry (List.mem_filter.mp hentry).1))
  exact congrArg (fun removed => (entry.1, entry.2.prune removed)) hremoved

/-- Without the fields that its joins report as added, a level of rows has the fields that it had
before they were settled. -/
theorem prune_settled (fields : Selection b R V (.fields .row names)) :
    (ofEntries (settle fields fields.stripped).2.fields.entries).prune
        (joinTree fields fields.joins).phantomsAt =
      fields.stripped.prune fields.joins.phantomsAt := by
  obtain ⟨added, hfields, hreported⟩ := settle_reported fields
  have hadded : ((added.map (Prod.map id (JoinField.phantom (V := V)))).filter
      fun entry => entry.1 ∉ (joinTree fields fields.joins).phantomsAt []) = [] := by
    apply List.filter_eq_nil_iff.mpr
    intro entry hentry
    obtain ⟨⟨name, value⟩, hmem, rfl⟩ := List.mem_map.mp hentry
    simpa using hreported name (List.mem_map_of_mem hmem)
  have hown : fields.stripped.prune (joinTree fields fields.joins).phantomsAt =
      fields.stripped.prune fields.joins.phantomsAt := by
    apply prune_congr
    · intro name hname
      rw [phantomsAt_joins_nil]
      exact iff_of_false (fun hmem => not_mem_keys_of_phantom fields hmem hname) List.not_mem_nil
    · intro name _ level
      rw [phantomsAt_joinTree, if_neg (List.cons_ne_nil _ _), List.append_nil]
  rw [prune_fields, toMap_ofEntries, hfields, List.filter_append, hadded, List.append_nil,
    ← prune_fields, hown]

/-- Without the fields that its joins report as added, a selection that was split has nulls in
place of remote relationships, and nothing else has changed. -/
theorem prune_stripped {part : Part} (tree : Selection b R V part) :
    tree.stripped.prune tree.joins.phantomsAt = tree.nulled.unpruned := by
  induction tree with
  | @cons vocabulary names name fresh field rest ihField ihRest =>
      have hfresh := joins_names_fresh fresh rest
      have hkept := phantomsAt_joins_nil (cons name fresh field rest)
      have hfield : (fun level => (cons name fresh field rest).joins.phantomsAt (name :: level)) =
          field.joins.phantomsAt := by
        funext level
        rw [joins, JoinTree.phantomsAt_withSubtree_self hfresh]
      have hrest : rest.stripped.prune (cons name fresh field rest).joins.phantomsAt =
          rest.stripped.prune rest.joins.phantomsAt := by
        apply prune_congr
        · intro other _
          rw [hkept, phantomsAt_joins_nil]
        · intro other hother level
          have hne : name ≠ other := fun heq => fresh (heq ▸ hother)
          rw [joins, JoinTree.phantomsAt_withSubtree_of_ne hfresh hne]
      rw [stripped, prune, hkept, hfield, hrest, ihField, ihRest]
      rfl
  | @select vocabulary names fields query ih =>
      cases vocabulary with
      | row => exact ofPairs_unpruned (select · query) ((prune_settled fields).trans ih)
      | aggregate => exact ofPairs_unpruned (select · query) ih
      | connection => exact ofPairs_unpruned (select · query) ih
      | edge => exact ofPairs_unpruned (select · query) ih
  | object fields target filter ih =>
      exact ofPairs_unpruned (object · target filter) ((prune_settled fields).trans ih)
  | nodes enabled fields ih =>
      exact ofPairs_unpruned (nodes enabled) ((prune_settled fields).trans ih)
  | node fields ih => exact ofPairs_unpruned node ((prune_settled fields).trans ih)
  | edges fields ih => exact ofPairs_unpruned edges ih
  | objectRelation relationship inner ih => exact congrArg (objectRelation relationship) ih
  | arrayRelation inner ih => exact congrArg arrayRelation ih
  | computedField enabled name inner ih => exact congrArg (computedField enabled name) ih
  | simple relationship inner ih => exact congrArg (simple relationship) ih
  | aggregate relationship inner ih => exact congrArg (aggregate relationship) ih
  | connection relationship inner ih => exact congrArg (connection relationship) ih
  | page enabled window inner ih => exact congrArg (page enabled window) ih
  | table shape inner ih => exact congrArg (table shape) ih
  | _ => rfl

/-! Selections without remote relationships -/

theorem remotes_of_empty : {names : List FieldName} →
    (fields : Selection b Empty V (.fields .row names)) → fields.remotes = []
  | _, nil => rfl
  | _, cons name fresh field rest => by
      rw [remotes_cons, remotes_of_empty rest]
      cases hremote : remote? field with
      | none => rfl
      | some relationship => exact relationship.target.elim

theorem settle_of_empty (fields : Selection b Empty V (.fields .row names)) :
    settle fields fields.stripped = ([], { fields := fields.stripped.toMap }) := by
  rw [settle, remotes_of_empty]
  rfl

theorem joinTree_of_empty (fields : Selection b Empty V (.fields .row names)) :
    joinTree fields fields.joins = fields.joins := by
  rw [joinTree, settle_of_empty]
  rfl

/-- Where there are no remote relationships, nothing is split off. -/
theorem joins_of_empty {part : Part} (tree : Selection b Empty V part) : tree.joins = .empty := by
  induction tree with
  | cons name fresh field rest ihField ihRest =>
      rw [joins, ihField, ihRest]
      rfl
  | @select vocabulary names fields query ih =>
      cases vocabulary with
      | row => exact (joinTree_of_empty fields).trans ih
      | aggregate => exact ih
      | connection => exact ih
      | edge => exact ih
  | object fields target filter ih => exact (joinTree_of_empty fields).trans ih
  | nodes enabled fields ih => exact (joinTree_of_empty fields).trans ih
  | node fields ih => exact (joinTree_of_empty fields).trans ih
  | edges fields ih => exact ih
  | objectRelation relationship inner ih => exact ih
  | arrayRelation inner ih => exact ih
  | computedField enabled name inner ih => exact ih
  | simple relationship inner ih => exact ih
  | aggregate relationship inner ih => exact ih
  | connection relationship inner ih => exact ih
  | page enabled window inner ih => exact ih
  | table shape inner ih => exact ih
  | _ => rfl

theorem settled_of_empty (build : {names : List FieldName} →
    Selection b Empty V (.fields .row names) → Selection b Empty V part)
    {fields : Selection b Empty V (.fields .row names)} (hfields : fields.stripped = fields) :
    build (ofEntries (settle fields fields.stripped).2.fields.entries) = build fields := by
  rw [settle_of_empty, hfields]
  exact congrArg build (ofEntries_toEntries fields)

/-- Where there are no remote relationships, nothing is left out or added. -/
theorem stripped_of_empty {part : Part} (tree : Selection b Empty V part) :
    tree.stripped = tree := by
  induction tree with
  | cons name fresh field rest ihField ihRest => rw [stripped, ihField, ihRest]
  | @select vocabulary names fields query ih =>
      cases vocabulary with
      | row => exact settled_of_empty (select · query) ih
      | aggregate => exact congrArg (select · query) ih
      | connection => exact congrArg (select · query) ih
      | edge => exact congrArg (select · query) ih
  | object fields target filter ih => exact settled_of_empty (object · target filter) ih
  | nodes enabled fields ih => exact settled_of_empty (nodes enabled) ih
  | node fields ih => exact settled_of_empty node ih
  | edges fields ih => exact congrArg edges ih
  | objectRelation relationship inner ih => exact congrArg (objectRelation relationship) ih
  | arrayRelation inner ih => exact congrArg arrayRelation ih
  | computedField enabled name inner ih => exact congrArg (computedField enabled name) ih
  | simple relationship inner ih => exact congrArg (simple relationship) ih
  | aggregate relationship inner ih => exact congrArg (aggregate relationship) ih
  | connection relationship inner ih => exact congrArg (connection relationship) ih
  | page enabled window inner ih => exact congrArg (page enabled window) ih
  | table shape inner ih => exact congrArg (table shape) ih
  | remote relationship => exact relationship.target.elim
  | _ => rfl

theorem splitRemotes_of_empty (select : Select b Empty V) :
    splitRemotes select = (select, none) := by
  rw [splitRemotes, joins_of_empty, stripped_of_empty]
  rfl

theorem splitRemotes_of_remotes_eq_nil {select : Select b R V}
    (hremotes : TreeKind.remotes (.part _) select = []) :
    TreeKind.bimap Empty.elim id (.part _) (splitRemotes select).1 = select ∧
      (splitRemotes select).2 = none := by
  obtain ⟨source, rfl⟩ := TreeKind.exists_of_remotes_eq_nil (.part (.select .row)) hremotes
  rw [splitRemotes_bimap, splitRemotes_of_empty]
  exact ⟨rfl, rfl⟩

/-- Every level of a select is a level of the select that is left after the split, with its fields
in the same order.  Behind them come only fields that the joins of that level report as added, and
without those the select is as it was, with nulls in place of remote relationships.  So nothing
changes without remote relationships, and a second split changes nothing. -/
theorem splitRemotes_keeps_shape (select : Select b R V) :
    let (stripped, joins) := splitRemotes select
    let reported (level : List FieldName) := joins.toList.flatMap (JoinTree.phantomsAt · level)
    (∀ path, Option.Rel (ResponseLevel.GrownBy (reported path)) (select.levelAt? none path)
      (stripped.levelAt? none path)) ∧
    stripped.prune reported = select.nulled ∧
    (TreeKind.remotes (.part _) select = [] →
      TreeKind.bimap Empty.elim id (.part _) stripped = select ∧ joins = none) ∧
    splitRemotes stripped = (stripped, none) := by
  have hreported : (fun level => (splitRemotes select).2.toList.flatMap
      (JoinTree.phantomsAt · level)) = select.joins.phantomsAt := by
    funext level
    rw [JoinTree.phantomsAt, ← leaves_splitRemotes, List.flatMap_assoc]
    rfl
  refine ⟨fun path => ?_, ?_, splitRemotes_of_remotes_eq_nil, splitRemotes_of_empty _⟩
  · have hgrown := levelAt?_grown select none path
    rw [← hreported] at hgrown
    exact hgrown
  · exact (congrArg select.stripped.prune hreported).trans (prune_stripped select)

end Selection

end SelectPlan
