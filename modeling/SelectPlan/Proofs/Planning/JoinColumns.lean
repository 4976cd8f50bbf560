import SelectPlan.Proofs.Planning.Runs
import SelectPlan.Proofs.Preparation.Steps
import SelectPlan.Proofs.RemoteJoins.ResponseLevels

/-!
The columns that joins read.  Validation looks at the remote relationships of the query, before any
field is added for them.  It uses the table of the level on which the fields are added later, so a
plan reads no column that the catalog does not know.
-/

namespace SelectPlan

variable {b : Backend} {R S V W : Type}

/-- A table is tracked and has a column. -/
def Catalog.Tracks (catalog : Catalog b) (table : TableName b) (column : ColumnName) : Prop :=
  ∃ columns, catalog.columns? table = some columns ∧ column ∈ columns

namespace Catalog

variable {catalog : Catalog b} {table : TableName b} {column : ColumnName}

theorem tracks_of_columnProblems (hproblems : catalog.columnProblems (some table) column = []) :
    catalog.Tracks table column := by
  rw [columnProblems] at hproblems
  cases hcolumns : catalog.columns? table with
  | none => simp [hcolumns] at hproblems
  | some columns => exact ⟨columns, hcolumns, by simpa [hcolumns] using hproblems⟩

theorem tracks_of_joinProblems {relationship : RemoteRelationship b R}
    (hproblems : catalog.joinProblems relationship (some table) = []) {key : FieldName}
    {type : ColumnType b} (hfield : (key, .column column type) ∈ relationship.joinFields.toList) :
    catalog.Tracks table column := by
  have hvalue : .column column type ∈ relationship.joinFields.values := by
    rw [OrderedMap.values, ← Entries.map_snd_toList]
    exact List.mem_map_of_mem hfield
  rw [joinProblems, List.flatMap_eq_nil_iff] at hproblems
  exact tracks_of_columnProblems (hproblems _ hvalue)

end Catalog

/-! Columns among the values that are joined on -/

namespace RemoteJoin.Settles

variable {own : FieldMap b R V .row} {found : FieldMap b Empty V .row}
  {relationship : RemoteRelationship b R} {join : RemoteJoin R}

/-- Where a relationship joins on a column, the join reads a field of that column. -/
theorem find?_column (hjoin : join.Settles own found relationship) {key : FieldName}
    {column : ColumnName} {type : ColumnType b}
    (hfield : relationship.joinFields.find? key = some (.column column type)) :
    ∃ read field, join.columns.find? key = some read ∧
      found.find? read.name = some (.column field) ∧ field.column = column := by
  rw [OrderedMap.find?_eq_some_iff] at hfield
  obtain ⟨⟨_, read⟩, hread, rfl, hcarries⟩ := exists_related_of_mem hjoin.columns.flip hfield
  obtain ⟨carrier, hcarrier, hcarried⟩ := hcarries.carried
  cases hcarried with
  | @column _ _ field hcolumn htext hpath hredaction =>
      exact ⟨read, field, OrderedMap.find?_eq_some_iff.mpr hread, hcarrier, hcolumn⟩

/-- Where a join reads a field of a column, its relationship joins on the column. -/
theorem mem_joinFields (hjoin : join.Settles own found relationship) {read : JoinColumn}
    (hread : read ∈ join.columns.values) {field : ColumnField b V}
    (hfield : found.find? read.name = some (.column field)) :
    ∃ key type, (key, .column field.column type) ∈ relationship.joinFields.toList := by
  rw [OrderedMap.values, ← Entries.map_snd_toList] at hread
  obtain ⟨⟨key, _⟩, hmem, rfl⟩ := List.mem_map.mp hread
  obtain ⟨⟨_, value⟩, hvalue, -, hcarries⟩ := exists_related_of_mem hjoin.columns hmem
  obtain ⟨carrier, hcarrier, hcarried⟩ := hcarries.carried
  cases hcarrier.symm.trans hfield
  cases hcarried with
  | column hcolumn htext hpath hredaction =>
      subst hcolumn
      exact ⟨_, _, hvalue⟩

end RemoteJoin.Settles

/-! What validation has looked at on a level -/

namespace Selection

variable {catalog : Catalog b} {name : FieldName} {vocabulary : Vocabulary}

theorem findings_of_find? {owner : Option (TableName b)} : {names : List FieldName} →
    {fields : Selection b R V (.fields vocabulary names)} →
    fields.findings catalog owner = [] → {field : Selection b R V (.field vocabulary)} →
    fields.toMap.find? name = some field → field.findings catalog owner = []
  | _, cons first fresh field rest, hfindings, found, hfound => by
      rw [findings, List.append_eq_nil_iff, List.map_eq_nil_iff] at hfindings
      change (if first = name then some field else rest.toMap.find? name) = some found at hfound
      split at hfound
      · cases hfound
        exact hfindings.1
      · exact findings_of_find? hfindings.2 hfound

/-- Where validation finds nothing, it finds nothing in any field of any level below, given the
table that the rows of that level belong to. -/
theorem findings_of_levelAt? {part : Part} {tree : Selection b R V part}
    {owner : Option (TableName b)} (hfindings : tree.findings catalog owner = [])
    {path : List FieldName} {level : ResponseLevel b R V}
    (hlevel : tree.levelAt? owner path = some level)
    {field : Selection b R V (.field level.vocabulary)}
    (hfield : level.fields.find? name = some field) : field.findings catalog level.owner = [] := by
  induction tree generalizing owner path with
  | nil =>
      cases path with
      | nil =>
          cases hlevel
          cases hfield
      | cons first below => cases hlevel
  | cons first fresh field rest ihField ihRest =>
      cases path with
      | nil =>
          cases hlevel
          exact findings_of_find? hfindings hfield
      | cons next below =>
          rw [findings, List.append_eq_nil_iff, List.map_eq_nil_iff] at hfindings
          change (if first = next then _ else _) = _ at hlevel
          split at hlevel
          · exact ihField hfindings.1 hlevel
          · exact ihRest hfindings.2 hlevel
  | select fields query ih =>
      rw [findings, List.append_eq_nil_iff] at hfindings
      exact ih hfindings.2 hlevel
  | objectRelation relationship inner ih =>
      rw [findings, List.append_eq_nil_iff] at hfindings
      exact ih hfindings.2 hlevel
  | simple relationship inner ih =>
      rw [findings, List.append_eq_nil_iff] at hfindings
      exact ih hfindings.2 hlevel
  | aggregate relationship inner ih =>
      rw [findings, List.append_eq_nil_iff] at hfindings
      exact ih hfindings.2 hlevel
  | connection relationship inner ih =>
      rw [findings, List.append_eq_nil_iff] at hfindings
      exact ih hfindings.2 hlevel
  | page enabled window inner ih =>
      rw [findings, List.append_eq_nil_iff] at hfindings
      exact ih hfindings.2 hlevel
  | object fields target filter ih => exact ih hfindings hlevel
  | nodes enabled fields ih => exact ih hfindings hlevel
  | node fields ih => exact ih hfindings hlevel
  | edges fields ih => exact ih hfindings hlevel
  | arrayRelation inner ih => exact ih hfindings hlevel
  | computedField enabled field inner ih => exact ih hfindings hlevel
  | table shape inner ih => exact ih hfindings hlevel
  | _ => cases hlevel

/-! The levels of a select that was split -/

/-- A level of what is left of a selection is a level of the selection. -/
theorem levelAt?_of_stripped {part : Part} {tree : Selection b R V part}
    {owner table : Option (TableName b)} {path : List FieldName}
    {rows : FieldMap b Empty V vocabulary}
    (hlevel : tree.stripped.levelAt? owner path = some { owner := table, fields := rows }) :
    ∃ own : FieldMap b R V vocabulary,
      tree.levelAt? owner path = some { owner := table, fields := own } ∧
      ∀ name ∈ rows.keys, name ∉ own.keys → name ∈ tree.joins.phantomsAt path := by
  have hgrown := tree.levelAt?_grown owner path
  rw [hlevel] at hgrown
  generalize hown : tree.levelAt? owner path = own at hgrown
  cases hgrown with
  | @some own _ hgrown =>
      obtain ⟨table', own⟩ := own
      obtain ⟨rfl, rfl, added, hkeys, hreported⟩ := hgrown
      refine ⟨own, rfl, fun name hname habsent => hreported name ?_⟩
      change rows.keys = own.keys ++ added at hkeys
      rw [hkeys] at hname
      exact (List.mem_append.mp hname).resolve_left habsent

/-- On a level of what is left of a valid select, a join finds the values of a remote relationship
of the query, and those of them that are columns are columns of the table. -/
theorem join_tracked {select : Select b R V} (hfindings : select.findings catalog none = [])
    {path : List FieldName} {table : TableName b} {rows : FieldMap b Empty V .row}
    (hlevel : select.stripped.levelAt? none path = some { owner := some table, fields := rows })
    {own : FieldMap b R V .row}
    (hown : select.levelAt? none path = some { owner := some table, fields := own })
    {join : RemoteJoin R} (hleaf : (path ++ [name], join) ∈ select.joins.leaves) :
    ∃ relationship, own.find? name = some (.remote relationship) ∧
      join.Settles own rows relationship ∧
      ∀ key column type, (key, .column column type) ∈ relationship.joinFields.toList →
        catalog.Tracks table column := by
  obtain ⟨level, last, fields, found, relationship, hpath, hfields, hremote, hfound, hjoin⟩ :=
    joins_settled select _ join hleaf
  obtain ⟨rfl, hlast⟩ := List.append_inj' hpath rfl
  cases hlast
  -- the level that the join was settled on is the level of the path
  obtain ⟨_, hfields⟩ : ∃ owner, select.levelAt? none path = some { owner, fields } :=
    levelAt?_of_rowsAt? hfields
  obtain ⟨_, hfound⟩ : ∃ owner, select.stripped.levelAt? none path =
    some { owner, fields := found } := levelAt?_of_rowsAt? hfound
  cases hown.symm.trans hfields
  cases hlevel.symm.trans hfound
  refine ⟨relationship, hremote, hjoin, fun key column type hfield => ?_⟩
  have hproblems := findings_of_levelAt? hfindings hown hremote
  exact Catalog.tracks_of_joinProblems (List.map_eq_nil_iff.mp hproblems) hfield

/-! Levels and leaves -/

theorem toEntries_shape : {names : List FieldName} →
    (fields : Selection b R V (.fields vocabulary names)) →
    fields.shape.toEntries = fields.toEntries.map shape
  | _, nil => rfl
  | _, cons name fresh field rest =>
      congrArg (Entries.cons name fresh field.shape) (toEntries_shape rest)

end Selection

/-- A level without its leaves. -/
def ResponseLevel.shape (level : ResponseLevel b R V) : ResponseLevel b Unit Unit where
  owner := level.owner
  vocabulary := level.vocabulary
  fields := level.fields.map Selection.shape

namespace Selection

variable {vocabulary : Vocabulary} {owner : Option (TableName b)}

/-- The levels of a selection do not depend on its leaves. -/
theorem levelAt?_shape {part : Part} (tree : Selection b R V part) (owner : Option (TableName b))
    (path : List FieldName) :
    tree.shape.levelAt? owner path = (tree.levelAt? owner path).map ResponseLevel.shape := by
  induction tree generalizing owner path with
  | nil =>
      cases path with
      | nil => rfl
      | cons first below => rfl
  | @cons vocabulary names name fresh field rest ihField ihRest =>
      cases path with
      | nil =>
          let level (entries : Entries FieldName (Selection b Unit Unit (.field vocabulary))
              (name :: names)) : Option (ResponseLevel b Unit Unit) :=
            some { owner, vocabulary, fields := ⟨entries⟩ }
          exact congrArg level (toEntries_shape (cons name fresh field rest))
      | cons first below =>
          change (if name = first then _ else _) = Option.map _ (if name = first then _ else _)
          split
          · exact ihField owner below
          · exact ihRest owner (first :: below)
  | select fields query ih =>
      have htable := query.source.table?_erased
      exact (ih _ path).trans (congrArg (fun table => (fields.levelAt? table path).map _) htable)
  | object fields target filter ih =>
      have htable := target.table?_erased
      exact (ih _ path).trans (congrArg (fun table => (fields.levelAt? table path).map _) htable)
  | nodes enabled fields ih => exact ih owner path
  | node fields ih => exact ih owner path
  | edges fields ih => exact ih owner path
  | objectRelation relationship inner ih => exact ih owner path
  | arrayRelation inner ih => exact ih owner path
  | computedField enabled field inner ih => exact ih owner path
  | simple relationship inner ih => exact ih owner path
  | aggregate relationship inner ih => exact ih owner path
  | connection relationship inner ih => exact ih owner path
  | page enabled window inner ih => exact ih owner path
  | table shape inner ih => exact ih owner path
  | _ => rfl

/-- Selections of one shape have the same levels, up to leaves. -/
theorem levelAt?_of_shape_eq {part : Part} {tree : Selection b R V part}
    {other : Selection b S W part} (hshape : tree.shape = other.shape)
    {table : Option (TableName b)} {path : List FieldName} {rows : FieldMap b R V vocabulary}
    (hlevel : tree.levelAt? owner path = some { owner := table, fields := rows }) :
    ∃ others : FieldMap b S W vocabulary,
      other.levelAt? owner path = some { owner := table, fields := others } ∧
      others.map shape = rows.map shape := by
  have hlevels := other.levelAt?_shape owner path
  rw [← hshape, levelAt?_shape, hlevel] at hlevels
  obtain ⟨⟨_, others⟩, hfound, heq⟩ := Option.map_eq_some_iff.mp hlevels.symm
  obtain ⟨rfl, rfl, hfields⟩ := (ResponseLevel.mk.injEq ..).mp heq
  exact ⟨others, hfound, eq_of_heq hfields⟩

/-- A field of one level is, up to leaves, in the same place of another level of its shape. -/
theorem find?_of_shape_eq {rows : FieldMap b R V vocabulary} {others : FieldMap b S W vocabulary}
    (hshape : others.map shape = rows.map shape) {name : FieldName}
    {other : Selection b S W (.field vocabulary)} (hother : others.find? name = some other) :
    ∃ field, rows.find? name = some field ∧ field.shape = other.shape := by
  have hfound : (rows.map shape).find? name = some other.shape := by
    rw [← hshape, OrderedMap.find?_map, hother, Option.map_some]
  rwa [OrderedMap.find?_map, Option.map_eq_some_iff] at hfound

theorem column_of_shape_eq {field : Field b R V} {other : ColumnField b W}
    (hshape : field.shape = (column other : Field b S W).shape) :
    ∃ found, field = column found ∧ found.column = other.column := by
  cases field with
  | column found =>
      have hfield : erased ColumnField.traverse found = erased ColumnField.traverse other :=
        Selection.column.inj hshape
      exact ⟨found, rfl, congrArg ColumnField.column hfield⟩
  | _ => cases hshape

theorem levelAt?_withDefaultNaming (select : Select b R V) (convention : NamingConvention)
    (path : List FieldName) :
    (select.withDefaultNaming convention).levelAt? owner path = select.levelAt? owner path := by
  cases select
  rfl

/-- A name that a level reports as added is reported by a join of the level. -/
theorem exists_join_of_phantom {part : Part} {tree : Selection b R V part} {path : List FieldName}
    {name : FieldName} (hname : name ∈ tree.joins.phantomsAt path) :
    ∃ last join, (path ++ [last], join) ∈ tree.joins.leaves ∧
      .phantom name ∈ join.columns.values := by
  obtain ⟨⟨below, join⟩, hleaf, hreported⟩ := List.mem_flatMap.mp hname
  obtain ⟨first, -, rest, rfl⟩ := tree.joins.nodes.leaves_path hleaf
  change name ∈ (if (first :: rest).dropLast = path then join.phantoms else []) at hreported
  split at hreported
  · next hlevel =>
    subst hlevel
    refine ⟨(first :: rest).getLast (List.cons_ne_nil _ _), join, ?_,
      RemoteJoin.mem_phantoms.mp hreported⟩
    rwa [List.dropLast_append_getLast]
  · cases hreported

/-- The plan of a valid select reads no column that the catalog does not know.  A level of the plan
whose rows belong to a table is a level of the query.  The columns that were added to it are
columns of the table, and for every join on the level there is the remote relationship of the query
that it comes from: where that joins on a column, the level has the column under the name that the
join reads, and it is a column of the table. -/
theorem plan_join_columns_tracked [HasJson R] {select : Select b R (Unprepared b)}
    {session : Session} {catalog : Catalog b} {options : Options} {before after : Recorder}
    {plan : Plan b R} (hvalidate : options.validate = true)
    (hplan : select.plan session catalog options before = (.ok plan, after))
    {path : List FieldName} {table : TableName b} {rows : FieldMap b Empty (Prepared b) .row}
    (hlevel : plan.select.levelAt? none path = some { owner := some table, fields := rows }) :
    ∃ own : FieldMap b R (Unprepared b) .row,
      select.levelAt? none path = some { owner := some table, fields := own } ∧
      (∀ name field, rows.find? name = some (.column field) → name ∉ own.keys →
        catalog.Tracks table field.column) ∧
      ∀ joins ∈ plan.remoteJoins, ∀ name join, (path ++ [name], join) ∈ joins.leaves →
        ∃ relationship, own.find? name = some (.remote relationship) ∧
          join.columns.keys = relationship.joinFields.keys ∧
          ∀ key column type, relationship.joinFields.find? key = some (.column column type) →
            catalog.Tracks table column ∧
            ∃ found field, join.columns.find? key = some found ∧
              rows.find? found.name = some (.column field) ∧ field.column = column := by
  obtain ⟨hvalid, hjoins, hprepare⟩ := plan_ok hplan
  obtain ⟨preparation, hsteps, -⟩ := TreeKind.prepare_ok hprepare
  obtain ⟨hshape, -⟩ := TreeKind.traverse_ok hsteps
  generalize hnamed : select.withDefaultNaming options.namingConvention = named at *
  have hfindings : named.findings catalog none = [] := by
    have hok := hvalid hvalidate
    rwa [validate, Errors.toExcept_eq_ok_iff, List.map_eq_nil_iff] at hok
  -- the level is one of the select that was split, and so one of the query
  have hsame : Selection.shape plan.select = Selection.shape named.stripped := hshape
  obtain ⟨others, hothers, hrows⟩ := levelAt?_of_shape_eq hsame hlevel
  obtain ⟨own, hown, hadded⟩ := levelAt?_of_stripped hothers
  have hquery := hown
  rw [← hnamed, levelAt?_withDefaultNaming] at hquery
  refine ⟨own, hquery, ?_, ?_⟩
  · intro name field hfield habsent
    obtain ⟨other, hother, hsame⟩ := find?_of_shape_eq hrows.symm hfield
    obtain ⟨found, rfl, hcolumn⟩ := column_of_shape_eq hsame
    have hname : name ∈ others.keys :=
      Entries.mem_keys_of_mem_toList (OrderedMap.find?_eq_some_iff.mp hother)
    obtain ⟨last, join, hleaf, hread⟩ := exists_join_of_phantom (hadded name hname habsent)
    obtain ⟨relationship, -, hjoin, htracked⟩ := join_tracked hfindings hothers hown hleaf
    obtain ⟨key, type, hvalue⟩ := hjoin.mem_joinFields hread hother
    rw [← hcolumn]
    exact htracked key found.column type hvalue
  · intro joins hmem name join hleaf
    have hleaf : (path ++ [name], join) ∈ named.joins.leaves := by
      rw [hjoins, splitRemotes_joins_eq] at hmem
      split at hmem
      · cases hmem
      · cases hmem
        exact hleaf
    obtain ⟨relationship, hremote, hjoin, htracked⟩ := join_tracked hfindings hothers hown hleaf
    refine ⟨relationship, hremote, hjoin.keys, fun key column type hvalue => ?_⟩
    obtain ⟨read, other, hread, hother, rfl⟩ := hjoin.find?_column hvalue
    obtain ⟨carrier, hfield, hsame⟩ := find?_of_shape_eq hrows hother
    obtain ⟨field, rfl, hcolumn⟩ := column_of_shape_eq hsame
    exact ⟨htracked key _ type (OrderedMap.find?_eq_some_iff.mp hvalue), read, field, hread,
      hfield, hcolumn⟩

/-- A table of the catalog below. -/
def libraryTable (name : String) : TableName .mySql :=
  .qualified ⟨"library", name⟩ (by decide)

/-- Two tables with the columns that relationships join on. -/
def libraryCatalog : Catalog .mySql :=
  ⟨.ofList [(libraryTable "author", [⟨"id"⟩]), (libraryTable "book", [⟨"author_id"⟩, ⟨"isbn"⟩])]⟩

/-- Authors with an aggregate of their books, whose reviews are elsewhere. -/
def librarySelect : Select .mySql String (Unprepared .mySql) :=
  let type : ColumnType .mySql := .enumReference "isbn"
  let query (table : String) : Query .mySql (Unprepared .mySql) :=
    { source := .table (libraryTable table), permission := .unrestricted }
  let reviews : RemoteRelationship .mySql String :=
    { joinFields := .ofList [(⟨"isbn"⟩, .column ⟨"isbn"⟩ type)], target := "reviews" }
  let nodes : AggregateSelect .mySql String (Unprepared .mySql) :=
    ofFields (.ofList [(⟨"nodes"⟩,
      .nodes rfl (.cons ⟨"reviews"⟩ List.not_mem_nil (.remote reviews) .nil))]) (query "book")
  let books : Relationship :=
    { name := ⟨"books"⟩, mapping := .ofList [(⟨"id"⟩, ⟨"author_id"⟩)] }
  ofFields (.ofList [(⟨"books"⟩, .arrayRelation (.aggregate books nodes))]) (query "author")

theorem plan_librarySelect_join_columns_tracked :
    ∃ plan finish, ∃ rows : FieldMap .mySql Empty (Prepared .mySql) .row,
      librarySelect.plan .empty libraryCatalog {} {} = (.ok plan, finish) ∧
      plan.select.levelAt? none [⟨"books"⟩, ⟨"nodes"⟩] =
        some { owner := some (libraryTable "book"), fields := rows } ∧
      rows.keys = [⟨"reviews"⟩, ⟨"__phantom__isbn"⟩] ∧
      ∃ own : FieldMap .mySql String (Unprepared .mySql) .row,
        librarySelect.levelAt? none [⟨"books"⟩, ⟨"nodes"⟩] =
          some { owner := some (libraryTable "book"), fields := own } ∧
        (∀ name field, rows.find? name = some (.column field) → name ∉ own.keys →
          libraryCatalog.Tracks (libraryTable "book") field.column) ∧
        ∀ joins ∈ plan.remoteJoins, ∀ name join,
          ([⟨"books"⟩, ⟨"nodes"⟩] ++ [name], join) ∈ joins.leaves →
          ∃ relationship, own.find? name = some (.remote relationship) ∧
            join.columns.keys = relationship.joinFields.keys ∧
            ∀ key column type, relationship.joinFields.find? key = some (.column column type) →
              libraryCatalog.Tracks (libraryTable "book") column ∧
              ∃ found field, join.columns.find? key = some found ∧
                rows.find? found.name = some (.column field) ∧ field.column = column := by
  have hplan : librarySelect.plan .empty libraryCatalog {} {} = (.ok _, _) := rfl
  exact ⟨_, _, _, hplan, rfl, rfl, plan_join_columns_tracked rfl hplan rfl⟩

end Selection

end SelectPlan
