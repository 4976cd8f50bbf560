import SelectPlan.Proofs.RemoteJoins.Levels
import SelectPlan.Proofs.RemoteJoins.Nodes

/-!
Join columns are really there.  Every join of a select belongs to a remote relationship of it, and
the level of that relationship has, after the split, a field for each value it joins on.
-/

namespace SelectPlan

variable {b : Backend} {R V : Type}

namespace Selection

/-- The fields of the rows that a path of response fields leads to. -/
def rowsAt? : {part : Part} → Selection b R V part → List FieldName → Option (FieldMap b R V .row)
  | _, column _, _ => none
  | _, objectRelation _ inner, path => inner.rowsAt? path
  | _, arrayRelation inner, path => inner.rowsAt? path
  | _, computedField _ _ inner, path => inner.rowsAt? path
  | _, remote _, _ => none
  | _, nodeId _ _ _, _ => none
  | _, constant _, _ => none
  | _, aggregates _, _ => none
  | _, nodes _ fields, path => if path.isEmpty then some fields.toMap else fields.rowsAt? path
  | _, aggregateConstant _, _ => none
  | _, connectionTypeName _, _ => none
  | _, pageInfo _, _ => none
  | _, edges fields, path => fields.rowsAt? path
  | _, edgeTypeName _, _ => none
  | _, cursor, _ => none
  | _, node fields, path => if path.isEmpty then some fields.toMap else fields.rowsAt? path
  | _, nil, _ => none
  | _, cons _ _ _ _, [] => none
  | _, cons name _ field rest, first :: below =>
      if name = first then field.rowsAt? below else rest.rowsAt? (first :: below)
  | .select .row, select fields _, path =>
      if path.isEmpty then some fields.toMap else fields.rowsAt? path
  | .select .aggregate, select fields _, path => fields.rowsAt? path
  | .select .connection, select fields _, path => fields.rowsAt? path
  | .select .edge, select fields _, path => fields.rowsAt? path
  | _, object fields _ _, path => if path.isEmpty then some fields.toMap else fields.rowsAt? path
  | _, simple _ inner, path => inner.rowsAt? path
  | _, aggregate _ inner, path => inner.rowsAt? path
  | _, connection _ inner, path => inner.rowsAt? path
  | _, page _ _ inner, path => inner.rowsAt? path
  | _, scalar _, _ => none
  | _, table _ inner, path => inner.rowsAt? path

theorem rowsAt?_nil {vocabulary : Vocabulary} {names : List FieldName}
    (fields : Selection b R V (.fields vocabulary names)) : fields.rowsAt? [] = none := by
  cases fields <;> rfl

/-- A path into fields leads through the field that it begins with. -/
theorem rowsAt?_cons {vocabulary : Vocabulary} (first : FieldName) (below : List FieldName) :
    {names : List FieldName} → (fields : Selection b R V (.fields vocabulary names)) →
    fields.rowsAt? (first :: below) = (fields.toMap.find? first).bind (·.rowsAt? below)
  | _, nil => rfl
  | _, cons name fresh field rest => by
      change (if name = first then field.rowsAt? below else rest.rowsAt? (first :: below)) =
        (if name = first then some field else rest.toMap.find? first).bind _
      split
      · rfl
      · exact rowsAt?_cons first below rest

/-- More fields at the end do not change where a path leads. -/
theorem rowsAt?_of_grown {vocabulary : Vocabulary} {names more : List FieldName}
    {fields : Selection b R V (.fields vocabulary names)}
    {others : Selection b R V (.fields vocabulary more)}
    (hgrown : fields.toMap.toList <+: others.toMap.toList) {path : List FieldName}
    {rows : FieldMap b R V .row} (hrows : fields.rowsAt? path = some rows) :
    others.rowsAt? path = some rows := by
  cases path with
  | nil =>
      rw [rowsAt?_nil] at hrows
      cases hrows
  | cons first below =>
      rw [rowsAt?_cons, Option.bind_eq_some_iff] at hrows ⊢
      obtain ⟨field, hfield, hbelow⟩ := hrows
      rw [OrderedMap.find?_eq_some_iff] at hfield
      exact ⟨field, OrderedMap.find?_eq_some_iff.mpr (hgrown.subset hfield), hbelow⟩

theorem remote?_eq_some {field : Field b R V} {relationship : RemoteRelationship b R}
    (hremote : remote? field = some relationship) : field = remote relationship := by
  cases field with
  | remote other =>
      cases hremote
      rfl
  | _ => cases hremote

theorem find?_of_mem_remotes {name : FieldName} {relationship : RemoteRelationship b R}
    {names : List FieldName} {fields : Selection b R V (.fields .row names)}
    (hremote : (name, relationship) ∈ fields.remotes) :
    fields.toMap.find? name = some (remote relationship) := by
  rw [OrderedMap.find?_eq_some_iff]
  exact mem_remotes fields hremote
where
  mem_remotes : {names : List FieldName} → (fields : Selection b R V (.fields .row names)) →
      (name, relationship) ∈ fields.remotes → (name, remote relationship) ∈ fields.toMap.toList
    | _, .cons first fresh field rest, hremote => by
        change _ ∈ (first, field) :: rest.toMap.toList
        rw [remotes_cons, List.mem_append] at hremote
        rcases hremote with hfirst | hrest
        · obtain ⟨other, hother, heq⟩ := List.mem_map.mp hfirst
          cases heq
          rw [remote?_eq_some (Option.mem_toList.mp hother)]
          exact List.mem_cons_self
        · exact List.mem_cons_of_mem _ (mem_remotes rest hrest)

end Selection

/-- A join of a part of a selection belongs to a remote relationship of it, whose level has a field
for each value that is joined on. -/
def RemoteJoin.SettledIn {part : Part} (tree : Selection b R V part) (path : List FieldName)
    (join : RemoteJoin R) : Prop :=
  ∃ level name own found relationship, path = level ++ [name] ∧
    tree.rowsAt? level = some own ∧ own.find? name = some (.remote relationship) ∧
    tree.stripped.rowsAt? level = some found ∧ join.Settles own found relationship

/-- What is on the right of related lists is related to something on the left. -/
theorem exists_related_of_mem {α β : Type} {rel : α → β → Prop} {lefts : List α} {rights : List β}
    (hrel : List.Forall₂ rel lefts rights) {right : β} (hmem : right ∈ rights) :
    ∃ left ∈ lefts, rel left right := by
  induction hrel with
  | nil => cases hmem
  | @cons left other lefts rights hhead htail ih =>
      rcases List.mem_cons.mp hmem with rfl | hmem
      · exact ⟨left, List.mem_cons_self, hhead⟩
      · obtain ⟨found, hfound, hrelated⟩ := ih hmem
        exact ⟨found, List.mem_cons_of_mem left hfound, hrelated⟩

namespace RemoteJoin.SettledIn

variable {vocabulary : Vocabulary} {names : List FieldName} {name : FieldName}
  {path : List FieldName} {join : RemoteJoin R}

theorem cons_field {field : Selection b R V (.field vocabulary)}
    (hfield : join.SettledIn field path) (fresh : name ∉ names)
    (rest : Selection b R V (.fields vocabulary names)) :
    join.SettledIn (.cons name fresh field rest) (name :: path) := by
  obtain ⟨level, last, own, found, relationship, rfl, hown, hremote, hfound, hjoin⟩ := hfield
  refine ⟨name :: level, last, own, found, relationship, rfl, ?_, hremote, ?_, hjoin⟩
  · exact (if_pos rfl).trans hown
  · exact (if_pos rfl).trans hfound

theorem cons_rest {rest : Selection b R V (.fields vocabulary names)}
    (hrest : join.SettledIn rest path) (fresh : name ∉ names)
    (field : Selection b R V (.field vocabulary)) :
    join.SettledIn (.cons name fresh field rest) path := by
  obtain ⟨level, last, own, found, relationship, rfl, hown, hremote, hfound, hjoin⟩ := hrest
  cases level with
  | nil =>
      rw [Selection.rowsAt?_nil] at hown
      cases hown
  | cons first below =>
      have hne : name ≠ first := by
        rintro rfl
        have hnone : rest.toMap.find? name = none := rest.toEntries.find?_eq_none_iff.mpr fresh
        rw [Selection.rowsAt?_cons, hnone] at hown
        cases hown
      refine ⟨first :: below, last, own, found, relationship, rfl, ?_, hremote, ?_, hjoin⟩
      · exact (if_neg hne).trans hown
      · exact (if_neg hne).trans hfound

end RemoteJoin.SettledIn

namespace Selection

/-- The joins of a level are its own and those of the trees below it. -/
theorem joinTree_settled {names : List FieldName} {fields : Selection b R V (.fields .row names)}
    (hbelow : ∀ path join, (path, join) ∈ fields.joins.leaves → join.SettledIn fields path)
    {path : List FieldName} {join : RemoteJoin R}
    (hleaf : (path, join) ∈ (joinTree fields fields.joins).leaves) :
    join.SettledIn (node fields) path := by
  obtain ⟨hgrown, hsettles⟩ := settle_spec fields
  rw [leaves_joinTree, List.mem_append] at hleaf
  rcases hleaf with hleaf | hleaf
  · obtain ⟨level, name, own, found, relationship, hpath, hown, hremote, hfound, hjoin⟩ :=
      hbelow path join hleaf
    cases level with
    | nil =>
        rw [rowsAt?_nil] at hown
        cases hown
    | cons first below =>
        refine ⟨first :: below, name, own, found, relationship, hpath, hown, hremote, ?_, hjoin⟩
        rw [← toMap_ofEntries (settle fields fields.stripped).2.fields] at hgrown
        exact rowsAt?_of_grown hgrown hfound
  · obtain ⟨⟨name, settled⟩, hmem, heq⟩ := List.mem_map.mp hleaf
    cases heq
    obtain ⟨⟨_, relationship⟩, hremote, rfl, hjoin⟩ := exists_related_of_mem hsettles hmem
    refine ⟨[], name, fields.toMap, _, relationship, rfl, rfl, find?_of_mem_remotes hremote, ?_,
      hjoin⟩
    exact congrArg some (toMap_ofEntries _)

/-- The joins of a part of a selection are settled in it. -/
theorem joins_settled {part : Part} (tree : Selection b R V part) :
    ∀ path join, (path, join) ∈ tree.joins.leaves → join.SettledIn tree path := by
  induction tree with
  | cons name fresh field rest ihField ihRest =>
      intro path join hleaf
      rw [joins, JoinTree.leaves_withSubtree (joins_names_fresh fresh rest),
        List.mem_append] at hleaf
      rcases hleaf with hleaf | hleaf
      · obtain ⟨⟨below, found⟩, hmem, heq⟩ := List.mem_map.mp hleaf
        cases heq
        exact (ihField below join hmem).cons_field fresh rest
      · exact (ihRest path join hleaf).cons_rest fresh field
  | @select vocabulary names fields query ih =>
      cases vocabulary with
      | row => exact fun path join hleaf => joinTree_settled ih hleaf
      | aggregate => exact ih
      | connection => exact ih
      | edge => exact ih
  | object fields target filter ih => exact fun path join hleaf => joinTree_settled ih hleaf
  | nodes enabled fields ih => exact fun path join hleaf => joinTree_settled ih hleaf
  | node fields ih => exact fun path join hleaf => joinTree_settled ih hleaf
  | objectRelation relationship inner ih => exact ih
  | arrayRelation inner ih => exact ih
  | computedField enabled name inner ih => exact ih
  | edges fields ih => exact ih
  | simple relationship inner ih => exact ih
  | aggregate relationship inner ih => exact ih
  | connection relationship inner ih => exact ih
  | page enabled window inner ih => exact ih
  | table shape inner ih => exact ih
  | _ => exact fun path join hleaf => absurd hleaf List.not_mem_nil

/-- Every join that is split off a select belongs to a remote relationship of the select and has
its target.  For each value that the relationship joins on, in the order of its join fields, the
select that is left has a field on the same level that returns the value unchanged: a field of the
query itself, the first that does, or one that was added under a name that the query does not
use. -/
theorem splitRemotes_columns_present {select : Select b R V} {stripped : Select b Empty V}
    {joins : JoinTree R} {path : List FieldName} {join : RemoteJoin R}
    (hsplit : splitRemotes select = (stripped, some joins)) (hleaf : (path, join) ∈ joins.leaves) :
    ∃ level name own found relationship, path = level ++ [name] ∧
      select.rowsAt? level = some own ∧ own.find? name = some (.remote relationship) ∧
      stripped.rowsAt? level = some found ∧ join.Settles own found relationship := by
  obtain ⟨rfl, hjoins⟩ := Prod.mk.inj hsplit
  have hmem : (path, join) ∈ select.joins.leaves := by
    split at hjoins
    · cases hjoins
    · cases hjoins
      exact hleaf
  exact joins_settled select path join hmem

/-- Books with their reviews elsewhere.  One of the values joined on is selected, the other is not,
and the query uses the name that its field would be added under. -/
def bookSelect : Select .mySql String Unit :=
  let type : ColumnType .mySql := .enumReference "key"
  let joinFields : OrderedMap FieldName (JoinField .mySql) :=
    .ofList [(⟨"id"⟩, .column ⟨"id"⟩ type), (⟨"author_id"⟩, .column ⟨"author_id"⟩ type)]
  let fields : FieldMap .mySql String Unit .row :=
    .ofList [(⟨"book"⟩, .column { column := ⟨"id"⟩, type }),
      (⟨"__phantom__author_id"⟩, .constant "Book"),
      (⟨"reviews"⟩, .remote { joinFields, target := "reviews" })]
  ofFields fields { source := .identifier ⟨"book"⟩, permission := .unrestricted }

theorem splitRemotes_bookSelect_columns_present :
    ∃ stripped joins join, splitRemotes bookSelect = (stripped, some joins) ∧
      ([⟨"reviews"⟩], join) ∈ joins.leaves ∧
      join.columns.toList = [(⟨"id"⟩, .selected ⟨"book"⟩),
        (⟨"author_id"⟩, .phantom ⟨"__phantom__author_id_1"⟩)] ∧
      ∃ level name own found relationship, [⟨"reviews"⟩] = level ++ [name] ∧
        bookSelect.rowsAt? level = some own ∧ own.find? name = some (.remote relationship) ∧
        stripped.rowsAt? level = some found ∧ join.Settles own found relationship := by
  have hleaf : ∃ join, bookSelect.joins.leaves = [([⟨"reviews"⟩], join)] ∧
      join.columns.toList = [(⟨"id"⟩, .selected ⟨"book"⟩),
        (⟨"author_id"⟩, .phantom ⟨"__phantom__author_id_1"⟩)] := ⟨_, rfl, by decide⟩
  obtain ⟨join, hleaves, hcolumns⟩ := hleaf
  have hmem : ([⟨"reviews"⟩], join) ∈ bookSelect.joins.leaves :=
    hleaves ▸ List.mem_cons_self
  exact ⟨_, _, join, rfl, hmem, hcolumns, splitRemotes_columns_present rfl hmem⟩

end Selection

end SelectPlan
