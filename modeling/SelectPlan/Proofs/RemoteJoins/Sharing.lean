import Mathlib.Data.List.Nodup
import SelectPlan.Proofs.RemoteJoins.Columns

/-!
Fields are added sparingly.  A level gets a field for a join value only if it has none that carries
the value, and the remote relationships of the level share it.
-/

namespace SelectPlan

variable {b : Backend} {R V : Type}

namespace JoinField

/-- Two join fields are for the same value: for the same column, or for the same computed field. -/
inductive SameValue : JoinField b → JoinField b → Prop
  | column {name : ColumnName} {type type' : ColumnType b} :
      SameValue (.column name type) (.column name type')
  | computedField {enabled enabled' : b.capabilities.computedFields = true}
      {name : ComputedFieldName} {function function' : FunctionName b} {type type' : ScalarType b} :
      SameValue (.computedField enabled name function type)
        (.computedField enabled' name function' type')

variable {value other : JoinField b}

theorem SameValue.symm (hsame : value.SameValue other) : other.SameValue value := by
  cases hsame with
  | column => exact .column
  | computedField => exact .computedField

theorem SameValue.carriedBy {field : Field b R V} (hsame : value.SameValue other)
    (hcarried : other.CarriedBy field) : value.CarriedBy field := by
  cases hsame with
  | column =>
      cases hcarried with
      | column hcolumn htext hpath hredaction => exact .column hcolumn htext hpath hredaction
  | computedField =>
      cases hcarried with
      | computedField harguments hpath hredaction =>
          exact .computedField harguments hpath hredaction

/-- One field carries one value. -/
theorem SameValue.of_carriedBy {field : Field b R V} (hvalue : value.CarriedBy field)
    (hother : other.CarriedBy field) : value.SameValue other := by
  cases hvalue with
  | column hcolumn _ _ _ =>
      cases hother with
      | column hother _ _ _ =>
          rw [← hcolumn, ← hother]
          exact .column
  | computedField _ _ _ =>
      cases hother with
      | computedField _ _ _ => exact .computedField

/-- Join fields for the same value are looked for by the same test. -/
theorem SameValue.selectedBy_eq (hsame : value.SameValue other) :
    (value.selectedBy : Field b Empty V → Bool) = other.selectedBy := by
  funext field
  rw [Bool.eq_iff_iff, selectedBy_iff, selectedBy_iff]
  exact ⟨hsame.symm.carriedBy, hsame.carriedBy⟩

end JoinField

/-- The name of a field that is added for a join field: that of the join field behind a mark, and
where this is taken with a number. -/
def IsPhantomName (key name : FieldName) : Prop :=
  name.text = phantomMark ++ key.text ∨
    ∃ n, 1 ≤ n ∧ name.text = phantomMark ++ key.text ++ "_" ++ toString n

theorem unusedName_mem (taken : List FieldName) (base : String) :
    unusedName taken base ∈ phantomCandidates base taken.length := by
  rw [unusedName]
  cases hfind : (phantomCandidates base taken.length).find? fun name => !taken.contains name with
  | none => exact List.mem_cons_self
  | some name => exact List.mem_of_find?_eq_some hfind

theorem isPhantomName_unusedName (taken : List FieldName) (key : FieldName) :
    IsPhantomName key (unusedName taken (phantomMark ++ key.text)) := by
  rcases List.mem_cons.mp (unusedName_mem taken (phantomMark ++ key.text)) with hname | hname
  · exact Or.inl (congrArg Name.text hname)
  · obtain ⟨n, -, hname⟩ := List.mem_map.mp hname
    exact Or.inr ⟨n + 1, Nat.le_add_left 1 n, (congrArg Name.text hname).symm⟩

theorem PrefixFree.nodup {paths : List (List FieldName)} (hpaths : PrefixFree paths) :
    paths.Nodup :=
  hpaths.imp fun {first second} hfree (heq : first = second) => hfree.1 (heq ▸ List.prefix_rfl)

namespace JoinLevel

variable {own : FieldMap b R V .row} {wanted : FieldName → JoinField b → Prop}
  {added : List (FieldName × JoinField b)} {level after : JoinLevel b V} {value : JoinField b}

/-- Where a level has a join value, if it has it. -/
def column? (level : JoinLevel b V) (value : JoinField b) : Option JoinColumn :=
  (level.fields.findEntry? value.selectedBy).map fun (found, _) =>
    if level.phantoms.contains found then .phantom found else .selected found

/-- What was added to a level of fields: for each join value that they do not carry at most one
field that does, named after a join field for the value. -/
structure Adds (own : FieldMap b R V .row) (wanted : FieldName → JoinField b → Prop)
    (added : List (FieldName × JoinField b)) (level : JoinLevel b V) : Prop where
  fields : level.fields.toList = own.toList.map (fun (name, field) => (name, field.stripped)) ++
    added.map (Prod.map id JoinField.phantom)
  phantoms : level.phantoms = added.map Prod.fst
  missing : ∀ entry ∈ added, ∀ field ∈ own.toList, ¬ entry.2.CarriedBy field.2
  distinct : added.Pairwise fun entry other => ¬ entry.2.SameValue other.2
  named : ∀ entry ∈ added, ∃ key, wanted key entry.2 ∧ IsPhantomName key entry.1

namespace Adds

theorem extends_own (hadds : level.Adds own wanted added) : level.Extends own where
  fields := ⟨_, hadds.fields, by rw [hadds.phantoms, List.map_map]; rfl⟩

/-- A value that is not found is carried neither by a field of the level nor by one that was
added. -/
theorem not_carriedBy_of_not_found (hfound : level.fields.findEntry? value.selectedBy = none)
    {entry : FieldName × Field b Empty V} (hentry : entry ∈ level.fields.toList) :
    ¬ value.CarriedBy entry.2 := by
  rw [OrderedMap.findEntry?_eq_find?, List.find?_eq_none] at hfound
  exact fun hcarried => hfound entry hentry (JoinField.selectedBy_iff.mpr hcarried)

/-- One more field, for a value that was not found. -/
theorem add (hadds : level.Adds own wanted added) {key : FieldName} (hwanted : wanted key value)
    (hfound : level.fields.findEntry? value.selectedBy = none) :
    let name := unusedName level.fields.keys (phantomMark ++ key.text)
    (level.add name value).Adds own wanted (added ++ [(name, value)]) := by
  intro name
  have habsent (entry : FieldName × Field b Empty V) (hentry : entry ∈ level.fields.toList) :=
    not_carriedBy_of_not_found hfound hentry
  refine ⟨?_, ?_, ?_, ?_, ?_⟩
  · rw [toList_add value (unusedName_not_mem _ _), hadds.fields, List.append_assoc,
      List.map_append]
    rfl
  · rw [List.map_append, ← hadds.phantoms]
    rfl
  · intro entry hentry field hfield
    rcases List.mem_append.mp hentry with hentry | hentry
    · exact hadds.missing entry hentry field hfield
    · rw [List.mem_singleton.mp hentry, ← JoinField.carriedBy_stripped]
      apply habsent (field.1, field.2.stripped)
      rw [hadds.fields]
      exact List.mem_append_left _ (List.mem_map_of_mem hfield)
  · rw [List.pairwise_append]
    refine ⟨hadds.distinct, List.pairwise_singleton _ _, fun entry hentry last hlast hsame => ?_⟩
    rw [List.mem_singleton.mp hlast] at hsame
    apply habsent (entry.1, entry.2.phantom)
    · rw [hadds.fields]
      exact List.mem_append_right _ (List.mem_map_of_mem hentry)
    · exact hsame.symm.carriedBy entry.2.phantom_carries
  · intro entry hentry
    rcases List.mem_append.mp hentry with hentry | hentry
    · exact hadds.named entry hentry
    · rw [List.mem_singleton.mp hentry]
      exact ⟨key, hwanted, isPhantomName_unusedName _ key⟩

end Adds

theorem column?_found {found : FieldName} {carrier : Field b Empty V}
    (hfound : level.fields.findEntry? value.selectedBy = some (found, carrier)) :
    level.column? value =
      some (if level.phantoms.contains found then .phantom found else .selected found) := by
  rw [column?, hfound]
  rfl

/-- A join is determined by the columns of the values that are joined on. -/
theorem Joins.eq_map {has : JoinField b → JoinColumn → Prop} {columns : JoinField b → JoinColumn}
    {relationship : RemoteRelationship b R} {join : RemoteJoin R}
    (hcolumns : ∀ value column, has value column → columns value = column)
    (hjoins : Joins has relationship join) :
    join = ⟨relationship.joinFields.map columns, relationship.target⟩ := by
  have hentries : (relationship.joinFields.map columns).toList = join.columns.toList := by
    rw [OrderedMap.toList_map, ← List.forall₂_eq_eq_eq, List.forall₂_map_left_iff]
    exact hjoins.columns.imp fun field column ⟨hname, hcolumn⟩ =>
      Prod.ext hname.symm (hcolumns field.2 column.2 hcolumn)
  rw [OrderedMap.toList_injective hentries, ← hjoins.target]

/-- A value keeps its column when one more field is added. -/
theorem column?_add {name : FieldName} (hfresh : name ∉ level.fields.keys) (other : JoinField b)
    {column : JoinColumn} (hcolumn : level.column? value = some column) :
    (level.add name other).column? value = some column := by
  obtain ⟨⟨found, carrier⟩, hfound, hcolumn⟩ := Option.map_eq_some_iff.mp hcolumn
  rw [OrderedMap.findEntry?_eq_find?] at hfound
  have hne : found ≠ name := by
    rintro rfl
    apply hfresh
    rw [← OrderedMap.map_fst_toList]
    exact List.mem_map_of_mem (List.mem_of_find?_eq_some hfound)
  rw [column?, OrderedMap.findEntry?_eq_find?, toList_add other hfresh, List.find?_append, hfound,
    ← hcolumn]
  have hphantom : found ∈ (level.add name other).phantoms ↔ found ∈ level.phantoms := by
    simp [add, hne]
  simp [hphantom]

/-- The field that is added for a value is found for it. -/
theorem column?_added {name : FieldName} (hfresh : name ∉ level.fields.keys)
    (hfound : level.fields.findEntry? value.selectedBy = none) :
    (level.add name value).column? value = some (.phantom name) := by
  have htest : value.selectedBy (value.phantom : Field b Empty V) = true :=
    JoinField.selectedBy_iff.mpr value.phantom_carries
  rw [OrderedMap.findEntry?_eq_find?] at hfound
  rw [column?, OrderedMap.findEntry?_eq_find?, toList_add value hfresh, List.find?_append, hfound]
  simp [htest, add]

/-- One join value: either it is found, or a field is added for it that is found from then on. -/
theorem settles_sparingly {key : FieldName} (hwanted : wanted key value) :
    Settles (fun level : JoinLevel b V => ∃ added, level.Adds own wanted added)
      (fun level value column => level.column? value = some column) key value := by
  intro level hlevel
  obtain ⟨added, hadds⟩ := hlevel
  rw [joinColumn]
  split
  · next found carrier hfound =>
    exact ⟨.refl ⟨added, hadds⟩, column?_found hfound⟩
  · next hfound =>
    have hfresh := unusedName_not_mem level.fields.keys (phantomMark ++ key.text)
    exact ⟨⟨⟨_, hadds.add hwanted hfound⟩, fun _ _ => column?_add hfresh value⟩,
      column?_added hfresh hfound⟩

/-- The field that a column names carries the value. -/
theorem carries_of_column? (hlevel : level.Extends own) {column : JoinColumn}
    (hcolumn : level.column? value = some column) : column.Carries own level.fields value := by
  obtain ⟨⟨found, carrier⟩, hfound, heq⟩ := Option.map_eq_some_iff.mp hcolumn
  exact heq ▸ carries_found hlevel hfound

/-- Values have one column exactly if they are the same value. -/
theorem column?_eq_iff (hlevel : level.Extends own) {other : JoinField b} {column : JoinColumn}
    (hcolumn : level.column? value = some column) :
    level.column? other = some column ↔ value.SameValue other := by
  constructor
  · intro hother
    obtain ⟨field, hfield, hvalue⟩ := (carries_of_column? hlevel hcolumn).carried
    obtain ⟨_, hsame, hother⟩ := (carries_of_column? hlevel hother).carried
    cases hfield.symm.trans hsame
    exact .of_carriedBy hvalue hother
  · intro hsame
    rw [← hcolumn, column?, column?, hsame.selectedBy_eq]

/-- The field of a value is one of those that were added if and only if the level's own fields do
not carry it. -/
theorem Adds.isPhantom_iff (hadds : level.Adds own wanted added) {column : JoinColumn}
    (hcolumn : level.column? value = some column) :
    column.isPhantom = true ↔ ∀ field ∈ own.toList, ¬ value.CarriedBy field.2 := by
  have hcarries := carries_of_column? hadds.extends_own hcolumn
  constructor
  · intro hphantom field hfield hcarried
    obtain ⟨carrier, hfind, hvalue⟩ := hcarries.carried
    rw [OrderedMap.find?_eq_some_iff, hadds.fields, List.mem_append] at hfind
    rcases hfind with hown | hadded
    · obtain ⟨⟨name, _⟩, hentry, heq⟩ := List.mem_map.mp hown
      obtain ⟨rfl, -⟩ := Prod.mk.inj heq
      apply hcarries.phantom_iff.mp hphantom
      rw [← OrderedMap.map_fst_toList]
      exact List.mem_map_of_mem hentry
    · obtain ⟨entry, hentry, heq⟩ := List.mem_map.mp hadded
      obtain ⟨-, rfl⟩ := Prod.mk.inj heq
      have hsame := JoinField.SameValue.of_carriedBy entry.2.phantom_carries hvalue
      exact hadds.missing entry hentry field hfield (hsame.carriedBy hcarried)
  · intro hmissing
    by_contra hselected
    obtain ⟨before, field, rest, hown, -, hcarried, -⟩ :=
      hcarries.first (Bool.eq_false_iff.mpr hselected)
    apply hmissing (column.name, field) _ hcarried
    rw [hown]
    exact List.mem_append_right _ List.mem_cons_self

end JoinLevel

/-- A remote relationship of a level joins on a value, under a name. -/
def FieldMap.JoinsOn (own : FieldMap b R V .row) (key : FieldName) (value : JoinField b) : Prop :=
  ∃ name relationship, own.find? name = some (.remote relationship) ∧
    (key, value) ∈ relationship.joinFields.toList

/-- How a level gives the values that its remote relationships join on: `own` are its fields before
the split, `found` those after it, `added` are the names of the fields that were added, each with
the value that it is for, and `columns` says for each value which field has it. -/
structure SharesColumns (own : FieldMap b R V .row) (found : FieldMap b Empty V .row)
    (added : List (FieldName × JoinField b)) (columns : JoinField b → JoinColumn) : Prop where
  /-- The fields that were added come behind those of the query. -/
  fields : found.toList = own.toList.map (fun (name, field) => (name, field.stripped)) ++
    added.map (Prod.map id JoinField.phantom)
  /-- All of them have different names. -/
  names : (own.keys ++ added.map Prod.fst).Nodup
  /-- A field that is added is named after a join field that it is for. -/
  named : ∀ entry ∈ added, ∃ key, FieldMap.JoinsOn own key entry.2 ∧ IsPhantomName key entry.1
  /-- No field is added for a value that a field of the query carries. -/
  missing : ∀ entry ∈ added, ∀ field ∈ own.toList, ¬ entry.2.CarriedBy field.2
  /-- No two fields are added for one value. -/
  distinct : added.Pairwise fun entry other => ¬ entry.2.SameValue other.2
  /-- The field of a value carries it. -/
  carries : ∀ key value, FieldMap.JoinsOn own key value → (columns value).Carries own found value
  /-- It is a field that was added if and only if no field of the query carries the value. -/
  isPhantom_iff : ∀ key value, FieldMap.JoinsOn own key value →
    ((columns value).isPhantom = true ↔ ∀ field ∈ own.toList, ¬ value.CarriedBy field.2)
  /-- Two values have one field if and only if they are the same. -/
  eq_iff : ∀ key value key' value', FieldMap.JoinsOn own key value →
    FieldMap.JoinsOn own key' value' → (columns value = columns value' ↔ value.SameValue value')

namespace Selection

theorem mem_remotes_of_find? {name : FieldName} {relationship : RemoteRelationship b R} :
    {names : List FieldName} → (fields : Selection b R V (.fields .row names)) →
    fields.toMap.find? name = some (remote relationship) → (name, relationship) ∈ fields.remotes
  | _, cons first fresh field rest, hfound => by
      change (if first = name then some field else rest.toMap.find? name) = _ at hfound
      rw [remotes_cons, List.mem_append]
      split at hfound
      · next hname =>
        cases hfound
        exact Or.inl (List.mem_singleton.mpr (hname ▸ rfl))
      · exact Or.inr (mem_remotes_of_find? rest hfound)

/-- The joins of a level share the fields that are added for them. -/
theorem settle_shares {names : List FieldName} (fields : Selection b R V (.fields .row names)) :
    ∃ added columns,
      SharesColumns fields.toMap (settle fields fields.stripped).2.fields added columns ∧
      List.Forall₂ (fun remote join => join.1 = remote.1 ∧
        join.2 = ⟨remote.2.joinFields.map columns, remote.2.target⟩)
        fields.remotes (settle fields fields.stripped).1 := by
  have hstart : JoinLevel.Adds fields.toMap (FieldMap.JoinsOn fields.toMap) []
      { fields := fields.stripped.toMap } :=
    ⟨by rw [toList_stripped]; exact (List.append_nil _).symm, rfl, nofun, .nil, nofun⟩
  have hjoined : ∀ remote ∈ fields.remotes, ∀ entry ∈ remote.2.joinFields.toList,
      FieldMap.JoinsOn fields.toMap entry.1 entry.2 := fun remote hremote entry hentry =>
    ⟨remote.1, remote.2, find?_of_mem_remotes hremote, hentry⟩
  obtain ⟨⟨⟨added, hadds⟩, -⟩, hjoins⟩ := JoinLevel.joinAll_settles fields.remotes
    (fun remote hremote entry hentry =>
      JoinLevel.settles_sparingly (hjoined remote hremote entry hentry)) ⟨[], hstart⟩
  let level := (settle fields fields.stripped).2
  let columns := fun value => (level.column? value).getD (.selected ⟨""⟩)
  have hlevel : level.Extends fields.toMap := hadds.extends_own
  have hcolumn {key : FieldName} {value : JoinField b}
      (hjoined : FieldMap.JoinsOn fields.toMap key value) :
      level.column? value = some (columns value) := by
    obtain ⟨name, relationship, hfound, hvalue⟩ := hjoined
    obtain ⟨join, -, -, hjoin⟩ :=
      exists_related_of_mem hjoins.flip (mem_remotes_of_find? fields hfound)
    obtain ⟨column, -, -, hcolumn⟩ := exists_related_of_mem hjoin.columns.flip hvalue
    exact hcolumn.trans (congrArg some (congrArg (Option.getD · _) hcolumn).symm)
  refine ⟨added, columns,
    ⟨hadds.fields, ?_, hadds.named, hadds.missing, hadds.distinct, ?_, ?_, ?_⟩,
    hjoins.imp fun _ _ => And.imp_right fun hjoin => hjoin.eq_map fun _ _ hcolumn =>
      congrArg (Option.getD · _) hcolumn⟩
  · exact hadds.phantoms ▸ hlevel.keys ▸ level.fields.nodup_keys
  · exact fun key value hvalue => JoinLevel.carries_of_column? hlevel (hcolumn hvalue)
  · exact fun key value hvalue => hadds.isPhantom_iff (hcolumn hvalue)
  · intro key value key' value' hvalue hvalue'
    rw [← JoinLevel.column?_eq_iff hlevel (hcolumn hvalue), hcolumn hvalue', Option.some_inj,
      eq_comm]

/-- What a path of response fields leads to is settled: the split leaves the fields that the level
has in the end, and its joins are leaves below the path. -/
def SettledAt {part : Part} (tree : Selection b R V part) (path : List FieldName)
    (own : FieldMap b R V .row) : Prop :=
  let settled := settle (ofEntries own.entries) (ofEntries own.entries).stripped
  tree.stripped.rowsAt? path = some settled.2.fields ∧
    ∀ name join, (name, join) ∈ settled.1 → (path ++ [name], join) ∈ tree.joins.leaves

theorem joinTree_settledAt {names : List FieldName} {fields : Selection b R V (.fields .row names)}
    (hbelow : ∀ path own, fields.rowsAt? path = some own → fields.SettledAt path own)
    {path : List FieldName} {own : FieldMap b R V .row}
    (hown : (node fields).rowsAt? path = some own) : (node fields).SettledAt path own := by
  have hleaves : (node fields).joins.leaves = _ := leaves_joinTree fields
  cases path with
  | nil =>
      cases hown
      have hfields : ofEntries fields.toMap.entries = fields := ofEntries_toEntries fields
      rw [SettledAt, hfields, hleaves]
      refine ⟨congrArg some (toMap_ofEntries _), fun name join hjoin => ?_⟩
      exact List.mem_append_right _ (List.mem_map_of_mem hjoin)
  | cons first below =>
      obtain ⟨hfound, hjoins⟩ := hbelow (first :: below) own hown
      have hgrown := (settle_spec fields).1
      rw [← toMap_ofEntries (settle fields fields.stripped).2.fields] at hgrown
      rw [SettledAt, hleaves]
      exact ⟨rowsAt?_of_grown hgrown hfound, fun name join hjoin =>
        List.mem_append_left _ (hjoins name join hjoin)⟩

/-- Every level of a part of a selection is settled in it. -/
theorem settledAt {part : Part} (tree : Selection b R V part) :
    ∀ path own, tree.rowsAt? path = some own → tree.SettledAt path own := by
  induction tree with
  | cons name fresh field rest ihField ihRest =>
      intro path own hown
      have hleaves : (rest.joins.withSubtree name field.joins).leaves = _ :=
        JoinTree.leaves_withSubtree (joins_names_fresh fresh rest)
      cases path with
      | nil => cases hown
      | cons first below =>
          change (if name = first then field.rowsAt? below else rest.rowsAt? (first :: below)) = _
            at hown
          split at hown
          · next hname =>
            obtain ⟨hfound, hjoins⟩ := ihField below own hown
            refine ⟨(if_pos hname).trans hfound, fun last join hjoin => ?_⟩
            rw [joins, hleaves, ← hname]
            exact List.mem_append_left _ (List.mem_map_of_mem (hjoins last join hjoin))
          · next hname =>
            obtain ⟨hfound, hjoins⟩ := ihRest (first :: below) own hown
            refine ⟨(if_neg hname).trans hfound, fun last join hjoin => ?_⟩
            rw [joins, hleaves]
            exact List.mem_append_right _ (hjoins last join hjoin)
  | @select vocabulary names fields query ih =>
      cases vocabulary with
      | row => exact fun path own hown => joinTree_settledAt ih hown
      | aggregate => exact ih
      | connection => exact ih
      | edge => exact ih
  | object fields target filter ih => exact fun path own hown => joinTree_settledAt ih hown
  | nodes enabled fields ih => exact fun path own hown => joinTree_settledAt ih hown
  | node fields ih => exact fun path own hown => joinTree_settledAt ih hown
  | objectRelation relationship inner ih => exact ih
  | arrayRelation inner ih => exact ih
  | computedField enabled name inner ih => exact ih
  | edges fields ih => exact ih
  | simple relationship inner ih => exact ih
  | aggregate relationship inner ih => exact ih
  | connection relationship inner ih => exact ih
  | page enabled window inner ih => exact ih
  | table shape inner ih => exact ih
  | _ =>
      intro path own hown
      cases hown

/-- On every level of a select the remote relationships share the fields that are added for them.
A field is added only for a value that no field of the level carries, and at most one for each
value, under a name of its own that is made from that of a join field.  The joins that are split
off name for every value the field that carries it, so that two join fields, of one relationship
or of two, name the same field exactly if they are for the same column or for the same computed
field. -/
theorem splitRemotes_shares_added_fields {select : Select b R V} {level : List FieldName}
    {own : FieldMap b R V .row} (hlevel : select.rowsAt? level = some own) :
    ∃ found added columns, (splitRemotes select).1.rowsAt? level = some found ∧
      SharesColumns own found added columns ∧
      ∀ name relationship, own.find? name = some (.remote relationship) → ∀ join,
        (level ++ [name], join) ∈ (splitRemotes select).2.toList.flatMap JoinTree.leaves ↔
          join = ⟨relationship.joinFields.map columns, relationship.target⟩ := by
  obtain ⟨hfound, hjoins⟩ := settledAt select level own hlevel
  obtain ⟨added, columns, hshares, hsettled⟩ := settle_shares (ofEntries own.entries)
  have hown : (ofEntries own.entries).toMap = own := toMap_ofEntries own
  rw [hown] at hshares
  refine ⟨_, added, columns, hfound, hshares, fun name relationship hremote join => ?_⟩
  rw [leaves_splitRemotes]
  rw [← hown] at hremote
  obtain ⟨⟨_, settled⟩, hmem, rfl, hsettled⟩ :=
    exists_related_of_mem hsettled.flip (mem_remotes_of_find? _ hremote)
  have hleaf := hjoins _ _ hmem
  rw [← hsettled]
  constructor
  · intro hjoin
    have hnodup := select.joins.nodes.leaves_prefixFree.nodup
    exact congrArg Prod.snd (List.inj_on_of_nodup_map hnodup hjoin hleaf rfl)
  · rintro rfl
    exact hleaf

/-- Books with two remote relationships.  Both join on the key of the author, under different names,
and both use one name for different columns. -/
def sharedSelect : Select .mySql String Unit :=
  let type : ColumnType .mySql := .enumReference "key"
  let column (text : String) : JoinField .mySql := .column ⟨text⟩ type
  let fields : FieldMap .mySql String Unit .row :=
    .ofList [(⟨"book"⟩, .column { column := ⟨"id"⟩, type }),
      (⟨"author"⟩, .remote
        { joinFields := .ofList [(⟨"key"⟩, column "author_id")], target := "authors" }),
      (⟨"loans"⟩, .remote
        { joinFields := .ofList [(⟨"key"⟩, column "shelf_id"), (⟨"writer"⟩, column "author_id"),
            (⟨"book"⟩, column "id")]
          target := "loans" })]
  ofFields fields { source := .identifier ⟨"book"⟩, permission := .unrestricted }

theorem splitRemotes_sharedSelect_shares_added_fields :
    ∃ own, sharedSelect.rowsAt? [] = some own ∧
      (sharedSelect.joins.leaves.map fun (_, join) => join.columns.toList) =
        [[(⟨"key"⟩, .phantom ⟨"__phantom__key"⟩)],
          [(⟨"key"⟩, .phantom ⟨"__phantom__key_1"⟩), (⟨"writer"⟩, .phantom ⟨"__phantom__key"⟩),
            (⟨"book"⟩, .selected ⟨"book"⟩)]] ∧
      ∃ found added columns, (splitRemotes sharedSelect).1.rowsAt? [] = some found ∧
        SharesColumns own found added columns ∧
        ∀ name relationship, own.find? name = some (.remote relationship) → ∀ join,
          ([] ++ [name], join) ∈ (splitRemotes sharedSelect).2.toList.flatMap JoinTree.leaves ↔
            join = ⟨relationship.joinFields.map columns, relationship.target⟩ :=
  ⟨_, rfl, by decide, splitRemotes_shares_added_fields rfl⟩

end Selection

end SelectPlan
