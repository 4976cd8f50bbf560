import Mathlib.Data.List.Forall2
import SelectPlan.Proofs.RemoteJoins.PhantomNames

/-!
The joins of one level.  While they are settled the fields of the level only grow at their end, and
every join value that has been settled stays in the field that was found or added for it.
-/

namespace SelectPlan

variable {b : Backend} {R V : Type}

/-- A field carries a join value: it returns it unchanged. -/
inductive JoinField.CarriedBy : JoinField b → Field b R V → Prop
  | column {name : ColumnName} {type : ColumnType b} {field : ColumnField b V}
      (hcolumn : field.column = name) (htext : field.asText = false) (hpath : field.path = none)
      (hredaction : field.redaction = .none) :
      CarriedBy (.column name type) (.column field)
  | computedField {enabled enabled' : b.capabilities.computedFields = true}
      {name : ComputedFieldName} {function : FunctionName b} {type : ScalarType b}
      {call : ScalarCall b V} (harguments : call.arguments = .ofPositional [.tableRow])
      (hpath : call.path = none) (hredaction : call.redaction = .none) :
      CarriedBy (.computedField enabled name function type)
        (.computedField enabled' name (.scalar call))

theorem Redaction.isRedacted_eq_false {redaction : Redaction b V} :
    redaction.isRedacted = false ↔ redaction = .none := by
  cases redaction with
  | none => exact iff_of_true rfl rfl
  | unlessHolds condition => exact iff_of_false (fun h => nomatch h) (fun h => nomatch h)

theorem Arguments.isTableRow_iff {arguments : Arguments V} :
    arguments.isTableRow = true ↔ arguments = .ofPositional [.tableRow] := by
  obtain ⟨positional, ⟨named⟩⟩ := arguments
  constructor
  · intro hrow
    rw [isTableRow] at hrow
    split at hrow
    · next hpositional =>
      cases named with
      | nil =>
          change positional = _ at hpositional
          rw [hpositional]
          rfl
      | cons => cases hrow
    · cases hrow
  · intro harguments
    rw [harguments]
    rfl

theorem ColumnField.isPlain_iff {field : ColumnField b V} :
    field.isPlain = true ↔ field.asText = false ∧ field.path = none ∧ field.redaction = .none := by
  rw [isPlain, Bool.and_eq_true, Bool.and_eq_true, Bool.not_eq_true', Bool.not_eq_true',
    Option.isNone_iff_eq_none, Redaction.isRedacted_eq_false, and_assoc]

theorem ScalarCall.isPlain_iff {call : ScalarCall b V} :
    call.isPlain = true ↔
      call.path = none ∧ call.redaction = .none ∧ call.arguments = .ofPositional [.tableRow] := by
  rw [isPlain, Bool.and_eq_true, Bool.and_eq_true, Bool.not_eq_true', Option.isNone_iff_eq_none,
    Redaction.isRedacted_eq_false, Arguments.isTableRow_iff, and_assoc]

namespace JoinField

/-- The test for a field that carries a join value. -/
theorem selectedBy_iff {value : JoinField b} {field : Field b Empty V} :
    value.selectedBy field = true ↔ value.CarriedBy field := by
  constructor
  · intro hselected
    unfold selectedBy at hselected
    split at hselected
    · rw [Bool.and_eq_true, beq_iff_eq, ColumnField.isPlain_iff] at hselected
      obtain ⟨hcolumn, htext, hpath, hredaction⟩ := hselected
      exact .column hcolumn htext hpath hredaction
    · rw [Bool.and_eq_true, beq_iff_eq, ScalarCall.isPlain_iff] at hselected
      obtain ⟨rfl, hpath, hredaction, harguments⟩ := hselected
      exact .computedField harguments hpath hredaction
    · cases hselected
  · intro hcarried
    cases hcarried with
    | column hcolumn htext hpath hredaction =>
        rw [selectedBy, Bool.and_eq_true, beq_iff_eq, ColumnField.isPlain_iff]
        exact ⟨hcolumn, htext, hpath, hredaction⟩
    | computedField harguments hpath hredaction =>
        rw [selectedBy, Bool.and_eq_true, beq_iff_eq, ScalarCall.isPlain_iff]
        exact ⟨rfl, hpath, hredaction, harguments⟩

theorem selectedBy_eq_false_iff {value : JoinField b} {field : Field b Empty V} :
    value.selectedBy field = false ↔ ¬ value.CarriedBy field := by
  rw [← selectedBy_iff, Bool.not_eq_true]

theorem phantom_carries (value : JoinField b) :
    value.CarriedBy (value.phantom : Field b Empty V) := by
  cases value with
  | column name type => exact .column rfl rfl rfl rfl
  | computedField enabled name function type => exact .computedField rfl rfl rfl

/-- Splitting off remote relationships leaves the fields that carry a join value as they are. -/
theorem carriedBy_stripped {value : JoinField b} {field : Field b R V} :
    value.CarriedBy field.stripped ↔ value.CarriedBy field := by
  constructor
  · intro hcarried
    cases field with
    | column field =>
        cases hcarried with
        | column hcolumn htext hpath hredaction => exact .column hcolumn htext hpath hredaction
    | computedField enabled name inner =>
        cases inner with
        | scalar call =>
            cases hcarried with
            | computedField harguments hpath hredaction =>
                exact .computedField harguments hpath hredaction
        | table shape select => cases hcarried
    | _ => cases hcarried
  · intro hcarried
    cases hcarried with
    | column hcolumn htext hpath hredaction => exact .column hcolumn htext hpath hredaction
    | computedField harguments hpath hredaction =>
        exact .computedField harguments hpath hredaction

end JoinField

/-- Where a join value is, among the fields that a level has in the end: `own` are its fields before
the split, `found` those after it. -/
structure JoinColumn.Carries (own : FieldMap b R V .row) (found : FieldMap b Empty V .row)
    (value : JoinField b) (column : JoinColumn) : Prop where
  /-- The field is there and returns the value unchanged. -/
  carried : ∃ field, found.find? column.name = some field ∧ value.CarriedBy field
  /-- It was added exactly when the level did not have a field of that name. -/
  phantom_iff : column.isPhantom = true ↔ column.name ∉ own.keys
  /-- Otherwise it is the first field of the level that carries the value. -/
  first : column.isPhantom = false → ∃ before field after,
    own.toList = before ++ (column.name, field) :: after ∧
      (∀ entry ∈ before, ¬ value.CarriedBy entry.2) ∧ value.CarriedBy field ∧
      found.find? column.name = some field.stripped

/-- A join settles a remote relationship: it has its target, and under the names of its join fields
it says where their values are. -/
structure RemoteJoin.Settles (own : FieldMap b R V .row) (found : FieldMap b Empty V .row)
    (relationship : RemoteRelationship b R) (join : RemoteJoin R) : Prop where
  target : join.target = relationship.target
  keys : join.columns.keys = relationship.joinFields.keys
  columns : List.Forall₂ (fun field column => column.1 = field.1 ∧
    column.2.Carries own found field.2) relationship.joinFields.toList join.columns.toList

section

variable {own : FieldMap b R V .row} {before after : FieldMap b Empty V .row}

theorem find?_of_grown (hgrown : before.toList <+: after.toList) {name : FieldName}
    {field : Field b Empty V} (hfound : before.find? name = some field) :
    after.find? name = some field := by
  rw [OrderedMap.find?_eq_some_iff] at hfound ⊢
  exact hgrown.subset hfound

theorem JoinColumn.Carries.of_grown {value : JoinField b} {column : JoinColumn}
    (hgrown : before.toList <+: after.toList) (hcarries : column.Carries own before value) :
    column.Carries own after value where
  carried := by
    obtain ⟨field, hfound, hcarried⟩ := hcarries.carried
    exact ⟨field, find?_of_grown hgrown hfound, hcarried⟩
  phantom_iff := hcarries.phantom_iff
  first hselected := by
    obtain ⟨fields, field, rest, hsplit, hbefore, hcarried, hfound⟩ := hcarries.first hselected
    exact ⟨fields, field, rest, hsplit, hbefore, hcarried, find?_of_grown hgrown hfound⟩

end

namespace JoinLevel

/-- A level has its own fields, split, and behind them those that were added. -/
structure Extends (own : FieldMap b R V .row) (level : JoinLevel b V) : Prop where
  fields : ∃ added, level.fields.toList =
    own.toList.map (fun (name, field) => (name, field.stripped)) ++ added ∧
      added.map Prod.fst = level.phantoms

/-- What is kept while the joins of a level are settled. -/
structure Step (own : FieldMap b R V .row) (before after : JoinLevel b V) : Prop where
  extended : after.Extends own
  grown : before.fields.toList <+: after.fields.toList

namespace Extends

variable {own : FieldMap b R V .row} {level : JoinLevel b V}

theorem keys (hlevel : level.Extends own) : level.fields.keys = own.keys ++ level.phantoms := by
  obtain ⟨added, hfields, hphantoms⟩ := hlevel.fields
  rw [← OrderedMap.map_fst_toList, hfields, List.map_append, List.map_map, hphantoms]
  exact congrArg (· ++ level.phantoms) (OrderedMap.map_fst_toList own)

theorem mem_of_mem_own (hlevel : level.Extends own) {name : FieldName} (hown : name ∈ own.keys) :
    name ∈ level.fields.keys := by
  rw [hlevel.keys]
  exact List.mem_append_left _ hown

theorem not_mem_own (hlevel : level.Extends own) {name : FieldName}
    (hphantom : name ∈ level.phantoms) : name ∉ own.keys := by
  have hnodup := level.fields.nodup_keys
  rw [hlevel.keys] at hnodup
  intro hown
  obtain ⟨-, -, hdisjoint⟩ := List.nodup_append.mp hnodup
  exact hdisjoint name hown name hphantom rfl

/-- A test that finds one of the level's own fields has found the first of them that passes. -/
theorem own_of_found (hlevel : level.Extends own) {test : Field b Empty V → Bool}
    {name : FieldName} {carrier : Field b Empty V}
    (hfound : level.fields.findEntry? test = some (name, carrier))
    (hname : name ∉ level.phantoms) :
    ∃ before field after, own.toList = before ++ (name, field) :: after ∧
      field.stripped = carrier ∧ ∀ entry ∈ before, test entry.2.stripped = false := by
  obtain ⟨added, hfields, hphantoms⟩ := hlevel.fields
  obtain ⟨before, after, hsplit, -, hbefore⟩ := OrderedMap.findEntry?_eq_some hfound
  -- a field that was found among those added would be a phantom
  have hadded : ∀ rest, added ≠ rest ++ (name, carrier) :: after := by
    intro rest heq
    rw [← hphantoms, heq, List.map_append, List.map_cons] at hname
    exact hname (List.mem_append_right _ List.mem_cons_self)
  rw [hfields] at hsplit
  rcases List.append_eq_append_iff.mp hsplit with ⟨rest, -, heq⟩ | ⟨rest, hown, hrest⟩
  · exact absurd heq (hadded rest)
  · cases rest with
    | nil => exact absurd hrest.symm (hadded [])
    | cons entry rest =>
        obtain ⟨rfl, -⟩ := List.cons.inj hrest
        obtain ⟨first, second, howned, rfl, hsecond⟩ := List.map_eq_append_iff.mp hown
        obtain ⟨⟨_, field⟩, others, rfl, hentry, -⟩ := List.map_eq_cons_iff.mp hsecond
        obtain ⟨rfl, hcarrier⟩ := Prod.mk.inj hentry
        refine ⟨first, field, others, howned, hcarrier, ?_⟩
        intro entry hentry
        exact hbefore _ (List.mem_map_of_mem hentry)

end Extends

/-- A level with one more field, which carries a join value. -/
def add (level : JoinLevel b V) (name : FieldName) (value : JoinField b) : JoinLevel b V where
  fields := level.fields.insert name value.phantom
  phantoms := level.phantoms ++ [name]

variable {own : FieldMap b R V .row} {level after : JoinLevel b V} {value : JoinField b}

theorem toList_add {name : FieldName} (value : JoinField b) (hfresh : name ∉ level.fields.keys) :
    (level.add name value).fields.toList = level.fields.toList ++ [(name, value.phantom)] :=
  OrderedMap.toList_insert_of_not_mem _ hfresh

theorem Extends.add {name : FieldName} (hlevel : level.Extends own) (value : JoinField b)
    (hfresh : name ∉ level.fields.keys) : (level.add name value).Extends own := by
  obtain ⟨added, hadded, hphantoms⟩ := hlevel.fields
  refine ⟨added ++ [(name, value.phantom)], ?_, ?_⟩
  · rw [toList_add value hfresh, hadded, List.append_assoc]
  · rw [List.map_append, hphantoms]
    rfl

/-- A field that is found carries the value, and one of the level's own is the first that does. -/
theorem carries_found (hlevel : level.Extends own) {found : FieldName}
    {carrier : Field b Empty V}
    (hfound : level.fields.findEntry? value.selectedBy = some (found, carrier)) :
    (if level.phantoms.contains found then JoinColumn.phantom found else .selected found).Carries
      own level.fields value := by
  obtain ⟨before, rest, hsplit, htest, -⟩ := OrderedMap.findEntry?_eq_some hfound
  have hmem : (found, carrier) ∈ level.fields.toList := by
    rw [hsplit]
    exact List.mem_append_right _ List.mem_cons_self
  have hfind : level.fields.find? found = some carrier := OrderedMap.find?_eq_some_iff.mpr hmem
  have hcarried := JoinField.selectedBy_iff.mp htest
  split
  · next hphantom =>
    have habsent := hlevel.not_mem_own (List.contains_iff_mem.mp hphantom)
    exact ⟨⟨carrier, hfind, hcarried⟩, iff_of_true rfl habsent, fun h => nomatch h⟩
  · next hselected =>
    have hname : found ∉ level.phantoms := fun hmem =>
      hselected (List.contains_iff_mem.mpr hmem)
    obtain ⟨fields, field, others, hown, rfl, hfields⟩ := hlevel.own_of_found hfound hname
    have hkey : found ∈ own.keys := by
      rw [← OrderedMap.map_fst_toList, hown, List.map_append, List.map_cons]
      exact List.mem_append_right _ List.mem_cons_self
    refine ⟨⟨field.stripped, hfind, hcarried⟩,
      iff_of_false (fun h => nomatch h) (not_not_intro hkey), fun _ => ?_⟩
    refine ⟨fields, field, others, hown, ?_, JoinField.carriedBy_stripped.mp hcarried, hfind⟩
    intro entry hentry
    rw [← JoinField.carriedBy_stripped, ← JoinField.selectedBy_eq_false_iff]
    exact hfields entry hentry

/-- A field that is added carries the value. -/
theorem carries_added (hlevel : level.Extends own) {name : FieldName}
    (hfresh : name ∉ level.fields.keys) :
    (JoinColumn.phantom name).Carries own (level.add name value).fields value where
  carried :=
    ⟨value.phantom, (OrderedMap.find?_insert _ _ _ _).trans (if_pos rfl), value.phantom_carries⟩
  phantom_iff := iff_of_true rfl fun hmem => hfresh (hlevel.mem_of_mem_own hmem)
  first hselected := nomatch hselected

/-- A join value that is settled is in a field of the level, and the level has only grown. -/
theorem joinColumn_spec (hlevel : level.Extends own) (name : FieldName) (value : JoinField b) :
    Step own level (joinColumn name value level).2 ∧
      (joinColumn name value level).1.Carries own (joinColumn name value level).2.fields value := by
  rw [joinColumn]
  split
  · next found carrier hfound =>
    exact ⟨⟨hlevel, List.prefix_rfl⟩, carries_found hlevel hfound⟩
  · have hfresh := unusedName_not_mem level.fields.keys (phantomMark ++ name.text)
    refine ⟨⟨hlevel.add value hfresh, ?_⟩, carries_added hlevel hfresh⟩
    exact (toList_add value hfresh) ▸ List.prefix_append _ _

theorem Step.trans {before middle : JoinLevel b V} (hfirst : Step own before middle)
    (hsecond : Step own middle after) : Step own before after where
  extended := hsecond.extended
  grown := hfirst.grown.trans hsecond.grown

section

variable {inv : JoinLevel b V → Prop} {has : JoinLevel b V → JoinField b → JoinColumn → Prop}

/-- What later joins leave as it is: the invariant of the level, and the columns that its values
have. -/
structure Keeps (inv : JoinLevel b V → Prop) (has : JoinLevel b V → JoinField b → JoinColumn → Prop)
    (before after : JoinLevel b V) : Prop where
  holds : inv after
  columns : ∀ value column, has before value column → has after value column

theorem Keeps.refl (hlevel : inv level) : Keeps inv has level level :=
  ⟨hlevel, fun _ _ => id⟩

theorem Keeps.trans {before middle : JoinLevel b V} (hfirst : Keeps inv has before middle)
    (hsecond : Keeps inv has middle after) : Keeps inv has before after where
  holds := hsecond.holds
  columns value column := hsecond.columns value column ∘ hfirst.columns value column

/-- A join value that is settled on a level with the invariant has a column from then on. -/
def Settles (inv : JoinLevel b V → Prop) (has : JoinLevel b V → JoinField b → JoinColumn → Prop)
    (name : FieldName) (value : JoinField b) : Prop :=
  ∀ level, inv level → Keeps inv has level (joinColumn name value level).2 ∧
    has (joinColumn name value level).2 value (joinColumn name value level).1

/-- The join values of one relationship are settled one after the other. -/
theorem traverseKeyed_settles {keys : List FieldName}
    (values : Entries FieldName (JoinField b) keys)
    (hsettles : ∀ entry ∈ values.toList, Settles inv has entry.1 entry.2) (hlevel : inv level) :
    Keeps inv has level (values.traverseKeyed joinColumn level).2 ∧
      List.Forall₂ (fun field column => column.1 = field.1 ∧
        has (values.traverseKeyed joinColumn level).2 field.2 column.2)
        values.toList (values.traverseKeyed joinColumn level).1.toList := by
  induction values generalizing level with
  | nil => exact ⟨.refl hlevel, .nil⟩
  | cons name fresh value rest ih =>
      obtain ⟨hfirst, hcolumn⟩ := hsettles (name, value) List.mem_cons_self level hlevel
      obtain ⟨hrest, hcolumns⟩ :=
        ih (fun entry hentry => hsettles entry (List.mem_cons_of_mem _ hentry)) hfirst.holds
      exact ⟨hfirst.trans hrest, .cons ⟨rfl, hrest.columns _ _ hcolumn⟩ hcolumns⟩

/-- A join has the target of its relationship, and columns for the values that are joined on. -/
structure Joins (has : JoinField b → JoinColumn → Prop) (relationship : RemoteRelationship b R)
    (join : RemoteJoin R) : Prop where
  target : join.target = relationship.target
  keys : join.columns.keys = relationship.joinFields.keys
  columns : List.Forall₂ (fun field column => column.1 = field.1 ∧ has field.2 column.2)
    relationship.joinFields.toList join.columns.toList

theorem Joins.imp {has has' : JoinField b → JoinColumn → Prop}
    {relationship : RemoteRelationship b R} {join : RemoteJoin R}
    (himp : ∀ value column, has value column → has' value column)
    (hjoins : Joins has relationship join) : Joins has' relationship join where
  target := hjoins.target
  keys := hjoins.keys
  columns := hjoins.columns.imp fun _ _ => And.imp_right (himp _ _)

/-- The joins of a level settle its remote relationships, whatever is kept while they do. -/
theorem joinAll_settles (remotes : List (FieldName × RemoteRelationship b R))
    (hsettles : ∀ remote ∈ remotes, ∀ entry ∈ remote.2.joinFields.toList,
      Settles inv has entry.1 entry.2) (hlevel : inv level) :
    Keeps inv has level (joinAll remotes level).2 ∧
      List.Forall₂ (fun remote join => join.1 = remote.1 ∧
        Joins (has (joinAll remotes level).2) remote.2 join.2)
        remotes (joinAll remotes level).1 := by
  induction remotes generalizing level with
  | nil => exact ⟨.refl hlevel, .nil⟩
  | cons remote remotes ih =>
      obtain ⟨hfirst, hcolumns⟩ := traverseKeyed_settles remote.2.joinFields.entries
        (hsettles remote List.mem_cons_self) hlevel
      obtain ⟨hrest, hjoins⟩ := ih (fun other hother =>
        hsettles other (List.mem_cons_of_mem _ hother)) hfirst.holds
      have hjoin : Joins _ remote.2 (join remote.2 level).1 := ⟨rfl, rfl, hcolumns⟩
      exact ⟨hfirst.trans hrest, .cons ⟨rfl, hjoin.imp hrest.columns⟩ hjoins⟩

end

/-- A level that has grown since its joins began to be settled carries every value that is
settled, and the fields that carried one before carry it still. -/
theorem settles_carries {start : JoinLevel b V} (name : FieldName) (value : JoinField b) :
    Settles (Step own start) (fun level value column => column.Carries own level.fields value)
      name value := by
  intro level hlevel
  obtain ⟨hstep, hcarries⟩ := joinColumn_spec hlevel.extended name value
  exact ⟨⟨hlevel.trans hstep, fun _ _ => .of_grown hstep.grown⟩, hcarries⟩

end JoinLevel

namespace Selection

theorem toList_stripped : {names : List FieldName} →
    (fields : Selection b R V (.fields .row names)) →
    fields.stripped.toMap.toList =
      fields.toMap.toList.map fun (name, field) => (name, field.stripped)
  | _, nil => rfl
  | _, cons name _ field rest => congrArg ((name, field.stripped) :: ·) (toList_stripped rest)

/-- The joins of a level settle its remote relationships, and its fields come first among those
that it has in the end. -/
theorem settle_spec {names : List FieldName} (fields : Selection b R V (.fields .row names)) :
    fields.stripped.toMap.toList <+: (settle fields fields.stripped).2.fields.toList ∧
      List.Forall₂ (fun remote join => join.1 = remote.1 ∧
        join.2.Settles fields.toMap (settle fields fields.stripped).2.fields remote.2)
        fields.remotes (settle fields fields.stripped).1 := by
  have hlevel : JoinLevel.Extends fields.toMap { fields := fields.stripped.toMap } :=
    ⟨[], by rw [toList_stripped, List.append_nil], rfl⟩
  obtain ⟨hkept, hjoins⟩ := JoinLevel.joinAll_settles fields.remotes
    (fun _ _ entry _ => JoinLevel.settles_carries entry.1 entry.2) ⟨hlevel, List.prefix_rfl⟩
  exact ⟨hkept.holds.grown, hjoins.imp fun _ _ => And.imp_right fun hjoin =>
    ⟨hjoin.target, hjoin.keys, hjoin.columns⟩⟩

end Selection

end SelectPlan
