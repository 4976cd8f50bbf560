import SelectPlan.Proofs.Preparation.Steps
import SelectPlan.Proofs.RemoteJoins.Blindness
import SelectPlan.Proofs.RemoteJoins.Nodes
import SelectPlan.Proofs.Traversal.Refilling

/-!
Splitting remote relationships off and replacing leaves can be done in either order.  Both go
through the same tree; what the split adds holds no leaves, and what it decides does not depend on
them.
-/

namespace SelectPlan

variable {F : Type → Type} [Applicative F] [LawfulApplicative F] {b : Backend}
  {A E R S T V W σ : Type}

/-! Replacing the targets of joins -/

theorem JoinNodes.map_push (f : R → S) {name : FieldName} (join : RemoteJoin R) :
    {names : List FieldName} → (nodes : JoinNodes R names) → (hfresh : name ∉ names) →
    (nodes.push join hfresh).map f = (nodes.map f).push (join.map f) hfresh
  | _, .nil, _ => rfl
  | _, .leaf other fresh first rest, hfresh => by rw [push, map, rest.map_push, map, push]
  | _, .tree other fresh subtree rest, hfresh => by rw [push, map, rest.map_push, map, push]

theorem JoinNodes.map_id : {names : List FieldName} → (nodes : JoinNodes R names) →
    nodes.map id = nodes
  | _, .nil => rfl
  | _, .leaf name fresh join rest => congrArg (leaf name fresh join) rest.map_id
  | _, .tree name fresh subtree rest => by rw [map, subtree.map_id, rest.map_id]

namespace JoinTree

theorem map_id (tree : JoinTree R) : tree.map id = tree :=
  congrArg mk tree.nodes.map_id

variable (f : R → S)

theorem isEmpty_map (tree : JoinTree R) : (tree.map f).isEmpty = tree.isEmpty :=
  rfl

theorem map_withSubtree (tree : JoinTree R) (name : FieldName) (subtree : JoinTree R) :
    (tree.withSubtree name subtree).map f = (tree.map f).withSubtree name (subtree.map f) := by
  rw [withSubtree, withSubtree, isEmpty_map]
  split
  · rfl
  · by_cases hfresh : name ∉ tree.names
    · have hmap : name ∉ (tree.map f).names := hfresh
      rw [dif_pos hfresh, dif_pos hmap]
      rfl
    · have hmap : ¬ name ∉ (tree.map f).names := hfresh
      rw [dif_neg hfresh, dif_neg hmap]

theorem map_push (tree : JoinTree R) (name : FieldName) (join : RemoteJoin R) :
    (tree.push name join).map f = (tree.map f).push name (join.map f) := by
  rw [push, push]
  by_cases hfresh : name ∉ tree.names
  · have hmap : name ∉ (tree.map f).names := hfresh
    rw [dif_pos hfresh, dif_pos hmap, map, tree.nodes.map_push f join hfresh]
    rfl
  · have hmap : ¬ name ∉ (tree.map f).names := hfresh
    rw [dif_neg hfresh, dif_neg hmap]

theorem map_pushAll (joins : List (FieldName × RemoteJoin R)) (tree : JoinTree R) :
    (tree.pushAll joins).map f =
      (tree.map f).pushAll (joins.map fun (name, join) => (name, join.map f)) := by
  induction joins generalizing tree with
  | nil => rfl
  | cons head joins ih =>
      change ((tree.push head.1 head.2).pushAll joins).map f = _
      rw [ih, map_push]
      rfl

end JoinTree

/-- A remote relationship with another target. -/
def RemoteRelationship.map (f : R → S) (relationship : RemoteRelationship b R) :
    RemoteRelationship b S :=
  { relationship with target := f relationship.target }

namespace Selection

theorem traverse_ofEntries {vocabulary : Vocabulary} (f : R → F S) (g : V → F W) :
    {names : List FieldName} →
    (entries : Entries FieldName (Selection b R V (.field vocabulary)) names) →
    (ofEntries entries).traverse f g = ofEntries <$> entries.traverse (traverse f g)
  | _, .nil => by simp [ofEntries, traverse, Entries.traverse]
  | _, .cons name fresh field rest => by
      rw [ofEntries, traverse, traverse_ofEntries f g rest, Entries.traverse]
      simp [functor_norm, Function.comp_def, ofEntries]

theorem traverse_toMap {vocabulary : Vocabulary} {names : List FieldName} (f : R → F S)
    (g : V → F W) (fields : Selection b R V (.fields vocabulary names)) :
    fields.toMap.traverse (traverse f g) = toMap <$> fields.traverse f g := by
  have hfields := traverse_ofEntries f g fields.toEntries
  rw [ofEntries_toEntries] at hfields
  rw [hfields, ← comp_map, OrderedMap.traverse]
  congr 1
  funext entries
  exact congrArg OrderedMap.mk (toEntries_ofEntries entries).symm

/-- What the fields of a map are put into can be put around them after the effects. -/
theorem map_traverse_ofEntries {vocabulary : Vocabulary} (f : R → F S) (g : V → F W)
    (build : {names : List FieldName} → Selection b S W (.fields vocabulary names) → T)
    (fields : FieldMap b R V vocabulary) :
    build <$> (ofEntries fields.entries).traverse f g =
      (fun results => build (ofEntries results.entries)) <$> fields.traverse (traverse f g) := by
  rw [traverse_ofEntries, OrderedMap.traverse, ← comp_map, ← comp_map]
  rfl

/-- The two parts that a part of a selection is split into. -/
def halves {part : Part} (tree : Selection b R V part) : Selection b Empty V part × JoinTree R :=
  (tree.stripped, tree.joins)

/-- The two parts that the fields of a level are split into. -/
def levelHalves {names : List FieldName} (fields : Selection b R V (.fields .row names)) :
    FieldMap b Empty V .row × JoinTree R :=
  ((settle fields fields.stripped).2.fields, joinTree fields fields.joins)

variable (f : R → S) (g : V → F W)

theorem known_remote? (field : Field b R V) :
    Known remote? (field.traverse (fun target => pure (f target)) g)
      ((remote? field).map (RemoteRelationship.map f)) := by
  cases field with
  | remote relationship =>
      rw [traverse, RemoteRelationship.traverse, map_pure, map_pure]
      exact .pure rfl
  | column field => exact .effect fun _ => rfl
  | objectRelation relationship inner => exact .effect fun _ => rfl
  | arrayRelation inner => exact .effect fun _ => rfl
  | computedField enabled name inner => exact .effect fun _ => rfl
  | nodeId enabled owner primaryKey => exact .pure rfl
  | constant text => exact .pure rfl

theorem known_remotes : {names : List FieldName} →
    (fields : Selection b R V (.fields .row names)) →
    Known remotes (fields.traverse (fun target => pure (f target)) g)
      (fields.remotes.map fun (name, relationship) => (name, relationship.map f))
  | _, nil => .pure rfl
  | _, cons name fresh field rest => by
      have hcons : ((cons name fresh field rest).remotes.map fun (name, relationship) =>
            (name, relationship.map f)) =
          ((remote? field).map (RemoteRelationship.map f)).toList.map (name, ·) ++
            rest.remotes.map fun (name, relationship) => (name, relationship.map f) := by
        rw [remotes_cons, List.map_append]
        cases remote? field <;> rfl
      rw [hcons]
      exact .seq (fun found others => found.toList.map (name, ·) ++ others)
        (known_remote? f g field) (known_remotes rest) fun _ _ => remotes_cons _ _ _ _

omit [LawfulApplicative F] in
theorem joinAll_map (remotes : List (FieldName × RemoteRelationship b R))
    (level : JoinLevel b V) :
    JoinLevel.joinAll (remotes.map fun (name, relationship) => (name, relationship.map f)) level =
      ((JoinLevel.joinAll remotes level).1.map fun (name, join) => (name, join.map f),
        (JoinLevel.joinAll remotes level).2) := by
  induction remotes generalizing level with
  | nil => rfl
  | cons head remotes ih =>
      obtain ⟨name, relationship⟩ := head
      change ((name, ((JoinLevel.join relationship level).1.map f)) ::
        (JoinLevel.joinAll _ (JoinLevel.join relationship level).2).1,
        (JoinLevel.joinAll _ (JoinLevel.join relationship level).2).2) = _
      rw [ih]
      rfl

/-- The joins of a level are settled before or after the values of its fields are replaced. -/
theorem traverse_joinAll (remotes : List (FieldName × RemoteRelationship b R))
    {names : List FieldName} (fields : Selection b Empty V (.fields .row names)) :
    Separates (fun result : Selection b Empty W (.fields .row names) =>
        let settled := JoinLevel.joinAll remotes { fields := result.toMap }
        (settled.2.fields, settled.1))
      (fields.traverse pure g)
      ((JoinLevel.joinAll remotes { fields := fields.toMap }).2.fields.traverse (traverse pure g))
      (JoinLevel.joinAll remotes { fields := fields.toMap }).1 := by
  have hlevel := JoinLevel.joinAll_blind g remotes { fields := fields.toMap }
  have hstart : ({ fields := fields.toMap } : JoinLevel b V).traverse g =
      (fun result => { fields := result.toMap }) <$> fields.traverse pure g := by
    rw [JoinLevel.traverse, traverse_toMap, ← comp_map]
    rfl
  rw [hstart, JoinLevel.traverse] at hlevel
  exact hlevel.unwrap JoinLevel.fields fun _ => rfl

theorem traverse_levelHalves {names : List FieldName}
    (fields : Selection b R V (.fields .row names))
    (hfields : Separates halves (fields.traverse (fun target => pure (f target)) g)
      (fields.stripped.traverse pure g) (fields.joins.map f)) :
    Separates levelHalves (fields.traverse (fun target => pure (f target)) g)
      ((settle fields fields.stripped).2.fields.traverse (traverse pure g))
      ((joinTree fields fields.joins).map f) := by
  have hlevel := traverse_joinAll g
    (fields.remotes.map fun (name, relationship) => (name, relationship.map f)) fields.stripped
  have hjoins : (joinTree fields fields.joins).map f = (fields.joins.map f).pushAll
      ((settle fields fields.stripped).1.map fun (name, join) => (name, join.map f)) :=
    JoinTree.map_pushAll f _ _
  rw [joinAll_map] at hlevel
  rw [hjoins]
  -- the remote relationships are known, so the joins of the level come after the split below it
  exact (known_remotes f g fields).use (fun result remotes =>
    let settled := JoinLevel.joinAll remotes { fields := result.stripped.toMap }
    (settled.2.fields, result.joins.pushAll settled.1))
    (hfields.andThen JoinTree.pushAll hlevel fun _ => rfl)

theorem traverse_halves {part : Part} (tree : Selection b R V part) :
    Separates halves (tree.traverse (fun target => pure (f target)) g)
      (tree.stripped.traverse pure g) (tree.joins.map f) := by
  induction tree with
  | cons name fresh field rest ihField ihRest =>
      rw [joins, JoinTree.map_withSubtree]
      refine .seq (fun below others => others.withSubtree name below) ihField ihRest ?_
      intro field rest
      rfl
  | @select vocabulary names fields query ih =>
      cases vocabulary with
      | row =>
          rw [stripped, traverse, traverse, map_traverse_ofEntries pure g select]
          exact .seq (fun joins _ => joins) (traverse_levelHalves f g fields ih) (.trivial _)
            fun _ _ => rfl
      | aggregate => exact .seq (fun joins _ => joins) ih (.trivial _) fun _ _ => rfl
      | connection => exact .seq (fun joins _ => joins) ih (.trivial _) fun _ _ => rfl
      | edge => exact .seq (fun joins _ => joins) ih (.trivial _) fun _ _ => rfl
  | object fields target filter ih =>
      rw [stripped, traverse, traverse, map_traverse_ofEntries pure g object]
      exact .seqTrivial₂ (traverse_levelHalves f g fields ih) fun _ _ _ => rfl
  | nodes enabled fields ih =>
      rw [stripped, traverse, traverse, map_traverse_ofEntries pure g (nodes enabled)]
      exact .map id (traverse_levelHalves f g fields ih) fun _ => rfl
  | node fields ih =>
      rw [stripped, traverse, traverse, map_traverse_ofEntries pure g node]
      exact .map id (traverse_levelHalves f g fields ih) fun _ => rfl
  | remote relationship =>
      rw [traverse, RemoteRelationship.traverse, map_pure, map_pure]
      exact .pure rfl
  | column field => exact .effect fun _ => rfl
  | aggregates items => exact .effect fun _ => rfl
  | scalar call => exact .effect fun _ => rfl
  | nodeId enabled owner primaryKey => exact .pure rfl
  | constant text => exact .pure rfl
  | aggregateConstant text => exact .pure rfl
  | connectionTypeName text => exact .pure rfl
  | pageInfo info => exact .pure rfl
  | edgeTypeName text => exact .pure rfl
  | cursor => exact .pure rfl
  | @nil vocabulary => exact .pure rfl
  | objectRelation relationship inner ih => exact .map id ih fun _ => rfl
  | arrayRelation inner ih => exact .map id ih fun _ => rfl
  | computedField enabled name inner ih => exact .map id ih fun _ => rfl
  | edges fields ih => exact .map id ih fun _ => rfl
  | simple relationship inner ih => exact .map id ih fun _ => rfl
  | aggregate relationship inner ih => exact .map id ih fun _ => rfl
  | connection relationship inner ih => exact .map id ih fun _ => rfl
  | page enabled window inner ih =>
      exact .seq (fun _ joins => joins) (.trivial _) ih fun _ _ => rfl
  | table shape inner ih => exact .map id ih fun _ => rfl

theorem traverse_splitRemotes (select : Select b R V) :
    Separates splitRemotes (select.traverse (fun target => pure (f target)) g)
      ((splitRemotes select).1.traverse pure g)
      ((splitRemotes select).2.map (JoinTree.map f)) := by
  have hjoins : (splitRemotes select).2.map (JoinTree.map f) =
      if (select.joins.map f).isEmpty then none else some (select.joins.map f) := by
    rw [splitRemotes_joins_eq, JoinTree.isEmpty_map]
    split <;> rfl
  rw [hjoins]
  exact (traverse_halves f g select).andThen
    (fun joins (_ : Unit) => if joins.isEmpty then none else some joins) (.trivial _) fun _ => rfl

theorem splitRemotes_traverse (select : Select b R V) :
    splitRemotes <$> TreeKind.traverse pure g (.part (.select .row)) select =
      (·, (splitRemotes select).2) <$>
        TreeKind.traverse pure g (.part (.select .row)) (splitRemotes select).1 := by
  have hsplit := traverse_splitRemotes id g select
  have hmap : (JoinTree.map id : JoinTree R → JoinTree R) = id := funext JoinTree.map_id
  rw [hmap, Option.map_id, id] at hsplit
  exact hsplit

theorem splitRemotes_bimap (select : Select b R V) :
    splitRemotes (TreeKind.bimap f id (.part (.select .row)) select) =
      ((splitRemotes select).1, (splitRemotes select).2.map (JoinTree.map f)) := by
  have hsplit : splitRemotes (TreeKind.bimap f id (.part (.select .row)) select) =
      (TreeKind.bimap id id (.part (.select .row)) (splitRemotes select).1,
        (splitRemotes select).2.map (JoinTree.map f)) :=
    traverse_splitRemotes (F := Id) f (fun value => pure (id value)) select
  rw [hsplit, TreeKind.bimap_id]

end Selection

namespace TreeKind

/-- Collects a value behind those that were collected before. -/
def collect (value : V) : StateM (List V) V :=
  fun values => (value, values ++ [value])

theorem mapA_collect (leaves : List (Leaf R V)) (before : List V) :
    (leaves.mapA (Leaf.traverse pure collect) before).2 =
      before ++ leaves.filterMap Leaf.value? := by
  induction leaves generalizing before with
  | nil => exact (List.append_nil before).symm
  | cons leaf leaves ih =>
      cases leaf with
      | remote target => exact ih before
      | value value =>
          refine (ih (before ++ [value])).trans ?_
          rw [List.append_assoc]
          rfl

/-- A traversal comes to the values of a tree in their order. -/
theorem traverse_collect (kind : TreeKind) (tree : kind.Tree b R V) (before : List V) :
    (kind.traverse pure collect tree before).2 = before ++ kind.values tree := by
  rw [values, ← mapA_collect, ← leaves_map_traverse]
  rfl

/-- What a preparation comes to is the answer of its steps and the bindings after them. -/
theorem prepare_map (session : Session) (share : Bool) (kind : TreeKind)
    (tree : kind.Tree b R (Unprepared b)) (f : kind.Tree b R (Prepared b) → A) :
    (kind.prepare session share tree).map (fun (prepared, bindings) => (f prepared, bindings)) =
      ((kind.prepareSteps session share tree {}).1.map f).map
        (·, (kind.prepareSteps session share tree {}).2.bindings) := by
  rcases hrun : Preparation.run (kind.prepareSteps session share tree) with
    ⟨error | prepared, preparation⟩
  all_goals
    rw [prepare, hrun, show kind.prepareSteps session share tree {} = _ from hrun]
    rfl

end TreeKind

namespace Selection

/-- The split leaves every value where it is. -/
theorem values_splitRemotes (select : Select b R V) :
    TreeKind.values (.part (.select .row)) (splitRemotes select).1 =
      TreeKind.values (.part (.select .row)) select := by
  have hsplit := congrArg Prod.snd
    (congrFun (splitRemotes_traverse TreeKind.collect select) ([] : List V))
  have hvalues : (TreeKind.traverse pure TreeKind.collect (.part _) select []).2 =
      (TreeKind.traverse pure TreeKind.collect (.part _) (splitRemotes select).1 []).2 := hsplit
  rw [TreeKind.traverse_collect, TreeKind.traverse_collect] at hvalues
  exact hvalues.symm

theorem prepare_splitRemotes (session : Session) (share : Bool)
    (select : Select b R (Unprepared b)) :
    (TreeKind.prepare session share (.part _) select).map
        (fun (prepared, bindings) => (splitRemotes prepared, bindings)) =
      (TreeKind.prepare session share (.part _) (splitRemotes select).1).map
        (fun (prepared, bindings) => ((prepared, (splitRemotes select).2), bindings)) := by
  have hsteps := congrFun
    (splitRemotes_traverse (Preparation.prepareValue session share) select) {}
  rw [Steps.map_apply, Steps.map_apply] at hsteps
  obtain ⟨houtcome, hstate⟩ := Prod.mk.inj hsteps
  rw [TreeKind.prepare_map session share (.part (.select .row)) select splitRemotes,
    TreeKind.prepare_map session share (.part (.select .row)) (splitRemotes select).1
      (·, (splitRemotes select).2), TreeKind.prepareSteps, TreeKind.prepareSteps, houtcome, hstate]

/-- Leaves can be replaced before or after the remote relationships are split off: a function that
keeps a state and may fail is called on the same values with the same outcome, and the parts that
the select is split into are the same.  Replacing the targets of remote relationships does so in the
joins.  So a select can be prepared before or after the split, and no value is lost or moved. -/
theorem splitRemotes_commutes_with_substitution :
    (∀ {V W E σ : Type} (select : Select b R V) (g : V → Steps E σ W) (start : σ),
      let (stripped, joins) := splitRemotes select
      let kind := TreeKind.part (.select .row)
      (splitRemotes <$> kind.traverse pure g select) start =
          ((·, joins) <$> kind.traverse pure g stripped) start ∧
        (kind.traverse pure (noted id id g) select (start, [])).2 =
          (kind.traverse pure (noted id id g) stripped (start, [])).2 ∧
        kind.values stripped = kind.values select) ∧
    (∀ {S V : Type} (select : Select b R V) (f : R → S),
      splitRemotes (TreeKind.bimap f id (.part _) select) =
        ((splitRemotes select).1, (splitRemotes select).2.map (JoinTree.map f))) ∧
    ∀ (session : Session) (share : Bool) (select : Select b R (Unprepared b)),
      (TreeKind.prepare session share (.part _) select).map
          (fun (prepared, bindings) => (splitRemotes prepared, bindings)) =
        (TreeKind.prepare session share (.part _) (splitRemotes select).1).map
          (fun (prepared, bindings) => ((prepared, (splitRemotes select).2), bindings)) := by
  refine ⟨?_, fun select f => splitRemotes_bimap f select, prepare_splitRemotes⟩
  intro V W E σ select g start
  refine ⟨congrFun (splitRemotes_traverse g select) start, ?_, values_splitRemotes select⟩
  have hcalls := congrFun (splitRemotes_traverse (noted id id g) select)
    (start, ([] : List (Call E V W)))
  rw [Steps.map_apply, Steps.map_apply] at hcalls
  exact (Prod.mk.inj hcalls).2

end Selection

end SelectPlan
