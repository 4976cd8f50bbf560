import SelectPlan.Planning.JoinTree
import SelectPlan.Selection.Basic

/-!
Splitting the remote relationships off a select.  A backend runs only what lies in its own source,
so every remote relationship is replaced by a null and recorded in a join tree.  The values it
joins on must be in the response: where the query does not select them, fields are added.
-/

namespace SelectPlan

variable {b : Backend} {R V : Type}

/-- What the names of added fields begin with. -/
def phantomMark : String := "__phantom__"

/-- The names tried for an added field: the base, then the base with a number. -/
def phantomCandidates (base : String) (count : Nat) : List FieldName :=
  ⟨base⟩ :: (List.range count).map fun n => ⟨base ++ "_" ++ toString (n + 1)⟩

/-- The first candidate that is not taken.  There is one more candidate than there are names. -/
def unusedName (taken : List FieldName) (base : String) : FieldName :=
  ((phantomCandidates base taken.length).find? fun name => !taken.contains name).getD ⟨base⟩

/-- The field that carries a join value and nothing else. -/
def JoinField.phantom : JoinField b → Field b Empty V
  | column name type => .column { column := name, type }
  | computedField enabled name function type =>
      .computedField enabled name <|
        .scalar { function, type, arguments := .ofPositional [.tableRow] }

/-- Whether a field returns a join value unchanged. -/
def JoinField.selectedBy : JoinField b → Field b Empty V → Bool
  | column name _, .column field => field.column == name && field.isPlain
  | computedField _ name _ _, .computedField _ other (.scalar call) => other == name && call.isPlain
  | _, _ => false

/-- The fields of a level while the joins of its remote relationships are settled. -/
structure JoinLevel (b : Backend) (V : Type) where
  fields : FieldMap b Empty V .row
  /-- The names of the fields that were added. -/
  phantoms : List FieldName := []

namespace JoinLevel

/-- Finds the field that carries a join value, or adds one. -/
def joinColumn (name : FieldName) (value : JoinField b) : StateM (JoinLevel b V) JoinColumn :=
  fun level =>
    match level.fields.findEntry? value.selectedBy with
    | some (found, _) =>
        (if level.phantoms.contains found then .phantom found else .selected found, level)
    | none =>
        let added := unusedName level.fields.keys (phantomMark ++ name.text)
        (.phantom added,
          { fields := level.fields.insert added value.phantom
            phantoms := level.phantoms ++ [added] })

/-- Settles the join values of one remote relationship. -/
def join (remote : RemoteRelationship b R) : StateM (JoinLevel b V) (RemoteJoin R) :=
  (RemoteJoin.mk · remote.target) <$> remote.joinFields.traverseKeyed joinColumn

/-- Settles the joins of all remote relationships of a level, in the order of its fields. -/
def joinAll (remotes : List (FieldName × RemoteRelationship b R)) :
    StateM (JoinLevel b V) (List (FieldName × RemoteJoin R)) :=
  remotes.mapA fun (name, remote) => (name, ·) <$> join remote

end JoinLevel

namespace Selection

/-- The remote relationships among the fields of a row. -/
def remotes : {names : List FieldName} → Selection b R V (.fields .row names) →
    List (FieldName × RemoteRelationship b R)
  | _, nil => []
  | _, cons name _ (remote relationship) rest => (name, relationship) :: rest.remotes
  | _, cons _ _ _ rest => rest.remotes

/-- The joins of a level and its fields with those that were added, given its fields with nulls in
place of remote relationships. -/
def settle {names : List FieldName} (fields : Selection b R V (.fields .row names))
    (stripped : Selection b Empty V (.fields .row names)) :
    List (FieldName × RemoteJoin R) × JoinLevel b V :=
  JoinLevel.joinAll fields.remotes { fields := stripped.toMap }

/-- The part that the backend runs. -/
def stripped : {part : Part} → Selection b R V part → Selection b Empty V part
  | _, column field => column field
  | _, objectRelation relationship inner => objectRelation relationship inner.stripped
  | _, arrayRelation inner => arrayRelation inner.stripped
  | _, computedField enabled name inner => computedField enabled name inner.stripped
  | _, remote _ => constant "null"
  | _, nodeId enabled owner primaryKey => nodeId enabled owner primaryKey
  | _, constant text => constant text
  | _, aggregates items => aggregates items
  | _, nodes enabled fields =>
      nodes enabled (ofEntries (settle fields fields.stripped).2.fields.entries)
  | _, aggregateConstant text => aggregateConstant text
  | _, connectionTypeName text => connectionTypeName text
  | _, pageInfo info => pageInfo info
  | _, edges fields => edges fields.stripped
  | _, edgeTypeName text => edgeTypeName text
  | _, cursor => cursor
  | _, node fields => node (ofEntries (settle fields fields.stripped).2.fields.entries)
  | _, nil => nil
  | _, cons name fresh field rest => cons name fresh field.stripped rest.stripped
  | .select .row, select fields query =>
      select (ofEntries (settle fields fields.stripped).2.fields.entries) query
  | .select .aggregate, select fields query => select fields.stripped query
  | .select .connection, select fields query => select fields.stripped query
  | .select .edge, select fields query => select fields.stripped query
  | _, object fields target filter =>
      object (ofEntries (settle fields fields.stripped).2.fields.entries) target filter
  | _, simple relationship inner => simple relationship inner.stripped
  | _, aggregate relationship inner => aggregate relationship inner.stripped
  | _, connection relationship inner => connection relationship inner.stripped
  | _, page enabled window inner => page enabled window inner.stripped
  | _, scalar call => scalar call
  | _, table shape inner => table shape inner.stripped

/-- The join tree of the fields of a row: the trees below them, then their own joins. -/
def joinTree {names : List FieldName} (fields : Selection b R V (.fields .row names))
    (below : JoinTree R) : JoinTree R :=
  (settle fields fields.stripped).1.foldl (fun tree (name, join) => tree.push name join) below

/-- The joins of a part of a selection.  For several fields these are the trees below them, each
under the name of its field. -/
def joins : {part : Part} → Selection b R V part → JoinTree R
  | _, column _ => .empty
  | _, objectRelation _ inner => inner.joins
  | _, arrayRelation inner => inner.joins
  | _, computedField _ _ inner => inner.joins
  | _, remote _ => .empty
  | _, nodeId _ _ _ => .empty
  | _, constant _ => .empty
  | _, aggregates _ => .empty
  | _, nodes _ fields => joinTree fields fields.joins
  | _, aggregateConstant _ => .empty
  | _, connectionTypeName _ => .empty
  | _, pageInfo _ => .empty
  | _, edges fields => fields.joins
  | _, edgeTypeName _ => .empty
  | _, cursor => .empty
  | _, node fields => joinTree fields fields.joins
  | _, nil => .empty
  | _, cons name _ field rest => rest.joins.withSubtree name field.joins
  | .select .row, select fields _ => joinTree fields fields.joins
  | .select .aggregate, select fields _ => fields.joins
  | .select .connection, select fields _ => fields.joins
  | .select .edge, select fields _ => fields.joins
  | _, object fields _ _ => joinTree fields fields.joins
  | _, simple _ inner => inner.joins
  | _, aggregate _ inner => inner.joins
  | _, connection _ inner => inner.joins
  | _, page _ _ inner => inner.joins
  | _, scalar _ => .empty
  | _, table _ inner => inner.joins

/-- Splits a select into the part that the backend runs and the joins to run afterwards. -/
def splitRemotes (select : Select b R V) : Select b Empty V × Option (JoinTree R) :=
  let joins := select.joins
  (select.stripped, if joins.isEmpty then none else some joins)

end Selection

end SelectPlan
