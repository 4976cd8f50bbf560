import SelectPlan.Selection.Basic

/-!
The document form of a selection.
-/

namespace SelectPlan.Selection

variable {b : Backend} {R V : Type} [HasJson R] [HasJson V]

/-- The document form of a part of a selection.  Several fields are one object, in their order. -/
def toJson : {part : Part} → Selection b R V part → Json
  | _, column field => .tagged "Column" (json field)
  | _, objectRelation relationship inner =>
      .tagged "ObjectRelation" (relationship.wrap inner.toJson)
  | _, arrayRelation inner => .tagged "ArrayRelation" inner.toJson
  | _, computedField _ name inner =>
      .tagged "ComputedField"
        (.object [("xfield", .null), ("name", json name), ("select", inner.toJson)])
  | _, remote relationship => .tagged "Remote" (json relationship)
  | _, nodeId _ owner primaryKey =>
      .tagged "NodeId"
        (.object [("xrelay", .null), ("table", json owner), ("primary_key", json primaryKey)])
  | _, constant text => .tagged "Expression" (json text)
  | _, aggregates items => .tagged "Aggregate" (json items)
  | _, nodes _ fields =>
      .tagged "Nodes" (.object [("xnodes", .null), ("fields", fields.toJson)])
  | _, aggregateConstant text => .tagged "Expression" (json text)
  | _, connectionTypeName text => .tagged "TypeName" (json text)
  | _, pageInfo info => .tagged "PageInfo" (json info)
  | _, edges fields => .tagged "Edges" fields.toJson
  | _, edgeTypeName text => .tagged "TypeName" (json text)
  | _, cursor => .string "Cursor"
  | _, node fields => .tagged "Node" fields.toJson
  | _, nil => .object []
  | _, cons name _ field rest => .object ((name.text, field.toJson) :: rest.toJson.members)
  | _, select fields query => .object (("fields", fields.toJson) :: query.members)
  | _, object fields target filter =>
      .object [("fields", fields.toJson), ("target", json target), ("filter", json filter)]
  | _, simple relationship inner => .tagged "Simple" (relationship.wrap inner.toJson)
  | _, aggregate relationship inner => .tagged "Aggregate" (relationship.wrap inner.toJson)
  | _, connection relationship inner => .tagged "Connection" (relationship.wrap inner.toJson)
  | _, page _ window inner => .object (window.members ++ [("select", inner.toJson)])
  | _, scalar call => .tagged "Scalar" (json call)
  | _, table shape inner =>
      .tagged "Table" (.object [("agg", json shape), ("select", inner.toJson)])

instance {part : Part} : HasJson (Selection b R V part) := ⟨toJson⟩

end SelectPlan.Selection
