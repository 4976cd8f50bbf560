import SelectPlan.Selection.Basic

/-!
One traversal of a selection.  It runs an effect on every remote target and on every value, in
reading order, and rebuilds the selection from the results; everything else stays as it is.
Substitution, counting and preparation are this traversal with different effects.
-/

namespace SelectPlan.Selection

variable {b : Backend} {R S V W : Type}

/-- Runs `f` on the remote targets and `g` on the values of a part of a selection. -/
def traverse {F : Type → Type} [Applicative F] (f : R → F S) (g : V → F W) :
    {part : Part} → Selection b R V part → F (Selection b S W part)
  | _, column field => column <$> field.traverse g
  | _, objectRelation relationship inner =>
      objectRelation relationship <$> inner.traverse f g
  | _, arrayRelation inner => arrayRelation <$> inner.traverse f g
  | _, computedField enabled name inner =>
      computedField enabled name <$> inner.traverse f g
  | _, remote relationship => remote <$> relationship.traverse f
  | _, nodeId enabled owner primaryKey => pure (nodeId enabled owner primaryKey)
  | _, constant text => pure (constant text)
  | _, aggregates items => aggregates <$> items.traverseValues g
  | _, nodes enabled fields => nodes enabled <$> fields.traverse f g
  | _, aggregateConstant text => pure (aggregateConstant text)
  | _, connectionTypeName text => pure (connectionTypeName text)
  | _, pageInfo info => pure (pageInfo info)
  | _, edges fields => edges <$> fields.traverse f g
  | _, edgeTypeName text => pure (edgeTypeName text)
  | _, cursor => pure cursor
  | _, node fields => node <$> fields.traverse f g
  | _, nil => pure nil
  | _, cons name fresh field rest =>
      cons name fresh <$> field.traverse f g <*> rest.traverse f g
  | _, select fields query => select <$> fields.traverse f g <*> query.traverse g
  | _, object fields target filter =>
      object <$> fields.traverse f g <*> target.traverse g <*> filter.traverse g
  | _, simple relationship inner => simple relationship <$> inner.traverse f g
  | _, aggregate relationship inner => aggregate relationship <$> inner.traverse f g
  | _, connection relationship inner => connection relationship <$> inner.traverse f g
  | _, page enabled window inner =>
      page enabled <$> window.traverse g <*> inner.traverse f g
  | _, scalar call => scalar <$> call.traverse g
  | _, table shape inner => table shape <$> inner.traverse f g

end SelectPlan.Selection
