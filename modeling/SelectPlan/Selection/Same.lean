import SelectPlan.Selection.Basic

/-!
Equality of selections.  It does not look at the order of fields, nor of any other map entries.
-/

namespace SelectPlan.Selection

variable {b : Backend} {R V : Type}

/-- What a part of a selection is compared with: several fields with the fields found under their
names, any other part with a part of its kind. -/
def Counterpart (b : Backend) (R V : Type) : Part → Type
  | .fields vocabulary _ => FieldName → Option (Selection b R V (.field vocabulary))
  | .field vocabulary => Selection b R V (.field vocabulary)
  | .select vocabulary => Selection b R V (.select vocabulary)
  | .object => Selection b R V .object
  | .array => Selection b R V .array
  | .connection => Selection b R V .connection
  | .computed => Selection b R V .computed

/-- Finds a field by its name. -/
def find? {vocabulary : Vocabulary} {names : List FieldName}
    (fields : Selection b R V (.fields vocabulary names)) (name : FieldName) :
    Option (Selection b R V (.field vocabulary)) :=
  fields.toMap.find? name

/-- Whether a part equals its counterpart, given equalities of remote targets and of values.  Two
lists of fields are equal if they are equally long and every field of the first has an equal one
in the second. -/
def agrees (eqR : R → R → Bool) (eqV : V → V → Bool) :
    {part : Part} → Selection b R V part → Counterpart b R V part → Bool
  | _, column x, column y => x.same eqV y
  | _, objectRelation r x, objectRelation s y => r.same s && x.agrees eqR eqV y
  | _, arrayRelation x, arrayRelation y => x.agrees eqR eqV y
  | _, computedField _ m x, computedField _ n y => m == n && x.agrees eqR eqV y
  | _, remote x, remote y => x.same eqR y
  | _, nodeId _ s x, nodeId _ t y => s == t && x == y
  | _, constant s, constant t => s == t
  | _, aggregates xs, aggregates ys => xs.same (Aggregate.same eqV) ys
  | _, nodes _ xs, nodes _ ys =>
      xs.size == ys.size && xs.agrees eqR eqV ys.find?
  | _, aggregateConstant s, aggregateConstant t => s == t
  | _, connectionTypeName s, connectionTypeName t => s == t
  | _, pageInfo xs, pageInfo ys => xs.same (· == ·) ys
  | _, edges xs, edges ys =>
      xs.size == ys.size && xs.agrees eqR eqV ys.find?
  | _, edgeTypeName s, edgeTypeName t => s == t
  | _, cursor, cursor => true
  | _, node xs, node ys =>
      xs.size == ys.size && xs.agrees eqR eqV ys.find?
  | _, nil, _ => true
  | _, cons name _ x rest, find =>
      (match find name with
        | some y => x.agrees eqR eqV y
        | none => false) && rest.agrees eqR eqV find
  | _, select xs p, select ys q =>
      xs.size == ys.size && xs.agrees eqR eqV ys.find? && p.same eqV q
  | _, object xs s p, object ys t q =>
      xs.size == ys.size && xs.agrees eqR eqV ys.find? && s.same eqV t && p.same eqV q
  | _, simple r x, simple s y => r.same s && x.agrees eqR eqV y
  | _, aggregate r x, aggregate s y => r.same s && x.agrees eqR eqV y
  | _, connection r x, connection s y => r.same s && x.agrees eqR eqV y
  | _, page _ p x, page _ q y => p.same eqV q && x.agrees eqR eqV y
  | _, scalar x, scalar y => x.same eqV y
  | _, table s x, table t y => s == t && x.agrees eqR eqV y
  | _, _, _ => false

/-- Equality of two parts of one kind, given equalities of remote targets and of values. -/
def same (eqR : R → R → Bool) (eqV : V → V → Bool) :
    {part : Part} → Selection b R V part → Selection b R V part → Bool
  | .fields _ _, x, y => x.agrees eqR eqV y.find?
  | .field _, x, y => x.agrees eqR eqV y
  | .select _, x, y => x.agrees eqR eqV y
  | .object, x, y => x.agrees eqR eqV y
  | .array, x, y => x.agrees eqR eqV y
  | .connection, x, y => x.agrees eqR eqV y
  | .computed, x, y => x.agrees eqR eqV y

end SelectPlan.Selection
