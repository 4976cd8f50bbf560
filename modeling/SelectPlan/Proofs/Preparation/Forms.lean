import SelectPlan.Proofs.Preparation.Meaning
import SelectPlan.Proofs.Traversal.Refilling

/-!
Forms of values, in which a parameter is replaced by whatever is kept of it.  A tree of forms is the
common ground of a tree and of what it is prepared to: with the parameters put back, a prepared tree
is the tree that it comes from.
-/

namespace SelectPlan

variable {b : Backend} {R : Type} {P : Type}

/-- A value with `P` in the place of a parameter. -/
inductive ValueForm (b : Backend) (P : Type) where
  | literal (value : Scalar)
  | parameter (held : P)
  | sessionVariable (name : String) (type : ScalarType b)
  | session

/-- The form of a value, with what is kept of a parameter. -/
def Unprepared.form (keep : Provenance → ColumnValue b → P) : Unprepared b → ValueForm b P
  | literal value => .literal value
  | parameter provenance value => .parameter (keep provenance value)
  | sessionVariable name type => .sessionVariable name type
  | session => .session

/-- The form of a prepared value, with something for the position of a parameter. -/
def Prepared.form (resolve : Nat → P) : Prepared b → ValueForm b P
  | literal value => .literal value
  | param index => .parameter (resolve index)
  | sessionVariable name type => .sessionVariable name type
  | session => .session

theorem StandsFor.form_eq {bindings : Bindings b} {value : Unprepared b} {prepared : Prepared b}
    (hstands : StandsFor bindings value prepared) :
    prepared.form bindings.parameter? = value.form fun _ value => some value := by
  cases hstands with
  | literal => rfl
  | session => rfl
  | sessionVariable => rfl
  | parameter _ _ hbound => exact congrArg ValueForm.parameter hbound

theorem Leaf.forms_of_standFor {bindings : Bindings b} {leaves : List (Leaf R (Unprepared b))}
    {prepared : List (Leaf R (Prepared b))}
    (hstand : List.Forall₂ (Leaf.StandsFor bindings) leaves prepared) :
    prepared.map (traverse (F := Id) (fun target => pure (id target))
        fun value => pure (value.form bindings.parameter?)) =
      leaves.map (traverse (F := Id) (fun target => pure (id target))
        fun value => pure (value.form fun _ value => some value)) := by
  induction hstand with
  | nil => rfl
  | cons hleaf _ ih =>
      rw [List.map_cons, List.map_cons, ih]
      cases hleaf with
      | remote => rfl
      | value hstands => exact congrArg (fun form => Leaf.value form :: _) hstands.form_eq

namespace TreeKind

variable {session : Session} {share : Bool} {kind : TreeKind} {tree : kind.Tree b R (Unprepared b)}
  {prepared : kind.Tree b R (Prepared b)} {bindings : Bindings b}

/-- A prepared tree with the parameters put back in the place of their positions. -/
def resolved (kind : TreeKind) (bindings : Bindings b) (prepared : kind.Tree b R (Prepared b)) :
    kind.Tree b R (ValueForm b (Option (ColumnValue b))) :=
  kind.bimap id (Prepared.form bindings.parameter?) prepared

/-- A prepared tree with the parameters put back is the tree that it comes from. -/
theorem prepare_resolved (hprepare : kind.prepare session share tree = .ok (prepared, bindings)) :
    kind.resolved bindings prepared =
      kind.bimap id (Unprepared.form fun _ value => some value) tree := by
  obtain ⟨hshape, preparation, rfl, hprogress⟩ := prepare_progress hprepare
  obtain ⟨hleaves, hkept⟩ := bimap_visits id (Prepared.form preparation.bindings.parameter?) kind
    prepared
  obtain ⟨hleaves', hkept'⟩ := bimap_visits id (Unprepared.form fun _ value => some value) kind tree
  exact ext_shape_leaves (hkept.trans (hshape.trans hkept'.symm))
    (hleaves.trans ((Leaf.forms_of_standFor hprogress.standFor).trans hleaves'.symm))

end TreeKind

end SelectPlan
