import Mathlib.Data.List.Forall2
import SelectPlan.Proofs.Preparation.Steps

/-!
Prepared trees mean what the trees they come from mean.  Every leaf stands for the leaf in its
place, and the positions of parameters are handed out in reading order without gaps.
-/

namespace SelectPlan

variable {b : Backend} {R : Type}

/-- A prepared value stands for a value: it is that value, or the position of the parameter that
the value has become. -/
inductive StandsFor (bindings : Bindings b) : Unprepared b → Prepared b → Prop
  | literal {value : Scalar} : StandsFor bindings (.literal value) (.literal value)
  | session : StandsFor bindings .session .session
  | sessionVariable {name : String} {type : ScalarType b} :
      StandsFor bindings (.sessionVariable name type) (.sessionVariable name type)
  | parameter {provenance : Provenance} {value : ColumnValue b} {index : Nat}
      (hpositive : 1 ≤ index) (hrange : index ≤ bindings.parameters.length)
      (hbound : bindings.parameter? index = some value) :
      StandsFor bindings (.parameter provenance value) (.param index)

namespace StandsFor

variable {before after : Bindings b} {value : Unprepared b} {prepared : Prepared b}

theorem of_grown (hgrown : before.parameters <+: after.parameters)
    (hstands : StandsFor before value prepared) : StandsFor after value prepared := by
  cases hstands with
  | literal => exact .literal
  | session => exact .session
  | sessionVariable => exact .sessionVariable
  | parameter hpositive hrange hbound =>
      exact .parameter hpositive (Nat.le_trans hrange hgrown.length_le)
        (Bindings.parameter?_of_grown hgrown hbound)

theorem of_step (hstep : Preparation.ValueStep before after value prepared) :
    StandsFor after value prepared := by
  cases hstep with
  | literal hsame => exact .literal
  | session hsame => exact .session
  | sessionVariable hsame => exact .sessionVariable
  | @added provenance value hafter =>
      have hbound : after.parameter? (before.parameters.length + 1) = some value := by
        rw [Bindings.parameter?_succ, hafter, List.getElem?_concat_length]
      obtain ⟨hpositive, hrange⟩ := Bindings.parameter?_range hbound
      exact .parameter hpositive hrange hbound
  | shared hfound hsame =>
      rw [← hsame] at hfound
      obtain ⟨hpositive, hrange⟩ := Bindings.parameter?_range hfound
      exact .parameter hpositive hrange hfound

end StandsFor

/-- A leaf of a prepared tree stands for a leaf: remote targets are untouched. -/
inductive Leaf.StandsFor (bindings : Bindings b) :
    Leaf R (Unprepared b) → Leaf R (Prepared b) → Prop
  | remote {target : R} : StandsFor bindings (.remote target) (.remote target)
  | value {value : Unprepared b} {prepared : Prepared b}
      (hstands : SelectPlan.StandsFor bindings value prepared) :
      StandsFor bindings (.value value) (.value prepared)

/-- The position that a prepared value refers to. -/
def Prepared.index? : Prepared b → Option Nat
  | param index => some index
  | _ => none

/-- The highest of some positions, 0 if there are none. -/
def highest (indices : List Nat) : Nat :=
  indices.foldr max 0

/-- Positions as they are handed out one after the other: every one is the highest so far or lower,
or the next one, and in the end those up to `count` have all been handed out. -/
structure HandedOut (indices : List Nat) (count : Nat) : Prop where
  highest_eq : highest indices = count
  next : ∀ before index after, indices = before ++ index :: after → index ≤ highest before + 1
  covers : ∀ index, 1 ≤ index → index ≤ count → index ∈ indices

theorem highest_append (indices more : List Nat) :
    highest (indices ++ more) = max (highest indices) (highest more) := by
  induction indices with
  | nil => simp [highest]
  | cons index indices ih =>
      change max index (highest (indices ++ more)) = max (max index (highest indices)) _
      rw [ih, Nat.max_assoc]

namespace HandedOut

variable {indices : List Nat} {count index : Nat}

theorem nil : HandedOut [] 0 where
  highest_eq := rfl
  next before index after hsplit := by simp at hsplit
  covers index hpositive hrange := by omega

theorem snoc (houts : HandedOut indices count) (hnext : index ≤ count + 1) :
    HandedOut (indices ++ [index]) (max count index) where
  highest_eq := by
    rw [highest_append, houts.highest_eq]
    simp [highest]
  next before last after hsplit := by
    -- the split is at the new position, or at an earlier one
    rcases List.eq_nil_or_concat after with rfl | ⟨rest, final, rfl⟩
    · obtain ⟨rfl, hlast⟩ := List.append_inj' hsplit rfl
      cases hlast
      rw [houts.highest_eq]
      exact hnext
    · have hsplit : indices ++ [index] = before ++ last :: rest ++ [final] := by
        rw [hsplit, List.append_assoc, List.cons_append, List.concat_eq_append]
      obtain ⟨hindices, -⟩ := List.append_inj' hsplit rfl
      exact houts.next before last rest hindices
  covers position hpositive hrange := by
    rw [List.mem_append, List.mem_singleton]
    by_cases hold : position ≤ count
    · exact .inl (houts.covers position hpositive hold)
    · right
      omega

theorem of_step {before after : Bindings b} {value : Unprepared b}
    {result : Prepared b} (houts : HandedOut indices before.parameters.length)
    (hstep : Preparation.ValueStep before after value result) :
    HandedOut (indices ++ result.index?.toList) after.parameters.length := by
  cases hstep with
  | literal hsame => simpa [Prepared.index?, hsame] using houts
  | session hsame => simpa [Prepared.index?, hsame] using houts
  | sessionVariable hsame => simpa [Prepared.index?, hsame] using houts
  | added hafter =>
      have hcount : after.parameters.length =
          max before.parameters.length (before.parameters.length + 1) := by
        simp [hafter]
      rw [hcount]
      exact houts.snoc (Nat.le_refl _)
  | @shared provenance value index hfound hsame =>
      obtain ⟨-, hrange⟩ := Bindings.parameter?_range hfound
      have hcount : after.parameters.length = max before.parameters.length index := by
        rw [hsame, Nat.max_eq_left hrange]
      rw [hcount]
      exact houts.snoc (Nat.le_succ_of_le hrange)

end HandedOut

namespace Leaf

variable {bindings before after : Bindings b} {leaves : List (Leaf R (Unprepared b))}
  {prepared : List (Leaf R (Prepared b))}

theorem StandsFor.of_grown (hgrown : before.parameters <+: after.parameters)
    {leaf : Leaf R (Unprepared b)} {result : Leaf R (Prepared b)}
    (hstands : StandsFor before leaf result) : StandsFor after leaf result := by
  cases hstands with
  | remote => exact .remote
  | value hstands => exact .value (hstands.of_grown hgrown)

theorem remotes_of_standFor (hstand : List.Forall₂ (StandsFor bindings) leaves prepared) :
    prepared.filterMap remote? = leaves.filterMap remote? := by
  induction hstand with
  | nil => rfl
  | cons hleaf hrest ih =>
      cases hleaf with
      | @remote target =>
          change target :: _ = target :: _
          rw [ih]
      | value hstands => exact ih

theorem values_of_standFor (hstand : List.Forall₂ (StandsFor bindings) leaves prepared) :
    List.Forall₂ (SelectPlan.StandsFor bindings) (leaves.filterMap value?)
      (prepared.filterMap value?) := by
  induction hstand with
  | nil => exact .nil
  | cons hleaf hrest ih =>
      cases hleaf with
      | remote => exact ih
      | value hstands => exact .cons hstands ih

end Leaf

/-- The positions that prepared leaves refer to, in reading order. -/
def Leaf.indices (leaves : List (Leaf R (Prepared b))) : List Nat :=
  (leaves.filterMap value?).filterMap Prepared.index?

theorem Leaf.indices_append (first second : List (Leaf R (Prepared b))) :
    indices (first ++ second) = indices first ++ indices second := by
  rw [indices, List.filterMap_append, List.filterMap_append]
  rfl

namespace Preparation

/-- What holds of the leaves that have been prepared so far. -/
structure Progress (leaves : List (Leaf R (Unprepared b))) (prepared : List (Leaf R (Prepared b)))
    (preparation : Preparation b) : Prop where
  standFor : List.Forall₂ (Leaf.StandsFor preparation.bindings) leaves prepared
  handedOut : HandedOut (Leaf.indices prepared) preparation.bindings.parameters.length

variable {leaves : List (Leaf R (Unprepared b))} {prepared : List (Leaf R (Prepared b))}
  {preparation after : Preparation b}

/-- Every step of a preparation keeps what holds of the leaves so far. -/
theorem Progress.step {session : Session} {share : Bool} {leaf : Leaf R (Unprepared b)}
    {result : Leaf R (Prepared b)} (hprogress : Progress leaves prepared preparation)
    (hrun : leaf.traverse pure (prepareValue session share) preparation = (.ok result, after)) :
    Progress (leaves ++ [leaf]) (prepared ++ [result]) after := by
  cases leaf with
  | remote target =>
      obtain ⟨kept, hkept, rfl⟩ := Steps.map_apply_ok hrun
      cases hkept
      refine ⟨List.rel_append hprogress.standFor (.cons .remote .nil), ?_⟩
      rw [Leaf.indices_append]
      change HandedOut (Leaf.indices prepared ++ []) _
      rw [List.append_nil]
      exact hprogress.handedOut
  | value value =>
      obtain ⟨prepared, hprepared, rfl⟩ := Steps.map_apply_ok hrun
      have hstep := prepareValue_step hprepared
      refine ⟨List.rel_append (hprogress.standFor.imp fun _ _ hstands =>
        hstands.of_grown hstep.parameters_grown) (.cons (.value (.of_step hstep)) .nil), ?_⟩
      rw [Leaf.indices_append]
      exact hprogress.handedOut.of_step hstep

end Preparation

namespace TreeKind

variable {session : Session} {share : Bool} {kind : TreeKind}

/-- A preparation keeps the shape of a tree and makes its way through all leaves. -/
theorem prepare_progress {tree : kind.Tree b R (Unprepared b)}
    {prepared : kind.Tree b R (Prepared b)} {bindings : Bindings b}
    (hprepare : kind.prepare session share tree = .ok (prepared, bindings)) :
    kind.shape prepared = kind.shape tree ∧ ∃ preparation, preparation.bindings = bindings ∧
      Preparation.Progress (kind.leaves tree) (kind.leaves prepared) preparation := by
  obtain ⟨preparation, hrun, hbindings⟩ := prepare_ok hprepare
  obtain ⟨hshape, hleaves⟩ := kind.traverse_ok hrun
  have hstart : Preparation.Progress ([] : List (Leaf R (Unprepared b))) [] {} := ⟨.nil, .nil⟩
  exact ⟨hshape, preparation, hbindings,
    Steps.mapA_invariant Preparation.Progress Preparation.Progress.step hstart hleaves⟩

/-- A prepared tree has the shape and the remote targets of the tree it comes from, and every value
stands for the value in its place.  The positions of parameters are handed out in reading order:
every position is at most one more than those before it, and every parameter has its position
somewhere. -/
theorem prepare_standsFor {tree : kind.Tree b R (Unprepared b)}
    {prepared : kind.Tree b R (Prepared b)} {bindings : Bindings b}
    (hprepare : kind.prepare session share tree = .ok (prepared, bindings)) :
    kind.shape prepared = kind.shape tree ∧ kind.remotes prepared = kind.remotes tree ∧
      List.Forall₂ (StandsFor bindings) (kind.values tree) (kind.values prepared) ∧
      HandedOut ((kind.values prepared).filterMap Prepared.index?)
        bindings.parameters.length := by
  obtain ⟨hshape, preparation, rfl, hprogress⟩ := prepare_progress hprepare
  exact ⟨hshape, Leaf.remotes_of_standFor hprogress.standFor,
    Leaf.values_of_standFor hprogress.standFor, hprogress.handedOut⟩

/-- A request variable that is used twice, between data of the engine. -/
def sharedArguments : List (Argument (Unprepared .mySql)) :=
  let type : ColumnType .mySql := .enumReference "genre"
  [.input (.parameter (.request (some "genre")) ⟨type, .text "rock"⟩), .tableRow,
    .input (.parameter (.internal "limit") ⟨type, .int 3⟩), .input .session,
    .input (.parameter (.request (some "genre")) ⟨type, .text "rock"⟩)]

theorem prepare_sharedArguments_standsFor :
    ∃ (prepared : List (Argument (Prepared .mySql))) (bindings : Bindings .mySql),
      (list argument).prepare (R := String) .empty true sharedArguments =
        .ok (prepared, bindings) ∧
      (list argument).values (b := .mySql) (R := String) prepared =
        [.param 1, .param 2, .session, .param 1] ∧
      ((list argument).shape (b := .mySql) (R := String) prepared =
          (list argument).shape (b := .mySql) (R := String) sharedArguments ∧
        (list argument).remotes (b := .mySql) (R := String) prepared =
          (list argument).remotes (b := .mySql) sharedArguments ∧
        List.Forall₂ (StandsFor bindings)
          ((list argument).values (b := .mySql) (R := String) sharedArguments)
          ((list argument).values (b := .mySql) (R := String) prepared) ∧
        HandedOut (((list argument).values (b := .mySql) (R := String) prepared).filterMap
          Prepared.index?) bindings.parameters.length) := by
  have hprepare : (list argument).prepare (R := String) .empty true sharedArguments =
      .ok (_, _) := rfl
  exact ⟨_, _, hprepare, rfl, prepare_standsFor hprepare⟩

end TreeKind

end SelectPlan
