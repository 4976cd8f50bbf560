import SelectPlan.Proofs.RemoteJoins.Levels

/-!
What is added to a level.  Every field that is added carries a join value and nothing else, and
some join reports it as added.
-/

namespace SelectPlan

variable {b : Backend} {R V : Type}

namespace JoinLevel

/-- A level has grown by fields that carry join values, each of them reported by one of the
columns. -/
def Grows (before after : JoinLevel b V) (columns : List JoinColumn) : Prop :=
  ∃ added : List (FieldName × JoinField b),
    after.fields.toList =
      before.fields.toList ++ added.map (Prod.map id JoinField.phantom) ∧
    ∀ name ∈ added.map Prod.fst, .phantom name ∈ columns

namespace Grows

variable {before middle after : JoinLevel b V} {columns others : List JoinColumn}

theorem refl (level : JoinLevel b V) (columns : List JoinColumn) : level.Grows level columns :=
  ⟨[], (List.append_nil _).symm, fun _ hname => absurd hname List.not_mem_nil⟩

theorem trans (hfirst : before.Grows middle columns) (hsecond : middle.Grows after others) :
    before.Grows after (columns ++ others) := by
  obtain ⟨first, hmiddle, hcolumns⟩ := hfirst
  obtain ⟨second, hafter, hothers⟩ := hsecond
  refine ⟨first ++ second, ?_, ?_⟩
  · rw [hafter, hmiddle, List.map_append, List.append_assoc]
  · intro name hname
    rw [List.map_append] at hname
    rcases List.mem_append.mp hname with hname | hname
    · exact List.mem_append_left _ (hcolumns name hname)
    · exact List.mem_append_right _ (hothers name hname)

end Grows

theorem joinColumn_grows (name : FieldName) (value : JoinField b) (level : JoinLevel b V) :
    level.Grows (joinColumn name value level).2 [(joinColumn name value level).1] := by
  rw [joinColumn]
  split
  · exact .refl level _
  · have hfresh := unusedName_not_mem level.fields.keys (phantomMark ++ name.text)
    exact ⟨[(_, value)], OrderedMap.toList_insert_of_not_mem _ hfresh, fun _ hname =>
      List.mem_singleton.mp hname ▸ List.mem_singleton_self _⟩

theorem traverseKeyed_grows {keys : List FieldName} (values : Entries FieldName (JoinField b) keys)
    (level : JoinLevel b V) :
    level.Grows (values.traverseKeyed joinColumn level).2
      (values.traverseKeyed joinColumn level).1.values := by
  induction values generalizing level with
  | nil => exact .refl level _
  | cons name fresh value rest ih => exact (joinColumn_grows name value level).trans (ih _)

theorem join_grows (relationship : RemoteRelationship b R) (level : JoinLevel b V) :
    level.Grows (join relationship level).2 (join relationship level).1.columns.values :=
  traverseKeyed_grows relationship.joinFields.entries level

theorem joinAll_grows (remotes : List (FieldName × RemoteRelationship b R))
    (level : JoinLevel b V) :
    level.Grows (joinAll remotes level).2
      ((joinAll remotes level).1.flatMap fun (_, join) => join.columns.values) := by
  induction remotes generalizing level with
  | nil => exact .refl level _
  | cons head remotes ih => exact (join_grows head.2 level).trans (ih _)

end JoinLevel

/-- Behind the fields of a level come those that were added for its joins, which report them. -/
theorem Selection.settle_grows {names : List FieldName}
    (fields : Selection b R V (.fields .row names))
    (stripped : Selection b Empty V (.fields .row names)) :
    JoinLevel.Grows { fields := stripped.toMap } (settle fields stripped).2
      ((settle fields stripped).1.flatMap fun (_, join) => join.columns.values) :=
  JoinLevel.joinAll_grows fields.remotes _

end SelectPlan
