import SelectPlan.Proofs.Sameness.Leaves
import SelectPlan.Selection.Kind

/-!
Equality of what holds selections or other trees: streams, remote targets and frames.  The remote
targets are leaves of trees themselves, so their equality can be the one that a tree is given.
-/

namespace SelectPlan

variable {b : Backend} {A B R S V W : Type} {eq : A → A → Bool} {eq' : B → B → Bool}
  {eqR : R → R → Bool} {eqV : V → V → Bool} {eqS : S → S → Bool} {eqW : W → W → Bool}

/-! Streams -/

namespace StreamCursor

theorem equating (heqV : Equating eqV) : Equating (same (b := b) eqV) :=
  ((Equating.beq.on ordering).and (Equating.beq.on column)).and (heqV.on initialValue)

end StreamCursor

namespace StreamArgs

variable {x y : StreamArgs b V}

theorem equating (heqV : Equating eqV) : Equating (same (b := b) eqV) :=
  (((Predicate.equating heqV).option.on filter).and (Equating.beq.on batchSize)).and
    ((StreamCursor.equating heqV).on cursor)

theorem paired_values (hsame : x.same eqV y = true) :
    Paired (fun v w => eqV v w = true) x.values y.values := by
  simp only [same, StreamCursor.same, Bool.and_eq_true, sameOption_eq_toList] at hsame
  exact (Paired.of_sameList hsame.1.1 fun _ _ _ => Predicate.paired_values).append
    (.single hsame.2.2)

theorem same_traverse {g : V → Id W} (hg : Respects eqV eqW g) :
    Respects (same (b := b) eqV) (same eqW) (traverse g) := by
  intro x y hsame
  simp only [same, StreamCursor.same, Bool.and_eq_true] at hsame ⊢
  obtain ⟨⟨hfilter, hsize⟩, ⟨hordering, hcolumn⟩, hvalue⟩ := hsame
  exact ⟨⟨sameOption_mapA (Predicate.same_traverse hg) _ _ hfilter, hsize⟩,
    ⟨hordering, hcolumn⟩, hg _ _ hvalue⟩

end StreamArgs

namespace Stream

variable {x y : Stream b R V}

theorem equating (heqR : Equating eqR) (heqV : Equating eqV) :
    Equating fun x y : Stream b R V => x.same eqR eqV y := by
  have hfields : Equating fun x y : FieldMap b R V .row =>
      OrderedMap.same (Selection.same eqR eqV) x y := (Selection.equating heqR heqV).map
  have hsame := ((((hfields.on fun x : Stream b R V => x.fields.toMap).and
    ((Source.equating heqV).on source)).and ((RowPermission.equating heqV).on permission)).and
      ((StreamArgs.equating heqV).on args)).and (Equating.beq.on numbers)
  simpa only [same, Selection.fields_same_eq] using hsame

theorem paired_leaves (hsame : x.same eqR eqV y = true) :
    Paired (Leaf.Alike eqR eqV) x.leaves y.leaves := by
  simp only [same, Bool.and_eq_true (_ && _)] at hsame
  obtain ⟨⟨⟨⟨hfields, hsource⟩, hpermission⟩, hargs⟩, -⟩ := hsame
  exact (Selection.paired_leaves_of_same hfields).append <| .ofValues <|
    ((Source.paired_values hsource).append (RowPermission.paired_values hpermission)).append
      (StreamArgs.paired_values hargs)

theorem same_traverse {f : R → Id S} {g : V → Id W} (hf : Respects eqR eqS f)
    (hg : Respects eqV eqW g) :
    Respects (same (b := b) eqR eqV) (same eqS eqW) (traverse f g) := by
  intro x y hsame
  simp only [same, Bool.and_eq_true (_ && _)] at hsame ⊢
  obtain ⟨⟨⟨⟨hfields, hsource⟩, hpermission⟩, hargs⟩, hnumbers⟩ := hsame
  exact ⟨⟨⟨⟨Selection.fields_same_traverse hf hg hfields, Source.same_traverse hg _ _ hsource⟩,
    RowPermission.same_traverse hg _ _ hpermission⟩, StreamArgs.same_traverse hg _ _ hargs⟩,
    hnumbers⟩

end Stream

/-! Remote targets -/

theorem RemoteSchemaCall.equating : Equating RemoteSchemaCall.same :=
  (((Equating.beq.on schema).and (Equating.beq.on fieldPath)).and
    (Equating.beq.map.on arguments)).and (Equating.beq.on selectionSet)

namespace SourceSelection

variable {x y : SourceSelection b R V}

theorem equating (heqR : Equating eqR) (heqV : Equating eqV) :
    Equating fun x y : SourceSelection b R V => x.same eqR eqV y := by
  refine .of_at fun x => ?_
  cases x with
  | object select =>
      refine .form object ((Selection.equating heqR heqV).at select) fun x y => ?_
      cases y <;> simp [same, Selection.same]
  | array select =>
      refine .form array ((Selection.equating heqR heqV).at select) fun x y => ?_
      cases y <;> simp [same, Selection.same]
  | arrayAggregate select =>
      refine .form arrayAggregate ((Selection.equating heqR heqV).at select) fun x y => ?_
      cases y <;> simp [same, Selection.same]

theorem paired_leaves (hsame : x.same eqR eqV y = true) :
    Paired (Leaf.Alike eqR eqV) x.leaves y.leaves := by
  cases x <;> cases y <;> simp only [same, Bool.false_eq_true] at hsame
  all_goals exact Selection.Alike.paired_leaves (Selection.alikeTo_of_agrees hsame)

theorem same_traverse {f : R → Id S} {g : V → Id W} (hf : Respects eqR eqS f)
    (hg : Respects eqV eqW g) :
    Respects (same (b := b) eqR eqV) (same eqS eqW) (traverse f g) := by
  intro x y hsame
  cases x <;> cases y <;> simp only [same, Bool.false_eq_true] at hsame
  all_goals
    have halike := Selection.Alike.traverse hf hg (Selection.alikeTo_of_agrees hsame)
    exact Selection.same_of_alike halike

end SourceSelection

namespace SourceSelect

variable {x y : SourceSelect b R V}

theorem equating (heqR : Equating eqR) (heqV : Equating eqV) :
    Equating fun x y : SourceSelect b R V => x.same eqR eqV y :=
  ((((Equating.beq.on name).and (Equating.beq.on config)).and
    ((SourceSelection.equating heqR heqV).on selection)).and (Equating.beq.map.on joinMapping)).and
      (Equating.beq.on numbers)

theorem paired_leaves (hsame : x.same eqR eqV y = true) :
    Paired (Leaf.Alike eqR eqV) x.leaves y.leaves := by
  simp only [same, Bool.and_eq_true] at hsame
  exact SourceSelection.paired_leaves hsame.1.1.2

theorem same_traverse {f : R → Id S} {g : V → Id W} (hf : Respects eqR eqS f)
    (hg : Respects eqV eqW g) :
    Respects (same (b := b) eqR eqV) (same eqS eqW) (traverse f g) := by
  intro x y
  simp +contextual [traverse, same, SourceSelection.same_traverse hf hg _ _]

end SourceSelect

theorem RemoteTarget.equating {Value : Backend → Type}
    {eqV : (b : Backend) → Value b → Value b → Bool} (heqR : Equating eqR)
    (heqV : ∀ b, Equating (eqV b)) :
    Equating fun x y : RemoteTarget Value R => x.same eqR eqV y := by
  refine .of_at fun x => ?_
  cases x with
  | schema call =>
      refine .form schema (RemoteSchemaCall.equating.at call) fun x y => ?_
      cases y <;> simp [same]
  | source backend select =>
      refine .form (source backend) ((SourceSelect.equating heqR (heqV backend)).at select)
        fun x y => ?_
      cases y with
      | schema call => simp [same]
      | source backend' select =>
          by_cases h : backend = backend'
          · subst h
            simp [same]
          · simp [same, h, Ne.symm h]

/-- Nested targets can be leaves of trees themselves. -/
theorem NestedTarget.equating {Value : Backend → Type}
    {eqV : (b : Backend) → Value b → Value b → Bool} (heqV : ∀ b, Equating (eqV b)) :
    (depth : Nat) → Equating fun x y : NestedTarget Value depth => x.same eqV y
  | 0 => RemoteTarget.equating ⟨nofun, nofun, nofun⟩ heqV
  | depth + 1 => RemoteTarget.equating (NestedTarget.equating heqV depth) heqV

theorem TargetOrName.equating (heq : Equating eq) :
    Equating fun x y : TargetOrName A => x.same eq y := by
  refine .of_at fun x => ?_
  cases x with
  | name text =>
      refine .form name (Equating.beq.at text) fun x y => ?_
      cases y <;> simp [same]
  | target inner =>
      refine .form target (heq.at inner) fun x y => ?_
      cases y <;> simp [same]

/-! Frames -/

namespace SelectFrame

variable {x y : SelectFrame b A V}

theorem equating (heq : Equating eq) (heqV : Equating eqV) :
    Equating fun x y : SelectFrame b A V => x.same eq eqV y :=
  (heq.map.on fields).and ((Query.equating heqV).on query)

theorem paired_leaves {inner : A → List (Leaf R V)}
    (hinner : ∀ x y, eq x y = true → Paired (Leaf.Alike eqR eqV) (inner x) (inner y))
    (hsame : x.same eq eqV y = true) :
    Paired (Leaf.Alike eqR eqV) (x.leaves inner) (y.leaves inner) := by
  rw [same, Bool.and_eq_true] at hsame
  exact ((OrderedMap.paired_values_of_same hsame.1).flatMap hinner).append
    (.ofValues (Query.paired_values hsame.2))

theorem same_traverse {inner : A → Id B} {g : V → Id W} (hinner : Respects eq eq' inner)
    (hg : Respects eqV eqW g) :
    Respects (same (b := b) eq eqV) (same eq' eqW) (traverse inner g) := by
  intro x y hsame
  rw [same, Bool.and_eq_true] at hsame ⊢
  exact ⟨OrderedMap.same_traverse hinner _ _ hsame.1, Query.same_traverse hg _ _ hsame.2⟩

end SelectFrame

theorem RelationFrame.equating (heq : Equating eq) :
    Equating fun x y : RelationFrame A => x.same eq y :=
  (Relationship.equating.on relationship).and (heq.on select)

theorem OrderFrame.equating (heq : Equating eq) : Equating fun x y : OrderFrame A => x.same eq y :=
  ((heq.on term).and (Equating.beq.on direction)).and (Equating.beq.on nulls)

end SelectPlan
