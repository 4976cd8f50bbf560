import SelectPlan.Proofs.Preparation.Sharing

/-!
Data of the request in a preparation.  What the parameters of two trees hold has no part in how the
trees are prepared, unless it makes one preparation fail: two preparations that do not fail go
through the same steps and end in the same tree.
-/

namespace SelectPlan

variable {b : Backend} {R : Type}

/-- A value without the data of the request.  Where a parameter comes from is not part of it. -/
def Unprepared.withoutData : Unprepared b → ValueForm b Provenance :=
  form fun provenance _ => provenance

/-- A tree without the data of the request. -/
def TreeKind.withoutData (kind : TreeKind) (tree : kind.Tree b R (Unprepared b)) :
    kind.Tree b R (ValueForm b Provenance) :=
  kind.bimap id Unprepared.withoutData tree

/-- Two runs that do not fail agree on their results if the steps do, from states that are
related. -/
theorem Steps.mapA_agree {E σ α β γ : Type} {h h' : α → Steps E σ β} (view : α → γ)
    (Related : σ → σ → Prop)
    (hstep : ∀ {item item' state state' result result' after after'}, view item = view item' →
      Related state state' → h item state = (.ok result, after) →
      h' item' state' = (.ok result', after') → result = result' ∧ Related after after')
    {items items' : List α} {state state' finish finish' : σ} {results results' : List β}
    (hitems : items.map view = items'.map view) (hstart : Related state state')
    (hrun : items.mapA h state = (.ok results, finish))
    (hrun' : items'.mapA h' state' = (.ok results', finish')) :
    results = results' ∧ Related finish finish' := by
  induction items generalizing items' state state' results results' with
  | nil =>
      cases items' with
      | nil =>
          cases hrun
          cases hrun'
          exact ⟨rfl, hstart⟩
      | cons item' items' => cases hitems
  | cons item items ih =>
      cases items' with
      | nil => cases hitems
      | cons item' items' =>
          obtain ⟨hitem, hitems⟩ := List.cons.inj hitems
          obtain ⟨_, _, _, hfirst, hrest, rfl⟩ := mapA_cons_ok hrun
          obtain ⟨_, _, _, hfirst', hrest', rfl⟩ := mapA_cons_ok hrun'
          obtain ⟨rfl, hafter⟩ := hstep hitem hstart hfirst hfirst'
          obtain ⟨rfl, hfinish⟩ := ih hitems hafter hrest hrest'
          exact ⟨rfl, hfinish⟩

namespace Preparation

/-- Two preparations that differ in nothing but what their parameters hold. -/
structure Alike (first second : Preparation b) : Prop where
  length_eq : first.bindings.parameters.length = second.bindings.parameters.length
  sessionVariables_eq : first.bindings.sessionVariables = second.bindings.sessionVariables
  bound_eq : first.bound = second.bound

variable {session session' : Session} {share : Bool} {before before' after after' : Preparation b}

/-- Parameters of one provenance are bound to the same position. -/
theorem Alike.of_binds {provenance : Provenance} {value value' : ColumnValue b} {index index' : Nat}
    (halike : Alike before before') (hbinds : Binds share provenance value before index after)
    (hbinds' : Binds share provenance value' before' index' after') :
    index = index' ∧ Alike after after' := by
  have hlength := halike.length_eq
  have hnames := halike.sessionVariables_eq
  have hbound := halike.bound_eq
  cases hbinds with
  | alone hname =>
      cases hbinds' with
      | alone _ => exact ⟨by rw [hlength], by simp [hlength], hnames, hbound⟩
      | first hshare hsome _ => cases (hname hshare).symm.trans hsome
      | again hshare hsome _ _ => cases (hname hshare).symm.trans hsome
  | first hshare hname hfresh =>
      rw [hbound] at hfresh
      cases hbinds' with
      | alone hnone => cases (hnone hshare).symm.trans hname
      | first _ hsome _ =>
          cases hname.symm.trans hsome
          exact ⟨by rw [hlength], by simp [hlength], hnames, by rw [hbound, hlength]⟩
      | again _ hsome hlookup _ =>
          cases hname.symm.trans hsome
          cases hfresh.symm.trans hlookup
  | again hshare hname hlookup hfound =>
      rw [hbound] at hlookup
      cases hbinds' with
      | alone hnone => cases (hnone hshare).symm.trans hname
      | first _ hsome hfresh =>
          cases hname.symm.trans hsome
          cases hfresh.symm.trans hlookup
      | again _ hsome hlookup' _ =>
          cases hname.symm.trans hsome
          cases hlookup.symm.trans hlookup'
          exact ⟨rfl, hlength, hnames, hbound⟩

theorem Alike.step {value value' : Unprepared b} {result result' : Prepared b}
    (hvalue : value.withoutData = value'.withoutData) (halike : Alike before before')
    (hrun : prepareValue session share value before = (.ok result, after))
    (hrun' : prepareValue session' share value' before' = (.ok result', after')) :
    result = result' ∧ Alike after after' := by
  cases value with
  | literal value =>
      cases value' with
      | literal value' =>
          cases hvalue
          cases hrun
          cases hrun'
          exact ⟨rfl, halike⟩
      | _ => cases hvalue
  | parameter provenance value =>
      cases value' with
      | parameter provenance' value' =>
          cases hvalue
          obtain ⟨index, hbinds, rfl⟩ := prepareValue_parameter_iff.mp hrun
          obtain ⟨index', hbinds', rfl⟩ := prepareValue_parameter_iff.mp hrun'
          obtain ⟨rfl, hafter⟩ := halike.of_binds hbinds hbinds'
          exact ⟨rfl, hafter⟩
      | _ => cases hvalue
  | sessionVariable name type =>
      cases value' with
      | sessionVariable name' type' =>
          cases hvalue
          obtain ⟨-, rfl, rfl⟩ := prepareValue_sessionVariable_iff.mp hrun
          obtain ⟨-, rfl, rfl⟩ := prepareValue_sessionVariable_iff.mp hrun'
          have hnames : (before.noting name).bindings.sessionVariables =
              (before'.noting name).bindings.sessionVariables := by
            simp only [noting, halike.sessionVariables_eq]
          exact ⟨rfl, halike.length_eq, hnames, halike.bound_eq⟩
      | _ => cases hvalue
  | session =>
      cases value' with
      | session =>
          cases hrun
          cases hrun'
          exact ⟨rfl, halike⟩
      | _ => cases hvalue

/-- A leaf without the data of the request. -/
def leafWithoutData (leaf : Leaf R (Unprepared b)) : Leaf R (ValueForm b Provenance) :=
  leaf.traverse (F := Id) (fun target => pure (id target)) fun value => pure value.withoutData

theorem Alike.leaf_step {leaf leaf' : Leaf R (Unprepared b)} {result result' : Leaf R (Prepared b)}
    (hleaf : leafWithoutData leaf = leafWithoutData leaf') (halike : Alike before before')
    (hrun : leaf.traverse pure (prepareValue session share) before = (.ok result, after))
    (hrun' : leaf'.traverse pure (prepareValue session' share) before' = (.ok result', after')) :
    result = result' ∧ Alike after after' := by
  cases leaf with
  | remote target =>
      cases leaf' with
      | remote target' =>
          cases hleaf
          cases hrun
          cases hrun'
          exact ⟨rfl, halike⟩
      | value value' => cases hleaf
  | value value =>
      cases leaf' with
      | remote target' => cases hleaf
      | value value' =>
          obtain ⟨prepared, hprepared, rfl⟩ := Steps.map_apply_ok hrun
          obtain ⟨prepared', hprepared', rfl⟩ := Steps.map_apply_ok hrun'
          obtain ⟨rfl, hafter⟩ := halike.step (Leaf.value.inj hleaf) hprepared hprepared'
          exact ⟨rfl, hafter⟩

end Preparation

namespace TreeKind

variable {session session' : Session} {share : Bool} {kind : TreeKind}
  {first second : kind.Tree b R (Unprepared b)}

theorem shape_of_withoutData (hsame : kind.withoutData first = kind.withoutData second) :
    kind.shape first = kind.shape second := by
  obtain ⟨-, hfirst⟩ := bimap_visits id Unprepared.withoutData kind first
  obtain ⟨-, hsecond⟩ := bimap_visits id Unprepared.withoutData kind second
  exact hfirst.symm.trans ((congrArg kind.shape hsame).trans hsecond)

theorem leaves_of_withoutData (hsame : kind.withoutData first = kind.withoutData second) :
    (kind.leaves first).map Preparation.leafWithoutData =
      (kind.leaves second).map Preparation.leafWithoutData := by
  obtain ⟨hfirst, -⟩ := bimap_visits id Unprepared.withoutData kind first
  obtain ⟨hsecond, -⟩ := bimap_visits id Unprepared.withoutData kind second
  exact hfirst.symm.trans ((congrArg kind.leaves hsame).trans hsecond)

/-- Trees that differ in data of the request alone are prepared in the same way, and what their
preparations refer to differs in nothing but what the parameters hold. -/
theorem prepare_withoutData {prepared prepared' : kind.Tree b R (Prepared b)}
    {bindings bindings' : Bindings b} (hsame : kind.withoutData first = kind.withoutData second)
    (hfirst : kind.prepare session share first = .ok (prepared, bindings))
    (hsecond : kind.prepare session' share second = .ok (prepared', bindings')) :
    prepared = prepared' ∧ bindings.sessionVariables = bindings'.sessionVariables ∧
      bindings.parameters.length = bindings'.parameters.length := by
  obtain ⟨_, hrun, rfl⟩ := prepare_ok hfirst
  obtain ⟨_, hrun', rfl⟩ := prepare_ok hsecond
  obtain ⟨hshape, hleaves⟩ := kind.traverse_ok hrun
  obtain ⟨hshape', hleaves'⟩ := kind.traverse_ok hrun'
  have hstart : Preparation.Alike ({} : Preparation b) {} := ⟨rfl, rfl, rfl⟩
  obtain ⟨hprepared, halike⟩ := Steps.mapA_agree Preparation.leafWithoutData Preparation.Alike
    (fun hleaf hbefore => hbefore.leaf_step hleaf) (leaves_of_withoutData hsame) hstart hleaves
    hleaves'
  refine ⟨ext_shape_leaves ?_ hprepared, halike.sessionVariables_eq, halike.length_eq⟩
  exact hshape.trans ((shape_of_withoutData hsame).trans hshape'.symm)

theorem values_withoutData (kind : TreeKind) (tree : kind.Tree b R (Unprepared b)) :
    kind.values (kind.withoutData tree) = (kind.values tree).map Unprepared.withoutData := by
  have hvalues := kind.values_map_traverse (F := Id)
    (fun value : Unprepared b => pure value.withoutData) tree
  rw [mapA_id] at hvalues
  exact hvalues

theorem sessionVariable_mem_values_iff {tree : kind.Tree b R (Unprepared b)} {name : String}
    {type : ScalarType b} :
    .sessionVariable name type ∈ kind.values tree ↔
      .sessionVariable name type ∈ kind.values (kind.withoutData tree) := by
  rw [values_withoutData, List.mem_map]
  constructor
  · intro hmem
    exact ⟨_, hmem, rfl⟩
  · rintro ⟨value, hmem, hvalue⟩
    cases value with
    | sessionVariable name' type' =>
        cases hvalue
        exact hmem
    | _ => cases hvalue

/-- Without sharing, data of the request cannot make a preparation fail. -/
theorem prepare_unshared_succeeds_iff (hsame : kind.withoutData first = kind.withoutData second)
    (hset : ∀ name, session.contains name = session'.contains name) :
    (∃ result, kind.prepare session false first = .ok result) ↔
      ∃ result, kind.prepare session' false second = .ok result := by
  rw [prepare_succeeds_iff, prepare_succeeds_iff, Preparation.mapA_prepareValue_succeeds_iff,
    Preparation.mapA_prepareValue_succeeds_iff]
  simp [sessionVariable_mem_values_iff, hsame, hset]

end TreeKind

end SelectPlan
