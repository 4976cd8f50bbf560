import Mathlib.Data.List.Pairwise
import SelectPlan.Proofs.Preparation.Forms
import SelectPlan.Proofs.Preparation.Runs

/-!
Sharing of parameters.  The uses of a request variable can share one parameter, as long as they
agree on its value, and nothing else is lost or merged by it: with the values put back, the
prepared tree is the same as without sharing.
-/

namespace SelectPlan

variable {b : Backend} {R : Type}

/-- A parameter as a tree uses it: where it comes from and what it holds. -/
structure ParameterUse (b : Backend) where
  provenance : Provenance
  value : ColumnValue b

/-- The parameter that a value is. -/
def Unprepared.use? : Unprepared b → Option (ParameterUse b)
  | parameter provenance value => some ⟨provenance, value⟩
  | _ => none

/-- The lowercased name of the session variable that a value reads. -/
def Unprepared.sessionName? : Unprepared b → Option String
  | sessionVariable name _ => some (Text.lowercase name)
  | _ => none

theorem Provenance.variableName?_eq_some_iff {provenance : Provenance} {name : String} :
    provenance.variableName? = some name ↔ provenance = .request (some name) := by
  cases provenance <;> simp [variableName?]

namespace ParameterUse

/-- Both uses are of one variable of the request. -/
def SharesWith (first second : ParameterUse b) : Prop :=
  ∃ name, first.provenance = .request (some name) ∧ second.provenance = .request (some name)

/-- All uses of a variable agree on its value. -/
def Consistent (uses : List (ParameterUse b)) : Prop :=
  ∀ first ∈ uses, ∀ second ∈ uses, first.SharesWith second → first.value = second.value

variable {first second use : ParameterUse b} {uses : List (ParameterUse b)}

theorem sharesWith_iff : first.SharesWith second ↔
    first.provenance = second.provenance ∧ first.provenance.variableName?.isSome := by
  constructor
  · rintro ⟨name, hfirst, hsecond⟩
    exact ⟨hfirst.trans hsecond.symm, by rw [hfirst]; rfl⟩
  · rintro ⟨hsame, hnamed⟩
    obtain ⟨name, hname⟩ := Option.isSome_iff_exists.mp hnamed
    have hfirst := Provenance.variableName?_eq_some_iff.mp hname
    exact ⟨name, hfirst, hsame ▸ hfirst⟩

instance (first second : ParameterUse b) : Decidable (first.SharesWith second) :=
  decidable_of_iff _ sharesWith_iff.symm

theorem sharesWith_comm : first.SharesWith second ↔ second.SharesWith first :=
  exists_congr fun _ => and_comm

/-- The uses that bring a parameter of their own when every variable has one: those that name no
variable, and the first use of each variable. -/
def firstUses : List (ParameterUse b) → List (ParameterUse b)
  | [] => []
  | use :: uses => use :: (firstUses uses).filter fun later => ¬ use.SharesWith later

theorem firstUses_sublist : (uses : List (ParameterUse b)) → (firstUses uses).Sublist uses
  | [] => .slnil
  | _ :: uses => (List.filter_sublist.trans (firstUses_sublist uses)).cons_cons _

/-- A further use brings a parameter unless it shares that of an earlier one. -/
theorem firstUses_concat (uses : List (ParameterUse b)) (use : ParameterUse b) :
    firstUses (uses ++ [use]) =
      firstUses uses ++ if ∃ earlier ∈ uses, earlier.SharesWith use then [] else [use] := by
  induction uses with
  | nil => simp [firstUses]
  | cons first uses ih =>
      rw [List.cons_append, firstUses, ih, firstUses, List.filter_append, List.cons_append]
      congr 2
      by_cases hshares : first.SharesWith use <;>
        by_cases hearlier : ∃ earlier ∈ uses, earlier.SharesWith use <;>
        simp [hshares, hearlier]

end ParameterUse

namespace Preparation

variable {uses : List (ParameterUse b)} {indices : List Nat} {use : ParameterUse b} {index : Nat}
  {before after preparation : Preparation b}

/-- What is said of the uses and of the positions that they are bound to, and is kept by every
binding, is kept by the preparation of every value. -/
theorem uses_step {session : Session} {share : Bool}
    (Invariant : List (ParameterUse b) → List Nat → Preparation b → Prop)
    (hunused : ∀ {uses indices before after}, Invariant uses indices before →
      after.bindings.parameters = before.bindings.parameters → after.bound = before.bound →
      Invariant uses indices after)
    (hbinds : ∀ {uses indices before provenance value index after},
      Invariant uses indices before → Binds share provenance value before index after →
      Invariant (uses ++ [⟨provenance, value⟩]) (indices ++ [index]) after)
    {done : List (Unprepared b)} {results : List (Prepared b)} {value : Unprepared b}
    {result : Prepared b}
    (hdone : Invariant (done.filterMap Unprepared.use?) (results.filterMap Prepared.index?) before)
    (hrun : prepareValue session share value before = (.ok result, after)) :
    Invariant ((done ++ [value]).filterMap Unprepared.use?)
      ((results ++ [result]).filterMap Prepared.index?) after := by
  rw [List.filterMap_append, List.filterMap_append]
  -- a value that is no parameter adds nothing to either list
  have hnothing : ∀ {after : Preparation b}, Invariant (done.filterMap Unprepared.use?)
      (results.filterMap Prepared.index?) after →
      Invariant (done.filterMap Unprepared.use? ++ [])
        (results.filterMap Prepared.index? ++ []) after := by
    intro after hafter
    rwa [List.append_nil, List.append_nil]
  cases value with
  | literal value =>
      cases hrun
      exact hnothing hdone
  | parameter provenance value =>
      obtain ⟨index, hbind, rfl⟩ := prepareValue_parameter_iff.mp hrun
      exact hbinds hdone hbind
  | sessionVariable name type =>
      obtain ⟨-, rfl, rfl⟩ := prepareValue_sessionVariable_iff.mp hrun
      exact hnothing (hunused hdone rfl rfl)
  | session =>
      cases hrun
      exact hnothing hdone

/-- What holds while uses of one variable share a parameter: the uses so far, and the positions
that they were bound to. -/
structure Shared (uses : List (ParameterUse b)) (indices : List Nat)
    (preparation : Preparation b) : Prop where
  length_eq : indices.length = uses.length
  parameters_eq :
    preparation.bindings.parameters = (ParameterUse.firstUses uses).map ParameterUse.value
  holds : ∀ use index, (use, index) ∈ uses.zip indices →
    preparation.bindings.parameter? index = some use.value
  bound_iff : ∀ name index, preparation.bound.lookup name = some index ↔
    ∃ use, (use, index) ∈ uses.zip indices ∧ use.provenance = .request (some name)
  shares : (uses.zip indices).Pairwise fun first second =>
    first.2 = second.2 ↔ first.1.SharesWith second.1

namespace Shared

theorem nil : Shared ([] : List (ParameterUse b)) [] {} where
  length_eq := rfl
  parameters_eq := rfl
  holds use index hmem := by simp at hmem
  bound_iff name index := by simp
  shares := .nil

instance : Std.Symm fun first second : ParameterUse b × Nat =>
    first.2 = second.2 ↔ first.1.SharesWith second.1 where
  symm _ _ hiff := by rw [eq_comm, hiff, ParameterUse.sharesWith_comm]

theorem of_unchanged (hshared : Shared uses indices before)
    (hparameters : after.bindings.parameters = before.bindings.parameters)
    (hbound : after.bound = before.bound) : Shared uses indices after where
  length_eq := hshared.length_eq
  parameters_eq := hparameters.trans hshared.parameters_eq
  holds use index hmem :=
    Bindings.parameter?_of_grown (hparameters ▸ List.prefix_rfl) (hshared.holds use index hmem)
  bound_iff name index := hbound ▸ hshared.bound_iff name index
  shares := hshared.shares

theorem exists_index (hshared : Shared uses indices preparation) (hmem : use ∈ uses) :
    ∃ index, (use, index) ∈ uses.zip indices := by
  have hmap := List.map_fst_zip (Nat.le_of_eq hshared.length_eq.symm)
  rw [← hmap, List.mem_map] at hmem
  obtain ⟨⟨use, index⟩, hpair, rfl⟩ := hmem
  exact ⟨index, hpair⟩

/-- A variable is bound as soon as it has been used. -/
theorem bound_of_mem (hshared : Shared uses indices preparation) {name : String}
    (hmem : use ∈ uses) (hname : use.provenance = .request (some name)) :
    ∃ index, preparation.bound.lookup name = some index ∧
      preparation.bindings.parameter? index = some use.value := by
  obtain ⟨index, hpair⟩ := hshared.exists_index hmem
  exact ⟨index, (hshared.bound_iff name index).mpr ⟨use, hpair, hname⟩, hshared.holds _ _ hpair⟩

/-- No use agrees on its variable with another one without sharing its parameter. -/
theorem consistent (hshared : Shared uses indices preparation) : ParameterUse.Consistent uses := by
  rintro first hfirst second hsecond ⟨name, hname, hother⟩
  obtain ⟨index, hlookup, hfound⟩ := hshared.bound_of_mem hfirst hname
  obtain ⟨_, hlookup', hfound'⟩ := hshared.bound_of_mem hsecond hother
  cases hlookup.symm.trans hlookup'
  exact Option.some.inj (hfound.symm.trans hfound')

/-- A use that agrees with those before it agrees with what its variable is bound to. -/
theorem agrees (hshared : Shared uses indices preparation) (use : ParameterUse b)
    {later : List (ParameterUse b)} {name : String}
    (hconsistent : ParameterUse.Consistent (uses ++ use :: later))
    (hname : use.provenance = .request (some name))
    (hlookup : preparation.bound.lookup name = some index) :
    preparation.bindings.parameter? index = some use.value := by
  obtain ⟨owner, howner, hsame⟩ := (hshared.bound_iff name index).mp hlookup
  have hearlier : owner ∈ uses ++ use :: later :=
    List.mem_append_left _ (List.of_mem_zip howner).1
  have hnext : use ∈ uses ++ use :: later := List.mem_append_right _ List.mem_cons_self
  rw [hshared.holds owner index howner, hconsistent owner hearlier use hnext ⟨name, hsame, hname⟩]

theorem zip_concat (hshared : Shared uses indices preparation) (use : ParameterUse b)
    (index : Nat) :
    (uses ++ [use]).zip (indices ++ [index]) = uses.zip indices ++ [(use, index)] :=
  List.zip_append hshared.length_eq.symm

/-- A use that shares with none before it gets a parameter of its own. -/
theorem added (hshared : Shared uses indices before) (use : ParameterUse b)
    (hfresh : ∀ earlier ∈ uses, ¬ earlier.SharesWith use)
    (hbindings : after.bindings = { before.bindings with
      parameters := before.bindings.parameters ++ [use.value] })
    (hbound : ∀ name index, after.bound.lookup name = some index ↔
      before.bound.lookup name = some index ∨
        index = before.bindings.parameters.length + 1 ∧ use.provenance = .request (some name)) :
    Shared (uses ++ [use]) (indices ++ [before.bindings.parameters.length + 1]) after where
  length_eq := by simp [hshared.length_eq]
  parameters_eq := by
    have hnone : ¬ ∃ earlier ∈ uses, earlier.SharesWith use := by simpa using hfresh
    rw [ParameterUse.firstUses_concat, if_neg hnone, hbindings, hshared.parameters_eq,
      List.map_append]
    rfl
  holds other index hmem := by
    rw [hshared.zip_concat, List.mem_append, List.mem_singleton] at hmem
    rcases hmem with hmem | hmem
    · refine Bindings.parameter?_of_grown ?_ (hshared.holds other index hmem)
      rw [hbindings]
      exact List.prefix_append _ _
    · cases hmem
      rw [Bindings.parameter?_succ, hbindings, List.getElem?_concat_length]
  bound_iff name index := by
    rw [hbound, hshared.bound_iff, hshared.zip_concat]
    simp only [List.mem_append, List.mem_singleton, or_and_right, exists_or, Prod.mk.injEq]
    refine or_congr_right ⟨?_, ?_⟩
    · rintro ⟨rfl, hname⟩
      exact ⟨use, ⟨rfl, rfl⟩, hname⟩
    · rintro ⟨_, ⟨rfl, rfl⟩, hname⟩
      exact ⟨rfl, hname⟩
  shares := by
    rw [hshared.zip_concat, List.pairwise_append]
    refine ⟨hshared.shares, List.pairwise_singleton _ _, ?_⟩
    intro earlier hmem last hlast
    rw [List.mem_singleton] at hlast
    subst hlast
    obtain ⟨other, index⟩ := earlier
    obtain ⟨-, hrange⟩ := Bindings.parameter?_range (hshared.holds other index hmem)
    refine iff_of_false ?_ (hfresh other (List.of_mem_zip hmem).1)
    change index ≠ before.bindings.parameters.length + 1
    omega

/-- A use of a variable that is bound to the same value shares its parameter. -/
theorem reused (hshared : Shared uses indices before) {name : String}
    (hname : use.provenance = .request (some name))
    (hlookup : before.bound.lookup name = some index)
    (hfound : before.bindings.parameter? index = some use.value)
    (hbindings : after.bindings = before.bindings) (hbound : after.bound = before.bound) :
    Shared (uses ++ [use]) (indices ++ [index]) after := by
  obtain ⟨owner, howner, hsame⟩ := (hshared.bound_iff name index).mp hlookup
  exact {
    length_eq := by simp [hshared.length_eq]
    parameters_eq := by
      have hsome : ∃ earlier ∈ uses, earlier.SharesWith use :=
        ⟨owner, (List.of_mem_zip howner).1, name, hsame, hname⟩
      rw [ParameterUse.firstUses_concat, if_pos hsome, hbindings, hshared.parameters_eq,
        List.append_nil]
    holds := by
      intro other position hmem
      rw [hshared.zip_concat, List.mem_append, List.mem_singleton] at hmem
      rw [hbindings]
      rcases hmem with hmem | hmem
      · exact hshared.holds other position hmem
      · cases hmem
        exact hfound
    bound_iff := by
      intro other position
      rw [hbound, hshared.bound_iff, hshared.zip_concat]
      simp only [List.mem_append, List.mem_singleton, or_and_right, exists_or, Prod.mk.injEq]
      refine ⟨.inl, ?_⟩
      rintro (hearlier | ⟨_, ⟨rfl, rfl⟩, hother⟩)
      · exact hearlier
      · cases hname.symm.trans hother
        exact ⟨owner, howner, hsame⟩
    shares := by
      rw [hshared.zip_concat, List.pairwise_append]
      refine ⟨hshared.shares, List.pairwise_singleton _ _, ?_⟩
      intro earlier hmem last hlast
      rw [List.mem_singleton] at hlast
      subst hlast
      constructor
      · intro hindex
        by_cases hsecond : earlier = (owner, index)
        · rw [hsecond]
          exact ⟨name, hsame, hname⟩
        · obtain ⟨other, hearlier, hother⟩ := (hshared.shares.forall hmem howner hsecond).mp hindex
          cases hsame.symm.trans hother
          exact ⟨name, hearlier, hname⟩
      · rintro ⟨other, hearlier, hother⟩
        cases hname.symm.trans hother
        have hother := (hshared.bound_iff name earlier.2).mpr ⟨earlier.1, hmem, hearlier⟩
        exact Option.some.inj (hother.symm.trans hlookup) }

theorem of_binds {provenance : Provenance} {value : ColumnValue b}
    (hshared : Shared uses indices before)
    (hbinds : Binds true provenance value before index after) :
    Shared (uses ++ [⟨provenance, value⟩]) (indices ++ [index]) after := by
  cases hbinds with
  | alone hname =>
      have hunnamed : ∀ name, provenance ≠ .request (some name) := by
        rintro name rfl
        cases hname rfl
      refine hshared.added ⟨provenance, value⟩ ?_ rfl ?_
      · rintro earlier - ⟨name, -, hsame⟩
        exact hunnamed name hsame
      · intro name index
        simp [hunnamed]
  | @first name _ hname hfresh =>
      rw [Provenance.variableName?_eq_some_iff] at hname
      refine hshared.added ⟨provenance, value⟩ ?_ rfl ?_
      · rintro earlier hmem ⟨other, hother, hsame⟩
        cases hname.symm.trans hsame
        obtain ⟨index, hlookup, -⟩ := hshared.bound_of_mem hmem hother
        cases hfresh.symm.trans hlookup
      · intro other index
        by_cases hother : other = name
        · subst hother
          simp [List.lookup_append, hfresh, hname, eq_comm]
        · have hbeq : (other == name) = false := beq_false_of_ne hother
          simp [List.lookup_append, List.lookup_cons, hbeq, hname, Ne.symm hother]
  | again _ hname hlookup hfound =>
      rw [Provenance.variableName?_eq_some_iff] at hname
      exact hshared.reused hname hlookup hfound rfl rfl

end Shared

/-- What holds while no parameter is shared: every use has the next position. -/
structure Numbered (uses : List (ParameterUse b)) (indices : List Nat)
    (preparation : Preparation b) : Prop where
  indices_eq : indices = List.range' 1 uses.length
  parameters_eq : preparation.bindings.parameters = uses.map ParameterUse.value

namespace Numbered

theorem of_unchanged (hnumbered : Numbered uses indices before)
    (hparameters : after.bindings.parameters = before.bindings.parameters) :
    Numbered uses indices after where
  indices_eq := hnumbered.indices_eq
  parameters_eq := hparameters.trans hnumbered.parameters_eq

theorem of_binds {provenance : Provenance} {value : ColumnValue b}
    (hnumbered : Numbered uses indices before)
    (hbinds : Binds false provenance value before index after) :
    Numbered (uses ++ [⟨provenance, value⟩]) (indices ++ [index]) after := by
  cases hbinds with
  | alone hname =>
      have hcount : before.bindings.parameters.length = uses.length := by
        rw [hnumbered.parameters_eq, List.length_map]
      constructor
      · rw [hnumbered.indices_eq, List.length_append, List.length_singleton, List.range'_1_concat,
          hcount, Nat.add_comm 1]
      · rw [List.map_append, hnumbered.parameters_eq]
        rfl
  | first hshare _ _ => cases hshare
  | again hshare _ _ _ => cases hshare

end Numbered

theorem eraseDups_concat (names : List String) (name : String) :
    (names ++ [name]).eraseDups =
      if names.contains name then names.eraseDups else names.eraseDups ++ [name] := by
  rw [List.eraseDups_append]
  by_cases hmem : name ∈ names <;> simp [List.removeAll, List.filter, hmem, List.eraseDups_cons]

/-- The session variables of a preparation are those that have been read, in order of first use. -/
theorem sessionVariables_step {session : Session} {share : Bool} {done : List (Unprepared b)}
    {value : Unprepared b} {result : Prepared b}
    (hdone : before.bindings.sessionVariables = (done.filterMap Unprepared.sessionName?).eraseDups)
    (hrun : prepareValue session share value before = (.ok result, after)) :
    after.bindings.sessionVariables =
      ((done ++ [value]).filterMap Unprepared.sessionName?).eraseDups := by
  rw [List.filterMap_append]
  have hnothing : (done.filterMap Unprepared.sessionName? ++ []).eraseDups =
      (done.filterMap Unprepared.sessionName?).eraseDups := by rw [List.append_nil]
  cases value with
  | literal value =>
      cases hrun
      exact hdone.trans hnothing.symm
  | parameter provenance value =>
      obtain ⟨index, hbinds, -⟩ := prepareValue_parameter_iff.mp hrun
      cases hbinds <;> exact hdone.trans hnothing.symm
  | sessionVariable name type =>
      obtain ⟨-, -, rfl⟩ := prepareValue_sessionVariable_iff.mp hrun
      change (if _ then _ else _) = (_ ++ [Text.lowercase name]).eraseDups
      rw [eraseDups_concat, hdone]
      simp only [List.contains_iff_mem, List.mem_eraseDups]
  | session =>
      cases hrun
      exact hdone.trans hnothing.symm

/-- A parameter can be bound unless its variable is bound to another value. -/
theorem exists_binds {share : Bool} {provenance : Provenance} {value : ColumnValue b}
    (hagree : share = true → ∀ name index, provenance.variableName? = some name →
      before.bound.lookup name = some index →
      before.bindings.parameter? index = some value) :
    ∃ index after, Binds share provenance value before index after := by
  cases share with
  | false => exact ⟨_, _, .alone (nomatch ·)⟩
  | true =>
      cases hname : provenance.variableName? with
      | none => exact ⟨_, _, .alone fun _ => hname⟩
      | some name =>
          cases hlookup : before.bound.lookup name with
          | none => exact ⟨_, _, .first rfl hname hlookup⟩
          | some index =>
              exact ⟨_, _, .again rfl hname hlookup (hagree rfl name index hname hlookup)⟩

/-- Values can be prepared exactly if the session has all variables that are read and, where uses
share their parameters, all uses of a variable agree on its value. -/
theorem mapA_prepareValue_succeeds_iff (session : Session) (share : Bool)
    (values : List (Unprepared b)) :
    (∃ results finish, values.mapA (prepareValue session share) {} = (.ok results, finish)) ↔
      (∀ name type, .sessionVariable name type ∈ values → session.contains name = true) ∧
        (share = true → ParameterUse.Consistent (values.filterMap Unprepared.use?)) := by
  let Invariant (done : List (Unprepared b)) (results : List (Prepared b))
      (preparation : Preparation b) : Prop :=
    share = true →
      Shared (done.filterMap Unprepared.use?) (results.filterMap Prepared.index?) preparation
  have hstep : ∀ {done value results result before after}, Invariant done results before →
      prepareValue session share value before = (.ok result, after) →
      Invariant (done ++ [value]) (results ++ [result]) after := by
    rintro done value results result before after hdone hrun rfl
    exact uses_step Shared Shared.of_unchanged Shared.of_binds (hdone rfl) hrun
  have hstart : Invariant [] [] {} := fun _ => .nil
  constructor
  · rintro ⟨results, finish, hrun⟩
    refine ⟨fun name type hmem => ?_, fun hshare => ?_⟩
    · obtain ⟨before, result, after, hread⟩ := Steps.mapA_ok_mem hrun hmem
      exact (prepareValue_sessionVariable_iff.mp hread).1
    · have hend := Steps.mapA_invariant_run Invariant hstep hstart hrun
      exact (hend hshare).consistent
  · rintro ⟨hset, hconsistent⟩
    refine Steps.mapA_succeeds Invariant hstep ?_ hstart
    intro prior value rest results before hsplit hprior
    rw [List.nil_append] at hsplit
    cases value with
    | literal value => exact ⟨_, _, rfl⟩
    | session => exact ⟨_, _, rfl⟩
    | sessionVariable name type =>
        have hmem : .sessionVariable name type ∈ values := by simp [← hsplit]
        exact ⟨_, _, prepareValue_sessionVariable_iff.mpr ⟨hset name type hmem, rfl, rfl⟩⟩
    | parameter provenance value =>
        have hagree : share = true → ∀ name index, provenance.variableName? = some name →
            before.bound.lookup name = some index →
            before.bindings.parameter? index = some value := by
          intro hshare name index hname
          have huses := hconsistent hshare
          rw [← hsplit, List.filterMap_append] at huses
          exact (hprior hshare).agrees ⟨provenance, value⟩ huses
            (Provenance.variableName?_eq_some_iff.mp hname)
        obtain ⟨index, after, hbinds⟩ := exists_binds hagree
        exact ⟨.param index, after, prepareValue_parameter_iff.mpr ⟨index, hbinds, rfl⟩⟩

end Preparation

/-! Trees -/

namespace TreeKind

variable {session : Session} {share : Bool} {kind : TreeKind} {tree : kind.Tree b R (Unprepared b)}
  {prepared : kind.Tree b R (Prepared b)} {bindings : Bindings b}

/-- The parameters that a tree uses, in reading order. -/
def uses (kind : TreeKind) (tree : kind.Tree b R (Unprepared b)) : List (ParameterUse b) :=
  (kind.values tree).filterMap Unprepared.use?

/-- The positions of parameters that a prepared tree refers to, in reading order. -/
def indices (kind : TreeKind) (prepared : kind.Tree b R (Prepared b)) : List Nat :=
  (kind.values prepared).filterMap Prepared.index?

/-- What is kept by every binding holds at the end of a preparation. -/
theorem prepare_uses (Invariant : List (ParameterUse b) → List Nat → Preparation b → Prop)
    (hunused : ∀ {uses indices before after}, Invariant uses indices before →
      after.bindings.parameters = before.bindings.parameters → after.bound = before.bound →
      Invariant uses indices after)
    (hbinds : ∀ {uses indices before provenance value index after},
      Invariant uses indices before → Preparation.Binds share provenance value before index after →
      Invariant (uses ++ [⟨provenance, value⟩]) (indices ++ [index]) after)
    (hstart : Invariant [] [] {})
    (hprepare : kind.prepare session share tree = .ok (prepared, bindings)) :
    ∃ preparation, preparation.bindings = bindings ∧
      Invariant (kind.uses tree) (kind.indices prepared) preparation := by
  obtain ⟨preparation, hrun, hbindings⟩ := prepare_values hprepare
  let OfValues (done : List (Unprepared b)) (results : List (Prepared b)) : Preparation b → Prop :=
    Invariant (done.filterMap Unprepared.use?) (results.filterMap Prepared.index?)
  exact ⟨preparation, hbindings,
    Steps.mapA_invariant_run OfValues (Preparation.uses_step Invariant hunused hbinds) hstart hrun⟩

/-- A preparation reads the same session variables whether or not it shares parameters. -/
theorem prepare_sessionVariables
    (hprepare : kind.prepare session share tree = .ok (prepared, bindings)) :
    bindings.sessionVariables =
      ((kind.values tree).filterMap Unprepared.sessionName?).eraseDups := by
  obtain ⟨preparation, hrun, rfl⟩ := prepare_values hprepare
  let Names (done : List (Unprepared b)) (_ : List (Prepared b)) (preparation : Preparation b) :
      Prop := preparation.bindings.sessionVariables =
    (done.filterMap Unprepared.sessionName?).eraseDups
  have hstart : Names [] [] {} := rfl
  exact Steps.mapA_invariant_run Names Preparation.sessionVariables_step hstart hrun

theorem prepare_shared_succeeds_iff :
    (∃ result, kind.prepare session true tree = .ok result) ↔
      (∃ result, kind.prepare session false tree = .ok result) ∧
        ParameterUse.Consistent (kind.uses tree) := by
  rw [prepare_succeeds_iff, prepare_succeeds_iff, Preparation.mapA_prepareValue_succeeds_iff,
    Preparation.mapA_prepareValue_succeeds_iff]
  simp [uses]

open ParameterUse (firstUses) in
/-- Sharing parameters is exact and harmless.  It fails only where a preparation fails anyway, or
where two uses of a variable disagree on its value.  If it does not fail, the tree is the same as
without sharing once the parameters are put back, and the same session variables are read.  What is
left of the parameters are those that name no variable and the first of each variable; two uses
have the same position exactly if they are of one variable of the request.  Without sharing, the
parameters are numbered in reading order. -/
theorem prepare_shares_exactly_variables (session : Session) (kind : TreeKind)
    (tree : kind.Tree b R (Unprepared b)) :
    ((∃ result, kind.prepare session true tree = .ok result) ↔
      (∃ result, kind.prepare session false tree = .ok result) ∧
        ParameterUse.Consistent (kind.uses tree)) ∧
    (∀ shared few, kind.prepare session true tree = .ok (shared, few) →
      ∃ separate all, kind.prepare session false tree = .ok (separate, all) ∧
        kind.resolved few shared = kind.resolved all separate ∧
        kind.resolved all separate =
          kind.bimap id (Unprepared.form fun _ value => some value) tree ∧
        few.sessionVariables = all.sessionVariables ∧
        all.parameters = (kind.uses tree).map ParameterUse.value ∧
        few.parameters = (firstUses (kind.uses tree)).map ParameterUse.value ∧
        (firstUses (kind.uses tree)).Sublist (kind.uses tree) ∧
        (kind.indices shared).length = (kind.uses tree).length ∧
        ((kind.uses tree).zip (kind.indices shared)).Pairwise fun first second =>
          first.2 = second.2 ↔ first.1.SharesWith second.1) ∧
    ∀ separate all, kind.prepare session false tree = .ok (separate, all) →
      kind.indices separate = List.range' 1 (kind.uses tree).length := by
  have hnumbered : ∀ {separate all}, kind.prepare session false tree = .ok (separate, all) →
      ∃ preparation, preparation.bindings = all ∧
        Preparation.Numbered (kind.uses tree) (kind.indices separate) preparation := fun hprepare =>
    prepare_uses Preparation.Numbered (fun hdone hparameters _ => hdone.of_unchanged hparameters)
      Preparation.Numbered.of_binds ⟨rfl, rfl⟩ hprepare
  refine ⟨prepare_shared_succeeds_iff, ?_, ?_⟩
  · intro shared few hshared
    obtain ⟨⟨⟨separate, all⟩, hseparate⟩, -⟩ := prepare_shared_succeeds_iff.mp ⟨_, hshared⟩
    obtain ⟨_, rfl, hfinish⟩ := prepare_uses Preparation.Shared Preparation.Shared.of_unchanged
      Preparation.Shared.of_binds .nil hshared
    obtain ⟨_, rfl, hnumbers⟩ := hnumbered hseparate
    have hresolved := prepare_resolved hseparate
    have hnames := (prepare_sessionVariables hshared).trans
      (prepare_sessionVariables hseparate).symm
    exact ⟨separate, _, hseparate, (prepare_resolved hshared).trans hresolved.symm, hresolved,
      hnames, hnumbers.parameters_eq, hfinish.parameters_eq, ParameterUse.firstUses_sublist _,
      hfinish.length_eq, hfinish.shares⟩
  · intro separate all hseparate
    obtain ⟨_, -, hnumbers⟩ := hnumbered hseparate
    exact hnumbers.indices_eq

theorem prepare_sharedArguments_shares_variables :
    ∃ (shared separate : List (Argument (Prepared .mySql))) (few all : Bindings .mySql),
      (list argument).prepare (R := String) .empty true sharedArguments = .ok (shared, few) ∧
      (list argument).prepare (R := String) .empty false sharedArguments = .ok (separate, all) ∧
      (list argument).values (b := .mySql) (R := String) shared =
        [.param 1, .param 2, .session, .param 1] ∧
      (list argument).values (b := .mySql) (R := String) separate =
        [.param 1, .param 2, .session, .param 3] ∧
      (few.parameters.length = 2 ∧ all.parameters.length = 3) ∧
      (list argument).resolved (R := String) few shared =
        (list argument).resolved (R := String) all separate := by
  have hshared : (list argument).prepare (R := String) .empty true sharedArguments =
      .ok (_, _) := rfl
  have hseparate : (list argument).prepare (R := String) .empty false sharedArguments =
      .ok (_, _) := rfl
  obtain ⟨separate, all, hprepare, hresolved, -⟩ :=
    (prepare_shares_exactly_variables .empty (list argument) sharedArguments).2.1 _ _ hshared
  cases hseparate.symm.trans hprepare
  exact ⟨_, _, _, _, hshared, hseparate, rfl, rfl, ⟨rfl, rfl⟩, hresolved⟩

end TreeKind

end SelectPlan
