import Mathlib.Data.List.Forall2
import Mathlib.Data.List.Nodup
import Mathlib.Data.List.Perm.Subperm
import SelectPlan.Proofs.Traversal.Visits

/-!
Equality of containers.  It is an equivalence if the equality of items is one.  The items of equal
lists are equal one by one; those of equal maps are so only after they have been put in another
order, because the order of entries is not looked at.
-/

namespace SelectPlan

variable {A B C D K : Type}

/-! Equalities -/

/-- An equality that is an equivalence. -/
abbrev Equating (eq : A → A → Bool) : Prop :=
  Equivalence fun x y => eq x y = true

/-- What an equivalence says of one item.  An equality of trees has it at a tree if that of the
parts has it at the parts. -/
structure EquatesAt (eq : A → A → Bool) (x : A) : Prop where
  refl : eq x x = true
  symm : ∀ {y}, eq x y = true → eq y x = true
  trans : ∀ {y z}, eq x y = true → eq y z = true → eq x z = true

/-- A step without effects makes equal items of equal ones. -/
def Respects (eq : A → A → Bool) (eq' : B → B → Bool) (step : A → Id B) : Prop :=
  ∀ x y, eq x y = true → eq' (Id.run (step x)) (Id.run (step y)) = true

theorem Equating.at {eq : A → A → Bool} (heq : Equating eq) (x : A) : EquatesAt eq x :=
  ⟨heq.refl x, heq.symm, heq.trans⟩

theorem Equating.of_at {eq : A → A → Bool} (heq : ∀ x, EquatesAt eq x) : Equating eq :=
  ⟨fun x => (heq x).refl, (heq _).symm, (heq _).trans⟩

namespace EquatesAt

variable {eq eq' : A → A → Bool}

/-- Equality of one part. -/
theorem on {f : B → A} {y : B} (hpart : EquatesAt eq (f y)) :
    EquatesAt (fun x y => eq (f x) (f y)) y :=
  ⟨hpart.refl, hpart.symm, hpart.trans⟩

/-- Equality of what two equalities compare. -/
theorem and {x : A} (hfirst : EquatesAt eq x) (hsecond : EquatesAt eq' x) :
    EquatesAt (fun x y => eq x y && eq' x y) x where
  refl := by rw [hfirst.refl, hsecond.refl, Bool.and_self]
  symm hsame := by
    rw [Bool.and_eq_true] at hsame ⊢
    exact ⟨hfirst.symm hsame.1, hsecond.symm hsame.2⟩
  trans hsame hother := by
    rw [Bool.and_eq_true] at hsame hother ⊢
    exact ⟨hfirst.trans hsame.1 hother.1, hsecond.trans hsame.2 hother.2⟩

theorem prod {eq : A → A → Bool} {eq' : B → B → Bool} {x : A} {y : B} (hx : EquatesAt eq x)
    (hy : EquatesAt eq' y) :
    EquatesAt (fun p q : A × B => eq p.1 q.1 && eq' p.2 q.2) (x, y) :=
  and (.on (f := Prod.fst) hx) (.on (f := Prod.snd) hy)

/-- What has a form is equal to what has the same form with equal parts, and to nothing else. -/
theorem form {eq : A → A → Bool} {eq' : B → B → Bool} (make : A → B) {parts : A}
    (hparts : EquatesAt eq parts)
    (hform : ∀ x y, eq' (make x) y = true ↔ ∃ x', y = make x' ∧ eq x x' = true) :
    EquatesAt eq' (make parts) where
  refl := (hform parts _).mpr ⟨parts, rfl, hparts.refl⟩
  symm hsame := by
    obtain ⟨parts', rfl, hparts'⟩ := (hform parts _).mp hsame
    exact (hform parts' _).mpr ⟨parts, rfl, hparts.symm hparts'⟩
  trans hsame hother := by
    obtain ⟨parts', rfl, hparts'⟩ := (hform parts _).mp hsame
    obtain ⟨parts'', rfl, hparts''⟩ := (hform parts' _).mp hother
    exact (hform parts _).mpr ⟨parts'', rfl, hparts.trans hparts' hparts''⟩

/-- What has no parts is equal to itself alone. -/
theorem constant {x : A} (hform : ∀ y, eq x y = true ↔ y = x) : EquatesAt eq x where
  refl := (hform x).mpr rfl
  symm hsame := by
    obtain rfl := (hform _).mp hsame
    exact hsame
  trans hsame hother := by
    obtain rfl := (hform _).mp hsame
    exact hother

end EquatesAt

/-- Equal items are equal to the same items. -/
theorem Equating.congr {eq : A → A → Bool} (heq : Equating eq) {x x' y y' : A}
    (hx : eq x x' = true) (hy : eq y y' = true) : eq x y = eq x' y' :=
  Bool.eq_iff_iff.mpr ⟨fun h => heq.trans (heq.symm hx) (heq.trans h hy),
    fun h => heq.trans hx (heq.trans h (heq.symm hy))⟩

theorem Equating.beq [BEq A] [LawfulBEq A] : Equating fun x y : A => x == y where
  refl x := beq_self_eq_true x
  symm hsame := by rwa [beq_iff_eq, eq_comm, ← beq_iff_eq]
  trans hsame hother := by
    rw [beq_iff_eq] at hsame hother ⊢
    exact hsame.trans hother

/-- What holds nothing is equal to itself. -/
theorem Equating.unit : Equating fun _ _ : Unit => true :=
  ⟨fun _ => rfl, fun _ => rfl, fun _ _ => rfl⟩

theorem Equating.on {eq : A → A → Bool} (heq : Equating eq) (f : B → A) :
    Equating fun x y => eq (f x) (f y) :=
  .of_at fun x => (heq.at (f x)).on

theorem Equating.and {eq eq' : A → A → Bool} (heq : Equating eq) (heq' : Equating eq') :
    Equating fun x y => eq x y && eq' x y :=
  .of_at fun x => (heq.at x).and (heq'.at x)

/-! Lists that match in some order -/

/-- The items of two lists are related one by one, once those of the second are put in the right
order. -/
def Paired (rel : A → B → Prop) (xs : List A) (ys : List B) : Prop :=
  ∃ zs, List.Forall₂ rel xs zs ∧ zs.Perm ys

namespace Paired

variable {rel : A → B → Prop} {other : C → D → Prop} {xs xs' : List A} {ys ys' : List B}

theorem of_forall₂ (hitems : List.Forall₂ rel xs ys) : Paired rel xs ys :=
  ⟨ys, hitems, .rfl⟩

theorem nil : Paired rel [] [] :=
  of_forall₂ .nil

theorem single {x : A} {y : B} (hitem : rel x y) : Paired rel [x] [y] :=
  of_forall₂ (.cons hitem .nil)

theorem append (hfirst : Paired rel xs ys) (hsecond : Paired rel xs' ys') :
    Paired rel (xs ++ xs') (ys ++ ys') := by
  obtain ⟨zs, hzs, hperm⟩ := hfirst
  obtain ⟨zs', hzs', hperm'⟩ := hsecond
  exact ⟨zs ++ zs', List.rel_append hzs hzs', hperm.append hperm'⟩

theorem perm_right (hpaired : Paired rel xs ys) (hperm : ys.Perm ys') : Paired rel xs ys' := by
  obtain ⟨zs, hzs, hperm'⟩ := hpaired
  exact ⟨zs, hzs, hperm'.trans hperm⟩

theorem imp {rel' : A → B → Prop} (hpaired : Paired rel xs ys)
    (hitem : ∀ x y, rel x y → rel' x y) : Paired rel' xs ys := by
  obtain ⟨zs, hzs, hperm⟩ := hpaired
  exact ⟨zs, hzs.imp hitem, hperm⟩

theorem flatMap {f : A → List C} {g : B → List D} (hpaired : Paired rel xs ys)
    (hitem : ∀ x y, rel x y → Paired other (f x) (g y)) :
    Paired other (xs.flatMap f) (ys.flatMap g) := by
  obtain ⟨zs, hzs, hperm⟩ := hpaired
  refine perm_right ?_ (hperm.flatMap_right g)
  clear hperm
  induction hzs with
  | nil => exact nil
  | cons hrel _ ih => exact (hitem _ _ hrel).append ih

theorem map {f : A → C} {g : B → D} (hpaired : Paired rel xs ys)
    (hitem : ∀ x y, rel x y → other (f x) (g y)) : Paired other (xs.map f) (ys.map g) := by
  obtain ⟨zs, hzs, hperm⟩ := hpaired
  refine ⟨zs.map g, ?_, hperm.map g⟩
  rw [List.forall₂_map_left_iff, List.forall₂_map_right_iff]
  exact hzs.imp hitem

theorem filterMap {f : A → Option C} {g : B → Option D} (hpaired : Paired rel xs ys)
    (hitem : ∀ x y, rel x y → Option.Rel other (f x) (g y)) :
    Paired other (xs.filterMap f) (ys.filterMap g) := by
  obtain ⟨zs, hzs, hperm⟩ := hpaired
  refine perm_right (of_forall₂ (List.rel_filterMap ?_ hzs)) (hperm.filterMap g)
  exact hitem

/-- Lists that match up to equality are permutations of each other. -/
theorem perm {xs ys : List A} (hpaired : Paired (· = ·) xs ys) : xs.Perm ys := by
  obtain ⟨zs, hzs, hperm⟩ := hpaired
  rw [List.forall₂_eq_eq_eq] at hzs
  exact hzs ▸ hperm

theorem flatMap_perm {f : A → List C} {g : B → List C} (hpaired : Paired rel xs ys)
    (hitem : ∀ x y, rel x y → (f x).Perm (g y)) : (xs.flatMap f).Perm (ys.flatMap g) :=
  perm <| hpaired.flatMap fun x y hrel =>
    ⟨f x, List.forall₂_eq_eq_eq ▸ rfl, hitem x y hrel⟩

/-- Folds over lists that match have the same result if items can be exchanged. -/
theorem foldl_eq {f : C → A → C} {g : C → B → C} (hpaired : Paired rel xs ys)
    (hitem : ∀ state x y, rel x y → f state x = g state y)
    (hexchange : ∀ state x y, g (g state x) y = g (g state y) x) (start : C) :
    xs.foldl f start = ys.foldl g start := by
  obtain ⟨zs, hzs, hperm⟩ := hpaired
  have hcomm : RightCommutative g := ⟨hexchange⟩
  rw [← hperm.foldl_eq start]
  clear hperm
  induction hzs generalizing start with
  | nil => rfl
  | cons hrel _ ih =>
      rw [List.foldl_cons, List.foldl_cons, hitem _ _ _ hrel]
      exact ih _

end Paired

variable {eq : A → A → Bool}

/-! Optional values -/

theorem sameOption_iff {x y : Option A} :
    sameOption eq x y = true ↔ Option.Rel (fun x y => eq x y = true) x y := by
  cases x <;> cases y <;> simp [sameOption]

theorem Equating.option (heq : Equating eq) : Equating (sameOption eq) where
  refl x := by cases x <;> simp [sameOption, heq.refl]
  symm {x y} hsame := by
    rw [sameOption_iff] at hsame ⊢
    cases hsame with
    | none => exact .none
    | some hitem => exact .some (heq.symm hitem)
  trans {x y z} hsame hother := by
    rw [sameOption_iff] at hsame hother ⊢
    cases hsame with
    | none => exact hother
    | some hitem =>
        cases hother with
        | some hitem' => exact .some (heq.trans hitem hitem')

/-! Lists -/

theorem sameList_iff {xs ys : List A} :
    sameList eq xs ys = true ↔ List.Forall₂ (fun x y => eq x y = true) xs ys := by
  induction xs generalizing ys with
  | nil => cases ys <;> simp [sameList]
  | cons x xs ih => cases ys <;> simp [sameList, ih]

theorem sameOption_eq_toList (x y : Option A) :
    sameOption eq x y = sameList eq x.toList y.toList := by
  cases x <;> cases y <;> simp [sameOption, sameList]

/-- Items of equal lists are related one by one if equality of items relates them. -/
theorem forall₂_of_sameList {rel : A → A → Prop} {xs ys : List A}
    (hsame : sameList eq xs ys = true)
    (hitem : ∀ x ∈ xs, ∀ y, eq x y = true → rel x y) : List.Forall₂ rel xs ys := by
  rw [sameList_iff] at hsame
  exact ((List.forall₂_and_left _ _).mpr ⟨hitem, hsame⟩).imp fun _ y h => h.1 y h.2

/-- Items of equal lists are mapped to the same if equality of items keeps it. -/
theorem map_eq_of_sameList {f : A → B} {xs ys : List A} (hsame : sameList eq xs ys = true)
    (hitem : ∀ x y, eq x y = true → f x = f y) : xs.map f = ys.map f := by
  rw [← List.forall₂_eq_eq_eq, List.forall₂_map_left_iff, List.forall₂_map_right_iff]
  exact forall₂_of_sameList hsame fun x _ => hitem x

theorem forall₂_trans {rel : A → B → Prop} {rel' : B → C → Prop} {rel'' : A → C → Prop}
    {xs : List A} {ys : List B} {zs : List C} (hfirst : List.Forall₂ rel xs ys)
    (hsecond : List.Forall₂ rel' ys zs) (htrans : ∀ x y z, rel x y → rel' y z → rel'' x z) :
    List.Forall₂ rel'' xs zs := by
  induction hfirst generalizing zs with
  | nil =>
      cases hsecond
      exact .nil
  | cons hitem _ ih =>
      cases hsecond with
      | cons hitem' hsecond => exact .cons (htrans _ _ _ hitem hitem') (ih hsecond)

theorem EquatesAt.list {xs : List A} (hitems : ∀ x ∈ xs, EquatesAt eq x) :
    EquatesAt (sameList eq) xs where
  refl := sameList_iff.mpr (List.forall₂_same.mpr fun x hx => (hitems x hx).refl)
  symm hsame :=
    sameList_iff.mpr (forall₂_of_sameList hsame fun x hx _ => (hitems x hx).symm).flip
  trans hsame hother := by
    have hpoints := forall₂_of_sameList hsame fun x hx y h => And.intro (hitems x hx) h
    exact sameList_iff.mpr <|
      forall₂_trans hpoints (sameList_iff.mp hother) fun _ _ _ hitem => hitem.1.trans hitem.2

theorem Equating.list (heq : Equating eq) : Equating (sameList eq) :=
  .of_at fun _ => .list fun x _ => heq.at x

/-- What equal lists hold matches if what equal items hold does. -/
theorem Paired.of_sameList {xs ys : List A} {f : A → List C} {rel : C → C → Prop}
    (hsame : sameList eq xs ys = true)
    (hitem : ∀ x ∈ xs, ∀ y, eq x y = true → Paired rel (f x) (f y)) :
    Paired rel (xs.flatMap f) (ys.flatMap f) :=
  (of_forall₂ (forall₂_of_sameList hsame hitem)).flatMap fun _ _ h => h

/-- Items for which a function has a result are related one by one to the results. -/
theorem forall₂_filterMap {rel : A → B → Prop} {f : A → Option B} {xs : List A}
    (hitem : ∀ x ∈ xs, ∃ y, f x = some y ∧ rel x y) : List.Forall₂ rel xs (xs.filterMap f) := by
  induction xs with
  | nil => exact .nil
  | cons x xs ih =>
      rw [List.forall_mem_cons] at hitem
      obtain ⟨⟨y, hy, hrel⟩, hrest⟩ := hitem
      rw [List.filterMap_cons_some hy]
      exact .cons hrel (ih hrest)

theorem sameList_mapA {eq' : B → B → Bool} {step : A → Id B} {xs ys : List A}
    (hsame : sameList eq xs ys = true)
    (hstep : ∀ x ∈ xs, ∀ y, eq x y = true → eq' (Id.run (step x)) (Id.run (step y)) = true) :
    sameList eq' (Id.run (xs.mapA step)) (Id.run (ys.mapA step)) = true := by
  rw [mapA_id, mapA_id, sameList_iff]
  exact List.forall₂_map_left_iff.mpr
    (List.forall₂_map_right_iff.mpr (forall₂_of_sameList hsame hstep))

section

variable {eq' : B → B → Bool} {step : A → Id B} (hstep : Respects eq eq' step)

include hstep

theorem sameOption_mapA : Respects (sameOption eq) (sameOption eq') (Option.mapA step) := by
  intro x y hsame
  rw [sameOption_iff] at hsame ⊢
  cases hsame with
  | none => exact .none
  | some hitem => exact .some (hstep _ _ hitem)

theorem NonEmpty.same_traverse : Respects (same eq) (same eq') (traverse step) := by
  intro xs ys hsame
  rw [same, Bool.and_eq_true] at hsame ⊢
  exact ⟨hstep _ _ hsame.1, sameList_mapA hsame.2 fun x _ => hstep x⟩

end

theorem NonEmpty.same_eq_toList (xs ys : NonEmpty A) :
    xs.same eq ys = sameList eq xs.toList ys.toList :=
  rfl

theorem Equating.nonEmpty (heq : Equating eq) : Equating (NonEmpty.same eq) :=
  heq.list.comap NonEmpty.toList

/-! Maps -/

namespace OrderedMap

variable [DecidableEq K]

theorem mem_keys_iff {map : OrderedMap K A} {key : K} :
    key ∈ map.keys ↔ ∃ value, map.find? key = some value := by
  rw [← Option.isSome_iff_exists, Option.isSome_iff_ne_none, ne_eq, find?,
    Entries.find?_eq_none_iff, not_not]

/-- Maps are the same if they have the same keys in some order and equal values under them. -/
theorem same_iff_keys {xs ys : OrderedMap K A} :
    xs.same eq ys = true ↔ xs.keys.Perm ys.keys ∧
      ∀ key x y, xs.find? key = some x → ys.find? key = some y → eq x y = true := by
  rw [same_iff]
  constructor
  · rintro ⟨hsize, hentries⟩
    have hvalues : ∀ key x, xs.find? key = some x → ∃ y, ys.find? key = some y ∧ eq x y = true :=
      fun key x hx => hentries (key, x) (find?_eq_some_iff.mp hx)
    have hkeys : xs.keys ⊆ ys.keys := by
      intro key hkey
      obtain ⟨x, hx⟩ := mem_keys_iff.mp hkey
      obtain ⟨y, hy, -⟩ := hvalues key x hx
      exact mem_keys_iff.mpr ⟨y, hy⟩
    refine ⟨(xs.nodup_keys.subperm hkeys).perm_of_length_le (Nat.le_of_eq hsize.symm), ?_⟩
    intro key x y hx hy
    obtain ⟨_, hy', heq⟩ := hvalues key x hx
    cases hy.symm.trans hy'
    exact heq
  · rintro ⟨hkeys, hvalues⟩
    refine ⟨hkeys.length_eq, ?_⟩
    rintro ⟨key, x⟩ hentry
    rw [← find?_eq_some_iff] at hentry
    have hkey : key ∈ ys.keys := hkeys.mem_iff.mp (mem_keys_iff.mpr ⟨x, hentry⟩)
    obtain ⟨y, hy⟩ := mem_keys_iff.mp hkey
    exact ⟨y, hy, hvalues key x y hentry hy⟩

/-- The entries of a map are found under its keys, one by one. -/
theorem filterMap_find? (map : OrderedMap K A) :
    map.keys.filterMap (fun key => (map.find? key).map (key, ·)) = map.toList := by
  rw [← map.map_fst_toList, List.filterMap_map]
  have hfound : ∀ entry ∈ map.toList,
      ((fun key => (map.find? key).map (key, ·)) ∘ Prod.fst) entry = some entry := by
    intro entry hentry
    rw [Function.comp_apply, find?_eq_some_iff.mpr hentry]
    rfl
  rw [List.filterMap_congr hfound, List.filterMap_some]

/-- The entries of maps with the same keys in some order match by their keys. -/
theorem paired_of_keys {rel : A → B → Prop} {xs : OrderedMap K A} {ys : OrderedMap K B}
    (hkeys : xs.keys.Perm ys.keys)
    (hvalues : ∀ key x y, xs.find? key = some x → ys.find? key = some y → rel x y) :
    Paired (fun x y => x.1 = y.1 ∧ rel x.2 y.2) xs.toList ys.toList := by
  have hperm := hkeys.filterMap fun key => (ys.find? key).map (key, ·)
  rw [ys.filterMap_find?, ← xs.map_fst_toList, List.filterMap_map] at hperm
  refine ⟨_, forall₂_filterMap ?_, hperm⟩
  rintro ⟨key, x⟩ hentry
  have hx := find?_eq_some_iff.mpr hentry
  obtain ⟨y, hy⟩ := mem_keys_iff.mp (hkeys.mem_iff.mp (mem_keys_iff.mpr ⟨x, hx⟩))
  refine ⟨(key, y), ?_, rfl, hvalues _ _ _ hx hy⟩
  rw [Function.comp_apply, hy]
  rfl

/-- The values of maps with the same keys in some order match by their keys. -/
theorem paired_values_of_keys {rel : A → B → Prop} {xs : OrderedMap K A} {ys : OrderedMap K B}
    (hkeys : xs.keys.Perm ys.keys)
    (hvalues : ∀ key x y, xs.find? key = some x → ys.find? key = some y → rel x y) :
    Paired rel xs.values ys.values := by
  rw [values, values, ← Entries.map_snd_toList, ← Entries.map_snd_toList]
  exact (paired_of_keys hkeys hvalues).map fun _ _ hentry => hentry.2

theorem paired_values_of_same {xs ys : OrderedMap K A} (hsame : xs.same eq ys = true) :
    Paired (fun x y => eq x y = true) xs.values ys.values :=
  paired_values_of_keys (same_iff_keys.mp hsame).1 (same_iff_keys.mp hsame).2

/-- Where equality of values is equality, maps that are the same have the same entries. -/
theorem perm_of_same [BEq A] [LawfulBEq A] {xs ys : OrderedMap K A}
    (hsame : xs.same (· == ·) ys = true) : xs.toList.Perm ys.toList := by
  obtain ⟨hkeys, hvalues⟩ := same_iff_keys.mp hsame
  have hentries := paired_of_keys hkeys fun key x y hx hy => beq_iff_eq.mp (hvalues key x y hx hy)
  exact (hentries.imp fun _ _ hentry => Prod.ext hentry.1 hentry.2).perm

theorem same_map {eq' : B → B → Bool} {f : A → B} {xs ys : OrderedMap K A}
    (hsame : xs.same eq ys = true) (hf : ∀ x y, eq x y = true → eq' (f x) (f y) = true) :
    (xs.map f).same eq' (ys.map f) = true := by
  rw [same_iff_keys] at hsame ⊢
  obtain ⟨hkeys, hvalues⟩ := hsame
  refine ⟨hkeys, fun key x y hx hy => ?_⟩
  rw [find?_map, Option.map_eq_some_iff] at hx hy
  obtain ⟨x, hx, rfl⟩ := hx
  obtain ⟨y, hy, rfl⟩ := hy
  exact hf _ _ (hvalues key x y hx hy)

theorem same_traverse {eq' : B → B → Bool} {step : A → Id B} (hstep : Respects eq eq' step) :
    Respects (same (K := K) eq) (same eq') (traverse step) := by
  intro xs ys hsame
  rw [traverse_id, traverse_id]
  exact same_map hsame hstep

end OrderedMap

theorem Equating.map [DecidableEq K] (heq : Equating eq) :
    Equating fun xs ys : OrderedMap K A => xs.same eq ys where
  refl xs := by
    rw [OrderedMap.same_iff_keys]
    refine ⟨.rfl, fun key x y hx hy => ?_⟩
    cases hx.symm.trans hy
    exact heq.refl x
  symm hsame := by
    rw [OrderedMap.same_iff_keys] at hsame ⊢
    exact ⟨hsame.1.symm, fun key x y hx hy => heq.symm (hsame.2 key y x hy hx)⟩
  trans hsame hother := by
    rw [OrderedMap.same_iff_keys] at hsame hother ⊢
    refine ⟨hsame.1.trans hother.1, fun key x z hx hz => ?_⟩
    obtain ⟨y, hy⟩ := OrderedMap.mem_keys_iff.mp
      (hsame.1.mem_iff.mp (OrderedMap.mem_keys_iff.mpr ⟨x, hx⟩))
    exact heq.trans (hsame.2 key x y hx hy) (hother.2 key y z hy hz)

end SelectPlan
