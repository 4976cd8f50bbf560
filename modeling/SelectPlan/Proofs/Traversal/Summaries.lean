import Mathlib.Data.List.Perm.Basic
import SelectPlan.Proofs.Traversal.Calls
import SelectPlan.Selection.Summary

/-!
Laws of summaries.  Where combination is associative and an empty summary does not show, the summary
of a tree is the homomorphic image of the list of its leaves: a pass that keeps a running summary
ends in it, leaves that are skipped do not count, and what is done to a summary can as well be done
to what is found at each leaf.
-/

namespace SelectPlan

/-- Summaries whose combination is associative, and in which an empty one does not show. -/
class LawfulSummary (M : Type) [Summary M] : Prop where
  combine_assoc (x y z : M) :
    Summary.combine (Summary.combine x y) z = Summary.combine x (Summary.combine y z)
  empty_combine (x : M) : Summary.combine Summary.empty x = x
  combine_empty (x : M) : Summary.combine x Summary.empty = x

export LawfulSummary (combine_assoc empty_combine combine_empty)

instance {M : Type} [Summary M] [LawfulSummary M] :
    Std.Associative (Summary.combine : M → M → M) :=
  ⟨combine_assoc⟩

/-! The summaries there are -/

section

variable {α : Type} [LE α] [LT α] [DecidableEq α] [DecidableLT α] [Std.IsLinearOrder α]
  [Std.LawfulOrderLT α] {a b : SortedSet α} {item : α}

namespace SortedSet

theorem mem_foldl_insert {items : List α} :
    item ∈ items.foldl insert a ↔ item ∈ a ∨ item ∈ items := by
  induction items generalizing a with
  | nil => simp
  | cons first items ih =>
      rw [List.foldl_cons, ih, mem_insert, List.mem_cons, or_comm (a := item = first), or_assoc]

theorem mem_union : item ∈ a.union b ↔ item ∈ a ∨ item ∈ b :=
  mem_foldl_insert

omit [DecidableEq α] [DecidableLT α] in
/-- Sets are equal if they have the same items, since both list them in ascending order. -/
theorem ext_mem (hmem : ∀ item, item ∈ a ↔ item ∈ b) : a = b := by
  have hnodup (set : SortedSet α) : set.items.Nodup :=
    set.ascending.imp fun hlt => by rintro rfl; exact Std.lt_irrefl hlt
  have hperm : a.items.Perm b.items :=
    (List.perm_ext_iff_of_nodup (hnodup a) (hnodup b)).mpr hmem
  have hitems : a.items = b.items := hperm.eq_of_pairwise
    (fun _ _ _ _ hlt hgt => absurd (Std.lt_trans hlt hgt) Std.lt_irrefl) a.ascending b.ascending
  cases a
  cases b
  cases hitems
  rfl

end SortedSet

instance : LawfulSummary (SortedSet α) where
  combine_assoc x y z := by
    apply SortedSet.ext_mem
    intro item
    change item ∈ (x.union y).union z ↔ item ∈ x.union (y.union z)
    simp only [SortedSet.mem_union, or_assoc]
  empty_combine x := by
    apply SortedSet.ext_mem
    intro item
    change item ∈ SortedSet.empty.union x ↔ item ∈ x
    rw [SortedSet.mem_union]
    exact or_iff_right List.not_mem_nil
  combine_empty _ := rfl

end

instance : LawfulSummary Unit where
  combine_assoc _ _ _ := rfl
  empty_combine _ := rfl
  combine_empty _ := rfl

instance : LawfulSummary Nat where
  combine_assoc := Nat.add_assoc
  empty_combine := Nat.zero_add
  combine_empty := Nat.add_zero

instance : LawfulSummary String where
  combine_assoc _ _ _ := String.append_assoc
  empty_combine _ := String.empty_append
  combine_empty _ := String.append_empty

instance {α : Type} : LawfulSummary (List α) where
  combine_assoc := List.append_assoc
  empty_combine := List.nil_append
  combine_empty := List.append_nil

instance {M N : Type} [Summary M] [Summary N] [LawfulSummary M] [LawfulSummary N] :
    LawfulSummary (M × N) where
  combine_assoc _ _ _ := Prod.ext (combine_assoc _ _ _) (combine_assoc _ _ _)
  empty_combine _ := Prod.ext (empty_combine _) (empty_combine _)
  combine_empty _ := Prod.ext (combine_empty _) (combine_empty _)

namespace Summary

variable {A M N : Type} [Summary M] [Summary N]

/-- A function that takes the empty summary to the empty one, and combinations to combinations. -/
structure IsHomomorphism (h : M → N) : Prop where
  map_empty : h empty = empty
  map_combine (x y : M) : h (combine x y) = combine (h x) (h y)

/-- Adds what is found to a running summary. -/
def adding (find : A → M) (a : A) : StateM M Unit :=
  modify (combine · (find a))

/-! Combinations of lists -/

theorem IsHomomorphism.map_ofList {h : M → N} (hh : IsHomomorphism h) (items : List M) :
    h (ofList items) = ofList (items.map h) := by
  rw [ofList, ofList, ← hh.map_empty]
  generalize (empty : M) = summary
  induction items generalizing summary with
  | nil => rfl
  | cons item items ih =>
      rw [List.foldl_cons, ih, hh.map_combine]
      rfl

/-- Pairs are combined side by side. -/
theorem isHomomorphism_fst : IsHomomorphism (Prod.fst : M × N → M) :=
  ⟨rfl, fun _ _ => rfl⟩

theorem isHomomorphism_snd : IsHomomorphism (Prod.snd : M × N → N) :=
  ⟨rfl, fun _ _ => rfl⟩

variable [LawfulSummary M]

theorem foldl_combine (before : M) (items : List M) :
    items.foldl combine before = combine before (ofList items) := by
  calc
    items.foldl combine before = items.foldl combine (combine before empty) := by
      rw [combine_empty]
    _ = combine before (ofList items) := List.foldl_assoc

/-- What comes first can be combined last. -/
theorem ofList_cons (item : M) (items : List M) :
    ofList (item :: items) = combine item (ofList items) := by
  rw [ofList, List.foldl_cons, foldl_combine, empty_combine]

theorem ofList_eq_foldr (items : List M) : ofList items = items.foldr combine empty := by
  induction items with
  | nil => rfl
  | cons item items ih => rw [ofList_cons, ih, List.foldr_cons]

/-- Items at which nothing is found do not count. -/
theorem ofList_filterMap {B : Type} {find : A → M} {part? : A → Option B} {findPart : B → M}
    (hfind : ∀ a, find a = ((part? a).map findPart).getD empty) (items : List A) :
    ofList (items.map find) = ofList ((items.filterMap part?).map findPart) := by
  induction items with
  | nil => rfl
  | cons item items ih =>
      rw [List.map_cons, ofList_cons, ih, hfind, List.filterMap_cons]
      cases part? item with
      | none => exact empty_combine _
      | some part => exact (ofList_cons _ _).symm

omit [LawfulSummary M] in
/-- Items written down one by one are the list of them. -/
theorem ofList_singletons (items : List A) : ofList (items.map fun item => [item]) = items := by
  rw [ofList_eq_foldr]
  induction items with
  | nil => rfl
  | cons item items ih =>
      rw [List.map_cons, List.foldr_cons, ih]
      rfl

end Summary

namespace Leaf

variable {A M R V : Type}

/-- What `f` finds at a remote target and `g` at a value. -/
def elim (f : R → A) (g : V → A) : Leaf R V → A
  | remote target => f target
  | value leaf => g leaf

variable [Summary M] (f : R → M) (g : V → M)

theorem comp_elim {B : Type} (h : A → B) (f : R → A) (g : V → A) :
    h ∘ elim f g = elim (h ∘ f) (h ∘ g) := by
  funext leaf
  cases leaf <;> rfl

/-- A pass over leaves that adds what is found at each of them to a running summary. -/
theorem mapA_adding (leaves : List (Leaf R V)) (before : M) :
    ((leaves.mapA (Leaf.traverse (Summary.adding f) (Summary.adding g))).run before).2 =
      (leaves.map (elim f g)).foldl Summary.combine before := by
  induction leaves generalizing before with
  | nil => rfl
  | cons leaf leaves ih =>
      rw [List.map_cons, List.foldl_cons, ← ih]
      cases leaf <;> rfl

end Leaf

namespace TreeKind

variable {b : Backend} {M N R V : Type} [Summary M] [Summary N] (f : R → M) (g : V → M)
  (kind : TreeKind) (tree : kind.Tree b R V)

theorem summarize_eq_ofList :
    kind.summarize f g tree = Summary.ofList ((kind.leaves tree).map (Leaf.elim f g)) := by
  rw [Summary.ofList, List.foldl_map]
  exact congrArg (fun step => (kind.leaves tree).foldl step Summary.empty)
    (funext fun summary => funext fun leaf => by cases leaf <;> rfl)

theorem map_summarize {h : M → N} (hh : Summary.IsHomomorphism h) :
    h (kind.summarize f g tree) = kind.summarize (h ∘ f) (h ∘ g) tree := by
  rw [summarize_eq_ofList, summarize_eq_ofList, hh.map_ofList, List.map_map, Leaf.comp_elim]

variable [LawfulSummary M]

/-- A pass over a tree that adds what is found at each leaf to a running summary. -/
theorem traverse_adding (before : M) :
    ((kind.traverse (Summary.adding f) (Summary.adding g) tree).run before).2 =
      Summary.combine before (kind.summarize f g tree) := by
  have hleaves := congrArg (fun steps : StateM M (List (Leaf Unit Unit)) => (steps.run before).2)
    (leaves_map_traverse (Summary.adding f) (Summary.adding g) kind tree)
  rw [summarize_eq_ofList, ← Summary.foldl_combine, ← Leaf.mapA_adding]
  exact hleaves

theorem summarizeValues_eq :
    kind.summarizeValues g tree = Summary.ofList ((kind.values tree).map g) := by
  rw [summarizeValues, summarize_eq_ofList, values]
  exact Summary.ofList_filterMap (fun leaf => by cases leaf <;> rfl) _

theorem summarizeRemotes_eq :
    kind.summarizeRemotes f tree = Summary.ofList ((kind.remotes tree).map f) := by
  rw [summarizeRemotes, summarize_eq_ofList, remotes]
  exact Summary.ofList_filterMap (fun leaf => by cases leaf <;> rfl) _

/-- The types that summaries are made of combine lawfully, and pairs of such types do.  Whatever the
lawful type, the summary of a tree is the combination, in reading order, of what is found at its
leaves, and a pass over the tree that adds this to a running summary ends in it.  The summary of the
values alone is that of the list of values, and likewise for the remote targets; the lists
themselves are such summaries.  A summary of pairs is the pair of two summaries, and a homomorphism
takes the summary to the summary of what it makes of each find. -/
theorem summarize_is_homomorphic (b : Backend) (R V : Type) :
    (LawfulSummary Unit ∧ LawfulSummary Nat ∧ LawfulSummary String ∧
      (∀ A : Type, LawfulSummary (List A)) ∧
      (∀ (A : Type) [LE A] [LT A] [DecidableEq A] [DecidableLT A] [Std.IsLinearOrder A]
        [Std.LawfulOrderLT A], LawfulSummary (SortedSet A)) ∧
      ∀ (M N : Type) [Summary M] [Summary N] [LawfulSummary M] [LawfulSummary N],
        LawfulSummary (M × N)) ∧
    ∀ (M : Type) [Summary M] [LawfulSummary M] (f : R → M) (g : V → M) (kind : TreeKind)
      (tree : kind.Tree b R V),
      kind.summarize f g tree =
        ((kind.leaves tree).map (Leaf.elim f g)).foldr Summary.combine Summary.empty ∧
      (∀ before, ((kind.traverse (Summary.adding f) (Summary.adding g) tree).run before).2 =
        Summary.combine before (kind.summarize f g tree)) ∧
      kind.summarizeValues g tree = Summary.ofList ((kind.values tree).map g) ∧
      kind.summarizeRemotes f tree = Summary.ofList ((kind.remotes tree).map f) ∧
      kind.summarizeValues (fun value => [value]) tree = kind.values tree ∧
      kind.summarizeRemotes (fun target => [target]) tree = kind.remotes tree ∧
      (∀ (N : Type) [Summary N] (f' : R → N) (g' : V → N),
        kind.summarize (fun target => (f target, f' target)) (fun value => (g value, g' value))
          tree = (kind.summarize f g tree, kind.summarize f' g' tree)) ∧
      ∀ (N : Type) [Summary N] (h : M → N), Summary.IsHomomorphism h →
        h (kind.summarize f g tree) = kind.summarize (h ∘ f) (h ∘ g) tree := by
  refine ⟨⟨inferInstance, inferInstance, inferInstance, fun _ => inferInstance,
    fun _ => inferInstance, fun _ _ => inferInstance⟩, fun M _ _ f g kind tree => ?_⟩
  refine ⟨?_, traverse_adding f g kind tree, summarizeValues_eq g kind tree,
    summarizeRemotes_eq f kind tree, ?_, ?_, ?_, fun N _ h hh => map_summarize f g kind tree hh⟩
  · rw [summarize_eq_ofList, Summary.ofList_eq_foldr]
  · rw [summarizeValues_eq, Summary.ofList_singletons]
  · rw [summarizeRemotes_eq, Summary.ofList_singletons]
  · intro N _ f' g'
    exact Prod.ext (map_summarize _ _ kind tree Summary.isHomomorphism_fst)
      (map_summarize _ _ kind tree Summary.isHomomorphism_snd)

/-- The leaves of a select of reviewed books, listed and counted. -/
theorem summarize_reviewedBooks_is_homomorphic :
    let kind := TreeKind.part (.select .row)
    let reviewed : Select .postgres String String :=
      .ofFields (.ofList [(⟨"reviews"⟩, .remote { joinFields := ∅, target := "reviews" })])
        { source := .identifier ⟨"book"⟩
          permission := ⟨.onColumn { column := ⟨"published"⟩, type := .enumReference "flag" }
            (.equals "yes"), none⟩ }
    let listed := kind.summarize (fun target => [target]) (fun value => [value]) reviewed
    LawfulSummary (List String) ∧ Summary.IsHomomorphism (List.length : List String → Nat) ∧
      listed = ["reviews", "yes"] ∧
      listed.length = kind.summarize (fun _ => 1) (fun _ => 1) reviewed := by
  intro kind reviewed listed
  have hlength : Summary.IsHomomorphism (List.length : List String → Nat) :=
    ⟨rfl, fun _ _ => List.length_append⟩
  obtain ⟨-, -, -, -, -, -, -, hmap⟩ := (summarize_is_homomorphic .postgres String String).2
    (List String) (fun target => [target]) (fun value => [value]) kind reviewed
  exact ⟨inferInstance, hlength, rfl, hmap Nat List.length hlength⟩

end TreeKind

end SelectPlan
