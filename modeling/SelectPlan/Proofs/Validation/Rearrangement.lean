import SelectPlan.Proofs.Sameness.Selections
import SelectPlan.Proofs.Validation.AfterSplit

/-!
Validation of selects that are the same.  Validation goes through fields and mappings in their
order, and equality does not look at it.  So in two selects that are the same, the same is found,
as often and at the same places, but perhaps in another order.
-/

namespace SelectPlan

variable {b : Backend} {R V : Type} {eqR : R → R → Bool} {eqV : V → V → Bool}

/-! Columns that are joined on -/

namespace Catalog

variable (catalog : Catalog b)

theorem mappingProblems_of_same {relationship other : Relationship}
    (hsame : relationship.same other = true) (parent target : Option (TableName b)) :
    (catalog.mappingProblems relationship.mapping parent target).Perm
      (catalog.mappingProblems other.mapping parent target) := by
  rw [Relationship.same, Bool.and_eq_true, Bool.and_eq_true] at hsame
  exact (OrderedMap.perm_of_same hsame.1.2).flatMap_right _

theorem joinProblems_of_same {relationship other : RemoteRelationship b R}
    (hsame : relationship.same eqR other = true) (table : Option (TableName b)) :
    (catalog.joinProblems relationship table).Perm (catalog.joinProblems other table) := by
  rw [RemoteRelationship.same, Bool.and_eq_true] at hsame
  have hvalues := (OrderedMap.paired_values_of_same hsame.1).imp fun _ _ => beq_iff_eq.mp
  exact hvalues.perm.flatMap_right _

end Catalog

/-! Operators -/

theorem OrderAggregate.operator?_of_same {x y : OrderAggregate b V} (hsame : x.same eqV y = true) :
    x.operator? = y.operator? := by
  revert hsame
  fun_cases same eqV x y <;> grind [operator?]

theorem ComputedOrder.operator?_of_same {x y : ComputedOrder b V} (hsame : x.same eqV y = true) :
    x.operator? = y.operator? := by
  revert hsame
  fun_cases same eqV x y <;> grind [operator?, OrderAggregate.operator?_of_same]

theorem OrderTerm.operators_of_same {x y : OrderTerm b V} (hsame : x.same eqV y = true) :
    x.operators = y.operators := by
  revert hsame
  fun_induction same eqV x y <;>
    grind [operators, OrderAggregate.operator?_of_same, ComputedOrder.operator?_of_same]

theorem SelectArgs.operators_of_same {x y : SelectArgs b V} (hsame : x.same eqV y = true) :
    x.operators = y.operators := by
  rw [operators, operators, List.flatMap_def, List.flatMap_def]
  refine congrArg List.flatten (map_eq_of_sameList (same_orderItems hsame) fun x y hitem => ?_)
  simp only [OrderItem.same, Bool.and_eq_true] at hitem
  exact OrderTerm.operators_of_same hitem.1.1

theorem Aggregate.operator?_of_same {x y : Aggregate b V} (hsame : x.same eqV y = true) :
    x.operator? = y.operator? := by
  revert hsame
  fun_cases same eqV x y <;> grind [operator?]

theorem Aggregates.operators_of_same {xs ys : Aggregates b V}
    (hsame : OrderedMap.same (Aggregate.same eqV) xs ys = true) :
    xs.operators.Perm ys.operators := by
  refine ((OrderedMap.paired_values_of_same hsame).filterMap fun x y haggregate => ?_).perm
  rw [Aggregate.operator?_of_same haggregate]
  cases y.operator? with
  | none => exact .none
  | some name => exact .some rfl

theorem operatorProblems_perm {operators others : List String} (hperm : operators.Perm others) :
    (operatorProblems b operators).Perm (operatorProblems b others) :=
  (hperm.filter _).map _

/-! Pages -/

theorem OrderItem.same_erase {x y : OrderItem b V} (hsame : x.same eqV y = true) :
    x.erase.same (fun _ _ => true) y.erase = true :=
  same_traverse (fun _ _ _ => rfl) x y hsame

namespace Page

variable {page other : Page b V} {declared declared' : List (OrderItem b V)}

theorem follows_of_same {x y : PageBound b V} {s t : OrderItem b Unit}
    (hbound : x.same eqV y = true) (hentry : s.same (fun _ _ => true) t = true) :
    follows x s = follows y t := by
  simp only [PageBound.same, OrderItem.same, Bool.and_eq_true, beq_iff_eq] at hbound hentry
  obtain ⟨-, ⟨hterm, hdirection⟩, hnulls⟩ := hbound
  obtain ⟨⟨hterm', hdirection'⟩, hnulls'⟩ := hentry
  rw [follows, follows, (OrderTerm.equating .unit).congr hterm hterm',
    OrderItem.effectiveDirection, OrderItem.effectiveDirection, OrderItem.effectiveDirection,
    OrderItem.effectiveDirection, hdirection, hdirection', hnulls, hnulls']

theorem misplaced_of_same {bounds bounds' : List (PageBound b V)}
    {entries entries' : List (OrderItem b Unit)}
    (hbounds : List.Forall₂ (fun x y => x.same eqV y = true) bounds bounds')
    (hentries : List.Forall₂ (fun x y => x.same (fun _ _ => true) y = true) entries entries')
    (start : Nat) : misplaced start bounds entries = misplaced start bounds' entries' := by
  induction hbounds generalizing start entries entries' with
  | nil => rfl
  | cons hbound _ ih =>
      cases hentries with
      | nil => rfl
      | cons hentry hrest => rw [misplaced, misplaced, follows_of_same hbound hentry, ih hrest]

theorem ordering_of_same (hpage : page.same eqV other = true)
    (hdeclared : sameList (OrderItem.same eqV) declared declared' = true) :
    List.Forall₂ (fun x y => x.same (fun _ _ => true) y = true) (page.ordering declared)
      (other.ordering declared') := by
  simp only [same, Bool.and_eq_true, beq_iff_eq] at hpage
  rw [ordering, ordering, hpage.1.1]
  refine List.rel_append ?_ (List.forall₂_same.mpr fun x _ => (OrderItem.equating .unit).refl x)
  rw [List.forall₂_map_left_iff, List.forall₂_map_right_iff]
  exact (sameList_iff.mp hdeclared).imp fun _ _ => OrderItem.same_erase

theorem kinds_of_same {bounds bounds' : List (PageBound b V)}
    (hbounds : sameList (PageBound.same eqV) bounds bounds' = true) :
    bounds.map PageBound.kind = bounds'.map PageBound.kind := by
  refine map_eq_of_sameList hbounds fun x y hbound => ?_
  simp only [PageBound.same, Bool.and_eq_true, beq_iff_eq] at hbound
  exact hbound.1.1

theorem problems_of_same (hpage : page.same eqV other = true)
    (hdeclared : sameList (OrderItem.same eqV) declared declared' = true) :
    page.problems declared = other.problems declared' := by
  have hordering := ordering_of_same hpage hdeclared
  simp only [same, Bool.and_eq_true, beq_iff_eq, sameOption_iff] at hpage
  obtain ⟨⟨-, hbounds⟩, hslice⟩ := hpage
  rw [problems, problems, hslice]
  revert hbounds
  cases page.bounds <;> cases other.bounds <;> rintro ⟨hbounds⟩
  · rfl
  · next bounds bounds' =>
    rw [NonEmpty.same_eq_toList] at hbounds
    have hkinds := kinds_of_same hbounds
    have hkind : bounds.head.kind = bounds'.head.kind := (List.cons.inj hkinds).1
    have hany : ∀ kind, bounds.toList.any (fun bound => bound.kind != kind) =
        bounds'.toList.any fun bound => bound.kind != kind := by
      intro kind
      have hmap := congrArg (List.any · (· != kind)) hkinds
      simp only [List.any_map] at hmap
      exact hmap
    rw [sameList_iff] at hbounds
    have hsize : bounds.size = bounds'.size := hbounds.length_eq
    simp only [hkind, hany, hsize, hordering.length_eq, misplaced_of_same hbounds hordering]

end Page

/-! Selections -/

theorem Source.table?_of_same {x y : Source b V} (hsame : x.same eqV y = true) :
    x.table? = y.table? := by
  revert hsame
  fun_cases same eqV x y <;> grind [table?]

theorem Query.table?_of_same {x y : Query b V} (hsame : x.same eqV y = true) :
    x.source.table? = y.source.table? := by
  simp only [same, Bool.and_eq_true] at hsame
  exact Source.table?_of_same hsame.1.1.1.1

namespace Selection

variable (catalog : Catalog b) {vocabulary : Vocabulary} {names others : List FieldName}

theorem Alike.targetTable? {x y : Selection b R V .object} (halike : x.Alike eqR eqV y) :
    x.targetTable? = y.targetTable? := by
  cases halike with
  | object _ _ target _ => exact Source.table?_of_same target

theorem Alike.query {x y : Selection b R V (.select vocabulary)} (halike : x.Alike eqR eqV y) :
    x.query.same eqV y.query = true := by
  cases halike with
  | select _ _ query => exact query

theorem Alike.pageQuery {x y : ConnectionSelect b R V} (halike : x.Alike eqR eqV y) :
    x.pageQuery.same eqV y.pageQuery = true := by
  cases halike with
  | page _ select => exact select.query

/-- The findings of fields are permuted with the fields. -/
theorem findings_fields_perm {xs : Selection b R V (.fields vocabulary names)}
    {ys : Selection b R V (.fields vocabulary others)} (keys : names.Perm others)
    (fields : ∀ name x y, xs.find? name = some x → ys.find? name = some y →
      ∀ owner, (x.findings catalog owner).Perm (y.findings catalog owner))
    (owner : Option (TableName b)) :
    (xs.findings catalog owner).Perm (ys.findings catalog owner) := by
  have hkeys : xs.toMap.keys.Perm ys.toMap.keys := keys
  rw [findings_fields, findings_fields]
  refine (OrderedMap.paired_of_keys hkeys fields).flatMap_perm ?_
  rintro ⟨name, x⟩ ⟨_, y⟩ ⟨rfl, hfindings⟩
  exact (hfindings owner).map _

/-- What is found in a part itself is permuted with it, and so is what is found inside. -/
theorem findings_perm_of_inside {problems others : List (Problem b)}
    {found found' : List (Finding b)} (hproblems : problems.Perm others)
    (hinside : found.Perm found') :
    (problems.map (Finding.mk [] ·) ++ found).Perm (others.map (Finding.mk [] ·) ++ found') :=
  (hproblems.map _).append hinside

/-- In parts that are alike the same is found, in some order. -/
theorem Alike.findings_perm {part : Part} {x y : Selection b R V part} (halike : x.Alike eqR eqV y)
    (owner : Option (TableName b)) :
    (x.findings catalog owner).Perm (y.findings catalog owner) := by
  induction halike generalizing owner with
  | objectRelation relationship select ih =>
      rw [findings, findings, select.targetTable?]
      exact findings_perm_of_inside (catalog.mappingProblems_of_same relationship _ _) (ih owner)
  | simple relationship select ih | aggregate relationship select ih =>
      rw [findings, findings, Query.table?_of_same select.query]
      exact findings_perm_of_inside (catalog.mappingProblems_of_same relationship _ _) (ih owner)
  | connection relationship select ih =>
      rw [findings, findings, Query.table?_of_same select.pageQuery]
      exact findings_perm_of_inside (catalog.mappingProblems_of_same relationship _ _) (ih owner)
  | arrayRelation _ ih | computedField _ ih | table _ ih => exact ih owner
  | remote relationship => exact (catalog.joinProblems_of_same relationship owner).map _
  | aggregates aggregates =>
      exact (operatorProblems_perm (Aggregates.operators_of_same aggregates)).map _
  | nodes keys _ ih | edges keys _ ih | node keys _ ih =>
      exact findings_fields_perm catalog keys ih owner
  | fields _ ih => exact findings_fields_perm catalog .rfl ih owner
  | select keys _ query ih =>
      rw [findings, findings, Query.table?_of_same query]
      simp only [Query.same, Bool.and_eq_true] at query
      rw [SelectArgs.operators_of_same query.1.1.2]
      exact findings_perm_of_inside .rfl (findings_fields_perm catalog keys ih _)
  | object keys _ target _ ih =>
      rw [findings, findings, Source.table?_of_same target]
      exact findings_fields_perm catalog keys ih _
  | page page select ih =>
      have hquery := select.query
      simp only [Query.same, Bool.and_eq_true] at hquery
      rw [findings, findings,
        Page.problems_of_same page (SelectArgs.same_orderItems hquery.1.1.2)]
      exact findings_perm_of_inside .rfl (ih owner)
  | _ => exact .rfl

/-- Validation does not depend on the order in which fields, columns that are joined on and other
entries of maps are written.  Of two selects that are the same either both are valid or neither is,
and the same errors are reported for both, each as often, in some order. -/
theorem validate_ignores_order (catalog : Catalog b) {x y : Select b R V}
    (hsame : x.same eqR eqV y = true) :
    (x.validate catalog = .ok () ↔ y.validate catalog = .ok ()) ∧
      (x.reportedErrors catalog).Perm (y.reportedErrors catalog) := by
  have herrors : (x.reportedErrors catalog).Perm (y.reportedErrors catalog) := by
    rw [reportedErrors_eq, reportedErrors_eq]
    exact ((same_iff_alike.mp hsame).findings_perm catalog none).map Finding.error
  refine ⟨?_, herrors⟩
  rw [validate_eq_ok_iff, validate_eq_ok_iff]
  constructor
  · intro hvalid
    exact List.nil_perm.mp (hvalid ▸ herrors)
  · intro hvalid
    exact List.perm_nil.mp (hvalid ▸ herrors)

/-- Books that lead to other rows, by the columns given for each. -/
def linkedBooks (links : List (String × List String)) :
    Select .citus String (Unprepared .citus) :=
  let link (name : String) (columns : List String) : FieldName × Field .citus String _ :=
    let mapping := columns.map fun column => (⟨column⟩, ⟨"id"⟩)
    (⟨name⟩, .objectRelation { name := ⟨name⟩, mapping := .ofList mapping }
      (.object .nil (.identifier ⟨name⟩) .trivial))
  ofFields (.ofList (links.map fun (name, columns) => link name columns))
    { source := .table (.qualified ⟨"library", "book"⟩ (by decide)), permission := .unrestricted }

theorem validate_ignores_order_linkedBooks :
    let catalog : Catalog .citus := ⟨.ofList [(.qualified ⟨"library", "book"⟩ (by decide), [])]⟩
    let unknown (field column : String) : Error :=
      { reason := .notFound ("library.book." ++ column) "column", path := [field] }
    let books := linkedBooks [("author", ["author_id"]), ("publisher", ["publisher_id", "country"])]
    let reordered :=
      linkedBooks [("publisher", ["country", "publisher_id"]), ("author", ["author_id"])]
    books.same (· == ·) (· == ·) reordered = true ∧
      books.reportedErrors catalog = [unknown "author" "author_id",
        unknown "publisher" "publisher_id", unknown "publisher" "country"] ∧
      (books.reportedErrors catalog).Perm (reordered.reportedErrors catalog) ∧
      reordered.validate catalog ≠ .ok () := by
  intro catalog unknown books reordered
  have hsame : books.same (· == ·) (· == ·) reordered = true := rfl
  have hreported : books.reportedErrors catalog = [unknown "author" "author_id",
      unknown "publisher" "publisher_id", unknown "publisher" "country"] := rfl
  obtain ⟨hvalid, herrors⟩ := validate_ignores_order catalog hsame
  refine ⟨hsame, hreported, herrors, fun hok => ?_⟩
  have hnone := (validate_eq_ok_iff catalog).mp (hvalid.mpr hok)
  cases hreported.symm.trans hnone

end Selection

end SelectPlan
