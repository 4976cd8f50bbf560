import SelectPlan.Proofs.Planning.Runs
import SelectPlan.Proofs.Preparation.Steps
import SelectPlan.Proofs.RemoteJoins.Reports
import SelectPlan.Proofs.Validation.Shape

/-!
Validation before and after the split.  A problem with a remote relationship goes away with it, and
every other problem stays: the fields that are added have none, and no other field of the response
is at the place of a remote relationship.
-/

namespace SelectPlan

variable {b : Backend} {R V : Type}

/-! The place of a finding -/

theorem Finding.path_error (finding : Finding b) :
    finding.error.path = finding.path.map Name.text := by
  have hproblem : finding.problem.error.path = [] := by
    cases finding.problem <;> rfl
  rw [error, hproblem, List.append_nil]

namespace Selection

variable (catalog : Catalog b) {vocabulary : Vocabulary} {names : List FieldName}

/-- The places of the remote relationships of a part of a selection. -/
def remotePaths {part : Part} (tree : Selection b R V part) : List (List FieldName) :=
  tree.remoteTargets.map Prod.fst

theorem remotePaths_cons (name : FieldName) (fresh : name ∉ names)
    (field : Selection b R V (.field vocabulary))
    (rest : Selection b R V (.fields vocabulary names)) :
    (cons name fresh field rest).remotePaths =
      field.remotePaths.map (name :: ·) ++ rest.remotePaths := by
  rw [remotePaths, remoteTargets, List.map_append, List.map_map, remotePaths, List.map_map]
  rfl

/-- A remote relationship below several fields is below one of them. -/
theorem remotePaths_begin : {names : List FieldName} →
    (fields : Selection b R V (.fields vocabulary names)) → ∀ path ∈ fields.remotePaths,
    ∃ name ∈ names, ∃ below, path = name :: below
  | _, cons name fresh field rest, path, hpath => by
      rw [remotePaths_cons, List.mem_append] at hpath
      rcases hpath with hfield | hrest
      · obtain ⟨below, -, rfl⟩ := List.mem_map.mp hfield
        exact ⟨name, List.mem_cons_self, below, rfl⟩
      · obtain ⟨other, hother, hbelow⟩ := remotePaths_begin rest path hrest
        exact ⟨other, List.mem_cons_of_mem name hother, hbelow⟩

/-- So is whatever is found among them. -/
theorem findings_begin {owner : Option (TableName b)} : {names : List FieldName} →
    (fields : Selection b R V (.fields vocabulary names)) →
    ∀ finding ∈ fields.findings catalog owner, ∃ name ∈ names, ∃ below,
      finding.path = name :: below
  | _, cons name fresh field rest, finding, hfinding => by
      rw [findings, List.mem_append] at hfinding
      rcases hfinding with hfield | hrest
      · obtain ⟨inner, -, rfl⟩ := List.mem_map.mp hfield
        exact ⟨name, List.mem_cons_self, inner.path, rfl⟩
      · obtain ⟨other, hother, hbelow⟩ := findings_begin rest finding hrest
        exact ⟨other, List.mem_cons_of_mem name hother, hbelow⟩

/-- Only a field of a row can be a remote relationship itself. -/
theorem part_of_nil_mem_remotePaths {part : Part} {tree : Selection b R V part}
    (hnil : [] ∈ tree.remotePaths) : part = .field .row := by
  induction tree with
  | cons name fresh field rest ihField ihRest =>
      obtain ⟨_, -, _, hbegin⟩ := remotePaths_begin _ _ hnil
      cases hbegin
  | nodes enabled fields ih => cases ih hnil
  | edges fields ih => cases ih hnil
  | node fields ih => cases ih hnil
  | select fields query ih => cases ih hnil
  | object fields target filter ih => cases ih hnil
  | simple relationship inner ih => cases ih hnil
  | aggregate relationship inner ih => cases ih hnil
  | connection relationship inner ih => cases ih hnil
  | page enabled window inner ih => cases ih hnil
  | table shape inner ih => cases ih hnil
  | objectRelation relationship inner ih => rfl
  | arrayRelation inner ih => rfl
  | computedField enabled name inner ih => rfl
  | remote relationship => rfl
  | _ => cases hnil

/-! Fields that are added -/

theorem findings_fields {owner : Option (TableName b)} : {names : List FieldName} →
    (fields : Selection b R V (.fields vocabulary names)) →
    fields.findings catalog owner = fields.toMap.toList.flatMap fun entry =>
      (entry.2.findings catalog owner).map (Finding.under entry.1)
  | _, nil => rfl
  | _, cons name fresh field rest => by
      rw [findings, findings_fields rest]
      rfl

theorem findings_phantom (value : JoinField b) (owner : Option (TableName b)) :
    (value.phantom : Field b Empty V).findings catalog owner = [] := by
  cases value <;> rfl

/-- Nothing is found in the fields that are added to a level. -/
theorem findings_settled (fields : Selection b R V (.fields .row names))
    (owner : Option (TableName b)) :
    (ofEntries (settle fields fields.stripped).2.fields.entries).findings catalog owner =
      fields.stripped.findings catalog owner := by
  obtain ⟨added, hfields, -⟩ := settle_reported fields
  have hadded : (added.map (Prod.map id (JoinField.phantom (V := V)))).flatMap
      (fun entry => (entry.2.findings catalog owner).map (Finding.under entry.1)) = [] := by
    rw [List.flatMap_map]
    apply List.flatMap_eq_nil_iff.mpr
    intro entry _
    exact congrArg (List.map _) (findings_phantom catalog entry.2 owner)
  rw [findings_fields, findings_fields, toMap_ofEntries, hfields, List.flatMap_append, hadded,
    List.append_nil]

/-! The split and the tables that a validation looks up -/

theorem targetTable?_stripped (select : Selection b R V .object) :
    select.stripped.targetTable? = select.targetTable? := by
  cases select
  rfl

theorem query_stripped (select : Selection b R V (.select vocabulary)) :
    select.stripped.query = select.query := by
  cases select
  cases vocabulary <;> rfl

theorem pageQuery_stripped (select : ConnectionSelect b R V) :
    select.stripped.pageQuery = select.pageQuery := by
  cases select with
  | page enabled window inner => exact inner.query_stripped

/-! Findings that stay -/

/-- The findings that are not at the place of a remote relationship. -/
def lasting {part : Part} (tree : Selection b R V part) (found : List (Finding b)) :
    List (Finding b) :=
  found.filter fun finding => finding.path ∉ tree.remotePaths

/-- What is found in a part itself stays, unless the part is a field. -/
theorem lasting_own {part : Part} (tree : Selection b R V part) (hpart : part ≠ .field .row)
    (problems : List (Problem b)) :
    tree.lasting (problems.map (⟨[], ·⟩)) = problems.map (⟨[], ·⟩) := by
  apply List.filter_eq_self.mpr
  intro finding hfinding
  obtain ⟨problem, -, rfl⟩ := List.mem_map.mp hfinding
  exact decide_eq_true fun hnil => hpart (part_of_nil_mem_remotePaths hnil)

/-- What is found in a field lasts as it does in the field alone. -/
theorem lasting_cons_field (name : FieldName) (fresh : name ∉ names)
    (field : Selection b R V (.field vocabulary))
    (rest : Selection b R V (.fields vocabulary names)) (found : List (Finding b)) :
    (cons name fresh field rest).lasting (found.map (Finding.under name)) =
      (field.lasting found).map (Finding.under name) := by
  rw [lasting, lasting, List.filter_map]
  refine congrArg (List.map _) (List.filter_congr fun finding _ => decide_eq_decide.mpr ?_)
  have hrest : name :: finding.path ∉ rest.remotePaths := fun hmem => by
    obtain ⟨other, hother, below, hbegin⟩ := remotePaths_begin rest _ hmem
    cases hbegin
    exact fresh hother
  change ¬ name :: finding.path ∈ _ ↔ _
  rw [remotePaths_cons, List.mem_append, or_iff_left hrest,
    List.mem_map_of_injective List.cons_injective]

/-- What is found in the fields behind a field lasts as it does without that field. -/
theorem lasting_cons_rest (name : FieldName) (fresh : name ∉ names)
    (field : Selection b R V (.field vocabulary))
    (rest : Selection b R V (.fields vocabulary names)) (owner : Option (TableName b)) :
    (cons name fresh field rest).lasting (rest.findings catalog owner) =
      rest.lasting (rest.findings catalog owner) := by
  refine List.filter_congr fun finding hfinding => decide_eq_decide.mpr ?_
  have hfield : finding.path ∉ field.remotePaths.map (name :: ·) := fun hmem => by
    obtain ⟨below, -, hpath⟩ := List.mem_map.mp hmem
    obtain ⟨other, hother, _, hbegin⟩ := findings_begin catalog rest finding hfinding
    cases hpath.trans hbegin
    exact fresh hother
  rw [remotePaths_cons, List.mem_append, or_iff_right hfield]

/-- A part that finds something by itself keeps it, if the part inside it keeps what it should. -/
theorem findings_stripped_of_inside {part inside : Part} {tree : Selection b R V part}
    (inner : Selection b R V inside) {found kept : List (Finding b)} (problems : List (Problem b))
    (hinside : inside ≠ .field .row) (hpaths : tree.remotePaths = inner.remotePaths)
    (hinner : kept = inner.lasting found) :
    problems.map (⟨[], ·⟩) ++ kept = tree.lasting (problems.map (⟨[], ·⟩) ++ found) := by
  have hown := inner.lasting_own hinside problems
  rw [lasting] at hown hinner
  rw [lasting, hpaths, List.filter_append, hown, hinner]

/-- After the split, validation finds what it found before, apart from what it found in remote
relationships. -/
theorem findings_stripped {part : Part} (tree : Selection b R V part)
    (owner : Option (TableName b)) :
    tree.stripped.findings catalog owner = tree.lasting (tree.findings catalog owner) := by
  induction tree generalizing owner with
  | cons name fresh field rest ihField ihRest =>
      have hlasting : (cons name fresh field rest).lasting
          ((field.findings catalog owner).map (Finding.under name) ++
            rest.findings catalog owner) =
          (field.lasting (field.findings catalog owner)).map (Finding.under name) ++
            rest.lasting (rest.findings catalog owner) := by
        rw [← lasting_cons_field name fresh field rest,
          ← lasting_cons_rest catalog name fresh field rest]
        exact List.filter_append _ _
      rw [stripped, findings, findings, hlasting, ihField, ihRest]
  | @select vocabulary names fields query ih =>
      have hinner : fields.stripped.findings catalog query.source.table? = _ := ih _
      cases vocabulary with
      | row =>
          rw [← findings_settled] at hinner
          exact findings_stripped_of_inside fields _ (by simp) rfl hinner
      | aggregate => exact findings_stripped_of_inside fields _ (by simp) rfl hinner
      | connection => exact findings_stripped_of_inside fields _ (by simp) rfl hinner
      | edge => exact findings_stripped_of_inside fields _ (by simp) rfl hinner
  | objectRelation relationship inner ih =>
      rw [stripped, findings, targetTable?_stripped]
      exact findings_stripped_of_inside inner _ (by simp) rfl (ih owner)
  | simple relationship inner ih =>
      rw [stripped, findings, query_stripped]
      exact findings_stripped_of_inside inner _ (by simp) rfl (ih owner)
  | aggregate relationship inner ih =>
      rw [stripped, findings, query_stripped]
      exact findings_stripped_of_inside inner _ (by simp) rfl (ih owner)
  | connection relationship inner ih =>
      rw [stripped, findings, pageQuery_stripped]
      exact findings_stripped_of_inside inner _ (by simp) rfl (ih owner)
  | page enabled window inner ih =>
      rw [stripped, findings, query_stripped]
      exact findings_stripped_of_inside inner _ (by simp) rfl (ih owner)
  | remote relationship =>
      symm
      apply List.filter_eq_nil_iff.mpr
      intro finding hfinding
      obtain ⟨problem, -, rfl⟩ := List.mem_map.mp hfinding
      simp [remotePaths, remoteTargets]
  | aggregates items => exact (lasting_own (aggregates items) (by simp) _).symm
  | object fields target filter ih => exact (findings_settled catalog fields _).trans (ih _)
  | nodes enabled fields ih => exact (findings_settled catalog fields owner).trans (ih owner)
  | node fields ih => exact (findings_settled catalog fields owner).trans (ih owner)
  | edges fields ih => exact ih owner
  | arrayRelation inner ih => exact ih owner
  | computedField enabled name inner ih => exact ih owner
  | table shape inner ih => exact ih owner
  | _ => rfl

/-! Errors -/

/-- The errors that validation reports, none if it succeeds. -/
def reportedErrors (select : Select b R V) (catalog : Catalog b) : List Error :=
  match select.validate catalog with
  | .ok () => []
  | .error errors => errors.list

theorem reportedErrors_eq (select : Select b R V) :
    select.reportedErrors catalog = (select.findings catalog none).map Finding.error := by
  rw [reportedErrors, validate, Errors.toExcept]
  split
  · next hok =>
    split at hok
    · next hempty => exact (List.isEmpty_iff.mp hempty).symm
    · cases hok
  · next herror =>
    split at herror
    · cases herror
    · cases herror
      rfl

theorem validate_eq_ok_iff {select : Select b R V} :
    select.validate catalog = .ok () ↔ select.reportedErrors catalog = [] := by
  rw [reportedErrors_eq, validate, Errors.toExcept_eq_ok_iff]

/-- The joins of a select are at the places of its remote relationships. -/
theorem mem_remotePaths_iff {select : Select b R V} {path : List FieldName} :
    path ∈ select.remotePaths ↔
      path ∈ ((splitRemotes select).2.toList.flatMap JoinTree.leaves).map Prod.fst := by
  have hown : select.ownTargets = [] := rfl
  have htargets := (joins_targets select).map Prod.fst
  rw [hown, List.append_nil, JoinTree.targets, List.map_map] at htargets
  rw [leaves_splitRemotes]
  exact htargets.symm.mem_iff

theorem reportedErrors_splitRemotes (select : Select b R V) :
    (splitRemotes select).1.reportedErrors catalog =
      (select.reportedErrors catalog).filter fun error => error.path ∉
        ((splitRemotes select).2.toList.flatMap JoinTree.leaves).map fun (path, _) =>
          path.map Name.text := by
  have hkept := select.findings_stripped catalog none
  rw [reportedErrors_eq, reportedErrors_eq, List.filter_map]
  refine congrArg (List.map _) (hkept.trans (List.filter_congr fun finding _ =>
    decide_eq_decide.mpr (not_congr ?_)))
  have hpaths := List.mem_map_of_injective (a := finding.path)
    (l := ((splitRemotes select).2.toList.flatMap JoinTree.leaves).map Prod.fst)
    (List.map_injective_iff.mpr Name.text_injective)
  rw [mem_remotePaths_iff, ← hpaths, finding.path_error, List.map_map]
  rfl

theorem reportedErrors_split_withDefaultNaming (select : Select b R V)
    (convention : NamingConvention) :
    (splitRemotes (select.withDefaultNaming convention)).1.reportedErrors catalog =
      (splitRemotes select).1.reportedErrors catalog := by
  cases select
  rfl

/-- The select of a plan has the errors that are left after the split. -/
theorem reportedErrors_plan [HasJson R] {select : Select b R (Unprepared b)} {session : Session}
    {known : Catalog b} {options : Options} {before after : Recorder} {plan : Plan b R}
    (hplan : select.plan session known options before = (.ok plan, after)) :
    plan.select.reportedErrors catalog = (splitRemotes select).1.reportedErrors catalog := by
  obtain ⟨-, -, hprepare⟩ := plan_ok hplan
  obtain ⟨preparation, hsteps, -⟩ := TreeKind.prepare_ok hprepare
  obtain ⟨hshape, -⟩ := TreeKind.traverse_ok hsteps
  have hvalidate : plan.select.validate catalog = _ := validate_eq_of_shape hshape catalog
  rw [← reportedErrors_split_withDefaultNaming, reportedErrors, hvalidate, reportedErrors]

/-- Splitting remote relationships off neither adds nor hides an error.  What is left has the errors
of the select in their order, without those at the places of its joins, and so has the select of a
plan, whose values are prepared after the split.  In particular a valid select stays valid. -/
theorem splitRemotes_keeps_errors (catalog : Catalog b) :
    (∀ select : Select b R V,
      (splitRemotes select).1.reportedErrors catalog =
        (select.reportedErrors catalog).filter (fun error => error.path ∉
          ((splitRemotes select).2.toList.flatMap JoinTree.leaves).map fun (path, _) =>
            path.map Name.text) ∧
      (select.validate catalog = .ok () → (splitRemotes select).1.validate catalog = .ok ())) ∧
    ∀ [HasJson R] (select : Select b R (Unprepared b)) session known options before plan after,
      select.plan session known options before = (.ok plan, after) →
      plan.select.reportedErrors catalog = (splitRemotes select).1.reportedErrors catalog ∧
      (select.validate catalog = .ok () → plan.select.validate catalog = .ok ()) := by
  have hvalid {V : Type} (select : Select b R V) (hok : select.validate catalog = .ok ()) :
      (splitRemotes select).1.validate catalog = .ok () := by
    rw [validate_eq_ok_iff] at hok ⊢
    rw [reportedErrors_splitRemotes, hok, List.filter_nil]
  constructor
  · intro select
    exact ⟨reportedErrors_splitRemotes catalog select, hvalid select⟩
  · intro _ select session known options before plan after hplan
    have herrors := reportedErrors_plan catalog hplan
    refine ⟨herrors, fun hok => ?_⟩
    rw [validate_eq_ok_iff, herrors, ← validate_eq_ok_iff]
    exact hvalid select hok

/-- Books whose reviews are elsewhere.  The catalog below knows neither the column that these are
joined on nor the one that leads to the author. -/
def reviewedBooks : Select .bigQuery String (Unprepared .bigQuery) :=
  let type : ColumnType .bigQuery := .enumReference "isbn"
  let reviews : RemoteRelationship .bigQuery String :=
    { joinFields := .ofList [(⟨"isbn"⟩, .column ⟨"isbn"⟩ type)], target := "reviews" }
  let author : Relationship :=
    { name := ⟨"author"⟩, mapping := .ofList [(⟨"author_id"⟩, ⟨"id"⟩)] }
  ofFields (.ofList [(⟨"reviews"⟩, .remote reviews),
    (⟨"author"⟩, .objectRelation author (.object .nil (.identifier ⟨"author"⟩) .trivial))])
    { source := .table (.qualified ⟨"library", "book"⟩ (by decide)), permission := .unrestricted }

theorem splitRemotes_reviewedBooks_keeps_errors :
    let catalog : Catalog .bigQuery := ⟨.ofList [(.qualified ⟨"library", "book"⟩ (by decide), [])]⟩
    let unknown (field column : String) : Error :=
      { reason := .notFound ("library.book." ++ column) "column", path := [field] }
    reviewedBooks.reportedErrors catalog =
        [unknown "reviews" "isbn", unknown "author" "author_id"] ∧
      (splitRemotes reviewedBooks).1.reportedErrors catalog = [unknown "author" "author_id"] ∧
      ∃ plan after, reviewedBooks.plan .empty catalog { validate := false } {} = (.ok plan, after) ∧
        plan.select.reportedErrors catalog = [unknown "author" "author_id"] := by
  intro catalog unknown
  obtain ⟨hsplit, hplanned⟩ := splitRemotes_keeps_errors (R := String) (V := Unprepared .bigQuery)
    catalog
  have hreported : reviewedBooks.reportedErrors catalog =
      [unknown "reviews" "isbn", unknown "author" "author_id"] := rfl
  have hleft : (splitRemotes reviewedBooks).1.reportedErrors catalog =
      [unknown "author" "author_id"] := by
    rw [(hsplit reviewedBooks).1, hreported]
    rfl
  have hplan : reviewedBooks.plan .empty catalog { validate := false } {} = (.ok _, _) := rfl
  exact ⟨hreported, hleft, _, _, hplan,
    (hplanned reviewedBooks _ _ _ _ _ _ hplan).1.trans hleft⟩

end Selection

end SelectPlan
