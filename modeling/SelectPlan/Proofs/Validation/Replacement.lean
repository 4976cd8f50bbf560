import SelectPlan.Proofs.Preparation.Meaning
import SelectPlan.Proofs.Traversal.Refilling
import SelectPlan.Proofs.Validation.Pages
import SelectPlan.Proofs.Validation.Shape

/-!
Validation and the replacement of remote targets and values.  Replacing them keeps the shape of a
select, and so does its preparation; nothing else is looked at when a select is validated.  So it
makes no difference whether a select is validated before or after.
-/

namespace SelectPlan.Selection

variable {b : Backend} {R S V W : Type}

theorem shape_bimap (f : R → S) (g : V → W) {part : Part} (tree : Selection b R V part) :
    shape (TreeKind.bimap f g (.part part) tree) = tree.shape :=
  (TreeKind.bimap_visits f g (.part part) tree).2

theorem shape_prepare {session : Session} {share : Bool} {part : Part}
    {tree : Selection b R (Unprepared b) part} {prepared : Selection b R (Prepared b) part}
    {bindings : Bindings b}
    (hprepare : TreeKind.prepare session share (.part part) tree = .ok (prepared, bindings)) :
    prepared.shape = tree.shape :=
  (TreeKind.prepare_standsFor hprepare).1

/-- Validation finds the same problems, in the same order, whatever the remote targets and the
values are replaced by, and the same problems before a preparation as after it. -/
theorem validate_ignores_leaves :
    (∀ {V : Type} (f : R → S) (g : V → W) (select : Select b R V) (catalog : Catalog b),
      validate (TreeKind.bimap f g (.part _) select) catalog = select.validate catalog) ∧
    (∀ {V : Type} (f : R → S) (g : V → W) (connection : ConnectionSelect b R V),
      validatePage (TreeKind.bimap f g (.part _) connection) = connection.validatePage) ∧
    (∀ (session : Session) (share : Bool) (select : Select b R (Unprepared b))
      (catalog : Catalog b) (prepared : Select b R (Prepared b)) (bindings : Bindings b),
      TreeKind.prepare session share (.part _) select = .ok (prepared, bindings) →
      prepared.validate catalog = select.validate catalog) ∧
    ∀ (session : Session) (share : Bool) (connection : ConnectionSelect b R (Unprepared b))
      (prepared : ConnectionSelect b R (Prepared b)) (bindings : Bindings b),
      TreeKind.prepare session share (.part _) connection = .ok (prepared, bindings) →
      prepared.validatePage = connection.validatePage := by
  refine ⟨?_, ?_, ?_, ?_⟩
  · intro V f g select catalog
    exact validate_eq_of_shape (shape_bimap f g select) catalog
  · intro V f g connection
    exact validatePage_eq_of_shape (shape_bimap f g connection)
  · intro session share select catalog prepared bindings hprepare
    exact validate_eq_of_shape (shape_prepare hprepare) catalog
  · intro session share connection prepared bindings hprepare
    exact validatePage_eq_of_shape (shape_prepare hprepare)

/-- The first reviews before a cursor of the request. -/
def earlierReviews : ConnectionSelect .postgres String (Unprepared .postgres) :=
  let id : ColumnInfo .postgres := { column := ⟨"id"⟩, type := .enumReference "id" }
  let cursor : PageBound .postgres (Unprepared .postgres) :=
    { kind := .before, order := .asc (.onColumn id)
      value := .parameter (.request (some "cursor")) ⟨id.type, .text "r8"⟩ }
  .page relay_postgres
    { primaryKey := .singleton id, bounds := some (.singleton cursor), slice := some (.first 5) }
    (.select .nil { source := .identifier ⟨"review"⟩, permission := .unrestricted })

/-- A book with these reviews and with readers that are elsewhere. -/
def reviewedBook : Select .postgres String (Unprepared .postgres) :=
  ofFields (.ofList [
      (⟨"reviews"⟩, .arrayRelation
        (.connection { name := ⟨"reviews"⟩, mapping := ∅ } earlierReviews)),
      (⟨"readers"⟩, .remote { joinFields := .ofList [], target := "readers" })])
    { source := .identifier ⟨"book"⟩, permission := .unrestricted }

theorem validate_reviewedBook :
    let problem : Problem .postgres := .firstBefore
    let wrongWay (path : List String) : Errors := ⟨[{ problem.error with path }]⟩
    (∃ prepared bindings,
      TreeKind.prepare .empty true (.part _) reviewedBook = .ok (prepared, bindings) ∧
      bindings.parameters = [⟨.enumReference "id", .text "r8"⟩] ∧
      prepared.validate ⟨∅⟩ = .error (wrongWay ["reviews"])) ∧
    (∃ prepared bindings,
      TreeKind.prepare .empty true (.part _) earlierReviews = .ok (prepared, bindings) ∧
      prepared.validatePage = .error (wrongWay [])) ∧
    validate (TreeKind.bimap String.length (fun _ => ()) (.part _) reviewedBook) ⟨∅⟩ =
      .error (wrongWay ["reviews"]) := by
  intro problem wrongWay
  obtain ⟨hbimap, -, hprepare, hpage⟩ := validate_ignores_leaves (b := .postgres) (R := String)
    (S := Nat) (W := Unit)
  have hbook : TreeKind.prepare .empty true (.part _) reviewedBook = .ok (_, _) := rfl
  have hreviews : TreeKind.prepare .empty true (.part _) earlierReviews = .ok (_, _) := rfl
  have hvalidate : reviewedBook.validate ⟨∅⟩ = .error (wrongWay ["reviews"]) := rfl
  refine ⟨⟨_, _, hbook, rfl, (hprepare _ _ _ ⟨∅⟩ _ _ hbook).trans hvalidate⟩,
    ⟨_, _, hreviews, (hpage _ _ _ _ _ hreviews).trans rfl⟩, ?_⟩
  exact (hbimap String.length (fun _ => ()) reviewedBook ⟨∅⟩).trans hvalidate

end SelectPlan.Selection
