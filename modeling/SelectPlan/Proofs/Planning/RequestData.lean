import SelectPlan.Proofs.Planning.Logs
import SelectPlan.Proofs.Planning.Runs
import SelectPlan.Proofs.Preparation.RequestData
import SelectPlan.Proofs.RemoteJoins.Substitution
import SelectPlan.Proofs.Validation.Shape

/-!
Data of the request in a plan.  Two selects that differ in what their parameters hold have the same
plan, whatever the values of the session, apart from the parameters themselves.
-/

namespace SelectPlan

variable {b : Backend} {R V : Type}

theorem Session.contains_eq_of_names {session session' : Session}
    (hnames : ∀ name, name ∈ session.names ↔ name ∈ session'.names) (name : String) :
    session.contains name = session'.contains name := by
  rw [Bool.eq_iff_iff, contains_iff, contains_iff, hnames]

namespace Selection

theorem withoutData_withDefaultNaming (select : Select b R (Unprepared b))
    (convention : NamingConvention) :
    TreeKind.withoutData (.part _) (select.withDefaultNaming convention) =
      withDefaultNaming (TreeKind.withoutData (.part _) select) convention := by
  cases select
  rfl

/-- Data of the request can be forgotten before or after the split. -/
theorem splitRemotes_withoutData (select : Select b R (Unprepared b)) :
    splitRemotes (TreeKind.withoutData (.part (.select .row)) select) =
      (TreeKind.withoutData (.part (.select .row)) (splitRemotes select).1,
        (splitRemotes select).2) :=
  splitRemotes_traverse (F := Id) (fun value : Unprepared b => pure value.withoutData) select

/-- What is left of two selects after the split differs in data of the request alone if the selects
do, and the joins are the same. -/
theorem split_of_withoutData {first second : Select b R (Unprepared b)}
    (hsame : TreeKind.withoutData (.part _) first = TreeKind.withoutData (.part _) second) :
    TreeKind.withoutData (.part _) (splitRemotes first).1 =
        TreeKind.withoutData (.part _) (splitRemotes second).1 ∧
      (splitRemotes first).2 = (splitRemotes second).2 := by
  have hsplit := congrArg splitRemotes hsame
  rw [splitRemotes_withoutData, splitRemotes_withoutData] at hsplit
  exact Prod.mk.inj hsplit

/-- Plans do not depend on data of the request.  Take two selects that are the same once the values
of their parameters are taken out, and two sessions that set the same variables.  If both selects
have a plan, then the plans are the same but for the values of the parameters and the log.  Where
parameters are not shared, one select has a plan exactly if the other has one. -/
theorem plan_independent_of_request_data [HasJson R] {first second : Select b R (Unprepared b)}
    {session session' : Session}
    (hsame : TreeKind.withoutData (.part _) first = TreeKind.withoutData (.part _) second)
    (hnames : ∀ name, name ∈ session.names ↔ name ∈ session'.names) (catalog : Catalog b)
    (options : Options) (before before' : Recorder) :
    (∀ plan plan' after after',
      first.plan session catalog options before = (.ok plan, after) →
      second.plan session' catalog options before' = (.ok plan', after') →
      plan.select = plan'.select ∧ plan.remoteJoins = plan'.remoteJoins ∧
        plan.bindings.sessionVariables = plan'.bindings.sessionVariables ∧
        plan.bindings.parameters.length = plan'.bindings.parameters.length ∧
        plan.log.isSome = plan'.log.isSome) ∧
    (options.dedupeParameters = false →
      ((∃ plan after, first.plan session catalog options before = (.ok plan, after)) ↔
        ∃ plan after, second.plan session' catalog options before' = (.ok plan, after))) := by
  have hnamed : TreeKind.withoutData (.part _)
      (first.withDefaultNaming options.namingConvention) =
        TreeKind.withoutData (.part _) (second.withDefaultNaming options.namingConvention) := by
    rw [withoutData_withDefaultNaming, withoutData_withDefaultNaming, hsame]
  obtain ⟨hstripped, hjoins⟩ := split_of_withoutData hnamed
  constructor
  · intro plan plan' after after' hfirst hsecond
    obtain ⟨-, hremotes, hprepare⟩ := plan_ok hfirst
    obtain ⟨-, hremotes', hprepare'⟩ := plan_ok hsecond
    obtain ⟨hselect, hvariables, hlength⟩ :=
      TreeKind.prepare_withoutData hstripped hprepare hprepare'
    exact ⟨hselect, hremotes.trans (hjoins.trans hremotes'.symm), hvariables, hlength,
      (plan_log_isSome hfirst).trans (plan_log_isSome hsecond).symm⟩
  · intro hunshared
    have hvalid := validate_eq_of_shape (TreeKind.shape_of_withoutData hnamed) catalog
    rw [plan_succeeds_iff, plan_succeeds_iff, hunshared]
    simp only [hvalid, TreeKind.prepare_unshared_succeeds_iff hstripped
      (Session.contains_eq_of_names hnames)]

/-- The books of the user that have a title.  Their reviews are elsewhere. -/
def booksOfUser (title : String) : Select .mySql String (Unprepared .mySql) :=
  let column (name : String) : ColumnInfo .mySql :=
    { column := ⟨name⟩, type := .enumReference name }
  let titled : Unprepared .mySql :=
    .parameter (.request (some "title")) ⟨.enumReference "title", .text title⟩
  let reviews : RemoteRelationship .mySql String :=
    { joinFields := .ofList [(⟨"isbn"⟩, .column ⟨"isbn"⟩ (.enumReference "isbn"))],
      target := "reviews" }
  ofFields (.ofList [(⟨"reviews"⟩, .remote reviews)])
    { source := .identifier ⟨"book"⟩
      permission :=
        ⟨.column (column "owner") [.equals (.sessionVariable "X-User" (.other "user" nofun))], none⟩
      args := { filter := some (.column (column "title") [.equals titled, .like titled]) } }

theorem plan_booksOfUser_independent_of_request_data :
    let user (id : String) := Session.ofList [("X-User", id)]
    ∃ plan plan' after after',
      (booksOfUser "Emma").plan (user "7") ⟨∅⟩ {} {} = (.ok plan, after) ∧
      (booksOfUser "Dune").plan (user "8") ⟨∅⟩ {} {} = (.ok plan', after') ∧
      plan.bindings.parameters = [⟨.enumReference "title", .text "Emma"⟩] ∧
      plan'.bindings.parameters = [⟨.enumReference "title", .text "Dune"⟩] ∧
      plan.select = plan'.select ∧ plan.remoteJoins = plan'.remoteJoins ∧
      plan.bindings.sessionVariables = plan'.bindings.sessionVariables ∧
      plan.bindings.parameters.length = plan'.bindings.parameters.length ∧
      plan.log.isSome = plan'.log.isSome := by
  intro user
  have hplan : (booksOfUser "Emma").plan (user "7") ⟨∅⟩ {} {} = (.ok _, _) := rfl
  have hplan' : (booksOfUser "Dune").plan (user "8") ⟨∅⟩ {} {} = (.ok _, _) := rfl
  have hsame : TreeKind.withoutData (.part _) (booksOfUser "Emma") =
      TreeKind.withoutData (.part _) (booksOfUser "Dune") := rfl
  have hnames : ∀ name, name ∈ (user "7").names ↔ name ∈ (user "8").names := fun _ => Iff.rfl
  exact ⟨_, _, _, _, hplan, hplan', rfl, rfl,
    (plan_independent_of_request_data hsame hnames ⟨∅⟩ {} {} {}).1 _ _ _ _ hplan hplan'⟩

end Selection

end SelectPlan
