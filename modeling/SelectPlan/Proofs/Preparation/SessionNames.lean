import Mathlib.Data.List.Forall2
import Mathlib.Data.List.Induction
import SelectPlan.Proofs.Preparation.Sharing

/-!
Names of session variables.  They are lowercased where a variable is set, where it is looked up and
where it is noted that it is read.  A preparation therefore reads a variable by any spelling of its
name and gets what was set last under any spelling, and nothing it returns tells spellings apart.
-/

namespace SelectPlan

variable {b : Backend} {R : Type}

namespace Text

/-- The texts consist of ASCII characters and differ at most in the case of letters. -/
structure Recased (text other : String) : Prop where
  ascii : ∀ c ∈ text.toList, c.toNat < 0x80
  ascii_other : ∀ c ∈ other.toList, c.toNat < 0x80
  letters_eq : text.toList.map Char.toLower = other.toList.map Char.toLower

/-- ASCII letters are lowered without regard to what stands before them. -/
theorem lowerFrom_ascii {text : List Char} (hascii : ∀ c ∈ text, c.toNat < 0x80)
    (before : List Char) : lowerFrom before text = text.map Char.toLower := by
  induction text generalizing before with
  | nil => rfl
  | cons c rest ih =>
      rw [List.forall_mem_cons] at hascii
      have hsigma : c ≠ 'Σ' := by
        rintro rfl
        exact absurd hascii.1 (by decide)
      rw [lowerFrom, if_neg hsigma, lowerLetter, if_pos hascii.1, ih hascii.2]
      rfl

theorem lowercase_ascii {text : String} (hascii : ∀ c ∈ text.toList, c.toNat < 0x80) :
    lowercase text = String.ofList (text.toList.map Char.toLower) := by
  rw [lowercase, lowerFrom_ascii hascii]

theorem Recased.lowercase_eq {text other : String} (hcase : Recased text other) :
    lowercase text = lowercase other := by
  rw [lowercase_ascii hcase.ascii, lowercase_ascii hcase.ascii_other, hcase.letters_eq]

end Text

namespace Session

theorem ofList_concat (pairs : List (String × String)) (name value : String) :
    ofList (pairs ++ [(name, value)]) = (ofList pairs).insert name value := by
  rw [ofList, List.foldl_append]
  rfl

theorem find?_insert (session : Session) (name value other : String) :
    (session.insert name value).find? other =
      if Text.lowercase name = Text.lowercase other then some value else session.find? other :=
  session.entries.find?_insert _ _ _

theorem contains_eq_isSome (session : Session) (name : String) :
    session.contains name = (session.find? name).isSome := by
  rw [Bool.eq_iff_iff, contains_iff, Option.isSome_iff_ne_none, ne_eq, find?, OrderedMap.find?,
    Entries.find?_eq_none_iff, not_not]
  rfl

/-- The value of a variable is the one that was set last under any spelling of its name. -/
theorem find?_ofList {pairs : List (String × String)} {name value : String}
    (hfound : (ofList pairs).find? name = some value) :
    ∃ before spelling after, pairs = before ++ (spelling, value) :: after ∧
      Text.lowercase spelling = Text.lowercase name ∧
      ∀ later ∈ after, Text.lowercase later.1 ≠ Text.lowercase name := by
  induction pairs using List.reverseRecOn with
  | nil => cases hfound
  | append_singleton pairs pair ih =>
      obtain ⟨spelling, last⟩ := pair
      rw [ofList_concat, find?_insert] at hfound
      split at hfound
      · next hsame =>
        cases hfound
        exact ⟨pairs, spelling, [], rfl, hsame, nofun⟩
      · next hother =>
        obtain ⟨before, first, after, rfl, hsame, hafter⟩ := ih hfound
        refine ⟨before, first, after ++ [(spelling, last)], ?_, hsame, ?_⟩
        · rw [List.append_assoc, List.cons_append]
        · rw [List.forall_mem_append, List.forall_mem_singleton]
          exact ⟨hafter, hother⟩

/-- Sessions do not remember how the names of their variables were spelled. -/
theorem ofList_congr {pairs others : List (String × String)}
    (hpairs : List.Forall₂ (fun x y => Text.lowercase x.1 = Text.lowercase y.1 ∧ x.2 = y.2)
      pairs others) : ofList pairs = ofList others := by
  rw [ofList, ofList]
  generalize empty = session
  induction hpairs generalizing session with
  | nil => rfl
  | @cons x y _ _ hpair _ ih =>
      obtain ⟨name, value⟩ := x
      obtain ⟨other, _⟩ := y
      obtain ⟨hname, rfl⟩ := hpair
      have hinsert : session.insert name value = session.insert other value :=
        congrArg (fun key => Session.mk (session.entries.insert key value)) hname
      exact (congrArg (List.foldl _ · _) hinsert).trans (ih _)

end Session

/-- The value is the same, but for the spelling of the session variable that it reads. -/
inductive Unprepared.Respelled : Unprepared b → Unprepared b → Prop
  | same (value : Unprepared b) : Respelled value value
  | sessionVariable {name other : String} {type : ScalarType b} (hname : Text.Recased name other) :
      Respelled (.sessionVariable name type) (.sessionVariable other type)

theorem Unprepared.Respelled.sessionName?_eq {value other : Unprepared b}
    (hvalue : value.Respelled other) : value.sessionName? = other.sessionName? := by
  cases hvalue with
  | same => rfl
  | sessionVariable hname => exact congrArg some hname.lowercase_eq

theorem Unprepared.Respelled.use?_eq {value other : Unprepared b}
    (hvalue : value.Respelled other) : value.use? = other.use? := by
  cases hvalue with
  | same => rfl
  | sessionVariable _ => rfl

theorem filterMap_eq_of_forall₂ {A B C : Type} {rel : A → B → Prop} {f : A → Option C}
    {g : B → Option C} {xs : List A} {ys : List B} (hitems : List.Forall₂ rel xs ys)
    (hfun : ∀ {x y}, rel x y → f x = g y) : xs.filterMap f = ys.filterMap g := by
  induction hitems with
  | nil => rfl
  | cons hitem _ ih => rw [List.filterMap_cons, List.filterMap_cons, hfun hitem, ih]

theorem nodup_eraseDups (names : List String) : names.eraseDups.Nodup := by
  induction names using List.reverseRecOn with
  | nil => exact List.nodup_nil
  | append_singleton names name ih =>
      rw [Preparation.eraseDups_concat]
      split
      · exact ih
      · next hfresh =>
        have hfresh : name ∉ names.eraseDups := by simpa using hfresh
        rw [List.perm_append_comm.nodup_iff]
        exact List.nodup_cons.mpr ⟨hfresh, ih⟩

namespace TreeKind

variable {session : Session} {share : Bool} {kind : TreeKind} {tree : kind.Tree b R (Unprepared b)}
  {prepared : kind.Tree b R (Prepared b)} {bindings : Bindings b}

/-- The lowercased names of the session variables that a tree reads, in reading order. -/
def sessionNames (kind : TreeKind) (tree : kind.Tree b R (Unprepared b)) : List String :=
  (kind.values tree).filterMap Unprepared.sessionName?

theorem mem_sessionNames_iff {name : String} : name ∈ kind.sessionNames tree ↔
    ∃ spelling type, .sessionVariable spelling type ∈ kind.values tree ∧
      Text.lowercase spelling = name := by
  rw [sessionNames, List.mem_filterMap]
  constructor
  · rintro ⟨value, hmem, hname⟩
    cases value with
    | sessionVariable spelling type => exact ⟨spelling, type, hmem, Option.some.inj hname⟩
    | _ => cases hname
  · rintro ⟨spelling, type, hmem, rfl⟩
    exact ⟨_, hmem, rfl⟩

/-- Whether a tree can be prepared depends on nothing but the session variables and the parameters
that it uses. -/
theorem prepare_succeeds_iff_names :
    (∃ result, kind.prepare session share tree = .ok result) ↔
      (∀ name ∈ kind.sessionNames tree, name ∈ session.names) ∧
        (share = true → ParameterUse.Consistent (kind.uses tree)) := by
  rw [prepare_succeeds_iff, Preparation.mapA_prepareValue_succeeds_iff, uses]
  refine and_congr_left fun _ => ?_
  simp only [mem_sessionNames_iff, Session.contains_iff]
  constructor
  · rintro hset _ ⟨spelling, type, hmem, rfl⟩
    exact hset spelling type hmem
  · intro hset spelling type hmem
    exact hset _ ⟨spelling, type, hmem, rfl⟩

/-- What a preparation binds depends on nothing but the session variables and the parameters that
the tree uses. -/
theorem prepare_bindings (hprepare : kind.prepare session share tree = .ok (prepared, bindings)) :
    bindings.sessionVariables = (kind.sessionNames tree).eraseDups ∧
      bindings.parameters = (if share then ParameterUse.firstUses (kind.uses tree)
        else kind.uses tree).map ParameterUse.value := by
  refine ⟨prepare_sessionVariables hprepare, ?_⟩
  cases share with
  | true =>
      obtain ⟨_, rfl, hshared⟩ := prepare_uses Preparation.Shared Preparation.Shared.of_unchanged
        Preparation.Shared.of_binds .nil hprepare
      exact hshared.parameters_eq
  | false =>
      obtain ⟨_, rfl, hnumbered⟩ := prepare_uses Preparation.Numbered
        (fun hdone hparameters _ => hdone.of_unchanged hparameters)
        Preparation.Numbered.of_binds ⟨rfl, rfl⟩ hprepare
      exact hnumbered.parameters_eq

/-- The session variables of a plan are exactly those that its tree reads, whatever the spelling of
their names.  They are listed in reading order, each once, and looking one up by any spelling gives
the value that was set last under any spelling.  Where names are spelled in other letters of the
same ASCII text, the tree can be prepared just as before and binds the same. -/
theorem prepare_reads_session_by_any_spelling (pairs : List (String × String)) (share : Bool)
    (kind : TreeKind) (tree : kind.Tree b R (Unprepared b)) :
    (∀ prepared bindings,
      kind.prepare (.ofList pairs) share tree = .ok (prepared, bindings) →
      bindings.sessionVariables = (kind.sessionNames tree).eraseDups ∧
      bindings.sessionVariables.Nodup ∧
      ∀ name ∈ bindings.sessionVariables, ∀ spelling, Text.lowercase spelling = name →
        ∃ before last value after, pairs = before ++ (last, value) :: after ∧
          Text.lowercase last = name ∧ (∀ later ∈ after, Text.lowercase later.1 ≠ name) ∧
          (Session.ofList pairs).find? spelling = some value) ∧
    ∀ (others : List (String × String)) (other : kind.Tree b R (Unprepared b)),
      List.Forall₂ (fun x y => (x.1 = y.1 ∨ Text.Recased x.1 y.1) ∧ x.2 = y.2) pairs others →
      List.Forall₂ Unprepared.Respelled (kind.values tree) (kind.values other) →
      ((∃ result, kind.prepare (.ofList others) share other = .ok result) ↔
        ∃ result, kind.prepare (.ofList pairs) share tree = .ok result) ∧
      ∀ prepared bindings prepared' bindings',
        kind.prepare (.ofList pairs) share tree = .ok (prepared, bindings) →
        kind.prepare (.ofList others) share other = .ok (prepared', bindings') →
        bindings'.sessionVariables = bindings.sessionVariables ∧
          bindings'.parameters = bindings.parameters := by
  constructor
  · intro prepared bindings hprepare
    have hnames := (prepare_bindings hprepare).1
    obtain ⟨hset, -⟩ := prepare_succeeds_iff_names.mp ⟨_, hprepare⟩
    refine ⟨hnames, hnames ▸ nodup_eraseDups _, ?_⟩
    rintro name hname spelling rfl
    have hcontains : (Session.ofList pairs).contains spelling = true := by
      rw [Session.contains_iff]
      exact hset _ (List.mem_eraseDups.mp (hnames ▸ hname))
    rw [Session.contains_eq_isSome, Option.isSome_iff_exists] at hcontains
    obtain ⟨value, hfound⟩ := hcontains
    obtain ⟨before, last, after, hsplit, hlast, hafter⟩ := Session.find?_ofList hfound
    exact ⟨before, last, value, after, hsplit, hlast, hafter, hfound⟩
  · intro others other hpairs hvalues
    have hsession : Session.ofList pairs = .ofList others := by
      refine Session.ofList_congr (hpairs.imp ?_)
      rintro x y ⟨hname | hname, hvalue⟩
      · exact ⟨congrArg _ hname, hvalue⟩
      · exact ⟨hname.lowercase_eq, hvalue⟩
    have hnames : kind.sessionNames tree = kind.sessionNames other :=
      filterMap_eq_of_forall₂ hvalues Unprepared.Respelled.sessionName?_eq
    have huses : kind.uses tree = kind.uses other :=
      filterMap_eq_of_forall₂ hvalues Unprepared.Respelled.use?_eq
    constructor
    · rw [prepare_succeeds_iff_names, prepare_succeeds_iff_names, hsession, hnames, huses]
    · intro prepared bindings prepared' bindings' hprepare hprepare'
      obtain ⟨hvariables, hparameters⟩ := prepare_bindings hprepare
      obtain ⟨hvariables', hparameters'⟩ := prepare_bindings hprepare'
      constructor
      · rw [hvariables, hvariables', hnames]
      · rw [hparameters, hparameters', huses]

/-- Values that read the role of a session twice, and its user in between. -/
def roleValues (role user sameRole : String) : List (Unprepared .mySql) :=
  [role, user, sameRole].map (.sessionVariable · (.builtin "VarChar" (by decide)))

theorem prepare_roles_by_any_spelling :
    let session := [("x-role", "user"), ("X-User", "7"), ("X-ROLE", "admin")]
    let respelled := [("X-Role", "user"), ("X-User", "7"), ("x-role", "admin")]
    let tree := (roleValues "X-Role" "x-user" "x-role").map Argument.input
    let other := (roleValues "x-role" "X-USER" "x-Role").map Argument.input
    ∃ bindings prepared prepared' bindings',
      (list argument).prepare (R := String) (.ofList session) true tree = .ok (prepared, bindings) ∧
      bindings.sessionVariables = ["x-role", "x-user"] ∧
      (∃ before last value after, session = before ++ (last, value) :: after ∧
        Text.lowercase last = "x-role" ∧ (∀ later ∈ after, Text.lowercase later.1 ≠ "x-role") ∧
        (Session.ofList session).find? "X-rOLE" = some value) ∧
      (list argument).prepare (R := String) (.ofList respelled) true other =
        .ok (prepared', bindings') ∧
      bindings'.sessionVariables = ["x-role", "x-user"] := by
  intro session respelled tree other
  have hprepare : (list argument).prepare (R := String) (.ofList session) true tree =
      .ok (_, _) := rfl
  have hrole : Text.Recased "x-role" "X-Role" := ⟨by simp, by simp, by simp⟩
  have hfirst : Text.Recased "X-Role" "x-role" := ⟨by simp, by simp, by simp⟩
  have hlast : Text.Recased "x-role" "x-Role" := ⟨by simp, by simp, by simp⟩
  have hadmin : Text.Recased "X-ROLE" "x-role" := ⟨by simp, by simp, by simp⟩
  have huser : Text.Recased "x-user" "X-USER" := ⟨by simp, by simp, by simp⟩
  have hsession : List.Forall₂
      (fun x y => (x.1 = y.1 ∨ Text.Recased x.1 y.1) ∧ x.2 = y.2) session respelled :=
    .cons ⟨.inr hrole, rfl⟩ (.cons ⟨.inl rfl, rfl⟩ (.cons ⟨.inr hadmin, rfl⟩ .nil))
  have hvalues : List.Forall₂ Unprepared.Respelled (roleValues "X-Role" "x-user" "x-role")
      (roleValues "x-role" "X-USER" "x-Role") :=
    .cons (.sessionVariable hfirst) (.cons (.sessionVariable huser)
      (.cons (.sessionVariable hlast) .nil))
  obtain ⟨hreads, hspelling⟩ := prepare_reads_session_by_any_spelling (R := String) session true
    (list argument) tree
  obtain ⟨-, -, hfound⟩ := hreads _ _ hprepare
  obtain ⟨hsucceeds, hsame⟩ := hspelling respelled other hsession hvalues
  obtain ⟨⟨prepared', bindings'⟩, hother⟩ := hsucceeds.mpr ⟨_, hprepare⟩
  exact ⟨_, _, prepared', bindings', hprepare, rfl,
    hfound "x-role" List.mem_cons_self "X-rOLE" (by decide), hother,
    (hsame _ _ _ _ hprepare hother).1⟩

end TreeKind

end SelectPlan
