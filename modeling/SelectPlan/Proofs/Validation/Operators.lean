import SelectPlan.Planning.Validation

/-!
Aggregate operators.  Validation looks at the operators that are applied and at those that selects
are ordered by.  The bounds of a page it does not look at, but they have to follow the ordering of
their connection, so they bring no operator of their own.
-/

namespace SelectPlan

variable {b : Backend} {R V W : Type} {name : String}

/-! Where an operator is used -/

/-- An operator is the aggregate that rows are ordered by. -/
def OrderAggregate.Uses (name : String) : OrderAggregate b V → Prop
  | count => False
  | operator other _ _ _ => other = name

/-- An operator is used in an order by a computed field. -/
def ComputedOrder.Uses (name : String) : ComputedOrder b V → Prop
  | scalar _ _ => False
  | aggregate _ _ inner => inner.Uses name

/-- An operator is used in a term that rows are ordered by, behind any number of relationships. -/
def OrderTerm.Uses (name : String) : OrderTerm b V → Prop
  | column _ _ => False
  | objectRelation _ _ term => term.Uses name
  | arrayAggregate _ _ aggregate => aggregate.Uses name
  | computedField _ _ _ _ order => order.Uses name

/-- An operator is applied in one of several aggregates. -/
def Aggregates.Uses (name : String) (aggregates : Aggregates b V) : Prop :=
  ∃ operands, .operator name operands ∈ OrderedMap.values aggregates

/-- An operator is used in the ordering of a select. -/
def SelectArgs.Uses (name : String) (args : SelectArgs b V) : Prop :=
  ∃ item ∈ args.orderItems, item.term.Uses name

/-- An operator is used in the bounds of a page. -/
def Page.Uses (name : String) (page : Page b V) : Prop :=
  ∃ bound ∈ page.boundList, bound.order.term.Uses name

/-- An operator is used anywhere in a part of a selection: it is applied, or rows are ordered by it,
or a page is bounded in an order by it. -/
def Selection.Uses (name : String) : {part : Part} → Selection b R V part → Prop
  | _, column _ => False
  | _, objectRelation _ inner => inner.Uses name
  | _, arrayRelation inner => inner.Uses name
  | _, computedField _ _ inner => inner.Uses name
  | _, remote _ => False
  | _, nodeId _ _ _ => False
  | _, constant _ => False
  | _, aggregates items => items.Uses name
  | _, nodes _ fields => fields.Uses name
  | _, aggregateConstant _ => False
  | _, connectionTypeName _ => False
  | _, pageInfo _ => False
  | _, edges fields => fields.Uses name
  | _, edgeTypeName _ => False
  | _, cursor => False
  | _, node fields => fields.Uses name
  | _, nil => False
  | _, cons _ _ field rest => field.Uses name ∨ rest.Uses name
  | _, select fields query => fields.Uses name ∨ query.args.Uses name
  | _, object fields _ _ => fields.Uses name
  | _, simple _ inner => inner.Uses name
  | _, aggregate _ inner => inner.Uses name
  | _, connection _ inner => inner.Uses name
  | _, page _ window inner => window.Uses name ∨ inner.Uses name
  | _, scalar _ => False
  | _, table _ inner => inner.Uses name

/-! The operators that validation collects are those that are used -/

theorem OrderAggregate.mem_operator? {aggregate : OrderAggregate b V} :
    name ∈ aggregate.operator?.toList ↔ aggregate.Uses name := by
  cases aggregate with
  | count => exact iff_of_false List.not_mem_nil id
  | operator other result column redaction => exact List.mem_singleton.trans eq_comm

theorem OrderTerm.mem_operators {term : OrderTerm b V} :
    name ∈ term.operators ↔ term.Uses name := by
  induction term with
  | column info redaction => exact iff_of_false List.not_mem_nil id
  | objectRelation info filter term ih => exact ih
  | arrayAggregate info filter aggregate => exact OrderAggregate.mem_operator?
  | computedField enabled field function arguments order =>
      cases order with
      | scalar type redaction => exact iff_of_false List.not_mem_nil id
      | aggregate table filter inner => exact OrderAggregate.mem_operator?

theorem Aggregates.mem_operators {aggregates : Aggregates b V} :
    name ∈ aggregates.operators ↔ aggregates.Uses name := by
  rw [operators, List.mem_filterMap]
  constructor
  · rintro ⟨aggregate, hmem, hname⟩
    cases aggregate with
    | operator other operands =>
        cases hname
        exact ⟨operands, hmem⟩
    | count counted => cases hname
    | constant text => cases hname
  · rintro ⟨operands, hmem⟩
    exact ⟨_, hmem, rfl⟩

theorem SelectArgs.mem_operators {args : SelectArgs b V} :
    name ∈ args.operators ↔ args.Uses name := by
  rw [operators, List.mem_flatMap]
  exact exists_congr fun _ => and_congr_right fun _ => OrderTerm.mem_operators

/-! Values do not matter for the operators of a term -/

theorem OrderAggregate.uses_of_same {eq : V → V → Bool} {first second : OrderAggregate b V}
    (hsame : first.same eq second = true) (hfirst : first.Uses name) : second.Uses name := by
  cases first with
  | count => exact hfirst.elim
  | operator first result column redaction =>
      cases second with
      | count => cases hsame
      | operator second result' column' redaction' =>
          simp only [same, Bool.and_eq_true, beq_iff_eq] at hsame
          exact hsame.1.1.1 ▸ hfirst

theorem ComputedOrder.uses_of_same {eq : V → V → Bool} {first second : ComputedOrder b V}
    (hsame : first.same eq second = true) (hfirst : first.Uses name) : second.Uses name := by
  cases first with
  | scalar type redaction => exact hfirst.elim
  | aggregate table filter inner =>
      cases second with
      | scalar type redaction => cases hsame
      | aggregate table' filter' inner' =>
          rw [same, Bool.and_eq_true] at hsame
          exact OrderAggregate.uses_of_same hsame.2 hfirst

theorem OrderTerm.uses_of_same {eq : V → V → Bool} {first second : OrderTerm b V}
    (hsame : first.same eq second = true) (hfirst : first.Uses name) : second.Uses name := by
  induction first generalizing second with
  | column info redaction => exact hfirst.elim
  | objectRelation info filter term ih =>
      cases second with
      | objectRelation other filter' term' =>
          rw [same, Bool.and_eq_true] at hsame
          have hterm : term'.Uses name := ih hsame.2 hfirst
          exact hterm
      | _ => cases hsame
  | arrayAggregate info filter aggregate =>
      cases second with
      | arrayAggregate other filter' aggregate' =>
          rw [same, Bool.and_eq_true] at hsame
          exact OrderAggregate.uses_of_same hsame.2 hfirst
      | _ => cases hsame
  | computedField enabled field function arguments order =>
      cases second with
      | computedField enabled' other function' arguments' order' =>
          rw [same, Bool.and_eq_true] at hsame
          exact ComputedOrder.uses_of_same hsame.2 hfirst
      | _ => cases hsame

theorem OrderTerm.uses_erase (term : OrderTerm b V) : term.erase.Uses name ↔ term.Uses name := by
  induction term with
  | column info redaction => exact Iff.rfl
  | objectRelation info filter term ih => exact ih
  | arrayAggregate info filter aggregate => cases aggregate <;> exact Iff.rfl
  | computedField enabled field function arguments order =>
      cases order with
      | scalar type redaction => exact Iff.rfl
      | aggregate table filter inner => cases inner <;> exact Iff.rfl

/-! A page that follows the ordering of its connection uses no other operators -/

namespace Page

/-- Where no bound is misplaced and none is too many, each of them is on an entry. -/
theorem follows_of_misplaced_eq_nil {start : Nat} {bounds : List (PageBound b V)}
    {entries : List (OrderItem b Unit)} (hplaced : misplaced start bounds entries = [])
    (hlength : bounds.length ≤ entries.length) :
    ∀ bound ∈ bounds, ∃ entry ∈ entries, follows bound entry = true := by
  induction bounds generalizing start entries with
  | nil => exact fun _ hbound => absurd hbound List.not_mem_nil
  | cons first bounds ih =>
      cases entries with
      | nil => exact absurd hlength (Nat.not_succ_le_zero _)
      | cons entry entries =>
          rw [misplaced] at hplaced
          split at hplaced
          · next hfollows =>
            intro bound hbound
            rcases List.mem_cons.mp hbound with rfl | hbound
            · exact ⟨entry, List.mem_cons_self, hfollows⟩
            · obtain ⟨found, hfound, hentry⟩ :=
                ih hplaced (Nat.le_of_succ_le_succ hlength) bound hbound
              exact ⟨found, List.mem_cons_of_mem entry hfound, hentry⟩
          · cases hplaced

/-- A page without problems has each of its bounds on an entry of the ordering. -/
theorem follows_of_problems_eq_nil {page : Page b V} {declared : List (OrderItem b V)}
    (hproblems : page.problems declared = []) :
    ∀ bound ∈ page.boundList, ∃ entry ∈ page.ordering declared, follows bound entry = true := by
  rw [problems] at hproblems
  rw [boundList]
  cases hbounds : page.bounds with
  | none => exact fun _ hbound => absurd hbound List.not_mem_nil
  | some bounds =>
      simp only [hbounds, List.append_eq_nil_iff, List.map_eq_nil_iff] at hproblems
      obtain ⟨⟨-, hexcess⟩, hplaced⟩ := hproblems
      apply follows_of_misplaced_eq_nil hplaced
      rw [NonEmpty.length_toList]
      rcases Nat.lt_or_ge (page.ordering declared).length bounds.size with hmany | hfew
      · rw [if_pos hmany] at hexcess
        cases hexcess
      · exact hfew

theorem uses_of_problems_eq_nil {page : Page b V} {args : SelectArgs b V}
    (hproblems : page.problems args.orderItems = []) (huses : page.Uses name) :
    args.Uses name := by
  obtain ⟨bound, hbound, hterm⟩ := huses
  obtain ⟨entry, hentry, hfollows⟩ := follows_of_problems_eq_nil hproblems bound hbound
  rw [follows, Bool.and_eq_true, Bool.and_eq_true] at hfollows
  have huses : entry.term.Uses name := OrderTerm.uses_of_same hfollows.1.1 hterm
  rw [ordering, List.mem_append] at hentry
  rcases hentry with hentry | hentry
  · obtain ⟨item, hitem, rfl⟩ := List.mem_map.mp hentry
    exact ⟨item, hitem, item.term.uses_erase.mp huses⟩
  · obtain ⟨info, -, rfl⟩ := List.mem_map.mp hentry
    exact huses.elim

end Page

theorem supported_of_operatorProblems {operators : List String}
    (hproblems : operatorProblems b operators = []) (hname : name ∈ operators) :
    b.supportsAggregate name = true := by
  rw [operatorProblems, List.map_eq_nil_iff, List.filter_eq_nil_iff] at hproblems
  simpa using hproblems name hname

namespace Selection

/-- The backend supports every operator of a part of a selection in which validation finds no
problem. -/
theorem supported_of_findings {part : Part} (tree : Selection b R V part) {catalog : Catalog b}
    {owner : Option (TableName b)} (hfindings : tree.findings catalog owner = [])
    (huses : tree.Uses name) : b.supportsAggregate name = true := by
  induction tree generalizing owner with
  | aggregates items =>
      rw [findings, List.map_eq_nil_iff] at hfindings
      exact supported_of_operatorProblems hfindings (Aggregates.mem_operators.mpr huses)
  | cons first fresh field rest ihField ihRest =>
      rw [findings, List.append_eq_nil_iff, List.map_eq_nil_iff] at hfindings
      exact huses.elim (ihField hfindings.1) (ihRest hfindings.2)
  | select fields query ih =>
      rw [findings, List.append_eq_nil_iff, List.map_eq_nil_iff] at hfindings
      exact huses.elim (ih hfindings.2) fun hargs =>
        supported_of_operatorProblems hfindings.1 (SelectArgs.mem_operators.mpr hargs)
  | page enabled window inner ih =>
      rw [findings, List.append_eq_nil_iff, List.map_eq_nil_iff] at hfindings
      refine huses.elim (fun hwindow => ih hfindings.2 ?_) (ih hfindings.2)
      -- what bounds the page is in the ordering of its select
      have hargs := Page.uses_of_problems_eq_nil hfindings.1 hwindow
      cases inner with
      | select fields query => exact Or.inr hargs
  | objectRelation relationship inner ih =>
      rw [findings, List.append_eq_nil_iff] at hfindings
      exact ih hfindings.2 huses
  | simple relationship inner ih =>
      rw [findings, List.append_eq_nil_iff] at hfindings
      exact ih hfindings.2 huses
  | aggregate relationship inner ih =>
      rw [findings, List.append_eq_nil_iff] at hfindings
      exact ih hfindings.2 huses
  | connection relationship inner ih =>
      rw [findings, List.append_eq_nil_iff] at hfindings
      exact ih hfindings.2 huses
  | object fields target filter ih => exact ih hfindings huses
  | nodes enabled fields ih => exact ih hfindings huses
  | node fields ih => exact ih hfindings huses
  | edges fields ih => exact ih hfindings huses
  | arrayRelation inner ih => exact ih hfindings huses
  | computedField enabled field inner ih => exact ih hfindings huses
  | table shape inner ih => exact ih hfindings huses
  | _ => exact huses.elim

/-- The backend supports every operator of a valid select. -/
theorem supported_of_validate {select : Select b R V} {catalog : Catalog b}
    (hvalid : select.validate catalog = .ok ()) (huses : select.Uses name) :
    b.supportsAggregate name = true := by
  rw [validate, Errors.toExcept_eq_ok_iff, List.map_eq_nil_iff] at hvalid
  exact supported_of_findings select hvalid huses

end Selection

end SelectPlan
