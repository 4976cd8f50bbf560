import SelectPlan.Planning.Validation
import SelectPlan.Proofs.Sameness.Terms

/-!
Which pages are accepted.  The bounds of a page come from one cursor: they lie on one side of it,
the side that the slice counts rows on, and the cursor has a value for every entry at the front of
the ordering.  Whatever is reported about a page is a way in which it fails to be like that, and
everything of that kind is reported, in a fixed order.
-/

namespace SelectPlan

variable {b : Backend} {R V : Type}

/-! What the rows of a connection are ordered by -/

/-- An entry that rows are ordered by: one that a select declares, or a column of the primary
key. -/
inductive OrderEntry (b : Backend) (V : Type) where
  | declared (item : OrderItem b V)
  | key (info : ColumnInfo b)

/-- An order runs in a direction: in the one that it is given, or upwards if it is given none. -/
inductive OrderItem.Runs (item : OrderItem b V) : Direction → Prop
  | given {direction : Direction} (hgiven : item.direction = some direction) : item.Runs direction
  | byDefault (hnone : item.direction = none) : item.Runs .asc

/-- A bound is on an entry: on the same term but for its values, in the same direction, and with
nulls at the same end.  A column of the primary key is never hidden and runs upwards. -/
inductive PageBound.On (bound : PageBound b V) : OrderEntry b V → Prop
  | declared {item : OrderItem b V} {direction : Direction}
      (hterm : bound.order.term.Matches item.term) (hbound : bound.order.Runs direction)
      (hitem : item.Runs direction) (hnulls : bound.order.nulls = item.nulls) :
      bound.On (.declared item)
  | key {info : ColumnInfo b} (hterm : bound.order.term = .column info .none)
      (hdirection : bound.order.Runs .asc) (hnulls : bound.order.nulls = none) :
      bound.On (.key info)

/-- The entries of a connection: those that its select declares, then the primary key. -/
def Page.entries (page : Page b V) (args : SelectArgs b V) : List (OrderEntry b V) :=
  (match args.orderBy with
    | some ⟨first, rest⟩ => .declared first :: rest.map .declared
    | none => []) ++ .key page.primaryKey.head :: page.primaryKey.tail.map .key

theorem OrderItem.runs_iff {item : OrderItem b V} {direction : Direction} :
    item.Runs direction ↔ item.effectiveDirection = direction := by
  rw [effectiveDirection]
  constructor
  · rintro (hgiven | hnone)
    · rw [hgiven, Option.getD_some]
    · rw [hnone, Option.getD_none]
  · rintro rfl
    cases hdirection : item.direction with
    | none => exact .byDefault hdirection
    | some direction => exact .given hdirection

/-- The entry as an item of an ordering without values. -/
def OrderEntry.item : OrderEntry b V → OrderItem b Unit
  | declared item => item.erase
  | key info => .asc (.onColumn info)

theorem OrderTerm.same_onColumn_iff {term : OrderTerm b Unit} {info : ColumnInfo b} :
    term.same (fun _ _ => true) (.onColumn info) = true ↔ term = .column info .none := by
  rw [onColumn]
  cases term with
  | column other redaction => cases redaction <;> simp [same, Redaction.same]
  | _ => simp [same]

theorem Page.follows_iff {bound : PageBound b V} {entry : OrderEntry b V} :
    follows bound entry.item = true ↔ bound.On entry := by
  rw [follows, Bool.and_eq_true, Bool.and_eq_true, beq_iff_eq, beq_iff_eq]
  cases entry with
  | declared item =>
      have hterm : bound.order.term.same (fun _ _ => true) item.erase.term = true ↔
          bound.order.term.Matches item.term := OrderTerm.same_erase_iff _ _
      have hdirection : item.erase.effectiveDirection = item.effectiveDirection := rfl
      rw [OrderEntry.item, hterm, hdirection]
      constructor
      · rintro ⟨⟨hmatches, hsame⟩, hnulls⟩
        exact .declared hmatches (OrderItem.runs_iff.mpr hsame) (OrderItem.runs_iff.mpr rfl) hnulls
      · rintro (⟨hmatches, hbound, hitem, hnulls⟩ | _)
        rw [OrderItem.runs_iff] at hbound hitem
        exact ⟨⟨hmatches, hbound.trans hitem.symm⟩, hnulls⟩
  | key info =>
      rw [OrderEntry.item, OrderItem.asc, OrderTerm.same_onColumn_iff]
      constructor
      · rintro ⟨⟨hterm, hdirection⟩, hnulls⟩
        exact .key hterm (OrderItem.runs_iff.mpr hdirection) hnulls
      · rintro (_ | ⟨hterm, hdirection, hnulls⟩)
        exact ⟨⟨hterm, OrderItem.runs_iff.mp hdirection⟩, hnulls⟩

instance (bound : PageBound b V) (entry : OrderEntry b V) : Decidable (bound.On entry) :=
  decidable_of_iff _ Page.follows_iff

theorem Page.ordering_eq (page : Page b V) (args : SelectArgs b V) :
    page.ordering args.orderItems = (page.entries args).map OrderEntry.item := by
  rw [ordering, entries, List.map_append, SelectArgs.orderItems]
  refine congrArg₂ (· ++ ·) ?_ ?_
  · cases args.orderBy with
    | none => rfl
    | some items => simp [NonEmpty.toList, OrderEntry.item]
  · simp [NonEmpty.toList, OrderEntry.item]

/-! What can be wrong with a page -/

/-- The side of a cursor on which rows are counted: the first rows are those after it, the last
rows those before it. -/
def PageSlice.side : PageSlice → BoundKind
  | first _ => .after
  | last _ => .before

/-- What can be wrong with a page. -/
inductive PageFault where
  /-- Some bounds are before a cursor and some after it. -/
  | mixed
  /-- The rows are counted on the other side of the cursor. -/
  | contrary (slice : PageSlice)
  /-- There are more bounds than entries to be bounded in. -/
  | tooMany (available found : Nat)
  /-- The bound at a position, counted from one, is not on the entry there. -/
  | misplaced (position : Nat)

namespace PageFault

/-- Why a page is rejected. -/
def reason : PageFault → Reason
  | mixed => .simple "connection split conditions mix `before` and `after`"
  | contrary (.first _) => .expected (some "`first`") "an `after` cursor" "a `before` cursor"
  | contrary (.last _) => .expected (some "`last`") "a `before` cursor" "an `after` cursor"
  | tooMany available found =>
      .expected (some "cursor") ("at most " ++ toString available ++ " split conditions")
        (toString found)
  | misplaced position =>
      .simple ("connection split condition " ++ toString position ++
        " does not follow the ordering of the connection")

/-- What the reader is advised to do. -/
def hints : PageFault → List String
  | contrary (.first _) => ["use `last` to page backwards"]
  | contrary (.last _) => ["use `first` to page forwards"]
  | mixed | tooMany _ _ | misplaced _ => []

/-- The error that reports a fault.  It says nothing about the place of the connection. -/
def report (fault : PageFault) : Error :=
  { severity := .error, reason := fault.reason, hints := fault.hints, code := none, path := [] }

/-- The place of a fault in the order of reporting. -/
def place : PageFault → Nat
  | mixed => 0
  | contrary _ => 1
  | tooMany _ _ => 2
  | misplaced position => position + 2

/-- The problem that validation finds. -/
def problem : PageFault → Problem b
  | mixed => .mixedBounds
  | contrary (.first _) => .firstBefore
  | contrary (.last _) => .lastAfter
  | tooMany available found => .tooManyBounds available found
  | misplaced position => .misplacedBound position

theorem error_problem (fault : PageFault) : (fault.problem : Problem b).error = fault.report := by
  cases fault with
  | contrary slice => cases slice <;> rfl
  | _ => rfl

end PageFault

namespace Page

variable {page : Page b V} {ordering : List (OrderEntry b V)}

/-- A page without bounds, or one whose bounds are on one side of a cursor, the side of the slice,
and are on the entries at the front of the ordering, one on each. -/
inductive WellFormed (page : Page b V) (ordering : List (OrderEntry b V)) : Prop
  | unbounded (hbounds : page.bounds = none)
  | bounded {bounds : NonEmpty (PageBound b V)} {side : BoundKind}
      {front rest : List (OrderEntry b V)} (hbounds : page.bounds = some bounds)
      (hside : ∀ bound ∈ bounds.toList, bound.kind = side)
      (hslice : ∀ slice ∈ page.slice, slice.side = side)
      (hordering : ordering = front ++ rest)
      (hon : List.Forall₂ PageBound.On bounds.toList front)

/-- Some bounds of a page are before the cursor and some after it. -/
def Mixed (page : Page b V) : Prop :=
  ∃ x ∈ page.boundList, ∃ y ∈ page.boundList, x.kind ≠ y.kind

/-- The slice counts rows on the other side of the cursor than the first bound. -/
def Contradictory (page : Page b V) : Prop :=
  ∃ slice ∈ page.slice, ∃ bound ∈ page.boundList.head?, bound.kind ≠ slice.side

instance : DecidablePred (Mixed (b := b) (V := V)) := fun page =>
  inferInstanceAs (Decidable (∃ x ∈ page.boundList, ∃ y ∈ page.boundList, x.kind ≠ y.kind))

instance : DecidablePred (Contradictory (b := b) (V := V)) := fun page =>
  inferInstanceAs
    (Decidable (∃ slice ∈ page.slice, ∃ bound ∈ page.boundList.head?, bound.kind ≠ slice.side))

/-- The ways in which a page can fail to be well formed. -/
inductive Has (page : Page b V) (ordering : List (OrderEntry b V)) : PageFault → Prop
  | mixed (hmixed : page.Mixed) : Has page ordering .mixed
  | contrary {slice : PageSlice} {bound : PageBound b V} (hslice : slice ∈ page.slice)
      (hbound : bound ∈ page.boundList.head?) (hside : bound.kind ≠ slice.side) :
      Has page ordering (.contrary slice)
  | tooMany (hmore : ordering.length < page.boundList.length) :
      Has page ordering (.tooMany ordering.length page.boundList.length)
  | misplaced {index : Nat} {bound : PageBound b V} {entry : OrderEntry b V}
      (hbound : page.boundList[index]? = some bound) (hentry : ordering[index]? = some entry)
      (hon : ¬ bound.On entry) : Has page ordering (.misplaced (index + 1))

/-! The positions of bounds that are misplaced -/

section

variable {start position : Nat} {bounds : List (PageBound b V)} {entries : List (OrderEntry b V)}

theorem mem_misplaced_iff : position ∈ misplaced start bounds (entries.map OrderEntry.item) ↔
    ∃ index bound entry, position = start + index ∧ bounds[index]? = some bound ∧
      entries[index]? = some entry ∧ ¬ bound.On entry := by
  induction bounds generalizing start entries with
  | nil => simp [misplaced]
  | cons bound bounds ih =>
      cases entries with
      | nil => simp [misplaced]
      | cons entry entries =>
          have hbehind : position ∈ misplaced (start + 1) bounds (entries.map OrderEntry.item) ↔
              ∃ index bound entry, position = start + (index + 1) ∧ bounds[index]? = some bound ∧
                entries[index]? = some entry ∧ ¬ bound.On entry := by
            simp only [ih, Nat.add_assoc, Nat.add_comm 1]
          have hfirst : follows bound entry.item = true ↔ bound.On entry := follows_iff
          -- the position is that of the first bound or of one behind it
          rw [List.map_cons, misplaced, ← Nat.or_exists_add_one]
          split
          · next hfollows => simp [hbehind, hfirst.mp hfollows]
          · next hfollows => simp [hbehind, mt hfirst.mpr hfollows]

theorem pairwise_misplaced :
    (misplaced start bounds (entries.map OrderEntry.item)).Pairwise (· < ·) := by
  induction bounds generalizing start entries with
  | nil => exact .nil
  | cons bound bounds ih =>
      cases entries with
      | nil => exact .nil
      | cons entry entries =>
          rw [List.map_cons, misplaced]
          split
          · exact ih
          · refine List.pairwise_cons.mpr ⟨fun position hposition => ?_, ih⟩
            obtain ⟨index, -, -, rfl, -⟩ := mem_misplaced_iff.mp hposition
            omega

theorem length_misplaced (start : Nat) :
    (misplaced start bounds (entries.map OrderEntry.item)).length =
      (bounds.zip entries).countP fun pair => ¬ pair.1.On pair.2 := by
  induction bounds generalizing start entries with
  | nil => rfl
  | cons bound bounds ih =>
      cases entries with
      | nil => rfl
      | cons entry entries =>
          have hfirst : follows bound entry.item = true ↔ bound.On entry := follows_iff
          rw [List.map_cons, misplaced, List.zip_cons_cons]
          split
          · next hfollows =>
            rw [ih, List.countP_cons_of_neg (by simpa using hfirst.mp hfollows)]
          · next hfollows =>
            rw [List.length_cons, ih,
              List.countP_cons_of_pos (by simpa using mt hfirst.mpr hfollows)]

/-- No bound is misplaced or left over if the bounds are on the entries at the front. -/
theorem misplaced_eq_nil_iff (start : Nat) :
    misplaced start bounds (entries.map OrderEntry.item) = [] ∧
        bounds.length ≤ entries.length ↔
      ∃ front rest, entries = front ++ rest ∧ List.Forall₂ PageBound.On bounds front := by
  induction bounds generalizing start entries with
  | nil => exact iff_of_true ⟨rfl, Nat.zero_le _⟩ ⟨[], entries, rfl, .nil⟩
  | cons bound bounds ih =>
      cases entries with
      | nil =>
          refine iff_of_false (fun hnil => absurd hnil.2 (Nat.not_succ_le_zero _)) ?_
          rintro ⟨front, rest, hentries, hon⟩
          obtain ⟨rfl, rfl⟩ := List.append_eq_nil_iff.mp hentries.symm
          cases hon
      | cons entry entries =>
          rw [List.map_cons, misplaced, List.length_cons, List.length_cons,
            Nat.add_le_add_iff_right]
          constructor
          · rintro ⟨hnil, hlength⟩
            split at hnil
            · next hfollows =>
              obtain ⟨front, rest, rfl, hon⟩ := (ih (start + 1)).mp ⟨hnil, hlength⟩
              exact ⟨entry :: front, rest, rfl, .cons (follows_iff.mp hfollows) hon⟩
            · cases hnil
          · rintro ⟨front, rest, hentries, hon⟩
            cases hon with
            | cons hbound hon =>
                obtain ⟨rfl, rfl⟩ := List.cons_eq_cons.mp hentries
                rw [if_pos (follows_iff.mpr hbound)]
                exact (ih (start + 1)).mpr ⟨_, _, rfl, hon⟩

end

/-! The faults of a page -/

/-- What is reported, in terms of what a page is rather than of how it is checked. -/
def faults (page : Page b V) (ordering : List (OrderEntry b V)) : List PageFault :=
  (if page.Mixed then [.mixed] else []) ++
  (if page.Contradictory then page.slice.toList.map .contrary else []) ++
  (if ordering.length < page.boundList.length then
    [.tooMany ordering.length page.boundList.length] else []) ++
  (misplaced 1 page.boundList (ordering.map OrderEntry.item)).map .misplaced

theorem boundList_of_none (hbounds : page.bounds = none) : page.boundList = [] := by
  rw [boundList, hbounds]

theorem boundList_of_some {bounds : NonEmpty (PageBound b V)}
    (hbounds : page.bounds = some bounds) : page.boundList = bounds.toList := by
  rw [boundList, hbounds]

theorem mixed_iff {bounds : NonEmpty (PageBound b V)} (hbounds : page.bounds = some bounds) :
    page.Mixed ↔ ∃ bound ∈ bounds.toList, bound.kind ≠ bounds.head.kind := by
  rw [Mixed, boundList_of_some hbounds]
  constructor
  · rintro ⟨x, hx, y, hy, hkinds⟩
    by_cases hfirst : x.kind = bounds.head.kind
    · exact ⟨y, hy, fun hsame => hkinds (hfirst.trans hsame.symm)⟩
    · exact ⟨x, hx, hfirst⟩
  · rintro ⟨bound, hbound, hkind⟩
    exact ⟨bound, hbound, bounds.head, List.mem_cons_self, hkind⟩

theorem contradictory_iff {bounds : NonEmpty (PageBound b V)}
    (hbounds : page.bounds = some bounds) :
    page.Contradictory ↔ ∃ slice ∈ page.slice, bounds.head.kind ≠ slice.side := by
  rw [Contradictory, boundList_of_some hbounds]
  simp [NonEmpty.toList]

/-- Validation finds the faults of a page. -/
theorem problems_eq (args : SelectArgs b V) :
    page.problems args.orderItems = (page.faults (page.entries args)).map PageFault.problem := by
  cases hbounds : page.bounds with
  | none =>
      have hlist := boundList_of_none hbounds
      simp [problems, faults, hbounds, Mixed, Contradictory, hlist, misplaced]
  | some bounds =>
      rw [problems, hbounds, faults, boundList_of_some hbounds, NonEmpty.length_toList]
      simp only [mixed_iff hbounds, contradictory_iff hbounds, List.any_eq_true, bne_iff_ne,
        ordering_eq, List.length_map, List.map_append, List.map_map]
      congr 3
      · split <;> rfl
      · rcases page.slice with _ | ⟨_ | _⟩ <;> cases bounds.head.kind <;>
          simp [PageSlice.side, PageFault.problem]
      · split <;> rfl

theorem mem_faults_iff {fault : PageFault} :
    fault ∈ page.faults ordering ↔ page.Has ordering fault := by
  simp only [faults, List.mem_append, List.mem_map, List.mem_ite_nil_right,
    List.mem_singleton, Option.mem_toList]
  constructor
  · rintro (((⟨hmixed, rfl⟩ | ⟨⟨slice, hslice, bound, hbound, hside⟩, _, hsame, rfl⟩) |
      ⟨hmore, rfl⟩) | ⟨position, hposition, rfl⟩)
    · exact .mixed hmixed
    · cases hslice.symm.trans hsame
      exact .contrary hslice hbound hside
    · exact .tooMany hmore
    · obtain ⟨index, bound, entry, rfl, hbound, hentry, hon⟩ := mem_misplaced_iff.mp hposition
      rw [Nat.add_comm]
      exact .misplaced hbound hentry hon
  · intro hhas
    cases hhas with
    | mixed hmixed => exact .inl (.inl (.inl ⟨hmixed, rfl⟩))
    | contrary hslice hbound hside =>
        exact .inl (.inl (.inr ⟨⟨_, hslice, _, hbound, hside⟩, _, hslice, rfl⟩))
    | tooMany hmore => exact .inl (.inr ⟨hmore, rfl⟩)
    | misplaced hbound hentry hon =>
        exact .inr ⟨_, mem_misplaced_iff.mpr ⟨_, _, _, Nat.add_comm _ _, hbound, hentry, hon⟩, rfl⟩

theorem length_faults (page : Page b V) (ordering : List (OrderEntry b V)) :
    (page.faults ordering).length =
      (if page.Mixed then 1 else 0) + (if page.Contradictory then 1 else 0) +
      (if ordering.length < page.boundList.length then 1 else 0) +
      (page.boundList.zip ordering).countP fun pair => ¬ pair.1.On pair.2 := by
  have hcontrary : (if page.Contradictory then page.slice.toList.map PageFault.contrary
      else []).length = if page.Contradictory then 1 else 0 := by
    split
    · next hcontradictory =>
      obtain ⟨slice, hslice, -⟩ := hcontradictory
      rw [show page.slice = some slice from hslice]
      rfl
    · rfl
  rw [faults, List.length_append, List.length_append, List.length_append, hcontrary,
    List.length_map, length_misplaced]
  congr 2
  · congr 1
    split <;> rfl
  · split <;> rfl

theorem pairwise_faults (page : Page b V) (ordering : List (OrderEntry b V)) :
    (page.faults ordering).Pairwise fun x y => x.place < y.place := by
  have hmixed : ∀ fault ∈ if page.Mixed then [PageFault.mixed] else [], fault.place = 0 := by
    simp [PageFault.place]
  have hcontrary : ∀ fault ∈ if page.Contradictory then page.slice.toList.map PageFault.contrary
      else [], fault.place = 1 := by
    rcases page.slice with _ | slice <;> simp [PageFault.place]
  have hmore : ∀ fault ∈ if ordering.length < page.boundList.length then
      [PageFault.tooMany ordering.length page.boundList.length] else [], fault.place = 2 := by
    simp [PageFault.place]
  have hmisplaced : ∀ fault ∈ (misplaced 1 page.boundList (ordering.map OrderEntry.item)).map
      PageFault.misplaced, 2 < fault.place := by
    intro fault hfault
    obtain ⟨position, hposition, rfl⟩ := List.mem_map.mp hfault
    obtain ⟨index, -, -, rfl, -⟩ := mem_misplaced_iff.mp hposition
    rw [PageFault.place]
    omega
  simp only [faults, List.pairwise_append, List.mem_append]
  refine ⟨⟨⟨?_, ?_, fun x hx y hy => ?_⟩, ?_, fun x hx y hy => ?_⟩, ?_, fun x hx y hy => ?_⟩
  · split <;> simp
  · rcases page.slice with _ | slice <;> split <;> simp
  · rw [hmixed x hx, hcontrary y hy]
    exact Nat.one_pos
  · split <;> simp
  · have hplace := hx.imp (hmixed x) (hcontrary x)
    rw [hmore y hy]
    omega
  · rw [List.pairwise_map]
    exact pairwise_misplaced.imp fun hlt => Nat.add_lt_add_right hlt 2
  · have hplace := hx.imp (Or.imp (hmixed x) (hcontrary x)) (hmore x)
    have hlast := hmisplaced y hy
    omega

theorem wellFormed_iff : page.WellFormed ordering ↔ ¬ page.Mixed ∧ ¬ page.Contradictory ∧
    ∃ front rest, ordering = front ++ rest ∧ List.Forall₂ PageBound.On page.boundList front := by
  cases hbounds : page.bounds with
  | none =>
      have hlist := boundList_of_none hbounds
      refine iff_of_true (.unbounded hbounds) ⟨?_, ?_, [], ordering, rfl, ?_⟩
      · simp [Mixed, hlist]
      · simp [Contradictory, hlist]
      · rw [hlist]
        exact .nil
  | some bounds =>
      rw [mixed_iff hbounds, contradictory_iff hbounds, boundList_of_some hbounds]
      push Not
      constructor
      · intro hpage
        cases hpage with
        | unbounded hnone => cases hbounds.symm.trans hnone
        | bounded hsome hside hslice hordering hon =>
            cases hbounds.symm.trans hsome
            have hfirst := hside _ List.mem_cons_self
            exact ⟨fun bound hbound => (hside bound hbound).trans hfirst.symm,
              fun slice hmem => hfirst.trans (hslice slice hmem).symm, _, _, hordering, hon⟩
      · rintro ⟨hside, hslice, front, rest, hordering, hon⟩
        exact .bounded hbounds hside (fun slice hmem => (hslice slice hmem).symm) hordering hon

theorem faults_eq_nil_iff : page.faults ordering = [] ↔ page.WellFormed ordering := by
  rw [← List.length_eq_zero_iff, length_faults, ← length_misplaced 1, wellFormed_iff,
    ← misplaced_eq_nil_iff 1, ← List.length_eq_zero_iff, ← Nat.not_lt]
  split_ifs with hmixed hcontradictory hmore hmore <;> simp [*]

/-! The direction of a page -/

theorem isBackwards_iff : page.isBackwards = true ↔
    (∃ count, page.slice = some (.last count)) ∨
      ∃ bound ∈ page.boundList.head?, bound.kind = .before := by
  rw [isBackwards, boundList, Bool.or_eq_true]
  refine or_congr ?_ ?_
  · rcases page.slice with _ | ⟨_ | _⟩ <;> simp
  · cases page.bounds <;> simp [NonEmpty.toList]

/-- A well-formed page lies on one side of its cursor. -/
theorem WellFormed.exists_side (hpage : page.WellFormed ordering) :
    ∃ side, (∀ slice ∈ page.slice, slice.side = side) ∧
      (∀ bound ∈ page.boundList, bound.kind = side) ∧
      (page.isBackwards = true ↔ side = .before) := by
  rw [isBackwards_iff, boundList]
  cases hpage with
  | unbounded hbounds =>
      rw [hbounds]
      rcases page.slice with _ | ⟨count | count⟩
      · exact ⟨.after, by simp⟩
      · exact ⟨.after, by simp [PageSlice.side]⟩
      · exact ⟨.before, by simp [PageSlice.side]⟩
  | @bounded bounds side _ _ hbounds hside hslice _ _ =>
      rw [hbounds]
      refine ⟨side, hslice, hside, ?_⟩
      have hfirst : bounds.head.kind = side := hside _ List.mem_cons_self
      constructor
      · rintro (⟨count, hlast⟩ | ⟨bound, hbound, hkind⟩)
        · exact (hslice _ hlast).symm
        · cases hbound
          exact hfirst.symm.trans hkind
      · rintro rfl
        exact .inr ⟨bounds.head, rfl, hfirst⟩

end Page

namespace Selection

/-- The page of a connection. -/
def window : ConnectionSelect b R V → Page b V
  | page _ window _ => window

/-- The entries that the rows of a connection are ordered by. -/
def pageOrdering : ConnectionSelect b R V → List (OrderEntry b V)
  | page _ window (select _ query) => window.entries query.args

theorem validatePage_eq (connection : ConnectionSelect b R V) :
    connection.validatePage = Errors.toExcept
      ⟨(connection.window.faults connection.pageOrdering).map PageFault.report⟩ := by
  cases connection with
  | page enabled window inner =>
      cases inner with
      | select fields query =>
          change Errors.toExcept ⟨(window.problems query.args.orderItems).map Problem.error⟩ = _
          rw [Page.problems_eq, List.map_map]
          exact congrArg (fun error => Errors.toExcept ⟨List.map error _⟩)
            (funext PageFault.error_problem)

/-- A connection is accepted exactly if its page is well formed.  Otherwise every way in which the
page fails to be so is reported once: bounds on both sides, a slice on the other side than the
first bound, more bounds than entries, then each bound that is not on its entry, by its position.
An accepted page is read backwards exactly if it has the last rows or rows before a cursor, and
then nothing about it asks for the first rows or for rows after a cursor. -/
theorem validatePage_accepts_wellFormed_pages (connection : ConnectionSelect b R V) :
    let window := connection.window
    let ordering := connection.pageOrdering
    (connection.validatePage = .ok () ↔ window.WellFormed ordering) ∧
    (∀ errors, connection.validatePage = .error errors →
      (∃ faults : List PageFault, errors.list = faults.map PageFault.report ∧
        (∀ fault, fault ∈ faults ↔ window.Has ordering fault) ∧
        faults.Pairwise fun x y => x.place < y.place) ∧
      errors.list.length =
        (if window.Mixed then 1 else 0) + (if window.Contradictory then 1 else 0) +
        (if ordering.length < window.boundList.length then 1 else 0) +
        (window.boundList.zip ordering).countP fun (bound, entry) => ¬ bound.On entry) ∧
    (connection.validatePage = .ok () →
      (window.isBackwards = true ↔ (∃ count, window.slice = some (.last count)) ∨
        ∃ bound ∈ window.boundList, bound.kind = .before) ∧
      (window.boundList ≠ [] → ((∃ bound ∈ window.boundList, bound.kind = .before) ↔
        ∀ bound ∈ window.boundList, bound.kind = .before)) ∧
      ∃ side, (∀ slice ∈ window.slice, slice.side = side) ∧
        (∀ bound ∈ window.boundList, bound.kind = side) ∧
        (window.isBackwards = true ↔ side = .before)) := by
  intro window ordering
  have haccepts : connection.validatePage = .ok () ↔ window.WellFormed ordering := by
    rw [validatePage_eq, Errors.toExcept_eq_ok_iff, List.map_eq_nil_iff, Page.faults_eq_nil_iff]
  refine ⟨haccepts, fun errors herrors => ?_, fun hok => ?_⟩
  · rw [validatePage_eq, Errors.toExcept_eq_error_iff] at herrors
    rw [herrors.2]
    refine ⟨⟨_, rfl, fun fault => Page.mem_faults_iff, Page.pairwise_faults _ _⟩, ?_⟩
    rw [List.length_map, Page.length_faults]
  · obtain ⟨side, hslice, hside, hbackwards⟩ := (haccepts.mp hok).exists_side
    refine ⟨?_, fun hbounds => ?_, side, hslice, hside, hbackwards⟩
    · constructor
      · exact fun hback => (Page.isBackwards_iff.mp hback).imp_right
          fun ⟨bound, hbound, hkind⟩ => ⟨bound, List.mem_of_mem_head? hbound, hkind⟩
      · rw [hbackwards]
        rintro (⟨count, hlast⟩ | ⟨bound, hbound, hkind⟩)
        · exact (hslice _ hlast).symm
        · exact (hside bound hbound).symm.trans hkind
    · obtain ⟨bound, hbound⟩ := List.exists_mem_of_ne_nil _ hbounds
      constructor
      · rintro ⟨other, hother, hkind⟩ third hthird
        exact (hside third hthird).trans ((hside other hother).symm.trans hkind)
      · intro hall
        exact ⟨bound, hbound, hall bound hbound⟩

/-- Columns of books and of their authors. -/
def shelfColumn (name : String) : ColumnInfo .postgres :=
  { column := ⟨name⟩, type := .enumReference name }

/-- The name of the author of a book in a region. -/
def shelfAuthor {V : Type} (mapping : List (ColumnName × ColumnName)) (region : V) :
    OrderTerm .postgres V :=
  .objectRelation
    { name := ⟨"author"⟩, kind := .object, mapping := .ofList mapping
      target := .qualified ⟨"library", "author"⟩ flat_postgres }
    (.onColumn (shelfColumn "region") (.equals region)) (.onColumn (shelfColumn "name"))

/-- Books by the names of their authors in the north, under each from the latest title to the
first, then by identifier. -/
def shelf (bounds : NonEmpty (PageBound .postgres String)) (slice : PageSlice) :
    ConnectionSelect .postgres String String :=
  let author := shelfAuthor [(⟨"author"⟩, ⟨"id"⟩), (⟨"house"⟩, ⟨"house"⟩)] "north"
  .page relay_postgres
    { primaryKey := .singleton (shelfColumn "id"), bounds := some bounds, slice := some slice }
    (.select .nil {
      source := .identifier ⟨"book"⟩
      permission := .unrestricted
      args := { orderBy := some ⟨{ term := author }, [.desc (.onColumn (shelfColumn "title"))]⟩ } })

theorem validatePage_shelf :
    let bound (kind : BoundKind) (order : OrderItem .postgres Unit) : PageBound .postgres String :=
      { kind, value := "cursor", order }
    let author (direction : Option Direction) : OrderItem .postgres Unit :=
      { term := shelfAuthor [(⟨"house"⟩, ⟨"house"⟩), (⟨"author"⟩, ⟨"id"⟩)] (), direction }
    let title (direction : Option Direction) (nulls : Option NullsOrder) :
        OrderItem .postgres Unit :=
      { term := .onColumn (shelfColumn "title"), direction, nulls }
    let id : OrderItem .postgres Unit := { term := .onColumn (shelfColumn "id") }
    -- a cursor of the shelf, with and without the directions that are the default
    let accepted := shelf ⟨bound .before (author (some .asc)),
      [bound .before (title (some .desc) none), bound .before id]⟩ (.last 10)
    -- a bound in the default direction, where titles run downwards
    let upwards := shelf ⟨bound .after (author none), [bound .after (title none none)]⟩ (.first 10)
    -- a bound against the direction, one with nulls elsewhere, one on another column, one too many
    let rejected := shelf ⟨bound .before (author (some .desc)),
      [bound .after (title (some .desc) (some .first)), bound .before (title (some .desc) none),
        bound .before id]⟩ (.first 10)
    (accepted.window.WellFormed accepted.pageOrdering ∧ accepted.window.isBackwards = true) ∧
    (¬ upwards.window.WellFormed upwards.pageOrdering ∧ upwards.validatePage = .error ⟨[
      { reason := .simple
          "connection split condition 2 does not follow the ordering of the connection" }]⟩) ∧
    ∃ (errors : Errors) (faults : List PageFault), rejected.validatePage = .error errors ∧
      errors.list = [
        { reason := .simple "connection split conditions mix `before` and `after`" },
        { reason := .expected (some "`first`") "an `after` cursor" "a `before` cursor"
          hints := ["use `last` to page backwards"] },
        { reason := .expected (some "cursor") "at most 3 split conditions" "4" },
        { reason := .simple
            "connection split condition 1 does not follow the ordering of the connection" },
        { reason := .simple
            "connection split condition 2 does not follow the ordering of the connection" },
        { reason := .simple
            "connection split condition 3 does not follow the ordering of the connection" }] ∧
      errors.list = faults.map PageFault.report ∧
      ∀ fault, fault ∈ faults ↔ rejected.window.Has rejected.pageOrdering fault := by
  intro bound author title id accepted upwards rejected
  have hok : accepted.validatePage = .ok () := rfl
  have hupwards : upwards.validatePage = .error _ := rfl
  have hrejected : rejected.validatePage = .error _ := rfl
  obtain ⟨haccepts, -, hdirection⟩ := validatePage_accepts_wellFormed_pages accepted
  obtain ⟨hbackwards, -⟩ := hdirection hok
  obtain ⟨hrejects, -⟩ := validatePage_accepts_wellFormed_pages upwards
  obtain ⟨-, hreported, -⟩ := validatePage_accepts_wellFormed_pages rejected
  obtain ⟨⟨faults, hlist, hhas, -⟩, -⟩ := hreported _ hrejected
  refine ⟨⟨haccepts.mp hok, hbackwards.mpr (.inl ⟨10, rfl⟩)⟩, ⟨fun hpage => ?_, hupwards⟩,
    _, faults, hrejected, by decide, hlist, hhas⟩
  cases (hrejects.mpr hpage).symm.trans hupwards

end Selection

end SelectPlan
