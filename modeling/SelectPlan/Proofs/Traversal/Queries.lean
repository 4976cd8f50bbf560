import SelectPlan.Proofs.Traversal.Values

/-!
The traversals of what surrounds the fields of a select: where its rows come from, which of them
are visible, how they are filtered, ordered and cut into pages.
-/

namespace SelectPlan

variable {F : Type → Type} [Applicative F] [LawfulApplicative F] {b : Backend} {V W : Type}

/-- A map of values visits them in insertion order. -/
theorem Visits.mapValues {K : Type} (g : V → F W) (map : OrderedMap K V) :
    Visits g map.values OrderedMap.values (OrderedMap.map fun _ => ())
      (map.map fun _ => ()) (map.traverse g) := by
  have hvalue : ∀ value, Visits g [value] (fun result => [result]) (fun _ => ()) () (g value) :=
    Visits.leaf
  simpa only [List.flatMap_singleton'] using Visits.orderedMap hvalue map

namespace Source

theorem erased_nativeQuery (name : NativeQueryName) (arguments : OrderedMap String V) :
    erased traverse (nativeQuery name arguments : Source b V) =
      nativeQuery name (arguments.map fun _ => ()) := by
  rw [erased, traverse, OrderedMap.traverse_id]
  rfl

theorem traverse_visits (g : V → F W) (source : Source b V) :
    Visits g source.values values (erased traverse) (erased traverse source)
      (source.traverse g) := by
  cases source with
  | table name => exact .pure rfl rfl
  | identifier name => exact .pure rfl rfl
  | function name arguments definition =>
      exact .map (function name · definition) (arguments.traverse_visits g) (fun _ => rfl)
        (fun _ => rfl)
  | nativeQuery name arguments =>
      rw [erased_nativeQuery]
      exact .map (nativeQuery name) (.mapValues g arguments) (fun _ => rfl)
        (fun _ => erased_nativeQuery name _)

theorem table?_erased (source : Source b V) :
    (erased traverse source).table? = source.table? := by
  cases source <;> rfl

end Source

theorem RowPermission.traverse_visits (g : V → F W) (permission : RowPermission b V) :
    Visits g permission.values values (erased traverse) (erased traverse permission)
      (permission.traverse g) :=
  .map (mk · permission.limit) (permission.filter.traverse_visits g) (fun _ => rfl)
    (fun _ => rfl)

namespace SelectArgs

theorem orderItems_flatMap (args : SelectArgs b V) :
    args.orderItems.flatMap OrderItem.values =
      args.orderBy.toList.flatMap fun items => items.toList.flatMap OrderItem.values := by
  cases horder : args.orderBy with
  | none => rw [orderItems, horder]; rfl
  | some items => rw [orderItems, horder, Option.toList_some, List.flatMap_singleton]

theorem erased_eq (args : SelectArgs b V) :
    erased traverse args = ⟨args.filter.map (erased Predicate.traverse),
      args.orderBy.map (NonEmpty.map (erased OrderItem.traverse)), args.limit, args.offset,
      args.distinct⟩ := by
  rw [erased, traverse, optionMapA_id, optionMapA_id, NonEmpty.traverse_id]
  rfl

theorem traverse_visits (g : V → F W) (args : SelectArgs b V) :
    Visits g args.values values (erased traverse) (erased traverse args) (args.traverse g) := by
  rw [erased_eq, values, orderItems_flatMap]
  refine .seq (mk · · args.limit args.offset args.distinct)
    (.option (Predicate.traverse_visits g) args.filter)
    (.option (.nonEmpty (OrderItem.traverse_visits g)) args.orderBy) ?_ (fun _ _ => erased_eq _)
  intro filter orderBy
  rw [values, orderItems_flatMap]

theorem orderItems_erased (args : SelectArgs b V) :
    (erased traverse args).orderItems = args.orderItems.map (erased OrderItem.traverse) := by
  rw [erased_eq, orderItems, orderItems]
  cases args.orderBy <;> rfl

end SelectArgs

theorem Query.traverse_visits (g : V → F W) (query : Query b V) :
    Visits g query.values values (erased traverse) (erased traverse query) (query.traverse g) :=
  .seq₃ (mk · · · query.numbers query.naming) (query.source.traverse_visits g)
    (query.permission.traverse_visits g) (query.args.traverse_visits g) (fun _ _ _ => rfl)
    (fun _ _ _ => rfl)

/-! Pages and streams -/

theorem PageBound.traverse_visits (g : V → F W) (bound : PageBound b V) :
    Visits g bound.values values (erased traverse) (erased traverse bound) (bound.traverse g) :=
  .map (mk bound.kind · bound.order) (.leaf bound.value) (fun _ => rfl) (fun _ => rfl)

namespace Page

theorem values_eq (page : Page b V) :
    page.values = page.bounds.toList.flatMap fun bounds =>
      bounds.toList.flatMap PageBound.values := by
  cases hbounds : page.bounds with
  | none => rw [values, boundList, hbounds]; rfl
  | some bounds => rw [values, boundList, hbounds, Option.toList_some, List.flatMap_singleton]

theorem erased_eq (page : Page b V) :
    erased traverse page = ⟨page.primaryKey,
      page.bounds.map (NonEmpty.map (erased PageBound.traverse)), page.slice⟩ := by
  rw [erased, traverse, optionMapA_id, NonEmpty.traverse_id]
  rfl

theorem traverse_visits (g : V → F W) (page : Page b V) :
    Visits g page.values values (erased traverse) (erased traverse page) (page.traverse g) := by
  rw [erased_eq, values_eq]
  exact .map (mk page.primaryKey · page.slice)
    (.option (.nonEmpty (PageBound.traverse_visits g)) page.bounds) (fun _ => values_eq _)
    (fun _ => erased_eq _)

theorem boundList_erased (page : Page b V) :
    (erased traverse page).boundList = page.boundList.map (erased PageBound.traverse) := by
  rw [erased_eq, boundList, boundList]
  cases page.bounds <;> rfl

end Page

namespace StreamArgs

theorem erased_eq (args : StreamArgs b V) :
    erased traverse args = ⟨args.filter.map (erased Predicate.traverse), args.batchSize,
      ⟨args.cursor.ordering, args.cursor.column, ()⟩⟩ := by
  rw [erased, traverse, optionMapA_id]
  rfl

theorem traverse_visits (g : V → F W) (args : StreamArgs b V) :
    Visits g args.values values (erased traverse) (erased traverse args) (args.traverse g) := by
  rw [erased_eq]
  exact .seq (fun filter _ => mk filter args.batchSize
      ⟨args.cursor.ordering, args.cursor.column, ()⟩)
    (.option (Predicate.traverse_visits g) args.filter) (.leaf args.cursor.initialValue)
    (fun _ _ => rfl) (fun _ _ => erased_eq _)

end StreamArgs

end SelectPlan
