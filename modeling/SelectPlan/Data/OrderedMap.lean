import SelectPlan.Json.Basic

/-!
Maps that remember the order in which their keys were inserted.

The keys of a map are part of the type of its entries, and no key occurs twice.  A function that
keeps the type therefore keeps the keys and their order.
-/

namespace SelectPlan

/-- Values under distinct keys, in the order of the keys. -/
inductive Entries (K A : Type) : List K → Type where
  | nil : Entries K A []
  | cons {keys : List K} (key : K) (fresh : key ∉ keys) (value : A) (rest : Entries K A keys) :
      Entries K A (key :: keys)

namespace Entries

variable {K A B : Type} {keys : List K}

/-- The entries as pairs. -/
def toList : {keys : List K} → Entries K A keys → List (K × A)
  | _, nil => []
  | _, cons key _ value rest => (key, value) :: rest.toList

/-- The values in order. -/
def values : {keys : List K} → Entries K A keys → List A
  | _, nil => []
  | _, cons _ _ value rest => value :: rest.values

/-- Applies a function to every value. -/
def map (f : A → B) : {keys : List K} → Entries K A keys → Entries K B keys
  | _, nil => nil
  | _, cons key fresh value rest => cons key fresh (f value) (rest.map f)

/-- Runs an effect on every value, first to last. -/
def traverse {F : Type → Type} [Applicative F] (f : A → F B) :
    {keys : List K} → Entries K A keys → F (Entries K B keys)
  | _, nil => pure nil
  | _, cons key fresh value rest => cons key fresh <$> f value <*> rest.traverse f

/-- Runs an effect on every entry, first to last. -/
def traverseKeyed {F : Type → Type} [Applicative F] (f : K → A → F B) :
    {keys : List K} → Entries K A keys → F (Entries K B keys)
  | _, nil => pure nil
  | _, cons key fresh value rest => cons key fresh <$> f key value <*> rest.traverseKeyed f

/-- The value under a key. -/
def find? [DecidableEq K] (key : K) : {keys : List K} → Entries K A keys → Option A
  | _, nil => none
  | _, cons other _ value rest => if other = key then some value else rest.find? key

/-- The first entry that satisfies a test. -/
def findEntry? (test : A → Bool) : {keys : List K} → Entries K A keys → Option (K × A)
  | _, nil => none
  | _, cons key _ value rest => if test value then some (key, value) else rest.findEntry? test

/-- Replaces the value under a key. -/
def replace [DecidableEq K] (key : K) (new : A) :
    {keys : List K} → Entries K A keys → Entries K A keys
  | _, nil => nil
  | _, cons other fresh value rest =>
      if other = key then cons other fresh new rest
      else cons other fresh value (rest.replace key new)

/-- Adds an entry at the end. -/
def push {key : K} (value : A) :
    {keys : List K} → Entries K A keys → key ∉ keys → Entries K A (keys ++ [key])
  | _, nil, _ => cons key (by simp) value nil
  | _, cons other fresh first rest, absent =>
      cons other (by simp_all [eq_comm]) first (rest.push value (by simp_all))

/-- Whether every entry has an equal entry in another map. -/
def within [DecidableEq K] (eq : A → A → Bool) {others : List K} (other : Entries K A others) :
    {keys : List K} → Entries K A keys → Bool
  | _, nil => true
  | _, cons key _ value rest =>
      (match other.find? key with
        | some found => eq value found
        | none => false) && within eq other rest

/-- The keys of the pairs are the keys of the map. -/
@[simp]
theorem map_fst_toList : {keys : List K} → (entries : Entries K A keys) →
    entries.toList.map Prod.fst = keys
  | _, nil => rfl
  | _, cons _ _ _ rest => by rw [toList, List.map_cons, rest.map_fst_toList]

/-- The values of the pairs are the values of the map. -/
@[simp]
theorem map_snd_toList : {keys : List K} → (entries : Entries K A keys) →
    entries.toList.map Prod.snd = entries.values
  | _, nil => rfl
  | _, cons _ _ _ rest => by rw [toList, List.map_cons, rest.map_snd_toList, values]

@[simp]
theorem toList_map (f : A → B) : {keys : List K} → (entries : Entries K A keys) →
    (entries.map f).toList = entries.toList.map fun (key, value) => (key, f value)
  | _, nil => rfl
  | _, cons _ _ _ rest => by rw [map, toList, toList, List.map_cons, rest.toList_map f]

@[simp]
theorem values_map (f : A → B) : {keys : List K} → (entries : Entries K A keys) →
    (entries.map f).values = entries.values.map f
  | _, nil => rfl
  | _, cons _ _ _ rest => by rw [map, values, values, List.map_cons, rest.values_map f]

/-- No key occurs twice. -/
theorem nodup_keys : {keys : List K} → Entries K A keys → keys.Nodup
  | _, nil => List.nodup_nil
  | _, cons _ fresh _ rest => List.nodup_cons.mpr ⟨fresh, rest.nodup_keys⟩

@[simp]
theorem toList_push {key : K} (value : A) : {keys : List K} → (entries : Entries K A keys) →
    (absent : key ∉ keys) → (entries.push value absent).toList = entries.toList ++ [(key, value)]
  | _, nil, _ => rfl
  | _, cons _ _ _ rest, _ => by rw [push, toList, toList, rest.toList_push, List.cons_append]

/-- The entries are determined by their pairs. -/
theorem toList_injective : {keys : List K} → (entries others : Entries K A keys) →
    entries.toList = others.toList → entries = others
  | _, nil, nil, _ => rfl
  | _, cons key fresh value rest, cons _ _ other others, heq => by
      obtain ⟨hhead, htail⟩ := List.cons.inj heq
      obtain ⟨-, rfl⟩ := Prod.mk.inj hhead
      rw [rest.toList_injective others htail]

/-- The keys of the pairs of a map. -/
theorem mem_keys_of_mem_toList {entries : Entries K A keys} {entry : K × A}
    (hentry : entry ∈ entries.toList) : entry.1 ∈ keys := by
  have hmem : entry.1 ∈ entries.toList.map Prod.fst := List.mem_map_of_mem hentry
  rwa [map_fst_toList] at hmem

theorem findEntry?_eq_find? (test : A → Bool) : {keys : List K} → (entries : Entries K A keys) →
    entries.findEntry? test = entries.toList.find? fun entry => test entry.2
  | _, nil => rfl
  | _, cons key _ value rest => by
      unfold findEntry?
      rw [toList, List.find?_cons, rest.findEntry?_eq_find? test]
      cases test value <;> rfl

/-- What is found is the first pair that satisfies the test. -/
theorem findEntry?_eq_some {test : A → Bool} {entry : K × A} {entries : Entries K A keys}
    (hfound : entries.findEntry? test = some entry) :
    ∃ before after, entries.toList = before ++ entry :: after ∧ test entry.2 = true ∧
      ∀ other ∈ before, test other.2 = false := by
  induction entries with
  | nil => cases hfound
  | cons key fresh value rest ih =>
      unfold findEntry? at hfound
      split at hfound
      · next htest =>
        cases hfound
        exact ⟨[], rest.toList, rfl, htest, fun _ hother => absurd hother List.not_mem_nil⟩
      · next htest =>
        obtain ⟨before, after, hsplit, hentry, hbefore⟩ := ih hfound
        refine ⟨(key, value) :: before, after, ?_, hentry, ?_⟩
        · rw [toList, hsplit, List.cons_append]
        · intro other hother
          rcases List.mem_cons.mp hother with rfl | hother
          · exact Bool.eq_false_iff.mpr htest
          · exact hbefore other hother

section

variable [DecidableEq K]

/-- The value under a key is the one it is paired with. -/
theorem find?_eq_some_iff {key : K} {value : A} {entries : Entries K A keys} :
    entries.find? key = some value ↔ (key, value) ∈ entries.toList := by
  induction entries with
  | nil =>
      constructor
      · intro hfound
        cases hfound
      · intro hentry
        cases hentry
  | cons other fresh first rest ih =>
      rw [find?, toList, List.mem_cons]
      by_cases hkey : other = key
      · subst hkey
        have hrest : (other, value) ∉ rest.toList := fun hmem =>
          fresh (mem_keys_of_mem_toList hmem)
        rw [if_pos rfl, Option.some_inj, Prod.mk.injEq]
        constructor
        · intro hvalue
          exact Or.inl ⟨rfl, hvalue.symm⟩
        · rintro (⟨-, hvalue⟩ | hmem)
          · exact hvalue.symm
          · exact absurd hmem hrest
      · rw [if_neg hkey, ih, Prod.mk.injEq]
        constructor
        · exact Or.inr
        · rintro (⟨hother, -⟩ | hmem)
          · exact absurd hother.symm hkey
          · exact hmem

/-- A key without a value is no key of the map. -/
theorem find?_eq_none_iff {key : K} : {keys : List K} → (entries : Entries K A keys) →
    (entries.find? key = none ↔ key ∉ keys)
  | _, nil => by simp [find?]
  | _, cons other _ _ rest => by
      have ih : rest.find? key = none ↔ key ∉ _ := rest.find?_eq_none_iff
      by_cases h : other = key
      · simp [find?, h]
      · simp [find?, h, ih, Ne.symm h]

@[simp]
theorem find?_map (f : A → B) (key : K) : {keys : List K} → (entries : Entries K A keys) →
    (entries.map f).find? key = (entries.find? key).map f
  | _, nil => rfl
  | _, cons other _ _ rest => by
      rw [map, find?, find?]
      split
      · rfl
      · exact rest.find?_map f key

theorem find?_push {key other : K} (value : A) : {keys : List K} →
    (entries : Entries K A keys) → (absent : key ∉ keys) →
    (entries.push value absent).find? other =
      if key = other then some value else entries.find? other
  | _, nil, _ => rfl
  | _, cons first _ _ rest, absent => by
      have hne : key ≠ first := fun h => absent (h ▸ List.mem_cons_self)
      rw [push, find?, find?, rest.find?_push]
      by_cases h : first = other
      · rw [if_pos h, if_pos h, if_neg (fun hkey => hne (hkey.trans h.symm))]
      · rw [if_neg h, if_neg h]

theorem find?_replace {key other : K} (new : A) : {keys : List K} →
    (entries : Entries K A keys) → key ∈ keys →
    (entries.replace key new).find? other =
      if key = other then some new else entries.find? other
  | _, cons first fresh value rest, present => by
      by_cases hfirst : first = key
      · subst hfirst
        rw [replace, if_pos rfl, find?, find?]
        split <;> rfl
      · have hrest : key ∈ _ := (List.mem_cons.mp present).resolve_left (Ne.symm hfirst)
        rw [replace, if_neg hfirst, find?, find?, rest.find?_replace new hrest]
        by_cases h : first = other
        · rw [if_pos h, if_pos h, if_neg (fun hkey => hfirst (h.trans hkey.symm))]
        · rw [if_neg h, if_neg h]

theorem within_iff {eq : A → A → Bool} {others : List K} {other : Entries K A others}
    {entries : Entries K A keys} :
    within eq other entries = true ↔
      ∀ entry ∈ entries.toList, ∃ y, other.find? entry.1 = some y ∧ eq entry.2 y = true := by
  induction entries with
  | nil => exact iff_of_true rfl nofun
  | cons key fresh value rest ih =>
      rw [within, Bool.and_eq_true, ih, toList, List.forall_mem_cons]
      cases other.find? key <;> simp

end

end Entries

/-- A map from distinct keys to values, in insertion order. -/
structure OrderedMap (K A : Type) where
  {keys : List K}
  entries : Entries K A keys

namespace OrderedMap

variable {K A B : Type}

/-- The map without entries. -/
def empty : OrderedMap K A :=
  ⟨.nil⟩

instance : EmptyCollection (OrderedMap K A) := ⟨empty⟩

instance : Inhabited (OrderedMap K A) := ⟨empty⟩

/-- The number of entries. -/
def size (map : OrderedMap K A) : Nat :=
  map.keys.length

/-- Whether there are no entries. -/
def isEmpty (map : OrderedMap K A) : Bool :=
  map.keys.isEmpty

/-- The entries as pairs. -/
def toList (map : OrderedMap K A) : List (K × A) :=
  map.entries.toList

/-- The values in order. -/
def values (map : OrderedMap K A) : List A :=
  map.entries.values

/-- Applies a function to every value. -/
def map (f : A → B) (map : OrderedMap K A) : OrderedMap K B :=
  ⟨map.entries.map f⟩

/-- Runs an effect on every value, first to last. -/
def traverse {F : Type → Type} [Applicative F] (f : A → F B) (map : OrderedMap K A) :
    F (OrderedMap K B) :=
  mk <$> map.entries.traverse f

/-- Runs an effect on every entry, first to last. -/
def traverseKeyed {F : Type → Type} [Applicative F] (f : K → A → F B) (map : OrderedMap K A) :
    F (OrderedMap K B) :=
  mk <$> map.entries.traverseKeyed f

/-- The first entry that satisfies a test. -/
def findEntry? (test : A → Bool) (map : OrderedMap K A) : Option (K × A) :=
  map.entries.findEntry? test

/-- No key occurs twice. -/
theorem nodup_keys (map : OrderedMap K A) : map.keys.Nodup :=
  map.entries.nodup_keys

@[simp]
theorem map_fst_toList (map : OrderedMap K A) : map.toList.map Prod.fst = map.keys :=
  map.entries.map_fst_toList

@[simp]
theorem toList_map (f : A → B) (map : OrderedMap K A) :
    (map.map f).toList = map.toList.map fun (key, value) => (key, f value) :=
  map.entries.toList_map f

/-- A map is determined by its pairs. -/
theorem toList_injective {map other : OrderedMap K A} (heq : map.toList = other.toList) :
    map = other := by
  have hkeys := congrArg (List.map Prod.fst) heq
  rw [map_fst_toList, map_fst_toList] at hkeys
  obtain ⟨entries⟩ := map
  obtain ⟨others⟩ := other
  cases hkeys
  exact congrArg mk (entries.toList_injective others heq)

theorem findEntry?_eq_find? (test : A → Bool) (map : OrderedMap K A) :
    map.findEntry? test = map.toList.find? fun entry => test entry.2 :=
  map.entries.findEntry?_eq_find? test

/-- What is found is the first pair that satisfies the test. -/
theorem findEntry?_eq_some {test : A → Bool} {entry : K × A} {map : OrderedMap K A}
    (hfound : map.findEntry? test = some entry) :
    ∃ before after, map.toList = before ++ entry :: after ∧ test entry.2 = true ∧
      ∀ other ∈ before, test other.2 = false :=
  Entries.findEntry?_eq_some hfound

variable [DecidableEq K]

/-- The value under a key. -/
def find? (map : OrderedMap K A) (key : K) : Option A :=
  map.entries.find? key

/-- Whether there is an entry under a key. -/
def contains (map : OrderedMap K A) (key : K) : Bool :=
  key ∈ map.keys

/-- Puts a value under a key.  A key that is there keeps its place, a new one comes last. -/
def insert (map : OrderedMap K A) (key : K) (value : A) : OrderedMap K A :=
  if h : key ∈ map.keys then ⟨map.entries.replace key value⟩ else ⟨map.entries.push value h⟩

/-- The map into which pairs are inserted one by one. -/
def ofList (pairs : List (K × A)) : OrderedMap K A :=
  pairs.foldl (fun map (key, value) => map.insert key value) ∅

/-- Comparison that does not look at the order of entries: the same keys, and under each key
equal values. -/
def same (eq : A → A → Bool) (a b : OrderedMap K A) : Bool :=
  a.size == b.size && Entries.within eq b.entries a.entries

/-- An entry under a new key comes last. -/
theorem toList_insert_of_not_mem {map : OrderedMap K A} {key : K} (value : A)
    (habsent : key ∉ map.keys) :
    (map.insert key value).toList = map.toList ++ [(key, value)] := by
  rw [insert, dif_neg habsent]
  exact map.entries.toList_push value habsent

/-- Pairs with new and distinct keys are inserted behind the others. -/
theorem toList_insertAll (pairs : List (K × A)) (map : OrderedMap K A)
    (hnodup : ((map.toList ++ pairs).map Prod.fst).Nodup) :
    (pairs.foldl (fun map (key, value) => map.insert key value) map).toList =
      map.toList ++ pairs := by
  induction pairs generalizing map with
  | nil => rw [List.foldl_nil, List.append_nil]
  | cons pair pairs ih =>
      have hfresh : pair.1 ∉ map.keys := by
        rw [List.map_append, List.nodup_append, map_fst_toList] at hnodup
        exact fun hmem => hnodup.2.2 pair.1 hmem pair.1 List.mem_cons_self rfl
      have hstep : map.toList ++ pair :: pairs = (map.insert pair.1 pair.2).toList ++ pairs := by
        rw [toList_insert_of_not_mem _ hfresh, List.append_assoc]
        rfl
      rw [hstep] at hnodup ⊢
      exact ih _ hnodup

/-- Inserting the pairs of a map one by one gives the map. -/
theorem ofList_toList (map : OrderedMap K A) : ofList map.toList = map := by
  apply toList_injective
  apply toList_insertAll map.toList ∅
  exact (map_fst_toList map).symm ▸ map.nodup_keys

/-- The value under a key is the one it is paired with. -/
theorem find?_eq_some_iff {map : OrderedMap K A} {key : K} {value : A} :
    map.find? key = some value ↔ (key, value) ∈ map.toList :=
  Entries.find?_eq_some_iff

@[simp]
theorem find?_map (f : A → B) (map : OrderedMap K A) (key : K) :
    (map.map f).find? key = (map.find? key).map f :=
  map.entries.find?_map f key

/-- An insertion changes the value under one key. -/
theorem find?_insert (map : OrderedMap K A) (key other : K) (value : A) :
    (map.insert key value).find? other = if key = other then some value else map.find? other := by
  rw [insert]
  split
  · next h => exact map.entries.find?_replace value h
  · next h => exact map.entries.find?_push value h

/-- Maps are the same if they are equally large and have equal values under the same keys. -/
theorem same_iff {eq : A → A → Bool} {xs ys : OrderedMap K A} :
    xs.same eq ys = true ↔ xs.size = ys.size ∧
      ∀ entry ∈ xs.toList, ∃ y, ys.find? entry.1 = some y ∧ eq entry.2 y = true := by
  rw [same, Bool.and_eq_true, beq_iff_eq, Entries.within_iff]
  rfl

end OrderedMap

/-- Keys that can name the members of an object. -/
class MemberName (K : Type) where
  /-- The name that a key is written as. -/
  memberName : K → String

export MemberName (memberName)

instance : MemberName String := ⟨id⟩

instance {K A : Type} [MemberName K] [HasJson A] : HasJson (OrderedMap K A) :=
  ⟨fun map => .object (map.toList.map fun (key, value) => (memberName key, json value))⟩

end SelectPlan
