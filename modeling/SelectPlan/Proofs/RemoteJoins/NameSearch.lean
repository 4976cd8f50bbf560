import SelectPlan.Proofs.RemoteJoins.PhantomNames

/-!
The search for the name of an added field.  It tries one name after the other until one is free, and
nothing in it bounds the number of rounds.  It ends all the same: every round finds another key of
the map, so there are no more rounds than entries.
-/

namespace SelectPlan

/-- The name that is tried after a number of rounds: the base, then the base with a number. -/
def phantomCandidate (base : String) : Nat → FieldName
  | 0 => ⟨base⟩
  | n + 1 => ⟨base ++ "_" ++ toString (n + 1)⟩

/-- How a search ends that tries a name: with a name that is free, after a number of rounds.  A
round takes the base with the next number in place of a name that is a key of the map. -/
inductive OrderedMap.SearchEnds {A : Type} (fields : OrderedMap FieldName A) (base : String) :
    FieldName → Nat → FieldName → Nat → Prop
  | free {name : FieldName} {suffix : Nat} (hfree : fields.contains name = false) :
      SearchEnds fields base name suffix name 0
  | taken {name found : FieldName} {suffix rounds : Nat} (htaken : fields.contains name = true)
      (hrest : SearchEnds fields base ⟨base ++ "_" ++ toString suffix⟩ (suffix + 1) found rounds) :
      SearchEnds fields base name suffix found (rounds + 1)

theorem phantomCandidates_eq_map (base : String) (count : Nat) :
    phantomCandidates base count = (List.range (count + 1)).map (phantomCandidate base) := by
  rw [List.range_succ_eq_map, List.map_cons, List.map_map]
  rfl

/-- The name of an added field is the first candidate that is not taken. -/
theorem unusedName_eq_candidate (taken : List FieldName) (base : String) :
    ∃ rounds ≤ taken.length, unusedName taken base = phantomCandidate base rounds ∧
      phantomCandidate base rounds ∉ taken ∧
      ∀ earlier < rounds, phantomCandidate base earlier ∈ taken := by
  let free (n : Nat) : Bool := !taken.contains (phantomCandidate base n)
  have hunused : unusedName taken base =
      (((List.range (taken.length + 1)).find? free).map (phantomCandidate base)).getD ⟨base⟩ := by
    rw [unusedName, phantomCandidates_eq_map, List.find?_map]
    rfl
  cases hfind : (List.range (taken.length + 1)).find? free with
  | none =>
      obtain ⟨name, hcandidate, hfree⟩ := exists_candidate_not_mem taken base
      rw [phantomCandidates_eq_map] at hcandidate
      obtain ⟨n, hn, rfl⟩ := List.mem_map.mp hcandidate
      have htaken := List.find?_eq_none.mp hfind n hn
      simp only [free, List.contains_iff_mem, Bool.not_eq_true', Bool.not_eq_false] at htaken
      exact absurd htaken hfree
  | some rounds =>
      obtain ⟨hfree, hrange, hearlier⟩ := List.find?_range_eq_some.mp hfind
      refine ⟨rounds, Nat.le_of_lt_succ (List.mem_range.mp hrange), ?_, by simpa [free] using hfree,
        fun earlier hlt => by simpa [free] using hearlier earlier hlt⟩
      rw [hunused, hfind]
      rfl

namespace OrderedMap.SearchEnds

variable {A : Type} {fields : OrderedMap FieldName A} {base : String}

/-- A search ends in one way only. -/
theorem unique {name found other : FieldName} {suffix rounds others : Nat}
    (h : fields.SearchEnds base name suffix found rounds)
    (hother : fields.SearchEnds base name suffix other others) :
    other = found ∧ others = rounds := by
  induction h generalizing others with
  | free hfree =>
      cases hother with
      | free => exact ⟨rfl, rfl⟩
      | taken htaken => exact absurd (hfree.symm.trans htaken) Bool.false_ne_true
  | taken htaken hrest ih =>
      cases hother with
      | free hfree => exact absurd (hfree.symm.trans htaken) Bool.false_ne_true
      | taken _ hother =>
          obtain ⟨rfl, rfl⟩ := ih hother
          exact ⟨rfl, rfl⟩

/-- A search passes over the names that are taken and stops at the first that is not. -/
theorem of_candidate {rounds : Nat} (hfree : phantomCandidate base rounds ∉ fields.keys)
    (htaken : ∀ earlier < rounds, phantomCandidate base earlier ∈ fields.keys) (start left : Nat)
    (hstart : start + left = rounds) :
    fields.SearchEnds base (phantomCandidate base start) (start + 1) (phantomCandidate base rounds)
      left := by
  induction left generalizing start with
  | zero =>
      obtain rfl : start = rounds := hstart
      exact free (by simpa [contains] using hfree)
  | succ left ih =>
      apply taken
      · simpa [contains] using htaken start (by omega)
      · exact ih (start + 1) (by omega)

end OrderedMap.SearchEnds

/-- The search for the name of an added field ends, in one way only, after no more rounds than the
map has entries.  It comes to a name that is no key of the map: the base if that is free, or else
the base with the least number from one on that makes it free. -/
theorem search_ends_at_least_free {A : Type} (fields : OrderedMap FieldName A) (base : String) :
    ∃ rounds ≤ fields.size,
      (∀ found n, fields.SearchEnds base ⟨base⟩ 1 found n ↔
        found = unusedName fields.keys base ∧ n = rounds) ∧
      unusedName fields.keys base ∉ fields.keys ∧
      (⟨base⟩ ∉ fields.keys → unusedName fields.keys base = ⟨base⟩) ∧
      (⟨base⟩ ∈ fields.keys → ∃ n ≥ 1,
        unusedName fields.keys base = ⟨base ++ "_" ++ toString n⟩ ∧
        ∀ k ≥ 1, k < n → ⟨base ++ "_" ++ toString k⟩ ∈ fields.keys) := by
  obtain ⟨rounds, hbound, hname, hfree, htaken⟩ := unusedName_eq_candidate fields.keys base
  have hends := OrderedMap.SearchEnds.of_candidate hfree htaken 0 rounds rounds.zero_add
  rw [← hname] at hends
  refine ⟨rounds, hbound, ?_, unusedName_not_mem _ _, ?_, ?_⟩
  · intro found n
    constructor
    · intro hfound
      exact hends.unique hfound
    · rintro ⟨rfl, rfl⟩
      exact hends
  · intro hbase
    cases rounds with
    | zero => exact hname
    | succ n => exact absurd (htaken 0 n.succ_pos) hbase
  · intro hbase
    cases rounds with
    | zero => exact absurd hbase hfree
    | succ n =>
        refine ⟨n + 1, n.succ_pos, hname, ?_⟩
        intro k hk hlt
        obtain ⟨k, rfl⟩ := Nat.exists_eq_succ_of_ne_zero (Nat.ne_of_gt hk)
        exact htaken (k + 1) hlt

theorem search_ends_at_least_free_key :
    let fields : OrderedMap FieldName Unit :=
      .ofList [(⟨"key"⟩, ()), (⟨"key_1"⟩, ()), (⟨"key_3"⟩, ())]
    ∃ rounds ≤ 3, fields.SearchEnds "key" ⟨"key"⟩ 1 ⟨"key_2"⟩ rounds ∧
      ∃ n ≥ 1, (⟨"key_2"⟩ : FieldName) = ⟨"key" ++ "_" ++ toString n⟩ ∧
        ∀ k ≥ 1, k < n → ⟨"key" ++ "_" ++ toString k⟩ ∈ fields.keys := by
  intro fields
  have hbase : (⟨"key"⟩ : FieldName) ∈ fields.keys := by decide +revert
  have hname : unusedName fields.keys "key" = ⟨"key_2"⟩ := by decide +revert
  obtain ⟨rounds, hbound, hsearch, -, -, hnumbered⟩ := search_ends_at_least_free fields "key"
  rw [hname] at hsearch hnumbered
  exact ⟨rounds, hbound, (hsearch _ _).mpr ⟨rfl, rfl⟩, hnumbered hbase⟩

end SelectPlan
