import SelectPlan.Json.Printer
import SelectPlan.Planning.RemoteJoins

/-!
Names of added fields.  There are more candidates than names that can be taken, so one of them is
always free.
-/

namespace SelectPlan

theorem toString_injective {m n : Nat} (heq : toString m = toString n) : m = n := by
  apply toDigits_injective
  rw [← Nat.toList_repr, ← Nat.toList_repr]
  exact congrArg String.toList heq

/-- No candidate is tried twice. -/
theorem phantomCandidates_nodup (base : String) (count : Nat) :
    (phantomCandidates base count).Nodup := by
  rw [phantomCandidates, List.nodup_cons]
  constructor
  · intro hbase
    obtain ⟨n, -, hname⟩ := List.mem_map.mp hbase
    have hlength := congrArg String.length (congrArg Name.text hname)
    simp only [String.length_append] at hlength
    have hmark : "_".length = 1 := rfl
    omega
  · apply List.Pairwise.map _ _ List.nodup_range
    intro m n hne heq
    have htext := (String.append_right_inj (base ++ "_")).mp (Name.mk.inj heq)
    have hnumber := toString_injective htext
    omega

theorem length_phantomCandidates (base : String) (count : Nat) :
    (phantomCandidates base count).length = count + 1 := by
  rw [phantomCandidates, List.length_cons, List.length_map, List.length_range]

/-- Among the candidates is one that is not taken. -/
theorem exists_candidate_not_mem (taken : List FieldName) (base : String) :
    ∃ name ∈ phantomCandidates base taken.length, name ∉ taken := by
  by_cases hall : phantomCandidates base taken.length ⊆ taken
  · have hlength := (phantomCandidates_nodup base taken.length).length_le_of_subset hall
    rw [length_phantomCandidates] at hlength
    omega
  · simpa [List.subset_def] using hall

/-- The name of an added field is none of those that are taken. -/
theorem unusedName_not_mem (taken : List FieldName) (base : String) :
    unusedName taken base ∉ taken := by
  rw [unusedName]
  cases hfind : (phantomCandidates base taken.length).find? fun name => !taken.contains name with
  | none =>
      obtain ⟨name, hcandidate, hfree⟩ := exists_candidate_not_mem taken base
      have htaken := List.find?_eq_none.mp hfind name hcandidate
      simp only [List.contains_iff_mem, Bool.not_eq_true', Bool.not_eq_false] at htaken
      exact absurd htaken hfree
  | some name =>
      have hfree := List.find?_some hfind
      simpa using hfree

example : unusedName [⟨"key"⟩, ⟨"key_1"⟩, ⟨"key_3"⟩] "key" = ⟨"key_2"⟩ := by decide

end SelectPlan
