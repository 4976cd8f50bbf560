import Mathlib.Data.List.Basic
import SelectPlan.Proofs.Logging.Events

/-!
Records that reach a log.  Of the records that are offered, a log keeps those that are important
enough and whose target begins with the letters of the library's name.  The records of the library
itself are among them, but so are those of a library whose name goes on after these letters.
-/

namespace SelectPlan

namespace LogRecord

/-- Whether a record is of the library itself, or of a part of it. -/
def isOwn (record : LogRecord) : Bool :=
  record.target == "qir" || "qir::".toList.isPrefixOf record.target.toList

/-- Whether the target of a record begins with the letters of the library's name. -/
def beginsLikeOwn (record : LogRecord) : Bool :=
  "qir".toList.isPrefixOf record.target.toList

/-- Whether a record is important enough for a level. -/
def within (maxLevel : Level) (record : LogRecord) : Bool :=
  record.level.verbosity ≤ maxLevel.verbosity

/-- The message that a log keeps of a record. -/
def message (record : LogRecord) : Message :=
  ⟨record.level.name, record.modulePath, record.text⟩

theorem beginsLikeOwn_of_isOwn {record : LogRecord} (hown : record.isOwn = true) :
    record.beginsLikeOwn = true := by
  rw [isOwn, Bool.or_eq_true, beq_iff_eq, List.isPrefixOf_iff_prefix] at hown
  rw [beginsLikeOwn, List.isPrefixOf_iff_prefix]
  rcases hown with htarget | hprefix
  · exact htarget ▸ List.prefix_rfl
  · exact List.IsPrefix.trans ⟨"::".toList, rfl⟩ hprefix

end LogRecord

namespace Recorder

/-- Offers records, one after the other. -/
def offerAll (recorder : Recorder) (maxLevel : Level) (records : List LogRecord) : Recorder :=
  records.foldl (·.offer maxLevel ·) recorder

/-- The entries that a log keeps of the records that pass a test and are important enough. -/
def entriesFor (log : DebugLog) (maxLevel : Level) (test : LogRecord → Bool)
    (records : List LogRecord) : List LogEntry :=
  (records.filter fun record => record.within maxLevel && test record).map fun record =>
    ⟨log.stage, .message record.message⟩

variable (log : DebugLog) (threshold : Option Level) (maxLevel : Level)

/-- A log keeps a record if it is important enough and its target begins with the right letters. -/
theorem offer_eq (record : LogRecord) :
    Recorder.offer ⟨some log, threshold⟩ maxLevel record =
      ⟨some { log with
        entries := log.entries ++ entriesFor log maxLevel LogRecord.beginsLikeOwn [record] },
        threshold⟩ := by
  have hadmits : Recorder.admits ⟨some log, threshold⟩ maxLevel record =
      (record.within maxLevel && record.beginsLikeOwn) := Bool.and_true _
  rw [offer, hadmits, entriesFor, List.filter_singleton]
  cases record.within maxLevel && record.beginsLikeOwn with
  | true => rfl
  | false =>
      change _ = Recorder.mk (some { log with entries := log.entries ++ [] }) threshold
      rw [List.append_nil]
      rfl

/-- Of the records that are offered, a log keeps those that are important enough and whose target
begins with the right letters, in their order. -/
theorem offerAll_eq (records : List LogRecord) :
    offerAll ⟨some log, threshold⟩ maxLevel records =
      ⟨some { log with
        entries := log.entries ++ entriesFor log maxLevel LogRecord.beginsLikeOwn records },
        threshold⟩ := by
  induction records generalizing log with
  | nil =>
      change _ = Recorder.mk (some { log with entries := log.entries ++ [] }) threshold
      rw [List.append_nil]
      rfl
  | cons record records ih =>
      have hentries : entriesFor log maxLevel LogRecord.beginsLikeOwn (record :: records) =
          entriesFor log maxLevel LogRecord.beginsLikeOwn [record] ++
            entriesFor log maxLevel LogRecord.beginsLikeOwn records := by
        rw [entriesFor, ← List.singleton_append, List.filter_append, List.map_append]
        rfl
      rw [offerAll, List.foldl_cons, offer_eq, hentries, ← List.append_assoc]
      exact ih _

/-- The records of the library itself are among those that begin with the letters of its name. -/
theorem own_sublist (records : List LogRecord) :
    (records.filter fun record => record.within maxLevel && record.isOwn).Sublist
      (records.filter fun record => record.within maxLevel && record.beginsLikeOwn) := by
  apply List.monotone_filter_right
  intro record hown
  rw [Bool.and_eq_true] at hown ⊢
  exact ⟨hown.1, LogRecord.beginsLikeOwn_of_isOwn hown.2⟩

/-- A log keeps, in order and as messages at its stage, exactly the records that are important
enough and whose target begins with the letters of the library's name.  No record of the library
itself is lost, and there are no others exactly if every such target is the library's or that of a
part of it. -/
theorem offerAll_keeps_by_letters (records : List LogRecord) :
    let kept (test : LogRecord → Bool) := entriesFor log maxLevel test records
    offerAll ⟨some log, threshold⟩ maxLevel records =
      ⟨some { log with entries := log.entries ++ kept LogRecord.beginsLikeOwn }, threshold⟩ ∧
    (kept LogRecord.isOwn).Sublist (kept LogRecord.beginsLikeOwn) ∧
    (kept LogRecord.beginsLikeOwn = kept LogRecord.isOwn ↔
      ∀ record ∈ records, record.within maxLevel = true → record.beginsLikeOwn = true →
        record.isOwn = true) := by
  intro kept
  have hsublist := own_sublist maxLevel records
  refine ⟨offerAll_eq log threshold maxLevel records, hsublist.map _, ?_, ?_⟩
  · intro hkept record hmem hwithin hletters
    have hlength := congrArg List.length hkept
    simp only [kept, entriesFor, List.length_map] at hlength
    have hmem' : record ∈ records.filter fun record =>
        record.within maxLevel && record.beginsLikeOwn :=
      List.mem_filter.mpr ⟨hmem, Bool.and_eq_true_iff.mpr ⟨hwithin, hletters⟩⟩
    rw [← hsublist.eq_of_length hlength.symm] at hmem'
    exact (Bool.and_eq_true_iff.mp (List.mem_filter.mp hmem').2).2
  · intro hown
    refine congrArg (List.map _) (List.filter_congr fun record hmem => ?_)
    rw [Bool.eq_iff_iff, Bool.and_eq_true, Bool.and_eq_true]
    exact and_congr_right fun hwithin =>
      ⟨hown record hmem hwithin, LogRecord.beginsLikeOwn_of_isOwn⟩

theorem offerAll_keeps_planner_record :
    let planner : LogRecord := ⟨"qir::planner", .info, some "qir::planner", "planning"⟩
    let other : LogRecord := ⟨"sqir", .info, some "sqir", "other"⟩
    (offerAll ({} : Recorder).start .debug [other, planner]).log.map DebugLog.entries =
      some [⟨.initial, .message planner.message⟩] := by
  intro planner other
  have hown : ∀ record ∈ [other, planner], record.within .debug = true →
      record.beginsLikeOwn = true → record.isOwn = true := by
    decide +revert
  have hfilter : ([other, planner].filter fun record => record.within .debug && record.isOwn) =
      [planner] := by
    decide +revert
  obtain ⟨hkept, -, hletters⟩ := offerAll_keeps_by_letters {} none .debug [other, planner]
  have hstarted : offerAll ({} : Recorder).start .debug [other, planner] = _ := hkept
  rw [hstarted, hletters.mpr hown]
  simp only [entriesFor, hfilter]
  rfl

/-- A record of a library whose name only begins with the same letters is kept. -/
theorem offerAll_keeps_foreign_record :
    let record : LogRecord := ⟨"qirx", .info, some "qirx", "other"⟩
    record.isOwn = false ∧
      (offerAll ({} : Recorder).start .debug [record]).log.map DebugLog.entries =
        some [⟨.initial, .message record.message⟩] :=
  ⟨rfl, rfl⟩

end Recorder

end SelectPlan
