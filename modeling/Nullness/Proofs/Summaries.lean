import Nullness.Report

/-!
# What a summary counts

Entries are counted one after the other, each under what it says about null.

- `Summary.total_count`, `Summary.total_foldl`: each entry is counted, and once.
- `Summary.foldl_count`: what a summary has counted after some entries.
- `Summary.Counts`, `Summary.counts_ofEntries`: so the summary of entries counts them.
-/

namespace Nullness

/-- The number of entries that say `word` about null. -/
def ReportEntry.countSaying (es : List ReportEntry) (word : String) : Nat :=
  es.countP (·.verdict.word = word)

/-- A summary counts entries: all of them, and those that say each of four things. No entry
says anything else. -/
structure Summary.Counts (s : Summary) (es : List ReportEntry) : Prop where
  symbols : s.symbols = es.length
  nonNull : s.nonNull = ReportEntry.countSaying es "NON_NULL"
  weakNullable : s.weakNullable = ReportEntry.countSaying es "WEAK_NULLABLE"
  strongNullable : s.strongNullable = ReportEntry.countSaying es "STRONG_NULLABLE"
  unknown : s.unknown = ReportEntry.countSaying es "UNKNOWN"
  total : s.nonNull + s.weakNullable + s.strongNullable + s.unknown = s.symbols

/-- Each word stands for one thing that a verdict says. -/
theorem Verdict.word_iff (v : Verdict) :
    (v.word = "NON_NULL" ↔ v.nullability? = some .nonNull) ∧
    (v.word = "WEAK_NULLABLE" ↔ v.nullability? = some .weakNullable) ∧
    (v.word = "STRONG_NULLABLE" ↔ v.nullability? = some .strongNullable) ∧
    (v.word = "UNKNOWN" ↔ v.nullability? = none) := by
  rw [word]
  rcases v.nullability? with _ | n
  · decide
  · cases n <;> decide

namespace Summary

/-- The sum of the four counts. -/
def total (s : Summary) : Nat := s.nonNull + s.weakNullable + s.strongNullable + s.unknown

/-- An entry is counted once. -/
theorem total_count (s : Summary) (e : ReportEntry) : (s.count e).total = s.total + 1 := by
  rw [count]
  split <;> simp only [total] <;> omega

theorem total_foldl (s : Summary) (es : List ReportEntry) :
    (es.foldl count s).total = s.total + es.length := by
  induction es generalizing s with
  | nil => rfl
  | cons e es ih =>
      rw [List.foldl_cons, ih, total_count, List.length_cons]
      omega

/-- Counting on from a summary adds to each count the entries that say what it stands for. -/
theorem foldl_count (s : Summary) (es : List ReportEntry) :
    es.foldl count s =
      { symbols := s.symbols
        nonNull := s.nonNull + es.countP (·.verdict.nullability? = some .nonNull)
        weakNullable := s.weakNullable + es.countP (·.verdict.nullability? = some .weakNullable)
        strongNullable :=
          s.strongNullable + es.countP (·.verdict.nullability? = some .strongNullable)
        unknown := s.unknown + es.countP (·.verdict.nullability? = none) } := by
  induction es generalizing s with
  | nil => rfl
  | cons e es ih =>
      rw [List.foldl_cons, ih, count]
      simp only [List.countP_cons]
      rcases e.verdict.nullability? with _ | n
      · simp
        omega
      · cases n <;> simp <;> omega

theorem ofEntries_eq (es : List ReportEntry) :
    ofEntries es =
      { symbols := es.length
        nonNull := es.countP (·.verdict.nullability? = some .nonNull)
        weakNullable := es.countP (·.verdict.nullability? = some .weakNullable)
        strongNullable := es.countP (·.verdict.nullability? = some .strongNullable)
        unknown := es.countP (·.verdict.nullability? = none) } := by
  rw [ofEntries, foldl_count]
  simp only [Nat.zero_add]

theorem counts_ofEntries (es : List ReportEntry) : (ofEntries es).Counts es := by
  have htotal : (ofEntries es).total = es.length := (total_foldl _ es).trans (Nat.zero_add _)
  rw [ofEntries_eq] at htotal ⊢
  constructor
  · rfl
  · exact List.countP_congr fun e _ => by simp [e.verdict.word_iff.1]
  · exact List.countP_congr fun e _ => by simp [e.verdict.word_iff.2.1]
  · exact List.countP_congr fun e _ => by simp [e.verdict.word_iff.2.2.1]
  · exact List.countP_congr fun e _ => by simp [e.verdict.word_iff.2.2.2]
  · exact htotal

end Summary

end Nullness
