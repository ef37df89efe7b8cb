/-
# What a baseline hides

A fingerprint recognizes whatever has its file and its name and stands near its line, so that a
definition may move and stay known.  The price is that one fingerprint may hide several findings:
methods of one name that stand close together are all taken for the one that was recorded.  How
many findings a baseline hides is counted here fingerprint by fingerprint.
-/

import Untested.Baseline
import Mathlib.Data.List.Nodup
import Mathlib.Algebra.Order.BigOperators.Group.List
import Mathlib.Algebra.Order.Ring.Nat

namespace Untested

/-- What tells one finding from another. -/
def Finding.place (finding : Finding) : String × String × Nat :=
  (finding.file, finding.name, finding.line)

/-- Two lines of which neither is reached from the other by going the given distance. -/
def Apart (distance first second : Nat) : Prop :=
  first + distance < second ∨ second + distance < first

instance (distance first second : Nat) : Decidable (Apart distance first second) :=
  inferInstanceAs (Decidable (_ ∨ _))

namespace Fingerprint

variable {fingerprint : Fingerprint} {first second : Finding} {findings : List Finding}

theorem recognizes_iff {finding : Finding} :
    fingerprint.recognizes finding = true ↔
      finding.file = fingerprint.file ∧ finding.name = fingerprint.name ∧
        ¬ Apart lineDrift fingerprint.line finding.line := by
  simp only [recognizes, Apart, Bool.and_eq_true, decide_eq_true_eq, eq_comm (a := finding.file),
    eq_comm (a := finding.name), and_assoc]
  refine and_congr_right fun _ => and_congr_right fun _ => ?_
  omega

/-- How many lines a finding can be on to be recognized by a given fingerprint. -/
def windowSize : Nat := 2 * lineDrift + 1

/-- The lines that are near enough to that of a fingerprint, for lines that are large enough. -/
def window (fingerprint : Fingerprint) : List Nat :=
  List.range' (fingerprint.line - lineDrift) windowSize

theorem mem_window {finding : Finding} (hknown : fingerprint.recognizes finding = true) :
    finding.line ∈ fingerprint.window := by
  obtain ⟨_, _, hnear⟩ := recognizes_iff.1 hknown
  rw [window, List.mem_range'_1]
  simp only [Apart, windowSize] at hnear ⊢
  omega

/-- Findings at different places that one fingerprint recognizes are on different lines. -/
theorem line_ne_of_recognizes (hfirst : fingerprint.recognizes first = true)
    (hsecond : fingerprint.recognizes second = true) (hne : first.place ≠ second.place) :
    first.line ≠ second.line := by
  obtain ⟨hfile, hname, _⟩ := recognizes_iff.1 hfirst
  obtain ⟨hfile', hname', _⟩ := recognizes_iff.1 hsecond
  intro hline
  refine hne ?_
  rw [Finding.place, Finding.place, hfile, hname, hline, hfile', hname']

/-- A fingerprint recognizes at most one finding on each line of its window. -/
theorem countP_recognizes_le (hplaces : (findings.map Finding.place).Nodup) :
    findings.countP fingerprint.recognizes ≤ windowSize := by
  have hpairs : findings.Pairwise fun first second => first.place ≠ second.place :=
    List.pairwise_map.1 hplaces
  have hlines : ((findings.filter fingerprint.recognizes).map Finding.line).Nodup := by
    refine List.pairwise_map.2 ((hpairs.filter _).imp_of_mem ?_)
    intro first second hfirst hsecond hne
    exact line_ne_of_recognizes (List.mem_filter.1 hfirst).2 (List.mem_filter.1 hsecond).2 hne
  have hwindow : (findings.filter fingerprint.recognizes).map Finding.line ⊆
      fingerprint.window := by
    intro line hline
    obtain ⟨finding, hfinding, rfl⟩ := List.mem_map.1 hline
    exact mem_window (List.mem_filter.1 hfinding).2
  calc findings.countP fingerprint.recognizes
      = ((findings.filter fingerprint.recognizes).map Finding.line).length := by
        rw [List.length_map, List.countP_eq_length_filter]
    _ ≤ fingerprint.window.length := (List.subperm_of_subset hlines hwindow).length_le
    _ = windowSize := List.length_range'

/-- A fingerprint recognizes at most one of two findings that are more than a window apart. -/
theorem not_recognizes_of_apart (hfirst : fingerprint.recognizes first = true)
    (hapart : Apart (2 * lineDrift) first.line second.line) :
    fingerprint.recognizes second = false := by
  rw [Bool.eq_false_iff]
  intro hsecond
  obtain ⟨_, _, hnear⟩ := recognizes_iff.1 hfirst
  obtain ⟨_, _, hnear'⟩ := recognizes_iff.1 hsecond
  simp only [Apart] at hapart hnear hnear'
  omega

/-- Where findings of one file and one name are far apart, a fingerprint recognizes at most one. -/
theorem countP_recognizes_le_one
    (hspread : findings.Pairwise fun first second =>
      first.file = second.file → first.name = second.name →
        Apart (2 * lineDrift) first.line second.line) :
    findings.countP fingerprint.recognizes ≤ 1 := by
  induction hspread with
  | nil => exact Nat.zero_le 1
  | @cons first rest hfirst _ ih =>
      by_cases hknown : fingerprint.recognizes first = true
      · have hrest : rest.countP fingerprint.recognizes = 0 := by
          refine List.countP_eq_zero.2 fun second hsecond hknown' => ?_
          obtain ⟨hfile, hname, _⟩ := recognizes_iff.1 hknown
          obtain ⟨hfile', hname', _⟩ := recognizes_iff.1 hknown'
          have hapart := hfirst second hsecond (hfile.trans hfile'.symm) (hname.trans hname'.symm)
          rw [not_recognizes_of_apart hknown hapart] at hknown'
          cases hknown'
        rw [List.countP_cons_of_pos hknown, hrest]
      · rw [List.countP_cons_of_neg hknown]
        exact ih

end Fingerprint

namespace Baseline

variable {baseline : Baseline} {findings : List Finding}

/-- A baseline divides findings by whether one of its fingerprints recognizes them. -/
theorem divide_eq (baseline : Baseline) (findings : List Finding) :
    baseline.divide findings =
      (findings.filter fun finding => !baseline.functions.any (·.recognizes finding),
        findings.filter fun finding => baseline.functions.any (·.recognizes finding)) := by
  rw [divide, List.partition_eq_filter_filter]
  simp [isKnown, Function.comp_def]

/-- A finding is new just if all fingerprints of its file and its name are too far away. -/
theorem mem_divide_fst_iff {finding : Finding} :
    finding ∈ (baseline.divide findings).1 ↔
      finding ∈ findings ∧ ∀ fingerprint ∈ baseline.functions,
        finding.file = fingerprint.file → finding.name = fingerprint.name →
          Apart Fingerprint.lineDrift fingerprint.line finding.line := by
  rw [divide_eq, List.mem_filter, Bool.not_eq_true', List.any_eq_false]
  refine and_congr_right fun _ => forall_congr' fun fingerprint => imp_congr_right fun _ => ?_
  rw [Fingerprint.recognizes_iff, not_and, not_and, not_not]

/-- Each finding that is hidden is recognized by some fingerprint. -/
theorem countP_any_le (fingerprints : List Fingerprint) (findings : List Finding) :
    (findings.countP fun finding => fingerprints.any (·.recognizes finding)) ≤
      (fingerprints.map fun fingerprint => findings.countP fingerprint.recognizes).sum := by
  induction findings with
  | nil => simp
  | cons finding rest ih =>
      simp only [List.countP_cons, List.sum_map_add]
      refine Nat.add_le_add ih ?_
      split
      case isTrue hknown =>
        obtain ⟨fingerprint, hfingerprint, hrecognizes⟩ := List.any_eq_true.1 hknown
        refine List.single_le_sum (fun _ _ => Nat.zero_le _) _
          (List.mem_map.2 ⟨fingerprint, hfingerprint, if_pos hrecognizes⟩)
      case isFalse => exact Nat.zero_le _

/-- If no fingerprint recognizes more findings than a bound, so many times as many findings are
hidden at most as there are fingerprints. -/
theorem length_known_le {bound : Nat}
    (hbound : ∀ fingerprint ∈ baseline.functions,
      findings.countP fingerprint.recognizes ≤ bound) :
    (baseline.divide findings).2.length ≤ bound * baseline.functions.length := by
  calc (baseline.divide findings).2.length
      = findings.countP fun finding => baseline.functions.any (·.recognizes finding) := by
        rw [divide_eq, List.countP_eq_length_filter]
    _ ≤ (baseline.functions.map fun fingerprint =>
          findings.countP fingerprint.recognizes).sum := countP_any_le _ _
    _ ≤ (baseline.functions.map fun fingerprint =>
          findings.countP fingerprint.recognizes).length • bound := by
        refine List.sum_le_card_nsmul _ _ fun count hcount => ?_
        obtain ⟨fingerprint, hfingerprint, rfl⟩ := List.mem_map.1 hcount
        exact hbound fingerprint hfingerprint
    _ = bound * baseline.functions.length := by
        rw [List.length_map, Nat.nsmul_eq_mul, Nat.mul_comm]

/-- A baseline hides at most as many findings as there are lines in the windows of its fingerprints.
It hides no more than it records if none of its fingerprints recognizes two of them, as when
findings of one file and one name are far apart.  A finding is reported as new just if all that is
recorded under its file and its name is too far away. -/
theorem hides_at_most (baseline : Baseline) (findings : List Finding)
    (hplaces : (findings.map Finding.place).Nodup) :
    (baseline.divide findings).2.length ≤ 21 * baseline.functions.length ∧
    ((∀ fingerprint ∈ baseline.functions, findings.countP fingerprint.recognizes ≤ 1) →
      (baseline.divide findings).2.length ≤ baseline.functions.length) ∧
    ((findings.Pairwise fun first second => first.file = second.file → first.name = second.name →
        Apart 20 first.line second.line) →
      (baseline.divide findings).2.length ≤ baseline.functions.length) ∧
    ∀ finding, finding ∈ (baseline.divide findings).1 ↔
      finding ∈ findings ∧ ∀ fingerprint ∈ baseline.functions,
        finding.file = fingerprint.file → finding.name = fingerprint.name →
          Apart 10 fingerprint.line finding.line := by
  have honce (hone : ∀ fingerprint ∈ baseline.functions,
      findings.countP fingerprint.recognizes ≤ 1) :
      (baseline.divide findings).2.length ≤ baseline.functions.length :=
    (length_known_le hone).trans_eq (Nat.one_mul _)
  refine ⟨?_, honce, ?_, fun finding => mem_divide_fst_iff⟩
  · exact length_known_le fun _ _ => Fingerprint.countP_recognizes_le hplaces
  · exact fun hspread => honce fun _ _ => Fingerprint.countP_recognizes_le_one hspread

/-- A finding of the one name that is recorded in the examples. -/
def handlerAt (line : Nat) : Finding where
  file := "a.py"
  name := "handle"
  line := line

/-- Of three functions of one name, the one that is recorded has moved and the others are far
away. -/
theorem hides_at_most_handlers :
    ((ofFindings 0 [handlerAt 30]).divide [handlerAt 4, handlerAt 33, handlerAt 60]).2.length ≤ 1 ∧
      handlerAt 60 ∈
        ((ofFindings 0 [handlerAt 30]).divide [handlerAt 4, handlerAt 33, handlerAt 60]).1 := by
  obtain ⟨_, _, hspread, hnew⟩ := hides_at_most (ofFindings 0 [handlerAt 30])
    [handlerAt 4, handlerAt 33, handlerAt 60] (by decide)
  exact ⟨hspread (by decide), (hnew (handlerAt 60)).2 (by decide)⟩

/-- A function that is close to one of the same name that is recorded is hidden as well, though it
is at a place of its own. -/
theorem not_hides_at_most_recorded :
    ¬ ∀ (baseline : Baseline) (findings : List Finding), (findings.map Finding.place).Nodup →
      (baseline.divide findings).2.length ≤ baseline.functions.length := by
  intro hrecorded
  have htwo := hrecorded (ofFindings 0 [handlerAt 10]) [handlerAt 10, handlerAt 15] (by decide)
  exact absurd htwo (by decide)

end Baseline

end Untested
