/-
# What more coverage changes

Two reports of the same files are compared, of which the first misses no line that the second does
not miss either.  Every file then fails alike or is found alike in both passes, and in a file that
is parsed the findings of the first pass are some of those of the second, in the same order.  This
is carried from files to whole passes, with one worker or with several.
-/

import Mathlib.Data.List.Forall2
import Untested.Proofs.Detection.Parallel

namespace Untested

/-- A report lists the files of another in the same order, and each of them misses no other lines
than there. -/
def CoverageReport.MissesWithin (fewer more : CoverageReport) : Prop :=
  List.Forall₂ (fun first second => first.1 = second.1 ∧ ∀ line ∈ first.2, line ∈ second.2)
    fewer.entries more.entries

/-- What is learnt of a file in two passes, of which the first finds some of what the second
finds. -/
structure FileOutcome.Within (fewer more : FileOutcome) : Prop where
  missing : fewer.missing? = more.missing?
  checked : fewer.isChecked = more.isChecked
  findings : fewer.findings.Sublist more.findings

/-- A pass finds some of what another pass finds, in the same order, and agrees with it on the
files. -/
structure Detection.Within (fewer more : Detection) : Prop where
  missingFiles : fewer.missingFiles = more.missingFiles
  filesChecked : fewer.filesChecked = more.filesChecked
  findings : fewer.findings.Sublist more.findings

/-- Two results are the same fault, or they are related values. -/
inductive EndsAlike {α β : Type} (related : α → β → Prop) : Except Fault α → Except Fault β → Prop
  | fault (fault : Fault) : EndsAlike related (.error fault) (.error fault)
  | value {first : α} {second : β} : related first second →
      EndsAlike related (.ok first) (.ok second)

/-! ## Results -/

namespace EndsAlike

variable {α β γ δ : Type} {related : α → β → Prop}

theorem map {related' : γ → δ → Prop} {f : α → γ} {g : β → δ}
    (hmap : ∀ first second, related first second → related' (f first) (g second))
    {first : Except Fault α} {second : Except Fault β} (h : EndsAlike related first second) :
    EndsAlike related' (first.map f) (second.map g) := by
  cases h with
  | fault fault => exact .fault fault
  | value hrelated => exact .value (hmap _ _ hrelated)

/-- Results that end alike are put together alike. -/
theorem mapM_id {first : List (Except Fault α)} {second : List (Except Fault β)}
    (h : List.Forall₂ (EndsAlike related) first second) :
    EndsAlike (List.Forall₂ related) (first.mapM id) (second.mapM id) := by
  induction h with
  | nil => exact .value .nil
  | cons hhead htail ih =>
      rw [List.mapM_cons, List.mapM_cons]
      cases hhead with
      | fault fault => exact .fault fault
      | value hrelated => exact ih.map fun _ _ hvalues => .cons hrelated hvalues

theorem fault?_eq {first : Except Fault α} {second : Except Fault β}
    (h : EndsAlike related first second) : Detector.fault? first = Detector.fault? second := by
  cases h <;> rfl

/-- The faults of results that end alike are met at the same places. -/
theorem faultAt?_eq {first : List (Except Fault α)} {second : List (Except Fault β)}
    (h : List.Forall₂ (EndsAlike related) first second) (index : Nat) :
    Detector.faultAt? first index = Detector.faultAt? second index := by
  induction h generalizing index with
  | nil => rfl
  | cons hhead htail ih =>
      cases index with
      | zero => exact hhead.fault?_eq
      | succ index => exact ih index

/-- Whatever the order of completion, results that end alike are gathered alike. -/
theorem gather {first : List (Except Fault α)} {second : List (Except Fault β)}
    (h : List.Forall₂ (EndsAlike related) first second) (order : List Nat) :
    EndsAlike (List.Forall₂ related) (Detector.gather order first)
      (Detector.gather order second) := by
  rw [Detector.gather_eq, Detector.gather_eq, funext (faultAt?_eq h)]
  split
  · exact .fault _
  · exact mapM_id h

end EndsAlike

/-! ## Passes -/

/-- Fewer outcomes amount to less, provided that they agree on the files. -/
theorem Detection.ofOutcomes_within {fewer more : List FileOutcome}
    (h : List.Forall₂ FileOutcome.Within fewer more) :
    (Detection.ofOutcomes fewer).Within (Detection.ofOutcomes more) := by
  rw [Detection.ofOutcomes_eq, Detection.ofOutcomes_eq]
  induction h with
  | nil => exact ⟨rfl, rfl, .slnil⟩
  | cons hhead htail ih =>
      obtain ⟨hmissing, hchecked, hfindings⟩ := ih
      dsimp only at hmissing hchecked hfindings
      constructor
      · simp only [List.filterMap_cons, hhead.missing, hmissing]
      · simp only [List.countP_cons, hhead.checked, hchecked]
      · simp only [List.flatMap_cons]
        exact hhead.findings.append hfindings

namespace Detector

/-- Where fewer lines are missing, fewer functions never ran. -/
theorem findingsIn_sublist {fewer more : LineSet} (hmissing : ∀ line ∈ fewer, line ∈ more)
    (file : String) (body : List Python.Statement) :
    (findingsIn file fewer body).Sublist (findingsIn file more body) := by
  refine (List.monotone_filter_right _ fun record hrecord => ?_).map _
  rw [Python.FunctionRecord.isNeverCalled, LineSet.containsAll_iff] at hrecord ⊢
  exact fun line hline => hmissing line (hrecord line hline)

theorem learnt_within {fewer more : String × LineSet} (hfile : fewer.1 = more.1)
    (hmissing : ∀ line ∈ fewer.2, line ∈ more.2) (path : String)
    (result : Except Fault (Option String)) :
    EndsAlike FileOutcome.Within (learnt path fewer result) (learnt path more result) := by
  cases result with
  | error fault => exact .fault fault
  | ok source? =>
      cases source? with
      | none => exact .value ⟨rfl, rfl, .slnil⟩
      | some source =>
          rw [learnt, learnt, hfile]
          cases Python.parse path source.toList with
          | error fault => exact .fault fault
          | ok body => exact .value ⟨rfl, rfl, findingsIn_sublist hmissing more.1 body⟩

variable (detector : Detector) (read : String → Except Fault (Option String))

/-- A file ends alike in both passes. -/
theorem outcome_within {fewer more : String × LineSet} (hfile : fewer.1 = more.1)
    (hmissing : ∀ line ∈ fewer.2, line ∈ more.2) :
    EndsAlike FileOutcome.Within (detector.outcome read fewer) (detector.outcome read more) := by
  cases hexcluded : detector.isExcluded more.1 with
  | true =>
      rw [detector.outcome_of_excluded read hexcluded,
        detector.outcome_of_excluded read (hfile ▸ hexcluded)]
      exact .value ⟨rfl, rfl, .slnil⟩
  | false =>
      rw [detector.outcome_of_not_excluded read hexcluded,
        detector.outcome_of_not_excluded read (hfile ▸ hexcluded), hfile]
      exact learnt_within hfile hmissing _ _

theorem outcomes_within {fewer more : CoverageReport} (hreports : fewer.MissesWithin more) :
    List.Forall₂ (EndsAlike FileOutcome.Within) (fewer.entries.map (detector.outcome read))
      (more.entries.map (detector.outcome read)) := by
  rw [List.forall₂_map_left_iff, List.forall₂_map_right_iff]
  exact hreports.imp fun _ _ hentry => detector.outcome_within read hentry.1 hentry.2

/-- More coverage never brings up a finding.  When the first of two reports of the same files misses
no line that the second does not miss, both passes end with the same fault, or they agree on the
files that are missing and on the number of those checked, and the findings of the first are some
of those of the second in the same order.  This holds of a single worker, and of several in
whatever order they complete their tasks. -/
theorem detect_within {fewer more : CoverageReport} (hreports : fewer.MissesWithin more) :
    EndsAlike Detection.Within (detector.detect (m := Id) read fewer).run
        (detector.detect (m := Id) read more).run ∧
      ∀ order, EndsAlike Detection.Within
        (detector.detectInParallel (m := Id) order read fewer).run
        (detector.detectInParallel (m := Id) order read more).run := by
  have houtcomes := detector.outcomes_within read hreports
  constructor
  · rw [detect_run, detect_run]
    exact (EndsAlike.mapM_id houtcomes).map fun _ _ h => Detection.ofOutcomes_within h
  · intro order
    rw [detectInParallel_run, detectInParallel_run]
    exact (EndsAlike.gather houtcomes order).map fun _ _ h => Detection.ofOutcomes_within h

/-- Once a test runs the second of two functions, only the first is found. -/
theorem detect_within_halfTested :
    let read : String → Except Fault (Option String) :=
      fun _ => .ok (some "def f():\n    return 1\ndef g():\n    return 2\n")
    let fewer : CoverageReport := { entries := [("a.py", .ofList [2])] }
    let more : CoverageReport := { entries := [("a.py", .ofList [2, 4])] }
    fewer.MissesWithin more ∧
      EndsAlike Detection.Within (detect (m := Id) ⟨"src", []⟩ read fewer).run
        (detect (m := Id) ⟨"src", []⟩ read more).run ∧
      (detect (m := Id) ⟨"src", []⟩ read fewer).run =
        .ok { findings := [{ file := "a.py", name := "f", line := 1 }], filesChecked := 1 } ∧
      (detect (m := Id) ⟨"src", []⟩ read more).run ≠
        (detect (m := Id) ⟨"src", []⟩ read fewer).run := by
  intro read fewer more
  have hreports : fewer.MissesWithin more := .cons ⟨rfl, by decide⟩ .nil
  refine ⟨hreports, (detect_within ⟨"src", []⟩ read hreports).1, ?_, ?_⟩
  · decide +kernel
  · decide +kernel

end Detector

end Untested
