/-
# What a pass makes of its files

A pass looks into each file on its own and puts the outcomes together.  Both steps are described
here: what is learnt of a file, from what the reader and the parser say of it, and what a list of
outcomes amounts to.  Readers are plain functions.
-/

import Untested.Detection
import Untested.Proofs.Python.Preorder

namespace Untested

/-! ## Lists of results -/

section Results

variable {ε α : Type}

/-- Either there is no error in a list of results, or there is a first one. -/
theorem forall_ok_or_first_error (results : List (Except ε α)) :
    (∃ values : List α, results = values.map .ok) ∨
      ∃ (before : List α) (error : ε) (after : List (Except ε α)),
        results = before.map .ok ++ .error error :: after := by
  induction results with
  | nil => exact .inl ⟨[], rfl⟩
  | cons result results ih =>
      cases result with
      | error error => exact .inr ⟨[], error, results, rfl⟩
      | ok value =>
          rcases ih with ⟨values, rfl⟩ | ⟨before, error, after, rfl⟩
          · exact .inl ⟨value :: values, rfl⟩
          · exact .inr ⟨value :: before, error, after, rfl⟩

@[simp]
theorem mapM_id_map_ok (values : List α) :
    (values.map (Except.ok (ε := ε))).mapM id = .ok values := by
  induction values with
  | nil => rfl
  | cons value values ih => rw [List.map_cons, List.mapM_cons, ih]; rfl

/-- The first error of a list of results is the error of the list. -/
@[simp]
theorem mapM_id_first_error (before : List α) (error : ε) (after : List (Except ε α)) :
    (before.map Except.ok ++ Except.error error :: after).mapM id = .error error := by
  induction before with
  | nil => rw [List.map_nil, List.nil_append, List.mapM_cons]; rfl
  | cons value before ih => rw [List.map_cons, List.cons_append, List.mapM_cons, ih]; rfl

end Results

/-! ## Outcomes together -/

namespace FileOutcome

def findings : FileOutcome → List Finding
  | checked findings => findings
  | _ => []

/-- The path of a file that does not exist. -/
def missing? : FileOutcome → Option String
  | missing path => some path
  | _ => none

/-- Whether the file was read and parsed. -/
def isChecked : FileOutcome → Bool
  | checked _ => true
  | _ => false

/-- Whether the file was left out. -/
def isExcluded : FileOutcome → Bool
  | excluded => true
  | _ => false

end FileOutcome

/-- A pass learns the findings, the missing files and the number of files checked from its
outcomes, each in the order of the outcomes. -/
theorem Detection.ofOutcomes_eq (outcomes : List FileOutcome) :
    ofOutcomes outcomes =
      { findings := outcomes.flatMap FileOutcome.findings
        missingFiles := outcomes.filterMap FileOutcome.missing?
        filesChecked := outcomes.countP FileOutcome.isChecked } := by
  have general (detection : Detection) : outcomes.foldl add detection =
      { findings := detection.findings ++ outcomes.flatMap FileOutcome.findings
        missingFiles := detection.missingFiles ++ outcomes.filterMap FileOutcome.missing?
        filesChecked := detection.filesChecked + outcomes.countP FileOutcome.isChecked } := by
    induction outcomes generalizing detection with
    | nil => simp
    | cons outcome outcomes ih =>
        rw [List.foldl_cons, ih]
        cases outcome <;>
          simp [add, FileOutcome.findings, FileOutcome.missing?, FileOutcome.isChecked,
            List.filterMap_cons, List.countP_cons]; omega
  rw [ofOutcomes, general]
  simp

/-- Each outcome is of one kind. -/
theorem FileOutcome.count_eq_length (outcomes : List FileOutcome) :
    outcomes.countP isChecked + (outcomes.filterMap missing?).length +
      outcomes.countP isExcluded = outcomes.length := by
  induction outcomes with
  | nil => rfl
  | cons outcome outcomes ih =>
      cases outcome <;>
        simp [isChecked, missing?, isExcluded, List.filterMap_cons, List.countP_cons] <;>
        omega

/-! ## One file -/

namespace Detector

variable (detector : Detector) (read : String → Except Fault (Option String))

/-- The tree of an entry that is not excluded, when its file can be read and parsed. -/
def tree? (entry : String × LineSet) : Option (List Python.Statement) :=
  if detector.isExcluded entry.1 then none
  else
    match read (Path.join detector.root entry.1) with
    | .ok (some source) =>
      (Python.parse (Path.join detector.root entry.1) source.toList).toOption
    | _ => none

/-- The findings of an entry: one for each function of its file that never ran. -/
def flagged (entry : String × LineSet) : List Finding :=
  (Python.preorderOfAll ((detector.tree? read entry).getD [])).filterMap
    (Python.Statement.finding? entry.1 entry.2)

/-- The joined path of an entry that is not excluded, when there is no such file. -/
def missing? (entry : String × LineSet) : Option String :=
  if detector.isExcluded entry.1 then none
  else
    match read (Path.join detector.root entry.1) with
    | .ok none => some (Path.join detector.root entry.1)
    | _ => none

/-- The file of an entry that is not excluded is there, and cannot be read or parsed. -/
def FailsWith (entry : String × LineSet) (fault : Fault) : Prop :=
  detector.isExcluded entry.1 = false ∧
    (read (Path.join detector.root entry.1) = .error fault ∨
      ∃ source, read (Path.join detector.root entry.1) = .ok (some source) ∧
        Python.parse (Path.join detector.root entry.1) source.toList = .error fault)

/-- Every file of a report that is there and not excluded can be read and parsed. -/
def ReadsAll (report : CoverageReport) : Prop :=
  ∀ entry ∈ report.entries, detector.isExcluded entry.1 = false →
    read (Path.join detector.root entry.1) ≠ .ok none →
      ∃ source body, read (Path.join detector.root entry.1) = .ok (some source) ∧
        Python.parse (Path.join detector.root entry.1) source.toList = .ok body

/-- The findings in a file are those of the statements of its tree. -/
theorem findingsIn_eq (file : String) (missing : LineSet) (body : List Python.Statement) :
    findingsIn file missing body =
      (Python.preorderOfAll body).filterMap (Python.Statement.finding? file missing) := by
  rw [findingsIn, Python.functionsOfAll_eq, List.filter_filterMap, List.map_filterMap]
  congr 1
  funext statement
  cases statement with
  | function isAsync name span body =>
      have hiff : ({ name, line := span.start, body := Python.bodyLines body, isAsync } :
          Python.FunctionRecord).isNeverCalled missing = true ↔ Python.NeverRan missing body :=
        Python.FunctionRecord.isNeverCalled_iff rfl
      simp only [Python.Statement.record?, Python.Statement.finding?, Option.filter_some, hiff]
      split <;> rfl
  | classDef | compound | expression | simple => rfl

/-- What is learnt of a file that is not left out, from what reading it says. -/
def learnt (path : String) (entry : String × LineSet) :
    Except Fault (Option String) → Except Fault FileOutcome
  | .error fault => .error fault
  | .ok none => .ok (.missing path)
  | .ok (some source) =>
    (Python.parse path source.toList).map fun body => .checked (findingsIn entry.1 entry.2 body)

/-- What reading a file says, and what is learnt of the file then. -/
inductive Learns (path : String) (entry : String × LineSet) :
    Except Fault (Option String) → Except Fault FileOutcome → Prop
  | unreadable (fault : Fault) : Learns path entry (.error fault) (.error fault)
  | absent : Learns path entry (.ok none) (.ok (.missing path))
  | malformed {source : String} {fault : Fault} :
      Python.parse path source.toList = .error fault →
        Learns path entry (.ok (some source)) (.error fault)
  | parsed {source : String} {body : List Python.Statement} :
      Python.parse path source.toList = .ok body →
        Learns path entry (.ok (some source)) (.ok (.checked (findingsIn entry.1 entry.2 body)))

theorem learns_learnt (path : String) (entry : String × LineSet)
    (result : Except Fault (Option String)) :
    Learns path entry result (learnt path entry result) := by
  cases result with
  | error fault => exact .unreadable fault
  | ok source? =>
      cases source? with
      | none => exact .absent
      | some source =>
          rw [learnt]
          cases hparse : Python.parse path source.toList with
          | error fault => exact .malformed hparse
          | ok body => exact .parsed hparse

section Check

variable {m : Type → Type} [Monad m] {reader : SourceReader m} {entry : String × LineSet}

/-- A file that is left out is not even read. -/
theorem check_of_excluded (hexcluded : detector.isExcluded entry.1 = true) :
    detector.check reader entry = pure (.ok .excluded) := by
  rw [check, if_pos hexcluded]

/-- Any other file is read, and nothing else is done. -/
theorem check_of_not_excluded [LawfulMonad m] (hexcluded : detector.isExcluded entry.1 = false) :
    detector.check reader entry =
      learnt (Path.join detector.root entry.1) entry <$>
        reader (Path.join detector.root entry.1) := by
  rw [check, hexcluded, if_neg (by decide), map_eq_pure_bind]
  show reader _ >>= _ = _
  congr 1
  funext result
  cases result with
  | error fault => rfl
  | ok source? => cases source? <;> rfl

/-- What is learnt of all files, from what is learnt of the first one and of the others. -/
def andThen (rest : m (Except Fault (List FileOutcome))) :
    Except Fault FileOutcome → m (Except Fault (List FileOutcome))
  | .error fault => pure (.error fault)
  | .ok outcome => (fun result => result.map (outcome :: ·)) <$> rest

theorem checkAll_cons [LawfulMonad m] (check : String × LineSet → m (Except Fault FileOutcome))
    (entry : String × LineSet) (entries : List (String × LineSet)) :
    checkAll check (entry :: entries) = check entry >>= andThen (checkAll check entries) := by
  rw [checkAll]
  congr 1
  funext result
  cases result with
  | error fault => rfl
  | ok outcome => rw [andThen, map_eq_pure_bind]

end Check

/-- What a pass learns of a file. -/
def outcome (entry : String × LineSet) : Except Fault FileOutcome :=
  (detector.check (m := Id) read entry).run

theorem outcome_of_excluded {entry : String × LineSet}
    (hexcluded : detector.isExcluded entry.1 = true) :
    detector.outcome read entry = .ok .excluded := by
  rw [outcome, detector.check_of_excluded hexcluded]
  rfl

theorem outcome_of_not_excluded {entry : String × LineSet}
    (hexcluded : detector.isExcluded entry.1 = false) :
    detector.outcome read entry =
      learnt (Path.join detector.root entry.1) entry
        (read (Path.join detector.root entry.1)) := by
  rw [outcome, detector.check_of_not_excluded hexcluded]
  rfl

/-- What is learnt of a file that does not fail the pass. -/
theorem outcome_ok {entry : String × LineSet} {outcome : FileOutcome}
    (houtcome : detector.outcome read entry = .ok outcome) :
    outcome.findings = detector.flagged read entry ∧
      outcome.missing? = detector.missing? read entry ∧
      outcome.isExcluded = detector.isExcluded entry.1 := by
  rw [flagged, tree?, missing?]
  cases hexcluded : detector.isExcluded entry.1 with
  | true =>
      rw [detector.outcome_of_excluded read hexcluded] at houtcome
      obtain rfl := Except.ok.inj houtcome
      exact ⟨rfl, rfl, rfl⟩
  | false =>
      rw [detector.outcome_of_not_excluded read hexcluded] at houtcome
      have hlearns := learns_learnt (Path.join detector.root entry.1) entry
        (read (Path.join detector.root entry.1))
      rw [houtcome] at hlearns
      generalize read (Path.join detector.root entry.1) = result at hlearns ⊢
      cases hlearns with
      | absent => exact ⟨rfl, rfl, rfl⟩
      | parsed hparse =>
          refine ⟨?_, rfl, rfl⟩
          simp only [FileOutcome.findings, findingsIn_eq, hparse]
          rfl

/-- A file fails the pass with the fault of reading or parsing it. -/
theorem outcome_error_iff {entry : String × LineSet} {fault : Fault} :
    detector.outcome read entry = .error fault ↔ detector.FailsWith read entry fault := by
  rw [FailsWith]
  cases hexcluded : detector.isExcluded entry.1 with
  | true => simp [detector.outcome_of_excluded read hexcluded]
  | false =>
      rw [detector.outcome_of_not_excluded read hexcluded]
      have hlearns := learns_learnt (Path.join detector.root entry.1) entry
        (read (Path.join detector.root entry.1))
      generalize read (Path.join detector.root entry.1) = result at hlearns ⊢
      generalize learnt (Path.join detector.root entry.1) entry result = outcome at hlearns ⊢
      cases hlearns with
      | unreadable => simp
      | absent => simp
      | malformed hparse => simp [hparse]
      | parsed hparse => simp [hparse]

/-- All files of a report can be used when none of them fails the pass. -/
theorem readsAll_iff {report : CoverageReport} :
    detector.ReadsAll read report ↔
      ∀ entry ∈ report.entries, ∀ fault, ¬ detector.FailsWith read entry fault := by
  refine forall_congr' fun entry => imp_congr_right fun _ => ?_
  simp only [FailsWith]
  cases hexcluded : detector.isExcluded entry.1 with
  | true => simp
  | false =>
      have hlearns := learns_learnt (Path.join detector.root entry.1) entry
        (read (Path.join detector.root entry.1))
      generalize read (Path.join detector.root entry.1) = result at hlearns ⊢
      generalize learnt (Path.join detector.root entry.1) entry result = outcome at hlearns
      cases hlearns with
      | unreadable => simp
      | absent => simp
      | malformed hparse => simp [hparse]
      | parsed hparse => simp [hparse]

end Detector

end Untested
