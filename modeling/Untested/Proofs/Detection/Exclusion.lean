/-
# Files that are left out

A pass that leaves files out finds what a pass over the report without them finds, and acts in
the same way on the way: nothing of a file that is left out is looked at.
-/

import Untested.Proofs.Detection.Outcome

namespace Untested

/-- The report without the files that a pattern matches. -/
def CoverageReport.without (report : CoverageReport) (patterns : List String) :
    CoverageReport where
  entries := report.entries.filter fun entry =>
    !patterns.any fun pattern => Glob.isMatch pattern.toList (Path.withSlashes entry.1.toList)
  distinct := report.distinct.sublist (List.filter_sublist.map Prod.fst)

namespace Detector

/-- A file that is not left out is not noted as such. -/
theorem isExcluded_of_learnt {path : String} {entry : String × LineSet}
    {result : Except Fault (Option String)} {outcome : FileOutcome}
    (hlearnt : learnt path entry result = .ok outcome) : outcome.isExcluded = false := by
  have hlearns := learns_learnt path entry result
  rw [hlearnt] at hlearns
  cases hlearns <;> rfl

/-- Outcomes without the notes on files that were left out. -/
def kept (outcomes : List FileOutcome) : List FileOutcome :=
  outcomes.filter fun outcome => !outcome.isExcluded

/-- A note on a file that was left out adds nothing to a pass. -/
theorem ofOutcomes_kept (outcomes : List FileOutcome) :
    Detection.ofOutcomes (kept outcomes) = Detection.ofOutcomes outcomes := by
  have general (detection : Detection) :
      (kept outcomes).foldl Detection.add detection = outcomes.foldl Detection.add detection := by
    induction outcomes generalizing detection with
    | nil => rfl
    | cons outcome outcomes ih => cases outcome <;> exact ih _
  exact general {}

variable {m : Type → Type} [Monad m] [LawfulMonad m] (detector : Detector) (read : SourceReader m)

/-- Going through all files learns the same of those that are not left out as going through these
alone. -/
theorem checkAll_without (entries : List (String × LineSet)) :
    checkAll (check ⟨detector.root, []⟩ read)
        (entries.filter fun entry => !detector.isExcluded entry.1) =
      (fun result => result.map kept) <$> checkAll (detector.check read) entries := by
  induction entries with
  | nil => rw [checkAll, List.filter_nil, checkAll, map_pure]; rfl
  | cons entry entries ih =>
      rw [List.filter_cons, checkAll_cons]
      cases hexcluded : detector.isExcluded entry.1 with
      | true =>
          rw [detector.check_of_excluded hexcluded, pure_bind, if_neg (by simp), ih,
            andThen, Functor.map_map]
          congr 1
          funext result
          cases result <;> rfl
      | false =>
          rw [if_pos (by simp), checkAll_cons, detector.check_of_not_excluded hexcluded,
            check_of_not_excluded ⟨detector.root, []⟩ rfl, bind_map_left, bind_map_left, map_bind]
          congr 1
          funext result
          cases hlearnt : learnt (Path.join detector.root entry.1) entry result with
          | error fault => rw [andThen, andThen, map_pure]; rfl
          | ok outcome =>
              rw [andThen, andThen, ih, Functor.map_map, Functor.map_map]
              congr 1
              funext results
              cases results with
              | error fault => rfl
              | ok outcomes =>
                  show Except.ok (outcome :: kept outcomes) = Except.ok (kept (outcome :: outcomes))
                  rw [kept, kept, List.filter_cons, isExcluded_of_learnt hlearnt]
                  rfl

/-- A pass that leaves files out is a pass over the report without these files. -/
theorem detect_without (report : CoverageReport) :
    detector.detect read report =
      detect ⟨detector.root, []⟩ read (report.without detector.exclude) := by
  rw [detect, detect, ← map_eq_pure_bind, ← map_eq_pure_bind]
  have hcheckAll := detector.checkAll_without read report.entries
  show _ = Except.map Detection.ofOutcomes <$> checkAll (check ⟨detector.root, []⟩ read)
    (report.entries.filter fun entry => !detector.isExcluded entry.1)
  rw [hcheckAll, Functor.map_map]
  congr 1
  funext result
  cases result with
  | error fault => rfl
  | ok outcomes =>
      show Except.ok (Detection.ofOutcomes outcomes) = .ok (Detection.ofOutcomes (kept outcomes))
      rw [ofOutcomes_kept]

end Detector

end Untested
