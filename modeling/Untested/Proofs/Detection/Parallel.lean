/-
# Several workers

Workers take the files of a report between them and complete them in some order.  As long as no
file fails, the order does not show.  When files fail, the fault that is met first is the one
that is kept, and the order decides which one that is: the result is that of a single worker in
every order just when all failing files fail with the same fault.
-/

import Untested.Proofs.Detection.Sequential

namespace Untested.Detector

/-! ## Orders of completion -/

section Gather

variable {α : Type}

def faultAt? (results : List (Except Fault α)) (index : Nat) : Option Fault :=
  results[index]?.bind fault?

/-- An order in which workers may complete tasks: no task is completed twice, and a task is
skipped only if some fault has been met. -/
structure IsSchedule (results : List (Except Fault α)) (order : List Nat) : Prop where
  nodup : order.Nodup
  lt_length : ∀ index ∈ order, index < results.length
  of_skipped : ∀ index < results.length, index ∉ order →
    ∃ met ∈ order, (faultAt? results met).isSome

theorem faultAt?_eq_some_iff {results : List (Except Fault α)} {index : Nat} {fault : Fault} :
    faultAt? results index = some fault ↔ results[index]? = some (.error fault) := by
  rw [faultAt?]
  cases results[index]? with
  | none => simp
  | some result => cases result <;> simp [fault?]

theorem gather_eq (results : List (Except Fault α)) (order : List Nat) :
    gather order results =
      match order.findSome? (faultAt? results) with
      | some fault => .error fault
      | none => results.mapM id :=
  rfl

/-- Without a fault the outcomes come back in the order of the tasks. -/
theorem gather_map_ok (values : List α) (order : List Nat) :
    gather order (values.map .ok) = .ok values := by
  have hnone : order.findSome? (faultAt? (values.map .ok)) = none := by
    rw [List.findSome?_eq_none_iff]
    intro index _
    rw [faultAt?, List.getElem?_map]
    cases values[index]? <;> rfl
  rw [gather_eq, hnone]
  exact mapM_id_map_ok values

/-- Workers that end without a fault have met none. -/
theorem eq_map_ok_of_gather {results : List (Except Fault α)} {order : List Nat}
    {values : List α} (hgather : gather order results = .ok values) :
    results = values.map .ok := by
  rcases forall_ok_or_first_error results with ⟨others, rfl⟩ | ⟨before, fault, after, rfl⟩
  · rw [gather_map_ok] at hgather
    rw [Except.ok.inj hgather]
  · rw [gather_eq] at hgather
    cases hmet : order.findSome? (faultAt? (before.map .ok ++ .error fault :: after)) with
    | some met =>
        rw [hmet] at hgather
        cases hgather
    | none =>
        rw [hmet] at hgather
        simp only [mapM_id_first_error] at hgather
        cases hgather

/-- With a fault among the results, the one that is met first is kept. -/
theorem gather_of_isSchedule {results : List (Except Fault α)} {order : List Nat}
    (hschedule : IsSchedule results order) {fault : Fault} (hfault : .error fault ∈ results) :
    ∃ before index after met, order = before ++ index :: after ∧
      results[index]? = some (.error met) ∧
      (∀ earlier ∈ before, ∀ other, results[earlier]? ≠ some (.error other)) ∧
      gather order results = .error met := by
  have hmet : ∃ index ∈ order, (faultAt? results index).isSome := by
    obtain ⟨index, hindex⟩ := List.mem_iff_getElem?.1 hfault
    by_cases hmem : index ∈ order
    · exact ⟨index, hmem, by rw [faultAt?_eq_some_iff.2 hindex]; rfl⟩
    · exact hschedule.of_skipped index (List.getElem?_eq_some_iff.1 hindex).1 hmem
  have hsome : (order.findSome? (faultAt? results)).isSome := List.findSome?_isSome_iff.2 hmet
  obtain ⟨met, hmet⟩ := Option.isSome_iff_exists.1 hsome
  obtain ⟨before, index, after, horder, hindex, hbefore⟩ := List.findSome?_eq_some_iff.1 hmet
  refine ⟨before, index, after, met, horder, faultAt?_eq_some_iff.1 hindex, ?_, ?_⟩
  · intro earlier hearlier other hother
    rw [← faultAt?_eq_some_iff, hbefore earlier hearlier] at hother
    cases hother
  · rw [gather_eq, hmet]

/-- Each task may be the first to be completed. -/
theorem isSchedule_first (results : List (Except Fault α)) {index : Nat}
    (hindex : index < results.length) :
    IsSchedule results (index :: (List.range results.length).erase index) where
  nodup := by
    rw [List.nodup_cons]
    exact ⟨List.nodup_range.not_mem_erase, List.nodup_range.erase index⟩
  lt_length other hother := by
    rcases List.mem_cons.1 hother with rfl | hother
    · exact hindex
    · exact List.mem_range.1 (List.mem_of_mem_erase hother)
  of_skipped other hother hskipped := by
    exfalso
    apply hskipped
    by_cases heq : other = index
    · rw [heq]
      exact List.mem_cons_self
    · exact List.mem_cons_of_mem _ ((List.mem_erase_of_ne heq).2 (List.mem_range.2 hother))

/-- A fault whose task is completed first is kept. -/
theorem gather_cons_of_error {results : List (Except Fault α)} {index : Nat} {fault : Fault}
    (hindex : results[index]? = some (.error fault)) (order : List Nat) :
    gather (index :: order) results = .error fault := by
  rw [gather_eq, List.findSome?_cons, faultAt?_eq_some_iff.2 hindex]

end Gather

/-! ## Passes with several workers -/

variable (detector : Detector) (read : String → Except Fault (Option String))

/-- A pass with several workers gathers the outcomes of all files. -/
theorem detectInParallel_run (order : List Nat) (report : CoverageReport) :
    (detector.detectInParallel (m := Id) order read report).run =
      (gather order (report.entries.map (detector.outcome read))).map .ofOutcomes := by
  have hstep : (detector.detectInParallel (m := Id) order read report).run =
      (gather order (report.entries.mapM (detector.check (m := Id) read)).run).map .ofOutcomes :=
    rfl
  rw [hstep, List.idRun_mapM]
  rfl

/-- An order in which workers may complete the files of a report. -/
def Completes (report : CoverageReport) (order : List Nat) : Prop :=
  IsSchedule (report.entries.map (detector.outcome read)) order

theorem getElem?_outcome_error_iff {report : CoverageReport} {index : Nat} {fault : Fault} :
    (report.entries.map (detector.outcome read))[index]? = some (.error fault) ↔
      ∃ entry, report.entries[index]? = some entry ∧ detector.FailsWith read entry fault := by
  rw [List.getElem?_map, Option.map_eq_some_iff]
  exact exists_congr fun entry => and_congr_right fun _ => detector.outcome_error_iff read

theorem mem_outcome_error_iff {report : CoverageReport} {fault : Fault} :
    .error fault ∈ report.entries.map (detector.outcome read) ↔
      ∃ entry ∈ report.entries, detector.FailsWith read entry fault := by
  rw [List.mem_map]
  exact exists_congr fun entry => and_congr_right fun _ => detector.outcome_error_iff read

/-- When no file fails, several workers find what one finds, in the same order. -/
theorem detectInParallel_of_readsAll {report : CoverageReport}
    (hreads : detector.ReadsAll read report) (order : List Nat) :
    (detector.detectInParallel (m := Id) order read report).run =
      (detector.detect (m := Id) read report).run := by
  obtain ⟨outcomes, houtcomes⟩ := detector.exists_outcomes_of_readsAll read hreads
  rw [detectInParallel_run, detect_run, houtcomes, gather_map_ok, mapM_id_map_ok]

/-- When files fail, the result is the fault of the one that is completed first among them. -/
theorem detectInParallel_of_not_readsAll {report : CoverageReport}
    (hreads : ¬ detector.ReadsAll read report) {order : List Nat}
    (horder : detector.Completes read report order) :
    ∃ before index after entry fault, order = before ++ index :: after ∧
      report.entries[index]? = some entry ∧ detector.FailsWith read entry fault ∧
      (∀ earlier ∈ before, ∀ other, report.entries[earlier]? = some other →
        ∀ otherFault, ¬ detector.FailsWith read other otherFault) ∧
      (detector.detectInParallel (m := Id) order read report).run = .error fault := by
  obtain ⟨_, failing, _, fault, hentries, _, hfails, _⟩ :=
    detector.detect_of_not_readsAll read hreads
  have hfailing : failing ∈ report.entries := by
    rw [hentries]
    exact List.mem_append_right _ List.mem_cons_self
  obtain ⟨before, index, after, met, rfl, hindex, hbefore, hgather⟩ :=
    gather_of_isSchedule horder
      ((detector.mem_outcome_error_iff read).2 ⟨failing, hfailing, hfails⟩)
  obtain ⟨entry, hentry, hmet⟩ := (detector.getElem?_outcome_error_iff read).1 hindex
  refine ⟨before, index, after, entry, met, rfl, hentry, hmet, ?_, ?_⟩
  · intro earlier hearlier other hother otherFault hotherFails
    exact hbefore earlier hearlier otherFault
      ((detector.getElem?_outcome_error_iff read).2 ⟨other, hother, hotherFails⟩)
  · rw [detectInParallel_run, hgather]
    rfl

/-- The result of a failing file that is completed before all others. -/
theorem detectInParallel_first {report : CoverageReport} {entry : String × LineSet}
    {fault : Fault} (hentry : entry ∈ report.entries)
    (hfails : detector.FailsWith read entry fault) :
    ∃ order, detector.Completes read report order ∧
      (detector.detectInParallel (m := Id) order read report).run = .error fault := by
  obtain ⟨index, hindex⟩ := List.mem_iff_getElem?.1 hentry
  have hfault := (detector.getElem?_outcome_error_iff read).2 ⟨entry, hindex, hfails⟩
  refine ⟨_, isSchedule_first _ (List.getElem?_eq_some_iff.1 hfault).1, ?_⟩
  rw [detectInParallel_run, gather_cons_of_error hfault]
  rfl

/-- All files that fail do so with the same fault. -/
def FailAlike (report : CoverageReport) : Prop :=
  ∀ first ∈ report.entries, ∀ second ∈ report.entries, ∀ fault other,
    detector.FailsWith read first fault → detector.FailsWith read second other → fault = other

/-- Several workers find what one worker finds as long as no file fails.  Otherwise the result is
the fault of the failing file that is completed first, so it is that of one worker in every order
just when all failing files fail alike. -/
theorem detectInParallel_spec (report : CoverageReport) :
    (∀ order, detector.Completes read report order →
      (detector.ReadsAll read report →
        (detector.detectInParallel (m := Id) order read report).run =
          (detector.detect (m := Id) read report).run) ∧
      (¬ detector.ReadsAll read report →
        ∃ before index after entry fault, order = before ++ index :: after ∧
          report.entries[index]? = some entry ∧ detector.FailsWith read entry fault ∧
          (∀ earlier ∈ before, ∀ other, report.entries[earlier]? = some other →
            ∀ otherFault, ¬ detector.FailsWith read other otherFault) ∧
          (detector.detectInParallel (m := Id) order read report).run = .error fault)) ∧
    ((∀ order, detector.Completes read report order →
      (detector.detectInParallel (m := Id) order read report).run =
        (detector.detect (m := Id) read report).run) ↔
      detector.FailAlike read report) := by
  refine ⟨fun order horder => ⟨?_, ?_⟩, ?_, ?_⟩
  · intro hreads
    exact detector.detectInParallel_of_readsAll read hreads order
  · intro hreads
    exact detector.detectInParallel_of_not_readsAll read hreads horder
  · intro hsame first hfirst second hsecond fault other hfault hother
    obtain ⟨order, horder, hresult⟩ := detector.detectInParallel_first read hfirst hfault
    obtain ⟨order', horder', hresult'⟩ := detector.detectInParallel_first read hsecond hother
    rw [hsame order horder] at hresult
    rw [hsame order' horder', hresult] at hresult'
    exact Except.error.inj hresult'
  · intro halike order horder
    by_cases hreads : detector.ReadsAll read report
    · exact detector.detectInParallel_of_readsAll read hreads order
    · obtain ⟨_, index, _, entry, fault, _, hentry, hfails, _, hresult⟩ :=
        detector.detectInParallel_of_not_readsAll read hreads horder
      obtain ⟨_, first, _, other, hentries, _, hother, hresult'⟩ :=
        detector.detect_of_not_readsAll read hreads
      have hfirst : first ∈ report.entries := by
        rw [hentries]
        exact List.mem_append_right _ List.mem_cons_self
      rw [hresult, hresult',
        halike entry (List.mem_of_getElem? hentry) first hfirst fault other hfails hother]

/-- Several workers do not always end like one: the second file may fail before the first. -/
theorem not_detectInParallel_eq_detect :
    ¬ ∀ (detector : Detector) (read : String → Except Fault (Option String))
      (report : CoverageReport) (order : List Nat), detector.Completes read report order →
        (detector.detectInParallel (m := Id) order read report).run =
          (detector.detect (m := Id) read report).run := by
  intro hsame
  let read (path : String) : Except Fault (Option String) := .error (.io path "denied")
  let report : CoverageReport := { entries := [("slow.py", ∅), ("quick.py", ∅)] }
  have horder : Detector.Completes ⟨"/", []⟩ read report [1, 0] :=
    isSchedule_first (report.entries.map (outcome ⟨"/", []⟩ read)) (show 1 < 2 by decide)
  have hresult := hsame ⟨"/", []⟩ read report [1, 0] horder
  have hone : (detect (m := Id) ⟨"/", []⟩ read report).run = .error (.io "/slow.py" "denied") := rfl
  have htwo : (detectInParallel (m := Id) ⟨"/", []⟩ [1, 0] read report).run =
      .error (.io "/quick.py" "denied") := rfl
  rw [hone, htwo] at hresult
  exact absurd hresult (by decide)

end Untested.Detector
