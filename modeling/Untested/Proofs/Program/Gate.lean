/-
# Runs as a gate

A project lets a run decide whether a change may go in, so what counts is that the status of a run
and the findings it reports say the same, and that they depend on nothing but what is asked.  A
run that succeeds comes by some evidence: the coverage report, what one worker finds in the files
that are not left out, and the fingerprints of a baseline.  What it reports follows from the
evidence alone, and can be read back from the outputs or from the file to which it goes.
-/

import Untested.Host.Machine
import Untested.Proofs.Baseline.Hiding
import Untested.Proofs.Program.Legible
import Untested.Proofs.Program.Pass
import Untested.Proofs.Summary.Present

namespace Untested

/-- What a run knows before it shows anything. -/
structure Evidence where
  report : CoverageReport
  /-- What was found in the files that are not left out. -/
  detection : Detection
  /-- The fingerprints of the baseline, if there is one. -/
  fingerprints : List Fingerprint

namespace Evidence

variable (evidence : Evidence) (patterns : List String)

/-- The findings whose names no pattern retains. -/
def nonRetained : List Finding :=
  evidence.detection.findings.filter fun finding =>
    !patterns.any fun pattern => Glob.isMatch pattern.toList finding.name.toList

/-- The findings that are not retained and not recognised. -/
def reported : List Finding :=
  (evidence.nonRetained patterns).filter fun finding =>
    !evidence.fingerprints.any (·.recognizes finding)

/-- The number of findings that are not retained but recognised. -/
def baselined : Nat :=
  (evidence.nonRetained patterns).countP fun finding =>
    evidence.fingerprints.any (·.recognizes finding)

/-- What is shown of the evidence. -/
def summary : Summary where
  findings := evidence.reported patterns
  missingFiles := evidence.detection.missingFiles
  filesChecked := evidence.detection.filesChecked
  baselined := evidence.baselined patterns

/-- Each finding that is not retained is either reported or known from the baseline. -/
theorem baselined_add_length_reported :
    evidence.baselined patterns + (evidence.reported patterns).length =
      (evidence.nonRetained patterns).length := by
  rw [baselined, reported, List.countP_eq_length_filter]
  exact (List.length_eq_length_filter_add _).symm

variable {evidence patterns} in
theorem mem_findings_of_mem_reported {finding : Finding}
    (hfinding : finding ∈ evidence.reported patterns) :
    finding ∈ evidence.detection.findings :=
  (List.mem_filter.1 (List.mem_filter.1 hfinding).1).1

end Evidence

/-- How a run goes about its task and shows the result, which has no say in what the result is. -/
structure Manner where
  format : Option Format
  output : Option String
  isParallel : Bool
  isVerbose : Bool
  isQuiet : Bool

/-- The same task in another manner. -/
def Options.inManner (options : Options) (manner : Manner) : Options :=
  { options with
    format := manner.format
    output := manner.output
    isParallel := manner.isParallel
    isVerbose := manner.isVerbose
    isQuiet := manner.isQuiet }

namespace Program

variable {σ : Type} (host : Host (StateM σ))

/-- The fingerprints of the baseline, of which there are none without a baseline. -/
def Remembers (path : Option String) (before : σ) (fingerprints : List Fingerprint)
    (after : σ) : Prop :=
  match path with
  | none => fingerprints = [] ∧ before = after
  | some path => ∃ baseline, Yields (Baseline.load host path) before (.ok baseline) after ∧
      fingerprints = baseline.functions

/-- How a run comes by its evidence, given the configuration that was loaded. -/
def Collects (options : Options) (loaded : Config) (before : σ) (evidence : Evidence)
    (after : σ) : Prop :=
  ∃ measured searched,
    Gives (report host options (override loaded options)) before evidence.report measured ∧
    Yields
      (Detector.detect ⟨(override loaded options).sourceRootIn (project options), []⟩
        host.readIfExists (evidence.report.without (loaded.exclude ++ options.exclude)))
      measured (.ok evidence.detection) searched ∧
    Remembers host options.baseline searched evidence.fingerprints after

/-- How a run ends that succeeds: it presents its evidence in such a way that what it reports can
be read back, and its status says whether there is anything to report. -/
def Concludes (options : Options) (loaded : Config) (before : σ) (evidence : Evidence)
    (status : Nat) (after : σ) : Prop :=
  ∃ shown collected,
    options.format.or (Format.ofName? loaded.format) = some shown ∧
    Collects host options loaded before evidence collected ∧
    Yields
      (Summary.present host shown options.output options.isQuiet
        (evidence.summary (loaded.retain ++ options.retain)))
      collected (.ok ()) after ∧
    Summary.Shows host options.isQuiet (evidence.summary (loaded.retain ++ options.retain))
      collected after shown options.output ∧
    status = if (evidence.reported (loaded.retain ++ options.retain)).isEmpty then 0 else 1

variable {host}

theorem Remembers.unique {path : Option String} {before after other : σ}
    {first second : List Fingerprint} (hfirst : Remembers host path before first after)
    (hsecond : Remembers host path before second other) : first = second ∧ after = other := by
  cases path with
  | none =>
      obtain ⟨rfl, rfl⟩ := hfirst
      obtain ⟨rfl, rfl⟩ := hsecond
      exact ⟨rfl, rfl⟩
  | some path =>
      obtain ⟨baseline, hbaseline, rfl⟩ := hfirst
      obtain ⟨baseline', hbaseline', rfl⟩ := hsecond
      obtain ⟨heq, rfl⟩ := hbaseline.unique hbaseline'
      obtain rfl := Except.ok.inj heq
      exact ⟨rfl, rfl⟩

/-- There is one way to come by evidence. -/
theorem Collects.unique {options : Options} {loaded : Config} {before after other : σ}
    {first second : Evidence} (hfirst : Collects host options loaded before first after)
    (hsecond : Collects host options loaded before second other) : first = second := by
  obtain ⟨measured, searched, hreport, hdetection, hfingerprints⟩ := hfirst
  obtain ⟨measured', searched', hreport', hdetection', hfingerprints'⟩ := hsecond
  cases first with
  | mk report detection fingerprints =>
      cases second with
      | mk report' detection' fingerprints' =>
          obtain ⟨hsame, rfl⟩ := hreport.unique hreport'
          obtain rfl : report = report' := hsame
          obtain ⟨hsame, rfl⟩ := hdetection.unique hdetection'
          obtain rfl : detection = detection' := Except.ok.inj hsame
          obtain ⟨hsame, rfl⟩ := hfingerprints.unique hfingerprints'
          obtain rfl : fingerprints = fingerprints' := hsame
          rfl

/-- The findings that a run comes by are legible. -/
theorem Collects.isLegible {options : Options} {loaded : Config} {before after : σ}
    {evidence : Evidence} (hcollects : Collects host options loaded before evidence after) :
    ∀ finding ∈ evidence.detection.findings, finding.IsLegible := by
  obtain ⟨_, _, hreport, hdetection, _⟩ := hcollects
  exact isLegible_of_report hreport hdetection

/-- To present the evidence is enough for it to be shown. -/
theorem concludes_of_collects {options : Options} {loaded : Config} {shown : Format}
    {before collected after : σ} {evidence : Evidence}
    (hshown : options.format.or (Format.ofName? loaded.format) = some shown)
    (hcollects : Collects host options loaded before evidence collected)
    (hpresent : Yields (Summary.present host shown options.output options.isQuiet
      (evidence.summary (loaded.retain ++ options.retain))) collected (.ok ()) after) :
    Concludes host options loaded before evidence
      (if (evidence.reported (loaded.retain ++ options.retain)).isEmpty then 0 else 1) after := by
  have hlegible : ∀ finding ∈ (evidence.summary (loaded.retain ++ options.retain)).findings,
      finding.IsLegible :=
    fun finding hfinding =>
      hcollects.isLegible finding (Evidence.mem_findings_of_mem_reported hfinding)
  exact ⟨shown, collected, hshown, hcollects, hpresent,
    Summary.shows_of_yields_present hlegible hpresent, rfl⟩

/-! ## Runs that succeed -/

/-- What a baseline leaves of some findings. -/
theorem remembers_of_gives {path : Option String} {findings new : List Finding} {count : Nat}
    {before after : σ} (hnew : Gives (newFindings host path findings) before (new, count) after) :
    ∃ fingerprints, Remembers host path before fingerprints after ∧
      new = findings.filter (fun finding => !fingerprints.any (·.recognizes finding)) ∧
      count = findings.countP fun finding => fingerprints.any (·.recognizes finding) := by
  cases path with
  | none =>
      obtain ⟨hpair, rfl⟩ := gives_pure_iff.1 hnew
      obtain ⟨rfl, rfl⟩ := Prod.mk.inj hpair
      exact ⟨[], ⟨rfl, rfl⟩, by simp, by simp⟩
  | some path =>
      obtain ⟨loaded?, between, hloaded, hdivided⟩ := gives_bind_iff.1 hnew
      have hloaded := gives_lift_iff.1 hloaded
      cases loaded? with
      | error fault => exact absurd hdivided not_gives_throw
      | ok baseline =>
          simp only [Baseline.divide_eq] at hdivided
          obtain ⟨hpair, rfl⟩ := gives_pure_iff.1 hdivided
          obtain ⟨rfl, rfl⟩ := Prod.mk.inj hpair
          exact ⟨baseline.functions, ⟨baseline, hloaded, rfl⟩, rfl,
            List.countP_eq_length_filter.symm⟩

/-- The format is settled without looking at the computer. -/
theorem shown_of_gives {options : Options} {config : Config} {shown : Format} {before after : σ}
    (hformat : Gives (format (m := StateM σ) options config) before shown after) :
    options.format.or (Format.ofName? config.format) = some shown ∧ before = after := by
  rw [format] at hformat
  cases hor : options.format.or (Format.ofName? config.format) with
  | none =>
      rw [hor] at hformat
      exact absurd hformat not_gives_throw
  | some other =>
      rw [hor] at hformat
      obtain ⟨rfl, rfl⟩ := gives_pure_iff.1 hformat
      exact ⟨rfl, rfl⟩

/-- A run with a given configuration that succeeds without recording a baseline. -/
theorem concludes_of_gives {options : Options} {loaded : Config} {before after : σ}
    {status : Nat} (hnone : options.newBaseline = none)
    (hrun : Gives (runWith host options (override loaded options)) before status after) :
    ∃ evidence, Concludes host options loaded before evidence status after := by
  rw [runWith] at hrun
  obtain ⟨shown, _, hformat, hrun⟩ := gives_bind_iff.1 hrun
  obtain ⟨hshown, rfl⟩ := shown_of_gives hformat
  obtain ⟨report, measured, hreport, hrun⟩ := gives_bind_iff.1 hrun
  obtain ⟨detection, searched, hdetection, hrun⟩ := gives_bind_iff.1 hrun
  rw [hnone] at hrun
  obtain ⟨⟨new, count⟩, collected, hnew, hrun⟩ := gives_bind_iff.1 hrun
  obtain ⟨_, _, hpresent, hstatus⟩ := gives_bind_iff.1 hrun
  obtain ⟨rfl, rfl⟩ := gives_pure_iff.1 hstatus
  obtain ⟨fingerprints, hremembers, rfl, rfl⟩ := remembers_of_gives hnew
  have hcollects :
      Collects host options loaded before ⟨report, detection, fingerprints⟩ collected :=
    ⟨measured, searched, hreport, yields_detect_of_gives hdetection, hremembers⟩
  have hshown : options.format.or (Format.ofName? loaded.format) = some shown := hshown
  exact ⟨_, concludes_of_collects hshown hcollects (gives_unlessFault_iff.1 hpresent)⟩

/-- The parts of a run: it loads a configuration and goes on with it. -/
theorem gives_run_iff {options : Options} {before after : σ} {status : Nat} :
    Gives (run host options) before status after ↔
      ∃ loaded configured, Gives (loadedConfig host options) before loaded configured ∧
        Gives (runWith host options (override loaded options)) configured status after := by
  rw [run, gives_bind_iff]
  constructor
  · rintro ⟨config, configured, hconfig, hrun⟩
    obtain ⟨loaded, _, hloaded, hpure⟩ := gives_bind_iff.1 hconfig
    obtain ⟨rfl, rfl⟩ := gives_pure_iff.1 hpure
    exact ⟨loaded, _, hloaded, hrun⟩
  · rintro ⟨loaded, configured, hloaded, hrun⟩
    exact ⟨_, _, gives_bind_iff.2 ⟨loaded, configured, hloaded, gives_pure_iff.2 ⟨rfl, rfl⟩⟩, hrun⟩

/-- The exit status of a run that succeeds is that of the program. -/
theorem yields_invoke {arguments : List String} {options : Options} {before after : σ}
    {status : Nat} (harguments : Options.read arguments = .run options)
    (hrun : Gives (run host options) before status after) :
    Yields (invoke host arguments) before status after := by
  rw [invoke, harguments]
  exact yields_bind_iff.2 ⟨.ok status, after, hrun, yields_pure_iff.2 ⟨rfl, rfl⟩⟩

/-- The status of a run says whether it reports anything. -/
theorem Concludes.status_eq_zero_iff {options : Options} {loaded : Config} {before after : σ}
    {evidence : Evidence} {status : Nat}
    (hconcludes : Concludes host options loaded before evidence status after) :
    status = 0 ↔ evidence.reported (loaded.retain ++ options.retain) = [] := by
  obtain ⟨_, _, _, _, _, _, rfl⟩ := hconcludes
  rw [← List.isEmpty_iff]
  split <;> simp_all

/-- The manner has no say in where the report comes from. -/
theorem report_inManner (options : Options) (loaded : Config) (manner : Manner) (name : String) :
    report host (options.inManner manner)
        (override { loaded with format := name } (options.inManner manner)) =
      report host options (override loaded options) := by
  simp only [report, freshReport, package, project, override, Options.inManner]

/-- Nor has it in what the evidence is. -/
theorem collects_inManner {options : Options} {loaded : Config} {before after : σ}
    {evidence : Evidence} (manner : Manner) (name : String) :
    Collects host (options.inManner manner) { loaded with format := name } before evidence after ↔
      Collects host options loaded before evidence after := by
  rw [Collects, Collects, report_inManner]
  rfl

/-- Whatever the manner, and whatever format the configuration names, a run that succeeds comes by
the same evidence and ends with the same status. -/
theorem Concludes.inManner {options : Options} {loaded : Config} {before after after' : σ}
    {evidence : Evidence} {status status' : Nat} (hnone : options.newBaseline = none)
    (hconcludes : Concludes host options loaded before evidence status after) (manner : Manner)
    (name : String)
    (hrun : Gives (runWith host (options.inManner manner)
      (override { loaded with format := name } (options.inManner manner))) before status' after') :
    Concludes host (options.inManner manner) { loaded with format := name } before evidence status'
        after' ∧ status' = status := by
  have hnone' : (options.inManner manner).newBaseline = none := hnone
  obtain ⟨other, hother⟩ := concludes_of_gives hnone' hrun
  have hsame : other = evidence := by
    obtain ⟨_, _, _, hcollects, _⟩ := hconcludes
    obtain ⟨_, _, _, hcollects', _⟩ := hother
    exact ((collects_inManner manner name).1 hcollects').unique hcollects
  rw [hsame] at hother
  refine ⟨hother, ?_⟩
  obtain ⟨_, _, _, _, _, _, rfl⟩ := hconcludes
  obtain ⟨_, _, _, _, _, _, rfl⟩ := hother
  rfl

/-- A run is sound as a gate.  When it succeeds, it reports exactly the findings of one worker in
the files that no pattern leaves out, in the order in which they are found, apart from those that
a pattern retains and those that the baseline recognizes.  They can be read back from the lines
or the document that it hands over, in whatever format and wherever it goes.  Its status is zero
just when there is nothing to report, each finding that is not retained is either reported or
counted as known, and neither the findings nor the status depend on the manner of the run or on the
format that the configuration names. -/
theorem run_concludes {arguments : List String} {options : Options} {before after : σ}
    {status : Nat} (harguments : Options.read arguments = .run options)
    (hnone : options.newBaseline = none) (hrun : Gives (run host options) before status after) :
    Yields (invoke host arguments) before status after ∧
      ∃ loaded configured evidence,
        Gives (loadedConfig host options) before loaded configured ∧
        Concludes host options loaded configured evidence status after ∧
        (status = 0 ↔ evidence.reported (loaded.retain ++ options.retain) = []) ∧
        evidence.baselined (loaded.retain ++ options.retain) +
            (evidence.reported (loaded.retain ++ options.retain)).length =
          (evidence.nonRetained (loaded.retain ++ options.retain)).length ∧
        (∀ manner status' after',
          Gives (run host (options.inManner manner)) before status' after' →
            Concludes host (options.inManner manner) loaded configured evidence status' after' ∧
              status' = status) ∧
        (∀ manner name status' after',
          Gives (runWith host (options.inManner manner)
            (override { loaded with format := name } (options.inManner manner)))
              configured status' after' →
            Concludes host (options.inManner manner) { loaded with format := name } configured
              evidence status' after' ∧ status' = status) := by
  refine ⟨yields_invoke harguments hrun, ?_⟩
  obtain ⟨loaded, configured, hloaded, hrest⟩ := gives_run_iff.1 hrun
  obtain ⟨evidence, hconcludes⟩ := concludes_of_gives hnone hrest
  refine ⟨loaded, configured, evidence, hloaded, hconcludes, hconcludes.status_eq_zero_iff,
    evidence.baselined_add_length_reported _, ?_, ?_⟩
  · intro manner status' after' hother
    obtain ⟨loaded', configured', hloaded', hrest'⟩ := gives_run_iff.1 hother
    obtain ⟨rfl, rfl⟩ := hloaded.unique hloaded'
    exact hconcludes.inManner hnone manner loaded.format hrest'
  · intro manner name status' after' hother
    exact hconcludes.inManner hnone manner name hother

/-- A computer with a report of two files, one of which is there, and a baseline. -/
def desk : Machine where
  files := .directory
    [("a.py", .file (Text.encode
        "def f():\n    return 1\ndef g():\n    return 2\ndef h():\n    return 3\n") false),
     ("known", .file (Text.encode
        ("\x7b\"version\":1,\"created_at\":\"0\",\"functions\":" ++
          "[\x7b\"file\":\"a.py\",\"name\":\"g\",\"line\":9\x7d]\x7d")) false),
     ("report", .file (Text.encode "Name\n----\na.py 6 6 0% 1-6\nb.py 1 1 0% 1\n") false)]

/-- A run on that computer which leaves out one file, retains one function and knows another. -/
def deskOptions : Options where
  report := some "report"
  isParallel := true
  exclude := ["b.*"]
  retain := ["h"]
  baseline := some "known"

/-- What the run finds there. -/
def deskEvidence : Evidence where
  report := .ofList [("a.py", .interval 1 6), ("b.py", .interval 1 1)]
  detection := ⟨[⟨"a.py", "f", 1, false⟩, ⟨"a.py", "g", 3, false⟩, ⟨"a.py", "h", 5, false⟩], [], 1⟩
  fingerprints := [⟨"a.py", "g", 9⟩]

/-- How a run goes about it whose result is for a program. -/
def asDocument : Manner where
  format := some .json
  output := none
  isParallel := false
  isVerbose := false
  isQuiet := true

/-- What the run says for people. -/
def deskComplaints : String :=
  "a.py:1: untested: f\n" ++
    "1 known untested function(s) ignored by the baseline\n" ++
    "Error: untested functions found!\n"

/-- The run on that computer reports one function, to people and to programs. -/
theorem run_concludes_on_desk :
    ∃ after after' configured,
      Yields (invoke Machine.host
        ["report", "--parallel", "-e", "b.*", "-r", "h", "--baseline", "known"]) desk 1 after ∧
      Concludes Machine.host deskOptions {} configured deskEvidence 1 after ∧
      Concludes Machine.host (deskOptions.inManner asDocument) {} configured deskEvidence 1
        after' ∧
      deskEvidence.reported deskOptions.retain = [⟨"a.py", "f", 1, false⟩] ∧
      after.complaints = Text.encode deskComplaints ∧
      Terminal.readFindings deskComplaints = [("a.py", "f", 1)] ∧
      Summary.Reading.ofBytes? after'.output =
        some ⟨"1.0", 1, deskEvidence.summary deskOptions.retain⟩ := by
  have harguments : Options.read
      ["report", "--parallel", "-e", "b.*", "-r", "h", "--baseline", "known"] =
        .run deskOptions := by decide +kernel
  -- each of the two runs is carried out once, for its status and what it has written
  have hends : let ended := ((run Machine.host deskOptions).run.run desk).run
      (ended.1, ended.2.complaints) = (.ok 1, Text.encode deskComplaints) := by decide +kernel
  have hends' :
      let ended := ((run Machine.host (deskOptions.inManner asDocument)).run.run desk).run
      (ended.1, Summary.Reading.ofBytes? ended.2.output) =
        (.ok 1, some ⟨"1.0", 1, deskEvidence.summary deskOptions.retain⟩) := by decide +kernel
  obtain ⟨hstatus, hcomplaints⟩ := Prod.mk.inj hends
  obtain ⟨hstatus', hreading⟩ := Prod.mk.inj hends'
  have hrun : Gives (run Machine.host deskOptions) desk 1 _ := Prod.ext hstatus rfl
  have hdocument : Gives (run Machine.host (deskOptions.inManner asDocument)) desk 1 _ :=
    Prod.ext hstatus' rfl
  have hempty : Gives (loadedConfig Machine.host deskOptions) desk {} _ :=
    Prod.ext (by decide +kernel) rfl
  obtain ⟨hinvoke, loaded, configured, evidence, hloaded, hconcludes, _, _, hmanner, _⟩ :=
    run_concludes harguments rfl hrun
  obtain ⟨hconcludes', _⟩ := hmanner asDocument _ _ hdocument
  obtain ⟨rfl, rfl⟩ := hloaded.unique hempty
  have hevidence : evidence = deskEvidence := by
    obtain ⟨_, _, _, hcollects, _⟩ := hconcludes
    exact hcollects.unique ⟨_, _, Prod.ext (by decide +kernel) rfl,
      Prod.ext (by decide +kernel) rfl, ⟨1, "0", deskEvidence.fingerprints⟩,
      Prod.ext (by decide +kernel) rfl, rfl⟩
  subst hevidence
  exact ⟨_, _, _, hinvoke, hconcludes, hconcludes', by decide +kernel, hcomplaints,
    by decide +kernel, hreading⟩

end Program

end Untested
