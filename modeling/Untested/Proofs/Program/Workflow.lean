/-
# From recording a baseline to using it

A project records what is untested today and lets its gate report what comes up from then on.  So
a run that uses a fresh baseline reports nothing, provided that recording it has not changed what
the run looks at.  The baseline file must not be one of the files that the run reads, and no path
may lead somewhere only because that file or a directory on the way to it has been made.
-/

import Untested.Proofs.Baseline.RoundTrip
import Untested.Proofs.Coverage.Report
import Untested.Proofs.Program.Gate
import Untested.Proofs.Program.Looking

namespace Untested

namespace Machine

open Program (Yields)

/-- The names of what a path leads to. -/
def place? (machine : Machine) (path : String) : Option (List String) :=
  match machine.files.resolve (machine.absolute path) with
  | .existing names _ => some names
  | _ => none

/-- Saving one file does not bring up another path: where that path leads to something afterwards,
it did so before, and it does not lead to the saved file. -/
def Spares (before after : Machine) (saved path : String) : Prop :=
  (after.shown? path).isSome →
    (before.shown? path).isSome ∧ after.place? path ≠ after.place? saved

instance (before after : Machine) (saved path : String) :
    Decidable (before.Spares after saved path) :=
  inferInstanceAs (Decidable ((after.shown? path).isSome →
    (before.shown? path).isSome ∧ after.place? path ≠ after.place? saved))

variable {before after : Machine} {path saved : String} {names : List String}
  {content : List UInt8}

theorem isSome_shown? {machine : Machine} :
    (machine.shown? path).isSome = machine.files.exists? (machine.absolute path) :=
  (yields_exists?.unique (Program.yields_pure_iff.2 ⟨rfl, rfl⟩)).1

theorem Holds.place? (hholds : after.Holds saved names content) :
    after.place? saved = some names := by
  obtain ⟨isExecutable, hresolve⟩ := hholds
  rw [Machine.place?, hresolve]

/-- A path that is spared shows what it showed before. -/
theorem Spares.seesAlike (hspares : before.Spares after saved path)
    (hchanges : Changes names before after) (hholds : after.Holds saved names content) :
    before.SeesAlike after path := by
  have hpath : after.absolute path = before.absolute path := by
    rw [absolute, absolute, hchanges.directory]
  rw [SeesAlike]
  cases hafter : (after.shown? path).isSome with
  | true =>
      obtain ⟨hbefore, hplace⟩ := hspares hafter
      rw [shown?, shown?, hpath, hchanges.files.read_eq]
      · rwa [isSome_shown?] at hbefore
      · intro place hresolve
        refine hplace ?_
        rw [hholds.place?, place?, hpath, hresolve]
  | false =>
      have hbefore : ¬ (before.shown? path).isSome = true := by
        intro hbefore
        rw [isSome_shown?] at hbefore hafter
        rw [hpath, hchanges.files.exists? hbefore] at hafter
        cases hafter
      rw [Option.not_isSome_iff_eq_none] at hbefore
      rw [hbefore]
      exact Option.isNone_iff_eq_none.1 (by rw [← Option.not_isSome, hafter]; rfl)

end Machine

namespace Evidence

variable (evidence : Evidence) (patterns : List String)

/-- The same evidence with a baseline of what was recorded from it. -/
def withRecorded : Evidence where
  report := evidence.report
  detection := evidence.detection
  fingerprints := (evidence.nonRetained patterns).map .ofFinding

/-- Nothing is reported that was recorded. -/
theorem reported_withRecorded : (evidence.withRecorded patterns).reported patterns = [] := by
  rw [reported, List.filter_eq_nil_iff]
  intro finding hfinding
  have hknown : (Baseline.ofFindings 0 (evidence.nonRetained patterns)).isKnown finding = true :=
    Baseline.isKnown_ofFindings_iff.2 ⟨finding, hfinding, Baseline.driftsFrom_self finding⟩
  rw [Bool.not_eq_true', Bool.not_eq_false]
  exact hknown

/-- All that was recorded is known. -/
theorem baselined_withRecorded :
    (evidence.withRecorded patterns).baselined patterns =
      (evidence.nonRetained patterns).length := by
  have hsum := (evidence.withRecorded patterns).baselined_add_length_reported patterns
  rwa [reported_withRecorded, List.length_nil, Nat.add_zero] at hsum

end Evidence

namespace Program

open Machine (host Changes)

/-! ## Runs that record a baseline -/

section Recording

variable {options : Options} {loaded : Config} {path : String}

/-- Only a run that succeeds ends with the status zero. -/
theorem gives_run_of_invoke {σ : Type} {host : Host (StateM σ)} {arguments : List String}
    {before after : σ} (harguments : Options.read arguments = .run options)
    (hinvoke : Yields (invoke host arguments) before 0 after) :
    Gives (run host options) before 0 after := by
  rw [invoke, harguments] at hinvoke
  obtain ⟨result, between, hrun, hstatus⟩ := yields_bind_iff.1 hinvoke
  cases result with
  | ok status =>
      obtain ⟨rfl, rfl⟩ := yields_pure_iff.1 hstatus
      exact hrun
  | error failure =>
      obtain ⟨_, _, _, hstatus⟩ := yields_bind_iff.1 hstatus
      cases (yields_pure_iff.1 hstatus).1

/-- How a run comes to record a baseline of its findings. -/
def Records {σ : Type} (host : Host (StateM σ)) (options : Options) (loaded : Config)
    (path : String) (before : σ) (evidence : Evidence) (after : σ) : Prop :=
  ∃ shown measured searched,
    options.format.or (Format.ofName? loaded.format) = some shown ∧
    Gives (report host options (override loaded options)) before evidence.report measured ∧
    Gives (Program.detection host options (override loaded options) evidence.report) measured
      evidence.detection searched ∧
    evidence.fingerprints = [] ∧
    Gives (record host path options.isQuiet
      (evidence.nonRetained (loaded.retain ++ options.retain))) searched () after

theorem records_of_gives (options : Options) (loaded : Config) {σ : Type}
    {host : Host (StateM σ)} {before after : σ} {status : Nat}
    (hrun : Gives (runWith host { options with newBaseline := some path } (override loaded options))
      before status after) :
    ∃ evidence, Records host options loaded path before evidence after := by
  rw [runWith] at hrun
  obtain ⟨shown, _, hformat, hrun⟩ := gives_bind_iff.1 hrun
  obtain ⟨hshown, rfl⟩ := shown_of_gives hformat
  obtain ⟨report, measured, hreport, hrun⟩ := gives_bind_iff.1 hrun
  obtain ⟨detection, searched, hdetection, hrun⟩ := gives_bind_iff.1 hrun
  obtain ⟨_, _, hrecord, hstatus⟩ := gives_bind_iff.1 hrun
  obtain ⟨_, rfl⟩ := gives_pure_iff.1 hstatus
  exact ⟨⟨report, detection, []⟩, shown, measured, searched, hshown, hreport, hdetection, rfl,
    hrecord⟩

/-- A run that records a baseline comes by the same evidence as a run without one. -/
theorem exists_collects {σ : Type} {host : Host (StateM σ)} {arguments : List String}
    {before after : σ}
    (harguments : Options.read arguments = .run { options with newBaseline := some path })
    (hinvoke : Yields (invoke host arguments) before 0 after) :
    ∃ loaded configured evidence searched,
      Gives (loadedConfig host options) before loaded configured ∧
      Collects host { options with baseline := none } loaded configured evidence searched := by
  obtain ⟨loaded, configured, hloaded, hrun⟩ :=
    gives_run_iff.1 (gives_run_of_invoke harguments hinvoke)
  obtain ⟨evidence, shown, measured, searched, _, hreport, hdetection, hnone, _⟩ :=
    records_of_gives options loaded hrun
  exact ⟨loaded, configured, evidence, searched, hloaded, measured, searched, hreport,
    yields_detect_of_gives hdetection, hnone, rfl⟩

/-- To announce something changes nothing but the output. -/
theorem eq_of_announce {isQuiet : Bool} {line : String} {saved after : Machine}
    (hannounce : Gives (if !isQuiet then liftM (host.printLine line) else pure ()) saved () after) :
    { saved with output := after.output } = after := by
  cases isQuiet with
  | true =>
      obtain ⟨_, rfl⟩ := gives_pure_iff.1 hannounce
      rfl
  | false =>
      obtain ⟨_, hafter⟩ := Prod.mk.inj (gives_lift_iff.1 hannounce)
      rw [← hafter]

/-- A baseline that is recorded with enough room is there afterwards, and nothing else has
changed. -/
theorem holds_of_record {searched after : Machine} {isQuiet : Bool} {findings : List Finding}
    (hroom : searched.HasRoom (Baseline.ofFindings searched.seconds findings).bytes.length)
    (hrecord : Gives (record host path isQuiet findings) searched () after) :
    ∃ names, Changes names searched after ∧
      after.Holds path names (Baseline.ofFindings searched.seconds findings).bytes := by
  rw [record, gives_bind_iff] at hrecord
  obtain ⟨seconds, asked, hclock, hrecord⟩ := hrecord
  obtain ⟨hseconds, hasked⟩ := yields_pure_iff.1 (gives_lift_iff.1 hclock)
  obtain rfl : searched = asked := hasked
  obtain rfl : searched.seconds = seconds := hseconds
  obtain ⟨saved?, saved, hsave, hrecord⟩ := gives_bind_iff.1 hrecord
  have hsave := gives_lift_iff.1 hsave
  cases saved? with
  | error cause => exact absurd hrecord not_gives_throw
  | ok _ =>
      obtain ⟨names, saved', hsave', hchanges, isExecutable, hresolve⟩ :=
        Baseline.yields_save (Baseline.canSave_of_yields_save hsave) hroom
      obtain ⟨_, rfl⟩ := hsave.unique hsave'
      rw [← eq_of_announce hrecord]
      exact ⟨names, ⟨hchanges.files, hchanges.directory, hchanges.input⟩, isExecutable, hresolve⟩

end Recording

/-! ## Runs that use it -/

theorem gives_format {σ : Type} {options : Options} {config : Config} {shown : Format} {before : σ}
    (hshown : options.format.or (Format.ofName? config.format) = some shown) :
    Gives (format (m := StateM σ) options config) before shown before := by
  rw [format, hshown]
  exact gives_pure_iff.2 ⟨rfl, rfl⟩

/-- No finding is new to the baseline that was made of it. -/
theorem gives_newFindings {path : String} {seconds : Nat} {findings : List Finding}
    {machine : Machine}
    (hload : Yields (Baseline.load host path) machine (.ok (.ofFindings seconds findings))
      machine) :
    Gives (newFindings host (some path) findings) machine ([], findings.length) machine := by
  have hdivide : (Baseline.ofFindings seconds findings).divide findings = ([], findings) :=
    Baseline.divide_ofFindings fun finding hfinding =>
      ⟨finding, hfinding, Baseline.driftsFrom_self finding⟩
  rw [newFindings]
  refine gives_bind_iff.2 ⟨_, machine, gives_lift_iff.2 hload, ?_⟩
  simp only [hdivide]
  exact gives_pure_iff.2 ⟨rfl, rfl⟩

/-- The paths that a run looks at.  Where the tests are run first, these are the sources alone. -/
def lookedAt (machine : Machine) (options : Options) (config : Config)
    (report : CoverageReport) : List String :=
  sources (detector options config) report ++
    if options.report.isSome then machine.configPaths options ++ Machine.reportPaths options else []

/-- The tests can be run once more.  The configuration is what it was, they give the same report,
and they leave the sources and the baseline as they are. -/
structure TestsRepeat (options : Options) (loaded : Config) (report : CoverageReport)
    (path : String) (after again : Machine) : Prop where
  configures : Gives (loadedConfig host options) after loaded after
  measures : Gives (Program.report host options (override loaded options)) after report again
  sources : ∀ source ∈ sources (detector options (override loaded options)) report,
    after.SeesAlike again source
  baseline : after.SeesAlike again path

/-- A run has recorded a baseline, and the same run follows that uses it instead.  Of the computer
there are four states: before the first run, when the first run has searched the files, after it,
and when the second run has got its report. -/
structure FollowUp (arguments arguments' : List String) (options : Options) (path : String)
    (loaded : Config) (evidence : Evidence) (before searched after again : Machine) : Prop where
  /-- The first run is asked to record a baseline. -/
  first : Options.read arguments = .run { options with newBaseline := some path }
  /-- The second run is asked to use it. -/
  second : Options.read arguments' =
    .run { options with baseline := some path, newBaseline := none }
  succeeds : Yields (invoke host arguments) before 0 after
  /-- What the first run came by. -/
  collects : ∃ configured, Gives (loadedConfig host options) before loaded configured ∧
    Collects host { options with baseline := none } loaded configured evidence searched
  /-- Lines are words of 32 bits. -/
  lines : ∀ finding ∈ evidence.nonRetained (loaded.retain ++ options.retain),
    finding.line ≤ maxLine
  /-- The files take in the whole baseline. -/
  room : searched.HasRoom (Baseline.ofFindings searched.seconds
    (evidence.nonRetained (loaded.retain ++ options.retain))).bytes.length
  /-- Nothing that the run looks at has been brought up by saving the baseline. -/
  spared : ∀ other ∈ lookedAt searched options (override loaded options) evidence.report,
    searched.Spares after path other
  /-- The report is given, or the tests can be run again. -/
  repeats : options.report.isSome ∧ again = after ∨
    TestsRepeat options loaded evidence.report path after again
  /-- The result of the second run can be presented. -/
  presents : ∀ shown, options.format.or (Format.ofName? loaded.format) = some shown →
    ∃ final, Yields (Summary.present host shown options.output options.isQuiet
      ((evidence.withRecorded (loaded.retain ++ options.retain)).summary
        (loaded.retain ++ options.retain))) again (.ok ()) final

namespace FollowUp

variable {arguments arguments' : List String} {options : Options} {path : String}
  {loaded : Config} {evidence : Evidence} {before searched after again : Machine}

/-- The parts of the first run. -/
theorem exists_parts
    (h : FollowUp arguments arguments' options path loaded evidence before searched after again) :
    ∃ configured shown measured, Gives (loadedConfig host options) before loaded configured ∧
      options.format.or (Format.ofName? loaded.format) = some shown ∧
      Gives (report host options (override loaded options)) configured evidence.report measured ∧
      Gives (Program.detection host options (override loaded options) evidence.report) measured
        evidence.detection searched ∧
      Gives (record host path options.isQuiet
        (evidence.nonRetained (loaded.retain ++ options.retain))) searched () after := by
  obtain ⟨loaded', configured', hloaded', hrun⟩ :=
    gives_run_iff.1 (gives_run_of_invoke h.first h.succeeds)
  obtain ⟨configured, hloaded, measured, found, hreport, hdetection, hnone, hfound⟩ := h.collects
  obtain ⟨rfl, rfl⟩ := hloaded.unique hloaded'
  obtain rfl : found = searched := hfound
  obtain ⟨⟨report', detection', fingerprints'⟩, shown, measured', searched', hshown, hreport',
    hdetection', _, hrecord⟩ := records_of_gives options loaded hrun
  cases evidence with
  | mk report detection fingerprints =>
      obtain ⟨hsame, rfl⟩ := hreport.unique hreport'
      obtain rfl : report = report' := hsame
      obtain ⟨hsame, rfl⟩ := hdetection.unique (yields_detect_of_gives hdetection')
      obtain rfl : detection = detection' := Except.ok.inj hsame
      exact ⟨configured, shown, measured, hloaded, hshown, hreport, hdetection', hrecord⟩

/-- When the second run has got its report, it has the same report and the same sources, and the
baseline can be loaded. -/
theorem exists_again
    (h : FollowUp arguments arguments' options path loaded evidence before searched after again) :
    Gives (loadedConfig host options) after loaded after ∧
      Gives (report host options (override loaded options)) after evidence.report again ∧
      Gives (Program.detection host options (override loaded options) evidence.report) again
        evidence.detection again ∧
      Yields (Baseline.load host path) again (.ok (Baseline.ofFindings searched.seconds
        (evidence.nonRetained (loaded.retain ++ options.retain)))) again := by
  obtain ⟨configured, shown, measured, hloaded, _, hreport, hdetection, hrecord⟩ := h.exists_parts
  obtain ⟨names, hchanges, hholds⟩ := holds_of_record h.room hrecord
  have hread := Baseline.read_ofFindings searched.seconds h.lines
  have halike : ∀ other ∈ lookedAt searched options (override loaded options) evidence.report,
      searched.SeesAlike after other :=
    fun other hother => (h.spared other hother).seesAlike hchanges hholds
  have hsources : ∀ source ∈ sources (detector options (override loaded options)) evidence.report,
      searched.SeesAlike after source :=
    fun source hsource => halike source (List.mem_append_left _ hsource)
  obtain ⟨rfl, _⟩ := gives_detection_of_alike
    (fun source _ => (Machine.SeesAlike.refl measured source).readIfExists) hdetection
  rcases h.repeats with ⟨hgiven, rfl⟩ | hrepeat
  · -- The report is given, so the first run has changed nothing before it recorded the baseline.
    obtain ⟨rfl, _⟩ := Machine.gives_loadedConfig_of_alike
      (fun other _ => Machine.SeesAlike.refl before other) hloaded
    obtain ⟨rfl, _⟩ := Machine.gives_report_of_alike hgiven rfl
      (fun other _ => Machine.SeesAlike.refl configured other) hreport
    rw [lookedAt, if_pos hgiven] at halike
    simp only [List.forall_mem_append] at halike
    refine ⟨(Machine.gives_loadedConfig_of_alike halike.2.1 hloaded).2,
      (Machine.gives_report_of_alike hgiven hchanges.input halike.2.2 hreport).2,
      (gives_detection_of_alike (fun source hsource => (hsources source hsource).readIfExists)
        hdetection).2, ?_⟩
    exact hread ▸ Baseline.yields_load_of_read hholds.yields_read
  · -- The tests are run again, and the second run looks at what they leave behind.
    refine ⟨hrepeat.configures, hrepeat.measures, ?_, ?_⟩
    · have hagain : ∀ source ∈ sources (detector options (override loaded options)) evidence.report,
          searched.SeesAlike again source :=
        fun source hsource => (hrepeat.sources source hsource).trans (hsources source hsource)
      exact (gives_detection_of_alike (fun source hsource => (hagain source hsource).readIfExists)
        hdetection).2
    · obtain ⟨hshown, _⟩ := Machine.shown?_of_yields_read hholds.yields_read
      exact hread ▸ Baseline.yields_load_of_read
        (Machine.yields_read (hrepeat.baseline.trans hshown))

/-- The second run succeeds with nothing to report. -/
theorem concludes
    (h : FollowUp arguments arguments' options path loaded evidence before searched after again) :
    ∃ final,
      Gives (run host { options with baseline := some path, newBaseline := none }) after 0 final ∧
      Concludes host { options with baseline := some path, newBaseline := none } loaded after
        (evidence.withRecorded (loaded.retain ++ options.retain)) 0 final := by
  obtain ⟨_, shown, _, _, hshown, _, _, _⟩ := h.exists_parts
  obtain ⟨hloaded, hreport, hdetection, hbaseline⟩ := h.exists_again
  obtain ⟨final, hpresent⟩ := h.presents shown hshown
  have hnothing := evidence.reported_withRecorded (loaded.retain ++ options.retain)
  have hconcludes : Concludes host { options with baseline := some path, newBaseline := none }
      loaded after (evidence.withRecorded (loaded.retain ++ options.retain)) _ final :=
    concludes_of_collects hshown
      ⟨again, again, hreport, yields_detect_of_gives hdetection, _, hbaseline, rfl⟩ hpresent
  rw [hnothing] at hconcludes
  refine ⟨final, gives_run_iff.2 ⟨loaded, after, hloaded, ?_⟩, hconcludes⟩
  rw [runWith]
  refine gives_bind_iff.2 ⟨shown, after, gives_format hshown, ?_⟩
  refine gives_bind_iff.2 ⟨evidence.report, again, hreport, ?_⟩
  refine gives_bind_iff.2 ⟨evidence.detection, again, hdetection, ?_⟩
  refine gives_bind_iff.2 ⟨([], (evidence.nonRetained (loaded.retain ++ options.retain)).length),
    again, gives_newFindings hbaseline, ?_⟩
  refine gives_bind_iff.2 ⟨(), final, gives_unlessFault_iff.2 ?_, gives_pure_iff.2 ⟨rfl, rfl⟩⟩
  rw [Evidence.summary, hnothing, Evidence.baselined_withRecorded] at hpresent
  exact hpresent

end FollowUp

/-- A baseline of some findings is saved and loaded wherever there is room for it.  It knows all of
them, in order, and whatever has the file and the name of one of them on a line that is at most ten
away.  So a run that uses a baseline which the same run has recorded comes by the same findings,
reports none of them, counts all that are not retained as known, and succeeds. -/
theorem baseline_covers :
    (∀ (machine : Machine) (path : String) (seconds : Nat) (findings : List Finding),
      machine.canSave path = true →
      machine.HasRoom (Baseline.ofFindings seconds findings).bytes.length →
      (∀ finding ∈ findings, finding.line ≤ maxLine) →
      ∃ saved baseline,
        Yields ((Baseline.ofFindings seconds findings).save host path) machine (.ok ()) saved ∧
        Yields (Baseline.load host path) saved (.ok baseline) saved ∧
        baseline.divide findings = ([], findings) ∧
        ∀ drifted, (∀ finding ∈ drifted, ∃ earlier ∈ findings,
          Baseline.DriftsFrom finding earlier) → (baseline.divide drifted).1 = []) ∧
    ∀ (arguments arguments' : List String) (options : Options) (path : String) (loaded : Config)
      (evidence : Evidence) (before searched after again : Machine),
      FollowUp arguments arguments' options path loaded evidence before searched after again →
      ∃ final known, Yields (invoke host arguments') after 0 final ∧
        Concludes host { options with baseline := some path, newBaseline := none } loaded after
          known 0 final ∧
        known.report = evidence.report ∧ known.detection = evidence.detection ∧
        known.reported (loaded.retain ++ options.retain) = [] ∧
        known.baselined (loaded.retain ++ options.retain) =
          (evidence.nonRetained (loaded.retain ++ options.retain)).length := by
  constructor
  · intro machine path seconds findings hpath hroom hlines
    exact Baseline.load_save_ofFindings hpath hroom hlines
  · intro arguments arguments' options path loaded evidence before searched after again h
    obtain ⟨final, hrun, hconcludes⟩ := h.concludes
    exact ⟨final, _, yields_invoke h.second hrun, hconcludes, rfl, rfl,
      evidence.reported_withRecorded _, evidence.baselined_withRecorded _⟩

/-! ## A small project -/

/-- A report of one file, in which the file has the given path. -/
def shelfTable (path : String) : String :=
  "Name Stmts Miss Cover Missing\n----\n" ++ path ++ " 2 1 50% 2\n"

/-- A computer with one file and its report. -/
def shelf (path : String) : Machine where
  files := .directory
    [("a.py", .file (Text.encode "def f():\n    return 1\n") false),
     ("report.txt", .file (Text.encode (shelfTable path)) false)]

def shelfReport (path : String) : CoverageReport where
  entries := [(path, .ofList [2])]

/-- That computer after a run that has recorded a baseline in a new directory. -/
def shelfAfter (path : String) : Machine :=
  ((invoke host ["report.txt", "--generate-baseline", "out/known.json"]).run (shelf path)).run.2

theorem yields_shelfAfter {path : String}
    (hstatus : ((invoke host ["report.txt", "--generate-baseline", "out/known.json"]).run
      (shelf path)).run.1 = 0) :
    Yields (invoke host ["report.txt", "--generate-baseline", "out/known.json"]) (shelf path) 0
      (shelfAfter path) := by
  rw [Yields, shelfAfter, ← hstatus]

/-- The run on that computer that uses the baseline has nothing to report, and the baseline of a
function knows it after it has moved down by ten lines. -/
theorem baseline_covers_shelf :
    (∃ final, Yields (invoke host ["report.txt", "--baseline", "out/known.json"])
      (shelfAfter "a.py") 0 final) ∧
      ∃ saved baseline, Yields (Baseline.load host "known") saved (.ok baseline) saved ∧
        (baseline.divide [⟨"a.py", "f", 11, true⟩]).1 = [] := by
  let options : Options := { report := some "report.txt" }
  let evidence : Evidence := ⟨shelfReport "a.py", ⟨[⟨"a.py", "f", 1, false⟩], [], 1⟩, []⟩
  have hloaded : Gives (loadedConfig host options) (shelf "a.py") {} (shelf "a.py") := by
    have hload : Gives (loadedConfig host options) (shelf "a.py") {} _ :=
      Prod.ext (by decide +kernel) rfl
    exact (Machine.gives_loadedConfig_of_alike (fun _ _ => rfl) hload).2
  have hreport : Gives (report host options (override {} options)) (shelf "a.py") evidence.report
      (shelf "a.py") := by
    have hread : Gives (report host options (override {} options)) (shelf "a.py") evidence.report
        _ := Prod.ext (by decide +kernel) rfl
    exact (Machine.gives_report_of_alike rfl rfl (fun _ _ => rfl) hread).2
  have hdetection : Yields (Detector.detect ⟨".", []⟩ host.readIfExists
      (evidence.report.without [])) (shelf "a.py") (.ok evidence.detection) (shelf "a.py") := by
    have hdetect : Yields (Detector.detect ⟨".", []⟩ host.readIfExists
        (evidence.report.without [])) (shelf "a.py") (.ok evidence.detection) _ :=
      Prod.ext (by decide +kernel) rfl
    exact ((findsAlike_detect fun _ _ => Machine.SeesAlike.readIfExists rfl).yields hdetect).2
  have hfollow : FollowUp ["report.txt", "--generate-baseline", "out/known.json"]
      ["report.txt", "--baseline", "out/known.json"] options "out/known.json" {} evidence
      (shelf "a.py") (shelf "a.py") (shelfAfter "a.py") (shelfAfter "a.py") := {
    first := by decide +kernel
    second := by decide +kernel
    succeeds := yields_shelfAfter (by decide +kernel)
    collects := ⟨_, hloaded, _, _, hreport, hdetection, rfl, rfl⟩
    lines := by decide +kernel
    room := fun room hroom => by cases hroom
    spared := by decide +kernel
    repeats := .inl ⟨rfl, rfl⟩
    presents := fun shown hshown => by
      have hformat : Format.ofName? "terminal" = some .terminal := by decide +kernel
      obtain rfl := Option.some.inj (hformat.symm.trans hshown)
      exact ⟨_, Prod.ext rfl rfl⟩ }
  have hroom : ∀ count, Machine.HasRoom {} count := fun count room hroom => by cases hroom
  constructor
  · obtain ⟨final, _, hfinal, _⟩ := baseline_covers.2 _ _ _ _ _ _ _ _ _ _ hfollow
    exact ⟨final, hfinal⟩
  · obtain ⟨saved, baseline, _, hload, _, hdrift⟩ := baseline_covers.1 {} "known" 0
      [⟨"a.py", "f", 1, false⟩] (by decide +kernel) (hroom _) (by decide)
    refine ⟨saved, baseline, hload, hdrift _ fun finding hfinding => ?_⟩
    obtain rfl := List.mem_singleton.1 hfinding
    exact ⟨_, List.mem_singleton_self _, rfl, rfl, by decide, by decide⟩

/-- A run can make a path lead somewhere by recording its baseline.  Here nothing is recorded,
because the report reaches the file by way of a directory that is missing, and recording the
baseline makes that directory.  So the run that uses the baseline reports a function, although the
baseline is none of the files that are read. -/
theorem not_baseline_covers_shelf :
    Yields (invoke host ["report.txt", "--generate-baseline", "out/known.json"])
        (shelf "out/../a.py") 0 (shelfAfter "out/../a.py") ∧
      CoverageTable.read (Text.encode (shelfTable "out/../a.py")) =
        .ok (shelfReport "out/../a.py") ∧
      (∀ other ∈ lookedAt (shelf "out/../a.py") { report := some "report.txt" } {}
          (shelfReport "out/../a.py"),
        (shelfAfter "out/../a.py").place? other ≠
          (shelfAfter "out/../a.py").place? "out/known.json") ∧
      ∃ final,
        Yields (invoke host ["report.txt", "--baseline", "out/known.json"])
          (shelfAfter "out/../a.py") 1 final ∧
        final.complaints =
          Text.encode "out/../a.py:1: untested: f\nError: untested functions found!\n" := by
  refine ⟨yields_shelfAfter (by decide +kernel), by decide +kernel, by decide +kernel, ?_⟩
  exact ⟨_, Prod.ext (by decide +kernel) rfl, by decide +kernel⟩

end Program

end Untested
