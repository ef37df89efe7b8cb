/-
# Actions that only look

Most of what a run does leaves the computer as it is: it looks at files and asks whether they
exist.  Such an action finds the same on two computers that look alike at the paths it asks for.
So a pass over a report that has succeeded on one of them succeeds on the other as well, with the
same findings, whether one worker makes it or several.
-/

import Untested.Host.Machine
import Untested.Proofs.Detection.Removal
import Untested.Proofs.Program.Step

namespace Untested

namespace Program

variable {σ α β : Type} {first second : σ}

/-- An action finds the same in two states and leaves both as they are. -/
def FindsAlike (first second : σ) (action : StateM σ α) : Prop :=
  ∃ result, Yields action first result first ∧ Yields action second result second

theorem findsAlike_pure (value : α) : FindsAlike first second (pure value) :=
  ⟨value, yields_pure_iff.2 ⟨rfl, rfl⟩, yields_pure_iff.2 ⟨rfl, rfl⟩⟩

namespace FindsAlike

theorem bind {action : StateM σ α} {next : α → StateM σ β}
    (haction : FindsAlike first second action)
    (hnext : ∀ result, Yields action first result first → FindsAlike first second (next result)) :
    FindsAlike first second (action >>= next) := by
  obtain ⟨value, hfirst, hsecond⟩ := haction
  obtain ⟨result, hfirst', hsecond'⟩ := hnext value hfirst
  exact ⟨result, yields_bind_iff.2 ⟨value, first, hfirst, hfirst'⟩,
    yields_bind_iff.2 ⟨value, second, hsecond, hsecond'⟩⟩

theorem map {action : StateM σ α} (haction : FindsAlike first second action) (f : α → β) :
    FindsAlike first second (f <$> action) := by
  obtain ⟨value, hfirst, hsecond⟩ := haction
  exact ⟨f value, yields_map_iff.2 ⟨value, hfirst, rfl⟩, yields_map_iff.2 ⟨value, hsecond, rfl⟩⟩

/-- What is found in the first state is found in the second. -/
theorem yields {action : StateM σ α} (haction : FindsAlike first second action) {result : α}
    {after : σ} (hresult : Yields action first result after) :
    after = first ∧ Yields action second result second := by
  obtain ⟨value, hfirst, hsecond⟩ := haction
  obtain ⟨rfl, rfl⟩ := hresult.unique hfirst
  exact ⟨rfl, hsecond⟩

theorem mapM {check : α → StateM σ β} {items : List α}
    (hcheck : ∀ item ∈ items, FindsAlike first second (check item)) :
    FindsAlike first second (items.mapM check) := by
  induction items with
  | nil => exact findsAlike_pure []
  | cons item items ih =>
      rw [List.forall_mem_cons] at hcheck
      rw [List.mapM_cons]
      exact hcheck.1.bind fun _ _ => (ih hcheck.2).bind fun _ _ => findsAlike_pure _

/-- The same holds of a step that fails where the action meets a fault. -/
theorem gives {action : StateM σ (Except Fault α)} (haction : FindsAlike first second action)
    {result : α} {after : σ} (hresult : Gives (unlessFault action) first result after) :
    after = first ∧ Gives (unlessFault action) second result second := by
  obtain ⟨hafter, hsecond⟩ := haction.yields (gives_unlessFault_iff.1 hresult)
  exact ⟨hafter, gives_unlessFault_iff.2 hsecond⟩

end FindsAlike

/-! ## Passes -/

/-- The paths that a pass asks for, in report order. -/
def sources (detector : Detector) (report : CoverageReport) : List String :=
  (report.without detector.exclude).paths.map (Path.join detector.root)

section Passes

variable {detector : Detector} {read : SourceReader (StateM σ)} {report : CoverageReport}

theorem join_mem_sources {entry : String × LineSet} (hentry : entry ∈ report.entries)
    (hexcluded : detector.isExcluded entry.1 = false) :
    Path.join detector.root entry.1 ∈ sources detector report :=
  List.mem_map_of_mem (List.mem_map_of_mem
    (CoverageReport.mem_entries_without.2 ⟨hentry, hexcluded⟩))

/-- Each file is looked at alike. -/
theorem findsAlike_check
    (hread : ∀ path ∈ sources detector report, FindsAlike first second (read path)) :
    ∀ entry ∈ report.entries, FindsAlike first second (detector.check read entry) := by
  intro entry hentry
  cases hexcluded : detector.isExcluded entry.1 with
  | true =>
      rw [detector.check_of_excluded hexcluded]
      exact findsAlike_pure _
  | false =>
      rw [detector.check_of_not_excluded hexcluded]
      exact (hread _ (join_mem_sources hentry hexcluded)).map _

theorem findsAlike_checkAll {check : String × LineSet → StateM σ (Except Fault FileOutcome)}
    {entries : List (String × LineSet)}
    (hcheck : ∀ entry ∈ entries, FindsAlike first second (check entry)) :
    FindsAlike first second (Detector.checkAll check entries) := by
  induction entries with
  | nil => exact findsAlike_pure _
  | cons entry entries ih =>
      rw [List.forall_mem_cons] at hcheck
      rw [Detector.checkAll_cons]
      refine hcheck.1.bind fun result _ => ?_
      cases result with
      | error fault => exact findsAlike_pure _
      | ok outcome => exact (ih hcheck.2).map _

/-- A pass finds the same, and leaves the state as it is, if all sources are read alike. -/
theorem findsAlike_detect
    (hread : ∀ path ∈ sources detector report, FindsAlike first second (read path)) :
    FindsAlike first second (detector.detect read report) :=
  (findsAlike_checkAll (findsAlike_check hread)).bind fun _ _ => findsAlike_pure _

theorem findsAlike_detectInParallel
    (hread : ∀ path ∈ sources detector report, FindsAlike first second (read path))
    (order : List Nat) :
    FindsAlike first second (detector.detectInParallel order read report) :=
  (FindsAlike.mapM (findsAlike_check hread)).bind fun _ _ => findsAlike_pure _

end Passes

/-- What a run looks for when it looks into files. -/
def detector (options : Options) (config : Config) : Detector where
  root := config.sourceRootIn (project options)
  exclude := config.exclude

/-- A pass of a run that succeeds does so wherever all sources are read alike. -/
theorem gives_detection_of_alike {host : Host (StateM σ)} {options : Options} {config : Config}
    {report : CoverageReport} {detection : Detection} {after : σ}
    (hread : ∀ path ∈ sources (detector options config) report,
      FindsAlike first second (host.readIfExists path))
    (hpass : Gives (Program.detection host options config report) first detection after) :
    after = first ∧
      Gives (Program.detection host options config report) second detection second := by
  rw [Program.detection] at hpass ⊢
  by_cases hparallel : options.isParallel = true
  · rw [if_pos hparallel] at hpass ⊢
    exact (findsAlike_detectInParallel hread _).gives hpass
  · rw [if_neg hparallel] at hpass ⊢
    exact (findsAlike_detect hread).gives hpass

end Program

/-! ## Files -/

namespace Machine

open Program

/-- What a path shows, if it leads to something. -/
def shown? (machine : Machine) (path : String) : Option FileTree.Contents :=
  (machine.files.read (machine.absolute path)).toOption

/-- A path shows the same on two computers, or leads nowhere on both. -/
def SeesAlike (first second : Machine) (path : String) : Prop :=
  second.shown? path = first.shown? path

variable {first second machine after : Machine} {path : String}

theorem yields_exists? :
    Yields (host.exists? path) machine (machine.shown? path).isSome machine := by
  refine yields_pure_iff.2 ⟨?_, rfl⟩
  show machine.files.exists? (machine.absolute path) = _
  rw [shown?, FileTree.exists?, FileTree.read]
  rcases machine.files.resolve (machine.absolute path) with ⟨_, _ | _⟩ | _ | _ <;> rfl

theorem yields_read {contents : FileTree.Contents} (hshown : machine.shown? path = some contents) :
    Yields (host.read path) machine (.ok contents) machine := by
  refine yields_pure_iff.2 ⟨?_, rfl⟩
  show machine.files.read (machine.absolute path) = _
  rw [shown?] at hshown
  cases hread : machine.files.read (machine.absolute path) with
  | error cause =>
      rw [hread] at hshown
      cases hshown
  | ok other =>
      rw [hread] at hshown
      rw [Option.some.inj hshown]

/-- What can be read is what the path shows. -/
theorem shown?_of_yields_read {contents : FileTree.Contents}
    (hread : Yields (host.read path) machine (.ok contents) after) :
    machine.shown? path = some contents ∧ machine = after := by
  obtain ⟨hcontents, hafter⟩ := yields_pure_iff.1 hread
  refine ⟨?_, hafter⟩
  have hcontents : machine.files.read (machine.absolute path) = .ok contents := hcontents
  rw [shown?, hcontents]
  rfl

namespace SeesAlike

theorem refl (machine : Machine) (path : String) : SeesAlike machine machine path :=
  rfl

theorem exists? (h : SeesAlike first second path) : FindsAlike first second (host.exists? path) :=
  ⟨_, yields_exists?, by rw [← h]; exact yields_exists?⟩

theorem read (h : SeesAlike first second path) (hsome : (first.shown? path).isSome) :
    FindsAlike first second (host.read path) := by
  obtain ⟨contents, hcontents⟩ := Option.isSome_iff_exists.1 hsome
  exact ⟨_, yields_read hcontents, yields_read (h.trans hcontents)⟩

theorem readText (h : SeesAlike first second path) (hsome : (first.shown? path).isSome) :
    FindsAlike first second (host.readText path) := by
  refine (h.read hsome).bind fun contents? _ => ?_
  match contents? with
  | .error cause => exact findsAlike_pure _
  | .ok (.unreadable cause) => exact findsAlike_pure _
  | .ok (.bytes content) =>
      dsimp only
      cases Text.text? content <;> exact findsAlike_pure _

theorem readIfExists (h : SeesAlike first second path) :
    FindsAlike first second (host.readIfExists path) := by
  refine h.exists?.bind fun isThere hthere => ?_
  cases isThere with
  | false => exact findsAlike_pure _
  | true =>
      refine (h.readText ?_).bind fun _ _ => findsAlike_pure _
      exact (yields_exists?.unique hthere).1

end SeesAlike

/-! ## Configurations -/

/-- The paths among which a file is looked for: those up to the first that leads to something. -/
def asked (machine : Machine) : List String → List String
  | [] => []
  | path :: paths =>
    if (machine.shown? path).isSome then [path] else path :: machine.asked paths

/-- The paths at which a run looks for its configuration. -/
def configPaths (machine : Machine) (options : Options) : List String :=
  match options.config with
  | some path => [path]
  | none => machine.asked (Config.usualNames.map (Path.join (project options)))

/-- The files that a run looks into to get its report. -/
def reportPaths (options : Options) : List String :=
  match options.report with
  | none => []
  | some path => if path = "-" then [] else [path]

theorem findsAlike_firstExisting {paths : List String}
    (hasked : ∀ path ∈ first.asked paths, SeesAlike first second path) :
    FindsAlike first second (Config.firstExisting host paths) := by
  induction paths with
  | nil => exact findsAlike_pure _
  | cons path paths ih =>
      rw [asked] at hasked
      have hpath : SeesAlike first second path := hasked path (by split <;> simp)
      refine hpath.exists?.bind fun isThere hthere => ?_
      cases isThere with
      | true => exact findsAlike_pure _
      | false =>
          have hnone : ¬ (first.shown? path).isSome = true :=
            fun hsome => absurd (hsome.symm.trans (yields_exists?.unique hthere).1) (by decide)
          rw [if_neg hnone, List.forall_mem_cons] at hasked
          exact ih hasked.2

/-- The file that is taken is the last that was asked for. -/
theorem mem_asked_of_firstExisting {paths : List String}
    (hfirst : Yields (Config.firstExisting host paths) machine (some path) after) :
    path ∈ machine.asked paths ∧ (machine.shown? path).isSome := by
  induction paths with
  | nil => cases (yields_pure_iff.1 hfirst).1
  | cons other paths ih =>
      rw [Config.firstExisting, yields_bind_iff] at hfirst
      obtain ⟨isThere, between, hthere, hrest⟩ := hfirst
      obtain ⟨hsome, rfl⟩ := yields_exists?.unique hthere
      rw [asked]
      cases isThere with
      | true =>
          obtain ⟨hpath, _⟩ := yields_pure_iff.1 hrest
          obtain rfl := Option.some.inj hpath
          rw [if_pos hsome]
          exact ⟨List.mem_singleton_self _, hsome⟩
      | false =>
          obtain ⟨hmem, hshown⟩ := ih hrest
          rw [if_neg (by rw [hsome]; decide)]
          exact ⟨List.mem_cons_of_mem _ hmem, hshown⟩

theorem findsAlike_load (hpath : SeesAlike first second path)
    (hsome : (first.shown? path).isSome) : FindsAlike first second (Config.load host path) := by
  refine (hpath.readText hsome).bind fun text? _ => ?_
  cases text? with
  | error fault => exact findsAlike_pure _
  | ok text =>
      dsimp only
      cases Config.read? (Path.extension? path) text <;> exact findsAlike_pure _

theorem findsAlike_loadUsual {project : String}
    (hasked : ∀ path ∈ first.asked (Config.usualNames.map (Path.join project)),
      SeesAlike first second path) :
    FindsAlike first second (Config.loadUsual host project) := by
  refine (findsAlike_firstExisting hasked).bind fun path? hpath => ?_
  cases path? with
  | none => exact findsAlike_pure _
  | some path =>
      obtain ⟨hmem, hsome⟩ := mem_asked_of_firstExisting hpath
      exact findsAlike_load (hasked path hmem) hsome

/-- A configuration that is loaded comes from a file. -/
theorem isSome_shown?_of_load {config : Config}
    (hload : Yields (Config.load host path) machine (.ok config) after) :
    (machine.shown? path).isSome := by
  rw [Config.load, yields_bind_iff] at hload
  obtain ⟨text?, between, htext, hload⟩ := hload
  rw [Host.readText, yields_bind_iff] at htext
  obtain ⟨contents?, seen, hread, htext⟩ := htext
  cases contents? with
  | ok contents => rw [(shown?_of_yields_read hread).1]; rfl
  | error cause =>
      obtain ⟨rfl, rfl⟩ := yields_pure_iff.1 htext
      cases (yields_pure_iff.1 hload).1

/-- A configuration is loaded alike where it is looked for alike. -/
theorem gives_loadedConfig_of_alike {options : Options} {loaded : Config}
    (hpaths : ∀ path ∈ first.configPaths options, SeesAlike first second path)
    (hloaded : Gives (loadedConfig host options) first loaded after) :
    after = first ∧ Gives (loadedConfig host options) second loaded second := by
  rw [loadedConfig, configPaths] at *
  cases hconfig : options.config with
  | none =>
      rw [hconfig] at hpaths hloaded
      exact (findsAlike_loadUsual hpaths).gives hloaded
  | some path =>
      rw [hconfig] at hpaths hloaded
      have hsome := isSome_shown?_of_load (gives_unlessFault_iff.1 hloaded)
      exact (findsAlike_load (hpaths path (List.mem_singleton_self path)) hsome).gives hloaded

/-! ## Reports -/

theorem gives_reportIn_iff {bytes : List UInt8} {report : CoverageReport} :
    Gives (reportIn bytes) machine report after ↔
      CoverageTable.read bytes = .ok report ∧ machine = after := by
  rw [reportIn, gives_unlessFault_iff, yields_pure_iff]

/-- A report is read alike where its file shows the same. -/
theorem gives_reportAt_of_alike {report : CoverageReport} (hpath : SeesAlike first second path)
    (hreport : Gives (reportAt host path) first report after) :
    after = first ∧ Gives (reportAt host path) second report second := by
  rw [reportAt, gives_bind_iff] at hreport
  obtain ⟨contents?, seen, hread, hreport⟩ := hreport
  have hread := gives_lift_iff.1 hread
  match contents? with
  | .error cause => exact absurd hreport not_gives_throw
  | .ok (.unreadable cause) => exact absurd hreport not_gives_throw
  | .ok (.bytes content) =>
      obtain ⟨hshown, rfl⟩ := shown?_of_yields_read hread
      obtain ⟨htable, rfl⟩ := gives_reportIn_iff.1 hreport
      refine ⟨rfl, ?_⟩
      rw [reportAt, gives_bind_iff]
      exact ⟨.ok (.bytes content), second, gives_lift_iff.2 (yields_read (hpath.trans hshown)),
        gives_reportIn_iff.2 ⟨htable, rfl⟩⟩

/-- A report that is not made afresh is read alike from a file or from the same input. -/
theorem gives_report_of_alike {options : Options} {config : Config} {report : CoverageReport}
    (hgiven : options.report.isSome) (hinput : second.input = first.input)
    (hpaths : ∀ path ∈ reportPaths options, SeesAlike first second path)
    (hreport : Gives (Program.report host options config) first report after) :
    after = first ∧ Gives (Program.report host options config) second report second := by
  rw [Program.report] at hreport ⊢
  split at hreport
  · obtain ⟨bytes, seen, hbytes, hreport⟩ := gives_bind_iff.1 hreport
    obtain ⟨rfl, rfl⟩ := yields_pure_iff.1 (gives_lift_iff.1 hbytes)
    obtain ⟨htable, rfl⟩ := gives_reportIn_iff.1 hreport
    refine ⟨rfl, gives_bind_iff.2 ⟨_, second, ?_, gives_reportIn_iff.2 ⟨htable, rfl⟩⟩⟩
    exact gives_lift_iff.2 (yields_pure_iff.2 ⟨hinput, rfl⟩)
  · rename_i path hne hpath
    rw [reportPaths, hpath] at hpaths
    have hdash : path ≠ "-" := hne
    exact gives_reportAt_of_alike (hpaths path (by simp [hdash])) hreport
  · rename_i hnone
    rw [hnone] at hgiven
    cases hgiven

end Machine

end Untested
