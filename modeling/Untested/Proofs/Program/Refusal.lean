/-
# Baselines that find no room

A computer may run out of room while a baseline is written.  What is written comes to the file by
way of a buffer, and a run hears of a refusal only when the buffer is handed on to make place for
more.  So the file lacks whatever there was no room for, but the run fails only if that reaches back
to before the last bufferful.  A baseline that fits into the buffer is announced as written even if
not a byte of it has been.
-/

import Untested.Proofs.Program.Workflow

namespace Untested

/-! ## What a short baseline heeds -/

/-- Of a baseline that fits into the buffer no refusal is heeded. -/
theorem Baseline.heeded_eq_nil {baseline : Baseline}
    (hfits : baseline.bytes.length ≤ Host.bufferCapacity) : baseline.heeded = [] := by
  obtain ⟨pieces, hpieces⟩ : ∃ pieces, baseline.pieces = [0x7b] :: pieces := ⟨_, rfl⟩
  rw [← flatten_pieces, hpieces, List.flatten_cons, List.length_append] at hfits
  rw [heeded, hpieces, Host.heeded, if_pos (by decide)]
  exact Host.heeded_eq_nil _ pieces (by decide) hfits

/-! ## Saving is silent -/

namespace Machine

variable {α β : Type}

/-- An action that writes nothing to the output for results. -/
def Silent (action : StateM Machine α) : Prop :=
  ∀ machine, (action.run machine).run.2.output = machine.output

theorem Silent.pure (value : α) : Silent (pure value) :=
  fun _ => rfl

theorem Silent.bind {action : StateM Machine α} {next : α → StateM Machine β}
    (haction : Silent action) (hnext : ∀ value, Silent (next value)) :
    Silent (action >>= next) :=
  fun machine => (hnext _ _).trans (haction machine)

theorem silent_update (change : FileTree → Except AccessError FileTree) :
    Silent (update change) := by
  intro machine
  show (update change machine).2.output = _
  rw [update]
  split <;> rfl

theorem silent_append (path : String) (bytes : List UInt8) : Silent (append path bytes) := by
  intro machine
  show (append path bytes machine).2.output = _
  rw [append]
  dsimp only
  split <;> rfl

theorem silent_writePieces (path : String) (held pieces : List (List UInt8)) (size : Nat) :
    Silent (Host.writePieces (append path) held size pieces) := by
  induction pieces generalizing held size with
  | nil =>
      rw [Host.writePieces]
      exact (silent_append path _).bind fun _ => .pure _
  | cons piece pieces ih =>
      rw [Host.writePieces]
      split
      · exact ih _ _
      · apply (silent_append path _).bind
        intro result
        cases result with
        | error cause => exact .pure _
        | ok _ =>
            dsimp only
            split
            · exact ih _ _
            · apply (silent_append path piece).bind
              intro result
              cases result with
              | error cause => exact .pure _
              | ok _ => exact ih _ _

theorem silent_writeBuffered (path : String) (pieces : List (List UInt8)) :
    Silent (host.writeBuffered path pieces) := by
  rw [Host.writeBuffered]
  have hcreate : Silent (host.create path) :=
    Silent.bind (fun _ => rfl) fun _ => silent_update _
  apply hcreate.bind
  intro result
  cases result with
  | error cause => exact .pure _
  | ok _ => exact (silent_writePieces path [] pieces 0).bind fun _ => .pure _

theorem silent_save (path : String) (baseline : Baseline) : Silent (baseline.save host path) := by
  have hdirectories (directory : String) : Silent (host.makeDirectories directory) :=
    Silent.bind (fun _ => rfl) fun _ => silent_update _
  rw [Baseline.save_eq]
  apply Silent.bind
  · split
    · exact .pure _
    · exact hdirectories _
  · intro made
    cases made with
    | error cause => exact .pure _
    | ok _ =>
        apply (silent_writeBuffered path baseline.pieces).bind
        intro written
        match written with
        | .error cause => exact .pure _
        | .ok (.error cause) => exact .pure _
        | .ok (.ok ()) => exact .pure _

end Machine

namespace Program

open Machine (host)

/-! ## Steps one after the other -/

/-- A step that succeeds is out of the way of those behind it. -/
theorem Gives.yields_bind_iff {σ α β : Type} {step : Step (StateM σ) α}
    {next : α → Step (StateM σ) β} {before between after : σ} {value : α}
    {result : Except Failure β} (hstep : Gives step before value between) :
    Yields (step >>= next).run before result after ↔
      Yields (next value).run between result after := by
  rw [ExceptT.run_bind, Program.yields_bind_iff]
  constructor
  · rintro ⟨_, _, hother, hnext⟩
    obtain ⟨rfl, rfl⟩ := Yields.unique hstep hother
    exact hnext
  · intro hnext
    exact ⟨.ok value, between, hstep, hnext⟩

/-! ## Runs that come to record a baseline -/

/-- A run that is asked to record a baseline has come so far: it is configured and has got its
report, and it has searched the files and found what is to be recorded. -/
def ComesToRecord (arguments : List String) (path : String) (isQuiet : Bool) (before : Machine)
    (findings : List Finding) (searched : Machine) : Prop :=
  ∃ options loaded configured shown report measured detection,
    Options.read arguments = .run options ∧
    options.newBaseline = some path ∧
    options.isQuiet = isQuiet ∧
    Gives (loadedConfig host options) before loaded configured ∧
    Gives (format options (override loaded options)) configured shown configured ∧
    Gives (Program.report host options (override loaded options)) configured report measured ∧
    Gives (Program.detection host options (override loaded options) report) measured detection
      searched ∧
    findings = detection.findings.filter fun finding =>
      !(override loaded options).retains finding.name

variable {arguments : List String} {path : String} {isQuiet : Bool} {findings : List Finding}
  {before searched after : Machine}

/-- A run that has come to record a baseline ends as recording it does. -/
theorem ComesToRecord.yields_run {result : Except Failure Unit} {recorded : Machine}
    (hcomes : ComesToRecord arguments path isQuiet before findings searched)
    (hrecord : Yields (record host path isQuiet findings).run searched result recorded) :
    ∃ options, Options.read arguments = .run options ∧
      Yields (run host options).run before (result.map fun _ => 0) recorded := by
  obtain ⟨options, loaded, configured, shown, report, measured, detection, harguments, hpath, rfl,
    hloaded, hformat, hreport, hdetection, rfl⟩ := hcomes
  refine ⟨options, harguments, ?_⟩
  have hconfig : Gives (config host options) before (override loaded options) configured :=
    gives_bind_iff.2 ⟨loaded, configured, hloaded, gives_pure_iff.2 ⟨rfl, rfl⟩⟩
  rw [run, hconfig.yields_bind_iff, runWith, hformat.yields_bind_iff, hreport.yields_bind_iff,
    hdetection.yields_bind_iff, hpath]
  rw [ExceptT.run_bind, yields_bind_iff]
  refine ⟨result, recorded, hrecord, ?_⟩
  cases result with
  | error failure => exact yields_pure_iff.2 ⟨rfl, rfl⟩
  | ok _ => exact yields_pure_iff.2 ⟨rfl, rfl⟩

/-- A run that records a baseline and succeeds has come to record it. -/
theorem exists_comesToRecord {options : Options}
    (harguments : Options.read arguments = .run options)
    (hpath : options.newBaseline = some path)
    (hinvoke : Yields (invoke host arguments) before 0 after) :
    ∃ findings searched,
      ComesToRecord arguments path options.isQuiet before findings searched ∧
      Gives (record host path options.isQuiet findings) searched () after := by
  obtain ⟨loaded, configured, hloaded, hrun⟩ :=
    gives_run_iff.1 (gives_run_of_invoke harguments hinvoke)
  rw [runWith] at hrun
  obtain ⟨shown, _, hformat, hrun⟩ := gives_bind_iff.1 hrun
  obtain ⟨_, rfl⟩ := shown_of_gives hformat
  obtain ⟨report, measured, hreport, hrun⟩ := gives_bind_iff.1 hrun
  obtain ⟨detection, searched, hdetection, hrun⟩ := gives_bind_iff.1 hrun
  rw [hpath] at hrun
  obtain ⟨_, _, hrecord, hstatus⟩ := gives_bind_iff.1 hrun
  obtain ⟨_, rfl⟩ := gives_pure_iff.1 hstatus
  exact ⟨_, searched, ⟨options, loaded, configured, shown, report, measured, detection, harguments,
    hpath, rfl, hloaded, hformat, hreport, hdetection, rfl⟩, hrecord⟩

/-! ## Recording without room -/

/-- What a run says when it has recorded a number of findings. -/
def recordedLine (path : String) (count : Nat) : String :=
  "Baseline with " ++ Text.decimal count ++ " untested functions written to " ++ path

/-- A baseline is recorded only where its path can be opened. -/
theorem canSave_of_gives_record
    (hrecord : Gives (record host path isQuiet findings) searched () after) :
    searched.canSave path = true := by
  rw [record, gives_bind_iff] at hrecord
  obtain ⟨seconds, asked, hclock, hrecord⟩ := hrecord
  obtain ⟨_, rfl⟩ := yields_pure_iff.1 (gives_lift_iff.1 hclock)
  obtain ⟨saved?, saved, hsave, hrecord⟩ := gives_bind_iff.1 hrecord
  cases saved? with
  | error cause => exact absurd hrecord not_gives_throw
  | ok _ => exact Baseline.canSave_of_yields_save (gives_lift_iff.1 hsave)

theorem gives_seconds (machine : Machine) :
    Gives (liftM host.seconds) machine machine.seconds machine :=
  gives_lift_iff.2 (yields_pure_iff.2 ⟨rfl, rfl⟩)

/-- A baseline that has been saved is announced, unless the run is quiet. -/
theorem yields_record_of_saved {saved : Machine}
    (hsave : Yields ((Baseline.ofFindings searched.seconds findings).save host path) searched
      (.ok ()) saved) :
    Yields (record host path isQuiet findings).run searched (.ok ())
      { saved with
        output := saved.output ++
          if isQuiet = false then Text.encode (recordedLine path findings.length ++ "\n")
          else [] } := by
  have hsave := gives_lift_iff.2 hsave
  rw [record, (gives_seconds searched).yields_bind_iff, hsave.yields_bind_iff]
  cases isQuiet with
  | true =>
      show _ = (Except.ok (), { saved with output := saved.output ++ [] })
      rw [List.append_nil]
      rfl
  | false => rfl

/-- A baseline that could not be saved fails the run. -/
theorem yields_record_of_refused {saved : Machine} {cause : BaselineFault}
    (hsave : Yields ((Baseline.ofFindings searched.seconds findings).save host path) searched
      (.error cause) saved) :
    Yields (record host path isQuiet findings).run searched
      (.error (.baselineNotWritten path cause)) saved := by
  have hsave := gives_lift_iff.2 hsave
  rw [record, (gives_seconds searched).yields_bind_iff, hsave.yields_bind_iff]
  rfl

/-- To explain that a baseline could not be written changes nothing but the complaints. -/
theorem yields_explain_refused (machine : Machine) (path : String) (cause : BaselineFault) :
    ∃ complaints, Yields (explain host (.baselineNotWritten path cause)) machine ()
      { machine with complaints } :=
  ⟨_, rfl⟩

/-- A run that has come to record a baseline leaves as much of it as there is room for.  It fails
only where there is no room for what is heeded, and otherwise announces the baseline. -/
theorem ComesToRecord.ends (hcomes : ComesToRecord arguments path isQuiet before findings searched)
    (hpath : searched.canSave path = true) :
    let baseline := Baseline.ofFindings searched.seconds findings
    ∃ names ended,
      Yields (invoke host arguments) before
        (if searched.HasRoom baseline.heeded.length then 0 else 1) ended ∧
      ended.Holds path names (searched.fitting baseline.bytes) ∧
      ended.output = searched.output ++
        if searched.HasRoom baseline.heeded.length ∧ isQuiet = false then
          Text.encode (recordedLine path findings.length ++ "\n")
        else [] := by
  intro baseline
  obtain ⟨names, saved, hsave, _, isExecutable, hresolve⟩ :=
    Baseline.yields_save_fitting baseline hpath
  have houtput : saved.output = searched.output := by
    rw [← Machine.silent_save path baseline searched]
    exact congrArg (fun ended => ended.2.output) hsave.symm
  rw [← houtput]
  by_cases hroom : searched.HasRoom baseline.heeded.length
  · simp only [hroom, if_true, true_and] at hsave ⊢
    obtain ⟨options, harguments, hrun⟩ := hcomes.yields_run (yields_record_of_saved hsave)
    exact ⟨names, _, yields_invoke harguments hrun, ⟨isExecutable, hresolve⟩, rfl⟩
  · simp only [hroom, if_false, false_and] at hsave ⊢
    obtain ⟨options, harguments, hrun⟩ := hcomes.yields_run (yields_record_of_refused hsave)
    obtain ⟨complaints, hexplain⟩ := yields_explain_refused saved path .malformed
    refine ⟨names, { saved with complaints }, ?_, ⟨isExecutable, hresolve⟩,
      (List.append_nil saved.output).symm⟩
    rw [invoke, harguments]
    refine yields_bind_iff.2 ⟨_, saved, hrun, ?_⟩
    exact yields_bind_iff.2 ⟨(), _, hexplain, yields_pure_iff.2 ⟨rfl, rfl⟩⟩

/-- Where a path can be opened, saving a baseline leaves as much of it as there is room for, and it
succeeds just where there is room for what is heeded.  That is the whole file but for the bytes that
the buffer holds at the end, and nothing at all of a file that fits into the buffer.  So a success
means that the file is whole just where there is room for all of it or not even for what is heeded.
A run that is asked to record a baseline succeeds just where it comes to record it, the path can be
opened and there is room for what is heeded.  Then it announces a baseline that is whole if there is
room for all of it, and otherwise lacks its end. -/
theorem records_within_room (baseline : Baseline) (machine : Machine) (path : String) :
    ((∃ saved, Yields (baseline.save host path) machine (.ok ()) saved) →
      machine.canSave path = true) ∧
    (machine.canSave path = true → ∃ names saved,
      Yields (baseline.save host path) machine
        (if machine.HasRoom baseline.heeded.length then .ok () else .error .malformed) saved ∧
      saved.Holds path names (machine.fitting baseline.bytes)) ∧
    ((machine.HasRoom baseline.heeded.length →
        machine.fitting baseline.bytes = baseline.bytes) ↔
      machine.HasRoom baseline.bytes.length ∨ ¬ machine.HasRoom baseline.heeded.length) ∧
    (∃ rest, baseline.heeded ++ rest = baseline.bytes ∧ rest.length ≤ Host.bufferCapacity) ∧
    (baseline.bytes.length ≤ Host.bufferCapacity → baseline.heeded = []) ∧
    (∀ arguments isQuiet before findings searched,
      ComesToRecord arguments path isQuiet before findings searched →
      searched.canSave path = true →
      let recorded := Baseline.ofFindings searched.seconds findings
      ∃ names ended,
        Yields (invoke host arguments) before
          (if searched.HasRoom recorded.heeded.length then 0 else 1) ended ∧
        ended.Holds path names (searched.fitting recorded.bytes) ∧
        ended.output = searched.output ++
          if searched.HasRoom recorded.heeded.length ∧ isQuiet = false then
            Text.encode (recordedLine path findings.length ++ "\n")
          else []) ∧
    (∀ arguments options before ended, Options.read arguments = .run options →
      options.newBaseline = some path → Yields (invoke host arguments) before 0 ended →
      ∃ findings searched, ComesToRecord arguments path options.isQuiet before findings searched ∧
        searched.canSave path = true) := by
  refine ⟨?_, ?_, ?_, baseline.exists_heeded_append, Baseline.heeded_eq_nil, ?_, ?_⟩
  · rintro ⟨saved, hsave⟩
    exact Baseline.canSave_of_yields_save hsave
  · intro hpath
    obtain ⟨names, saved, hsave, _, hholds⟩ := Baseline.yields_save_fitting baseline hpath
    exact ⟨names, saved, hsave, hholds⟩
  · rw [Machine.fitting_eq_self_iff]
    exact imp_iff_or_not
  · intro arguments isQuiet before findings searched hcomes hpath
    exact hcomes.ends hpath
  · intro arguments options before ended harguments hpath hinvoke
    obtain ⟨findings, searched, hcomes, hrecord⟩ :=
      exists_comesToRecord harguments hpath hinvoke
    exact ⟨findings, searched, hcomes, canSave_of_gives_record hrecord⟩

/-- The computer with one file and its report, whose files can take in a few bytes more. -/
def crowdedShelf (room : Nat) : Machine :=
  { shelf "a.py" with room := some room }

/-- On a computer with room for ten bytes, a run announces a baseline of which the file has ten
bytes, and there is nobody to tell. -/
theorem records_within_room_crowdedShelf :
    ∃ names ended,
      Yields (invoke host ["report.txt", "--generate-baseline", "out/known.json"])
        (crowdedShelf 10) 0 ended ∧
      ended.Holds "out/known.json" names (Text.encode "\x7b\n  \"versi") ∧
      ended.output =
        Text.encode "Baseline with 1 untested functions written to out/known.json\n" := by
  let options : Options := { report := some "report.txt", newBaseline := some "out/known.json" }
  let detection : Detection := ⟨[⟨"a.py", "f", 1, false⟩], [], 1⟩
  have hloaded : Gives (loadedConfig host options) (crowdedShelf 10) {} (crowdedShelf 10) := by
    have hload : Gives (loadedConfig host options) (crowdedShelf 10) {} _ :=
      Prod.ext (by decide +kernel) rfl
    exact (Machine.gives_loadedConfig_of_alike (fun _ _ => rfl) hload).2
  have hreport : Gives (report host options (override {} options)) (crowdedShelf 10)
      (shelfReport "a.py") (crowdedShelf 10) := by
    have hread : Gives (report host options (override {} options)) (crowdedShelf 10)
        (shelfReport "a.py") _ := Prod.ext (by decide +kernel) rfl
    exact (Machine.gives_report_of_alike rfl rfl (fun _ _ => rfl) hread).2
  have hdetection : Gives (Program.detection host options (override {} options)
      (shelfReport "a.py")) (crowdedShelf 10) detection (crowdedShelf 10) := by
    have hdetect : Gives (Program.detection host options (override {} options)
        (shelfReport "a.py")) (crowdedShelf 10) detection _ := Prod.ext (by decide +kernel) rfl
    exact (gives_detection_of_alike (fun _ _ => Machine.SeesAlike.readIfExists rfl) hdetect).2
  have hcomes : ComesToRecord ["report.txt", "--generate-baseline", "out/known.json"]
      "out/known.json" false (crowdedShelf 10) detection.findings (crowdedShelf 10) :=
    ⟨options, {}, _, .terminal, _, _, detection, by decide +kernel, rfl, rfl, hloaded,
      gives_format (by decide +kernel), hreport, hdetection, by decide +kernel⟩
  have hroom : (crowdedShelf 10).HasRoom
      (Baseline.ofFindings (crowdedShelf 10).seconds detection.findings).heeded.length := by
    decide +kernel
  have hbytes : (crowdedShelf 10).fitting
      (Baseline.ofFindings (crowdedShelf 10).seconds detection.findings).bytes =
        Text.encode "\x7b\n  \"versi" := by
    decide +kernel
  have hline : Text.encode
      (recordedLine "out/known.json" detection.findings.length ++ "\n") =
        Text.encode "Baseline with 1 untested functions written to out/known.json\n" := by
    decide +kernel
  have hrecords := records_within_room
    (Baseline.ofFindings (crowdedShelf 10).seconds detection.findings) (crowdedShelf 10)
    "out/known.json"
  obtain ⟨names, ended, hinvoke, hholds, houtput⟩ :=
    hrecords.2.2.2.2.2.1 _ _ _ _ _ hcomes (by decide +kernel)
  rw [if_pos hroom] at hinvoke
  rw [hbytes] at hholds
  rw [if_pos ⟨hroom, rfl⟩, hline] at houtput
  exact ⟨names, ended, hinvoke, hholds, houtput⟩

/-- On a computer without room, a run announces a baseline of which the file has nothing, and the
run that is to use it fails. -/
theorem not_records_crowdedShelf :
    ∃ ended, Yields (invoke host ["report.txt", "--generate-baseline", "out/known.json"])
        (crowdedShelf 0) 0 ended ∧
      ended.output =
        Text.encode "Baseline with 1 untested functions written to out/known.json\n" ∧
      ended.files.read "/out/known.json" = .ok (.bytes []) ∧
      ∃ final,
        Yields (invoke host ["report.txt", "--baseline", "out/known.json"]) ended 1 final := by
  refine ⟨_, Prod.ext (by decide +kernel) rfl, by decide +kernel, by decide +kernel, ?_⟩
  exact ⟨_, Prod.ext (by decide +kernel) rfl⟩

end Program

end Untested
