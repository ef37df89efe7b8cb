/-
# Where the report comes from

A run takes its coverage table from the input, from a file, or from the output of the tool that
has run the tests.  The first two are read as bytes, line by line; the third is decoded first and
is a text from then on.  The same bytes make the same report either way, or the same fault, unless
they are refused for being no text.
-/

import Untested.Proofs.Coverage.Decoded
import Untested.Proofs.Coverage.Report
import Untested.Proofs.Program.Step

namespace Untested.Program

open CoverageTable

variable {σ α β : Type}

/-- What a run makes of the bytes of a table. -/
def tableOutcome (bytes : List UInt8) : Except Failure CoverageReport :=
  (read bytes).mapError .fault

theorem yields_reportIn (bytes : List UInt8) (state : σ) :
    Yields (reportIn (m := StateM σ) bytes).run state (tableOutcome bytes) state := by
  rw [reportIn, tableOutcome]
  cases read bytes <;> rfl

/-- A step that succeeds is followed by the rest, however that ends. -/
theorem yields_run_bind {step : Step (StateM σ) α} {next : α → Step (StateM σ) β}
    {before between after : σ} {value : α} {result : Except Failure β}
    (hstep : Gives step before value between)
    (hnext : Yields (next value).run between result after) :
    Yields (step >>= next).run before result after := by
  rw [ExceptT.run_bind, yields_bind_iff]
  exact ⟨.ok value, between, hstep, hnext⟩

section

variable {host : Host (StateM σ)} {options : Options} {config : Config} {bytes : List UInt8}
  {before after : σ}

theorem yields_report_of_input (hreport : options.report = some "-")
    (hinput : Yields host.input before bytes after) :
    Yields (report host options config).run before (tableOutcome bytes) after := by
  rw [report, hreport]
  exact yields_run_bind (gives_lift_iff.2 hinput) (yields_reportIn bytes after)

theorem yields_report_of_file {path : String} (hreport : options.report = some path)
    (hpath : path ≠ "-") (hfile : Yields (host.read path) before (.ok (.bytes bytes)) after) :
    Yields (report host options config).run before (tableOutcome bytes) after := by
  have hchoice : report host options config = reportAt host path := by
    rw [report, hreport]
    split
    · rename_i heq
      exact absurd (Option.some.inj heq) hpath
    · rename_i heq
      rw [Option.some.inj heq]
    · contradiction
  rw [hchoice, reportAt]
  exact yields_run_bind (gives_lift_iff.2 hfile) (yields_reportIn bytes after)

/-- The tests run and the tool for coverage writes the bytes. -/
def Captures (host : Host (StateM σ)) (options : Options) (config : Config) (bytes : List UInt8)
    (before after : σ) : Prop :=
  ∃ name measured tested,
    Gives (package host options config) before name measured ∧
      Yields (Runner.runTests ⟨project options, config.runner⟩ host) measured (.ok ()) tested ∧
      Yields
        (host.capture (project options)
          (Runner.reportCommand ⟨project options, config.runner⟩ name))
        tested (.ok { status := 0, output := bytes }) after

/-- What the tool writes is decoded before it is read. -/
theorem yields_report_of_captures (hreport : options.report = none)
    (hcaptures : Captures host options config bytes before after) :
    Yields (report host options config).run before
      (tableOutcome (Text.repaired bytes)) after := by
  obtain ⟨name, measured, tested, hpackage, htests, hcapture⟩ := hcaptures
  have hrun : Yields (Runner.run ⟨project options, config.runner⟩ host name) measured
      (.ok (String.ofList (Text.decodeLenient bytes))) after := by
    rw [Runner.run, yields_bind_iff]
    refine ⟨_, tested, htests, ?_⟩
    dsimp only
    rw [Runner.report, yields_bind_iff]
    exact ⟨_, after, hcapture, rfl⟩
  rw [report, hreport]
  dsimp only
  rw [freshReport]
  refine yields_run_bind hpackage ?_
  refine yields_run_bind (gives_unlessFault_iff.2 hrun) ?_
  exact yields_reportIn _ after

end

/-- The sources of a report agree.  Bytes that are not refused for being no text make the same
report, or the same fault, when they are decoded as a whole and then read as a text; and so does a
run that finds them in its input, in a file, or in what the tool for coverage writes. -/
theorem report_sources_agree {bytes : List UInt8} (hread : NotRefused (read bytes)) :
    readText (String.ofList (Text.decodeLenient bytes)) = read bytes ∧
      ∀ (σ : Type) (host : Host (StateM σ)) (options : Options) (config : Config)
        (before after : σ),
        (options.report = some "-" → Yields host.input before bytes after →
          Yields (report host options config).run before (tableOutcome bytes) after) ∧
        (∀ path, options.report = some path → path ≠ "-" →
          Yields (host.read path) before (.ok (.bytes bytes)) after →
            Yields (report host options config).run before (tableOutcome bytes) after) ∧
        (options.report = none → Captures host options config bytes before after →
          Yields (report host options config).run before (tableOutcome bytes) after) := by
  have hrepaired : read (Text.repaired bytes) = read bytes := read_repaired hread
  refine ⟨hrepaired, fun σ host options config before after => ⟨?_, ?_, ?_⟩⟩
  · exact yields_report_of_input
  · exact fun path hreport hpath => yields_report_of_file hreport hpath
  · intro hreport hcaptures
    have hyields := yields_report_of_captures hreport hcaptures
    rwa [tableOutcome, hrepaired] at hyields

/-- A table of one row.  Behind its blank line stand a byte that begins no character and the first
byte of a character that does not go on. -/
def brokenTable : List UInt8 :=
  Text.encode "Name\n----\na.py 2 1 50% 2\n\n" ++ [0xFF, 0x0A, 0xC3]

/-- A computer whose input, files and programs all hold the same bytes. -/
def echoing (bytes : List UInt8) : Host (StateM Unit) where
  read _ := return .ok (.bytes bytes)
  exists? _ := return true
  makeDirectories _ := return .ok ()
  create _ := return .ok ()
  append _ _ := return .ok ()
  run _ _ := return .ok 0
  capture _ _ := return .ok { status := 0, output := bytes }
  input := return bytes
  seconds := return 0
  print _ := return
  complain _ := return

/-- Whichever source a run on that computer is told to use, it has the one row of the table. -/
theorem report_sources_agree_brokenTable :
    NotRefused (read brokenTable) ∧
      readText (String.ofList (Text.decodeLenient brokenTable)) =
        .ok { entries := [("a.py", .ofList [2])] } ∧
      ∀ source ∈ [some "-", some "report.txt", none],
        Yields
          (report (echoing brokenTable) { report := source } { package := some "pkg" }).run ()
          (.ok { entries := [("a.py", .ofList [2])] }) () := by
  have hok : read brokenTable = .ok { entries := [("a.py", .ofList [2])] } := by decide +kernel
  have hread : NotRefused (read brokenTable) := fun path cause heq => by
    rw [hok] at heq
    cases heq
  have houtcome : tableOutcome brokenTable = .ok { entries := [("a.py", .ofList [2])] } := by
    rw [tableOutcome, hok]
    rfl
  obtain ⟨htext, hsources⟩ := report_sources_agree hread
  rw [houtcome] at hsources
  refine ⟨hread, htext.trans hok, ?_⟩
  simp only [List.forall_mem_cons]
  refine ⟨?_, ?_, ?_, fun _ hnone => absurd hnone List.not_mem_nil⟩
  · exact (hsources Unit _ _ _ _ _).1 rfl rfl
  · exact (hsources Unit _ _ _ _ _).2.1 "report.txt" rfl (by decide) rfl
  · exact (hsources Unit _ _ _ _ _).2.2 rfl ⟨"pkg", (), (), rfl, rfl, rfl⟩

end Untested.Program
