/-
# Compact line lists are read back

The runs of a set cover exactly its members, and every run is read back as the interval it
stands for.  Hence the printed form of a set is read back as the set, provided that it prints
anything and that its members are line numbers at all.
-/

import Untested.Line.Compact
import Untested.Proofs.Text.Decimal
import Untested.Proofs.Text.Fields

namespace Untested.LineSet

open Text

/-! ## Runs -/

/-- The lines of some runs together. -/
def covered (runs : List (Nat × Nat)) : LineSet :=
  runs.foldr (fun run => (interval run.1 run.2).union) ∅

@[simp]
theorem not_mem_empty (line : Nat) : line ∉ (∅ : LineSet) :=
  List.not_mem_nil

@[simp]
theorem covered_cons (run : Nat × Nat) (runs : List (Nat × Nat)) :
    covered (run :: runs) = (interval run.1 run.2).union (covered runs) :=
  rfl

/-- The runs of some lines have their ends in order, and end at one of the lines. -/
theorem consRun_bounds {line : Nat} {lines : List Nat} {runs : List (Nat × Nat)}
    (hruns : ∀ run ∈ runs, run.1 ≤ run.2 ∧ run.2 ∈ lines) :
    ∀ run ∈ consRun line runs, run.1 ≤ run.2 ∧ run.2 ∈ line :: lines := by
  intro run hrun
  cases runs with
  | nil =>
      rw [consRun, List.mem_singleton] at hrun
      rw [hrun]
      exact ⟨Nat.le_refl _, List.mem_cons_self⟩
  | cons first runs =>
      obtain ⟨start, stop⟩ := first
      have hfirst := hruns (start, stop) List.mem_cons_self
      rw [consRun] at hrun
      split at hrun
      · rename_i hnext
        rcases List.mem_cons.1 hrun with rfl | hrun
        · refine ⟨?_, List.mem_cons_of_mem _ hfirst.2⟩
          show line ≤ stop
          have : start ≤ stop := hfirst.1
          omega
        · have := hruns run (List.mem_cons_of_mem _ hrun)
          exact ⟨this.1, List.mem_cons_of_mem _ this.2⟩
      · rcases List.mem_cons.1 hrun with rfl | hrun
        · exact ⟨Nat.le_refl _, List.mem_cons_self⟩
        · have := hruns run hrun
          exact ⟨this.1, List.mem_cons_of_mem _ this.2⟩

theorem foldr_consRun_bounds (lines : List Nat) :
    ∀ run ∈ lines.foldr consRun [], run.1 ≤ run.2 ∧ run.2 ∈ lines := by
  induction lines with
  | nil => exact fun run hrun => absurd hrun List.not_mem_nil
  | cons line lines ih => exact consRun_bounds ih

/-- One more line before some runs adds that line to what they cover. -/
theorem mem_covered_consRun {line other : Nat} {runs : List (Nat × Nat)}
    (hruns : ∀ run ∈ runs, run.1 ≤ run.2) :
    other ∈ covered (consRun line runs) ↔ other = line ∨ other ∈ covered runs := by
  cases runs with
  | nil =>
      simp only [consRun, covered_cons, mem_union, mem_interval]
      grind
  | cons first runs =>
      obtain ⟨start, stop⟩ := first
      have hle : start ≤ stop := hruns (start, stop) List.mem_cons_self
      rw [consRun]
      split
      · simp only [covered_cons, mem_union, mem_interval]
        grind
      · simp only [covered_cons, mem_union, mem_interval]
        grind

/-- The runs of a set cover its members and nothing else. -/
theorem covered_runs (set : LineSet) : covered set.runs = set := by
  have general : ∀ lines : List Nat, ∀ line,
      line ∈ covered (lines.foldr consRun []) ↔ line ∈ lines := by
    intro lines line
    induction lines with
    | nil => exact iff_of_false (not_mem_empty line) List.not_mem_nil
    | cons first lines ih =>
        rw [List.foldr_cons,
          mem_covered_consRun fun run hrun => (foldr_consRun_bounds lines run hrun).1, ih,
          List.mem_cons]
  ext line
  exact general set.lines line

theorem runs_ne_nil {set : LineSet} (hset : set ≠ ∅) : set.runs ≠ [] := by
  intro hruns
  apply hset
  rw [← covered_runs set, hruns]
  rfl

/-! ## One piece -/

theorem isSolid_decimalDigits (line : Nat) : IsSolid (decimalDigits line) :=
  fun _ hc => isBlank_of_isDigit (isDigit_of_mem_decimalDigits hc)

theorem trim_of_isSolid {text : List Char} (htext : IsSolid text) : trim text = text :=
  trim_eq_self (fun c hc => htext c (List.mem_of_mem_head? hc))
    (fun c hc => htext c (List.mem_of_getLast? hc))

/-- The digits of a line number are read back. -/
theorem readLine_decimalDigits {line : Nat} (hline : line ≤ maxLine) :
    readLine (decimalDigits line) = .ok line := by
  have hdigits : (decimalDigits line).all isDigit = true :=
    List.all_eq_true.2 fun c hc => isDigit_of_mem_decimalDigits hc
  have hne : (decimalDigits line).isEmpty = false := by
    rw [List.isEmpty_eq_false_iff]
    exact decimalDigits_ne_nil line
  rw [readLine, trim_of_isSolid (isSolid_decimalDigits line)]
  simp only [hdigits, hne, decimalValue_decimalDigits]
  rw [if_neg (by simp), if_neg (Nat.not_lt.2 hline)]

theorem not_mem_decimalDigits {c : Char} (hc : isDigit c = false) (line : Nat) :
    c ∉ decimalDigits line := by
  intro hmem
  rw [isDigit_of_mem_decimalDigits hmem] at hc
  exact absurd hc (by decide)

/-- A run is read back as the lines between its ends. -/
theorem readPiece_writeRun {run : Nat × Nat} (hle : run.1 ≤ run.2) (hmax : run.2 ≤ maxLine) :
    readPiece (writeRun run) = .ok (interval run.1 run.2) := by
  have hdash := not_mem_decimalDigits (c := '-') (by decide)
  have hstart := readLine_decimalDigits (hle.trans hmax)
  by_cases heq : run.1 = run.2
  · rw [writeRun, if_pos heq, readPiece, splitOnce?_of_not_mem (hdash run.1), hstart, ← heq]
    rfl
  · rw [writeRun, if_neg heq, readPiece, splitOnce?_append (hdash run.1)]
    simp only [hstart, readLine_decimalDigits hmax]
    show (if run.2 < run.1 then _ else _) = _
    rw [if_neg (Nat.not_lt.2 hle)]
    rfl

theorem not_mem_writeRun {c : Char} (hc : isDigit c = false) (hdash : c ≠ '-') (run : Nat × Nat) :
    c ∉ writeRun run := by
  rw [writeRun]
  split
  · exact not_mem_decimalDigits hc run.1
  · rw [List.mem_append, List.mem_cons, not_or, not_or]
    exact ⟨not_mem_decimalDigits hc run.1, hdash, not_mem_decimalDigits hc run.2⟩

theorem isSolid_writeRun (run : Nat × Nat) : IsSolid (writeRun run) := by
  intro c hc
  by_contra hblank
  rw [Bool.not_eq_false] at hblank
  refine not_mem_writeRun ?_ ?_ run hc
  · by_contra hdigit
    rw [Bool.not_eq_false] at hdigit
    rw [isBlank_of_isDigit hdigit] at hblank
    exact absurd hblank (by decide)
  · rintro rfl
    exact absurd hblank (by decide)

theorem writeRun_ne_nil (run : Nat × Nat) : writeRun run ≠ [] := by
  rw [writeRun]
  split
  · exact decimalDigits_ne_nil run.1
  · exact List.append_ne_nil_of_left_ne_nil (decimalDigits_ne_nil run.1) _

/-! ## Whole lists -/

/-- A piece before a comma is read on its own, and its lines are added to those of the rest. -/
theorem read_append {piece : List Char} {lines : LineSet} (hcomma : ',' ∉ piece)
    (hpiece : readPiece (trim piece) = .ok lines) (rest : List Char) :
    read (piece ++ ',' :: rest) = (read rest).map lines.union := by
  rw [read, splitAt_append hcomma, readPieces, hpiece]
  rfl

theorem read_piece {piece : List Char} {lines : LineSet} (hcomma : ',' ∉ piece)
    (hpiece : readPiece (trim piece) = .ok lines) : read piece = .ok (lines.union ∅) := by
  rw [read, splitAt_of_not_mem hcomma, readPieces, hpiece]
  rfl

/-- A blank before a list does not matter. -/
theorem read_cons_blank {c : Char} (hc : isBlank c = true) (text : List Char) :
    read (c :: text) = read text := by
  have hcomma : c ≠ ',' := by
    rintro rfl
    exact absurd hc (by decide)
  have htrim (piece : List Char) : trim (c :: piece) = trim piece := by
    rw [trim, trim, ← List.singleton_append, trimStart_append_of_isGap]
    exact fun d hd => List.mem_singleton.1 hd ▸ hc
  rw [read, read, splitAt, if_neg hcomma]
  cases hpieces : splitAt ',' text with
  | nil => exact absurd hpieces (splitAt_ne_nil ',' text)
  | cons piece pieces => simp only [readPieces, htrim]

/-- Printed runs are read back as the lines they cover. -/
theorem read_writeRuns {runs : List (Nat × Nat)} (hne : runs ≠ [])
    (hruns : ∀ run ∈ runs, run.1 ≤ run.2 ∧ run.2 ≤ maxLine) :
    read (writeRuns runs) = .ok (covered runs) := by
  have hcomma := not_mem_writeRun (c := ',') (by decide) (by decide)
  have hpiece (run : Nat × Nat) (hrun : run.1 ≤ run.2 ∧ run.2 ≤ maxLine) :
      readPiece (trim (writeRun run)) = .ok (interval run.1 run.2) := by
    rw [trim_of_isSolid (isSolid_writeRun run)]
    exact readPiece_writeRun hrun.1 hrun.2
  induction runs with
  | nil => exact absurd rfl hne
  | cons run runs ih =>
      have hrun := hpiece run (hruns run List.mem_cons_self)
      cases runs with
      | nil => exact read_piece (hcomma run) hrun
      | cons next runs =>
          rw [writeRuns, read_append (hcomma run) hrun, read_cons_blank (by decide),
            ih (List.cons_ne_nil _ _) fun r hr => hruns r (List.mem_cons_of_mem _ hr)]
          rfl

/-- The compact list of a set is read back as the set, unless the set is empty: no line at all
is written as a text that is no list. -/
theorem read_write {set : LineSet} (hne : set ≠ ∅) (hmax : ∀ line ∈ set, line ≤ maxLine) :
    read set.write = .ok set := by
  rw [write, read_writeRuns (runs_ne_nil hne), covered_runs]
  intro run hrun
  have hbounds := foldr_consRun_bounds set.lines run hrun
  exact ⟨hbounds.1, hmax run.2 hbounds.2⟩

/-! ## The shape of a list -/

theorem isDigit_head_writeRun (run : Nat × Nat) :
    ∀ c ∈ (writeRun run).head?, isDigit c = true := by
  intro c hc
  rw [writeRun] at hc
  split at hc
  · exact isDigit_of_mem_decimalDigits (List.mem_of_mem_head? hc)
  · rw [List.head?_append_of_ne_nil _ (decimalDigits_ne_nil run.1)] at hc
    exact isDigit_of_mem_decimalDigits (List.mem_of_mem_head? hc)

theorem isDigit_last_writeRun (run : Nat × Nat) :
    ∀ c ∈ (writeRun run).getLast?, isDigit c = true := by
  intro c hc
  rw [writeRun] at hc
  split at hc
  · exact isDigit_of_mem_decimalDigits (List.mem_of_getLast? hc)
  · rw [List.getLast?_append_of_ne_nil _ (List.cons_ne_nil _ _),
      ← List.singleton_append, List.getLast?_append_of_ne_nil _ (decimalDigits_ne_nil run.2)] at hc
    exact isDigit_of_mem_decimalDigits (List.mem_of_getLast? hc)

theorem writeRuns_ne_nil {runs : List (Nat × Nat)} (hne : runs ≠ []) : writeRuns runs ≠ [] := by
  match runs with
  | [] => exact absurd rfl hne
  | [run] => exact writeRun_ne_nil run
  | run :: _ :: _ => exact List.append_ne_nil_of_left_ne_nil (writeRun_ne_nil run) _

theorem isDigit_head_writeRuns (runs : List (Nat × Nat)) :
    ∀ c ∈ (writeRuns runs).head?, isDigit c = true := by
  match runs with
  | [] => exact fun c hc => absurd hc (by simp [writeRuns])
  | [run] => exact isDigit_head_writeRun run
  | run :: next :: runs =>
      rw [writeRuns, List.head?_append_of_ne_nil _ (writeRun_ne_nil run)]
      exact isDigit_head_writeRun run

theorem isDigit_last_writeRuns (runs : List (Nat × Nat)) :
    ∀ c ∈ (writeRuns runs).getLast?, isDigit c = true := by
  induction runs with
  | nil => exact fun c hc => absurd hc (by simp [writeRuns])
  | cons run runs ih =>
      cases runs with
      | nil => exact isDigit_last_writeRun run
      | cons next runs =>
          rw [writeRuns, List.getLast?_append_of_ne_nil _ (List.cons_ne_nil _ _)]
          have hrest : writeRuns (next :: runs) ≠ [] := writeRuns_ne_nil (List.cons_ne_nil _ _)
          rw [show ',' :: ' ' :: writeRuns (next :: runs) = [',', ' '] ++ writeRuns (next :: runs)
            from rfl, List.getLast?_append_of_ne_nil _ hrest]
          exact ih

theorem lineFeed_not_mem_writeRuns (runs : List (Nat × Nat)) : '\n' ∉ writeRuns runs := by
  have hrun := not_mem_writeRun (c := '\n') (by decide) (by decide)
  induction runs with
  | nil => exact List.not_mem_nil
  | cons run runs ih =>
      cases runs with
      | nil => exact hrun run
      | cons next runs =>
          rw [writeRuns, List.mem_append, List.mem_cons, List.mem_cons, not_or, not_or, not_or]
          exact ⟨hrun run, by decide, by decide, ih⟩

end Untested.LineSet
