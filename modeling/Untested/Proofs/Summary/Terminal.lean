/-
# Complaints name their findings

A finding has a line of its own among the complaints, and hints may stand on the lines behind it.
A file is a single word, so the first blank of such a line is the one behind the file and the line
number, and the last two colons in front of it are those that were put there, however many the
file has.  The text behind the blank tells a finding from a hint, and the rest of the line is the
name, whatever it looks like.
-/

import Untested.Proofs.Baseline.Hiding
import Untested.Proofs.Line.Compact
import Untested.Summary.Terminal

namespace Untested

open Text

theorem Text.isBlank_head_space (rest : List Char) :
    ∀ c ∈ (' ' :: rest).head?, isBlank c = true := by
  intro c hc
  obtain rfl : ' ' = c := Option.some.inj hc
  decide

/-! ## One finding -/

namespace Finding

/-- A finding that is shown on one line, with the file as a single word. -/
structure IsLegible (finding : Finding) : Prop where
  file : IsSolid finding.file.toList
  name : '\n' ∉ finding.name.toList

theorem isLegible_iff {finding : Finding} :
    finding.IsLegible ↔ IsSolid finding.file.toList ∧ '\n' ∉ finding.name.toList :=
  ⟨fun ⟨file, name⟩ => ⟨file, name⟩, fun ⟨file, name⟩ => ⟨file, name⟩⟩

instance (finding : Finding) : Decidable finding.IsLegible :=
  decidable_of_iff _ isLegible_iff.symm

/-- What stands between the line number of a finding and its name. -/
def mark : List Char :=
  " untested: ".toList

/-- The file and the line number that a word names, with a colon behind each. -/
def readLocation? (word : List Char) : Option (String × Nat) :=
  match splitOnce? ':' word.reverse with
  | some ([], location) =>
    (splitOnce? ':' location).map fun sides =>
      (String.ofList sides.2.reverse, decimalValue sides.1.reverse)
  | _ => none

/-- The place that a line names, when it is the line of a finding. -/
def readLine? (line : List Char) : Option (String × String × Nat) :=
  match (line.dropWhile fun c => !isBlank c).dropPrefix? mark with
  | some name =>
    (readLocation? (leadingWord line)).map fun location =>
      (location.1, String.ofList name, location.2)
  | none => none

/-- The first word of the line of a finding. -/
def location (finding : Finding) : List Char :=
  finding.file.toList ++ ':' :: (decimalDigits finding.line ++ [':'])

theorem toList_write (finding : Finding) :
    finding.write.toList = finding.location ++ (mark ++ finding.name.toList) := by
  have hmark : ": untested: ".toList = ':' :: mark := rfl
  have hcolon : ":".toList = [':'] := rfl
  simp only [write, location, decimal, String.toList_append, String.toList_ofList, hmark, hcolon,
    List.append_assoc, List.cons_append, List.nil_append]

/-- Read from its end, a location shows the line number before the file. -/
theorem readLocation?_location (finding : Finding) :
    readLocation? finding.location = some (finding.file, finding.line) := by
  have hdigits : ':' ∉ (decimalDigits finding.line).reverse :=
    mt List.mem_reverse.1 (LineSet.not_mem_decimalDigits (by decide) finding.line)
  have hreverse : finding.location.reverse = [] ++ ':' ::
      ((decimalDigits finding.line).reverse ++ ':' :: finding.file.toList.reverse) := by
    simp [location]
  rw [readLocation?, hreverse, splitOnce?_append List.not_mem_nil]
  dsimp only
  rw [splitOnce?_append hdigits]
  simp

theorem IsLegible.isSolid_location {finding : Finding} (hlegible : finding.IsLegible) :
    IsSolid finding.location := by
  intro c hc
  simp only [location, List.mem_append, List.mem_cons, List.not_mem_nil, or_false] at hc
  rcases hc with hc | rfl | hc | rfl
  · exact hlegible.file c hc
  · decide
  · exact LineSet.isSolid_decimalDigits finding.line c hc
  · decide

/-- A solid text that a blank follows is the leading word, and the blank begins the rest. -/
theorem readLine?_append {word rest : List Char} (hword : IsSolid word)
    (hrest : ∀ c ∈ rest.head?, isBlank c = true) :
    readLine? (word ++ rest) =
      (rest.dropPrefix? mark).bind fun name => (readLocation? word).map fun location =>
        (location.1, String.ofList name, location.2) := by
  have hall : ∀ c ∈ word, (!isBlank c) = true := fun c hc => by simp [hword c hc]
  have hdrop : (word ++ rest).dropWhile (fun c => !isBlank c) = rest := by
    rw [List.dropWhile_append_of_pos hall]
    cases rest with
    | nil => rfl
    | cons c rest => exact List.dropWhile_cons_of_neg (by simp [hrest c rfl])
  rw [readLine?, hdrop, leadingWord_append hword hrest]
  cases rest.dropPrefix? mark <;> rfl

/-- The line of a finding names its place. -/
theorem IsLegible.readLine?_write {finding : Finding} (hlegible : finding.IsLegible) :
    readLine? finding.write.toList = some finding.place := by
  have hname : (mark ++ finding.name.toList).dropPrefix? mark = some finding.name.toList :=
    List.dropPrefix?_eq_some_iff.2 ⟨mark, rfl, beq_self_eq_true mark⟩
  have hblank : ∀ c ∈ (mark ++ finding.name.toList).head?, isBlank c = true :=
    isBlank_head_space _
  rw [toList_write, readLine?_append hlegible.isSolid_location hblank, hname, Option.bind_some,
    readLocation?_location, Option.map_some, String.ofList_toList]
  rfl

/-- A line with other text behind its first word is no line of a finding. -/
theorem readLine?_eq_none {word rest : List Char} (hword : IsSolid word)
    (hrest : ∀ c ∈ rest.head?, isBlank c = true) (hmark : ¬ mark <+: rest) :
    readLine? (word ++ rest) = none := by
  have hnone : rest.dropPrefix? mark = none := by
    rw [Option.eq_none_iff_forall_ne_some]
    intro name hname
    obtain ⟨front, hsplit, hfront⟩ := List.dropPrefix?_eq_some_iff.1 hname
    rw [beq_iff_eq.1 hfront] at hsplit
    exact hmark ⟨name, hsplit.symm⟩
  rw [readLine?_append hword hrest, hnone, Option.bind_none]

theorem IsLegible.newline_not_mem_write {finding : Finding} (hlegible : finding.IsLegible) :
    '\n' ∉ finding.write.toList := by
  have hlocation : '\n' ∉ finding.location := fun hmem =>
    absurd (hlegible.isSolid_location '\n' hmem) (by decide)
  simp only [toList_write, List.mem_append, not_or]
  exact ⟨hlocation, by decide, hlegible.name⟩

end Finding

namespace Terminal

/-! ## Hints -/

/-- A line of its own that is not that of a finding, even if more text is put behind it. -/
structure IsHint (line : String) : Prop where
  newline : '\n' ∉ line.toList
  /-- Behind the first word stands enough text to see that it is not that of a finding. -/
  differs : ∃ word rest, line.toList = word ++ rest ∧ IsSolid word ∧
    (∀ c ∈ rest.head?, isBlank c = true) ∧ Finding.mark.length ≤ rest.length ∧
      ¬ Finding.mark <+: rest

theorem IsHint.readLine?_eq_none {line : String} (hhint : IsHint line) :
    Finding.readLine? line.toList = none := by
  obtain ⟨word, rest, hline, hword, hblank, -, hmark⟩ := hhint.differs
  rw [hline]
  exact Finding.readLine?_eq_none hword hblank hmark

theorem toList_paint_true (style : Style) (text : String) :
    (paint true style text).toList =
      ("\x1b[" ++ style.code ++ "m").toList ++ (text.toList ++ "\x1b[0m".toList) := by
  simp only [paint, if_pos, String.toList_append, List.append_assoc]

/-- Color does not make a finding of a hint: it puts letters before the first word, and text
behind the rest. -/
theorem IsHint.paint {text : String} (hhint : IsHint text) (usesColor : Bool) (style : Style) :
    IsHint (paint usesColor style text) := by
  cases usesColor with
  | false => exact hhint
  | true =>
      have hsolid : IsSolid ("\x1b[" ++ style.code ++ "m").toList := by
        cases style <;> decide
      have hfront : '\n' ∉ ("\x1b[" ++ style.code ++ "m").toList := fun hmem =>
        absurd (hsolid '\n' hmem) (by decide)
      have hback : '\n' ∉ "\x1b[0m".toList := by decide
      constructor
      · simp only [toList_paint_true, List.mem_append, not_or]
        exact ⟨hfront, hhint.newline, hback⟩
      · obtain ⟨word, rest, htext, hword, hblank, hlong, hmark⟩ := hhint.differs
        have hne : rest ≠ [] := by
          rintro rfl
          exact absurd hlong (by decide)
        refine ⟨("\x1b[" ++ style.code ++ "m").toList ++ word, rest ++ "\x1b[0m".toList, ?_, ?_,
          ?_, ?_, ?_⟩
        · rw [toList_paint_true, htext, List.append_assoc, List.append_assoc]
        · exact fun c hc => (List.mem_append.1 hc).elim (hsolid c) (hword c)
        · rwa [List.head?_append_of_ne_nil _ hne]
        · rw [List.length_append]
          exact hlong.trans (Nat.le_add_right ..)
        · intro hprefix
          exact hmark (List.prefix_of_prefix_length_le hprefix (List.prefix_append ..) hlong)

theorem isHint_missingHint (count : Nat) : IsHint (missingHint count) := by
  obtain ⟨digit, digits, hdigits⟩ := List.exists_cons_of_ne_nil (decimalDigits_ne_nil count)
  have hdigit : 'u' ∉ decimalDigits count := LineSet.not_mem_decimalDigits (by decide) count
  have hline : (missingHint count).toList = "Skipped".toList ++
      ' ' :: (decimalDigits count ++
        " file(s) listed in the report but missing on disk".toList) := by
    rw [missingHint, String.toList_append, String.toList_append, decimal,
      @String.toList_ofList (decimalDigits count), List.append_assoc]
    rfl
  constructor
  · rw [hline]
    simp only [List.mem_append, List.mem_cons, not_or]
    exact ⟨by decide, by decide, LineSet.not_mem_decimalDigits (by decide) count, by decide⟩
  · refine ⟨_, _, hline, by decide, isBlank_head_space _, ?_, ?_⟩
    · have hlong : Finding.mark.length ≤
          " file(s) listed in the report but missing on disk".toList.length := by decide
      rw [List.length_cons, List.length_append]
      omega
    · rintro ⟨more, hmore⟩
      rw [hdigits] at hmore hdigit
      -- a number stands where a finding would have the letter
      obtain ⟨hu, -⟩ := List.cons.inj (List.cons.inj hmore).2
      exact hdigit (hu ▸ List.mem_cons_self)

theorem isHint_baselineHint (count : Nat) : IsHint (baselineHint count) := by
  have hline : (baselineHint count).toList = decimalDigits count ++
      " known untested function(s) ignored by the baseline".toList := by
    rw [baselineHint, String.toList_append, decimal, String.toList_ofList]
  constructor
  · rw [hline, List.mem_append, not_or]
    exact ⟨LineSet.not_mem_decimalDigits (by decide) count, by decide⟩
  · exact ⟨_, _, hline, LineSet.isSolid_decimalDigits count, isBlank_head_space _, by decide,
      by decide⟩

theorem isHint_alarm : IsHint alarm :=
  ⟨by decide, "Error:".toList, " untested functions found!".toList, rfl, by decide,
    isBlank_head_space _, by decide, by decide⟩

/-! ## All lines -/

/-- The places that some text names, line by line. -/
def readFindings (text : String) : List (String × String × Nat) :=
  (splitAt '\n' text.toList).filterMap Finding.readLine?

theorem splitAt_ofLines {lines : List String} (hlines : ∀ line ∈ lines, '\n' ∉ line.toList) :
    splitAt '\n' (ofLines lines).toList = lines.map String.toList ++ [[]] := by
  have htext : (ofLines lines).toList = lines.flatMap fun line => line.toList ++ ['\n'] := by
    simp [ofLines, String.toList_join, List.flatMap_map]
  rw [htext]
  clear htext
  induction lines with
  | nil => rfl
  | cons line lines ih =>
      rw [List.forall_mem_cons] at hlines
      rw [List.flatMap_cons, List.append_assoc, List.singleton_append, splitAt_append hlines.1,
        ih hlines.2, List.map_cons, List.cons_append]

theorem eq_of_mem_lineIf {condition : Bool} {line other : String}
    (hline : line ∈ lineIf condition other) : line = other := by
  cases condition with
  | false => exact absurd hline List.not_mem_nil
  | true => exact List.mem_singleton.1 hline

/-- Among the complaints the findings come first, one on each line, and then there are hints. -/
theorem exists_hints (usesColor isQuiet : Bool) (summary : Summary) :
    ∃ hints, complaintLines usesColor isQuiet summary =
      summary.findings.map Finding.write ++ hints ∧ ∀ hint ∈ hints, IsHint hint := by
  refine ⟨_, by rw [complaintLines, List.append_assoc, List.append_assoc], ?_⟩
  intro hint hhint
  rcases List.mem_append.1 hhint with hhint | hhint
  · rw [eq_of_mem_lineIf hhint]
    exact (isHint_missingHint _).paint usesColor .dimmed
  rcases List.mem_append.1 hhint with hhint | hhint
  · rw [eq_of_mem_lineIf hhint]
    exact (isHint_baselineHint _).paint usesColor .dimmed
  · rw [eq_of_mem_lineIf hhint]
    exact isHint_alarm.paint usesColor .boldRed

/-- The complaints name the places of the findings and no others. -/
theorem readFindings_complaints {usesColor isQuiet : Bool} {summary : Summary}
    (hlegible : ∀ finding ∈ summary.findings, finding.IsLegible) :
    readFindings (complaints usesColor isQuiet summary) =
      summary.findings.map Finding.place := by
  obtain ⟨hints, hlines, hhints⟩ := exists_hints usesColor isQuiet summary
  have hnewline : ∀ line ∈ summary.findings.map Finding.write ++ hints, '\n' ∉ line.toList := by
    intro line hline
    rcases List.mem_append.1 hline with hline | hline
    · obtain ⟨finding, hfinding, rfl⟩ := List.mem_map.1 hline
      exact (hlegible finding hfinding).newline_not_mem_write
    · exact (hhints line hline).newline
  have hfindings : (summary.findings.map fun finding => finding.write.toList).filterMap
      Finding.readLine? = summary.findings.map Finding.place := by
    rw [List.filterMap_map, ← List.filterMap_eq_map]
    exact List.filterMap_congr fun finding hfinding => (hlegible finding hfinding).readLine?_write
  have hnone : (hints.map String.toList).filterMap Finding.readLine? = [] := by
    rw [List.filterMap_map, List.filterMap_eq_nil_iff]
    exact fun hint hhint => (hhints hint hhint).readLine?_eq_none
  rw [readFindings, complaints, hlines, splitAt_ofLines hnewline, List.map_append, List.map_map,
    List.filterMap_append, List.filterMap_append, hnone, List.append_nil]
  exact (List.append_nil _).trans hfindings

/-- Nothing is said among the results just when there are findings or the run is quiet. -/
theorem results_eq_empty_iff {usesColor isQuiet : Bool} {summary : Summary} :
    results usesColor isQuiet summary = "" ↔ summary.findings ≠ [] ∨ isQuiet = true := by
  cases hclear : summary.findings.isEmpty && !isQuiet with
  | false =>
      have hempty : results usesColor isQuiet summary = "" := by
        rw [results, resultLines, hclear]
        rfl
      refine iff_of_true hempty ?_
      simpa [or_iff_not_imp_left] using hclear
  | true =>
      have hnonempty : results usesColor isQuiet summary ≠ "" := by
        rw [results, resultLines, hclear]
        simp [lineIf, ofLines, String.join]
      refine iff_of_false hnonempty ?_
      simpa using hclear

/-- Which findings the complaints are about can be told from their text.  When the findings are
legible, the text names exactly their places, in their order, and so does the text of any other
summary that looks the same, whatever hints either of them has and in color or not. -/
theorem place_eq_of_complaints_eq {usesColor isQuiet : Bool} {summary : Summary}
    (hlegible : ∀ finding ∈ summary.findings, finding.IsLegible) :
    readFindings (complaints usesColor isQuiet summary) = summary.findings.map Finding.place ∧
    ∀ (usesColor' isQuiet' : Bool) (other : Summary),
      (∀ finding ∈ other.findings, finding.IsLegible) →
      complaints usesColor isQuiet summary = complaints usesColor' isQuiet' other →
      summary.findings.map Finding.place = other.findings.map Finding.place := by
  refine ⟨readFindings_complaints hlegible, ?_⟩
  intro usesColor' isQuiet' other hother hsame
  rw [← readFindings_complaints hlegible, hsame, readFindings_complaints hother]

/-- Findings whose files and names look like the text around them. -/
def colonSummary : Summary where
  findings := [⟨"a:7:b.py", "f: untested: g", 12, false⟩, ⟨"Error:", "functions found!", 0, true⟩]
  missingFiles := ["gone.py"]
  filesChecked := 3
  baselined := 2

theorem place_eq_of_complaints_eq_colonSummary :
    let other : Summary :=
      { colonSummary with
        findings := colonSummary.findings.map fun finding => { finding with isAsync := true }
        filesChecked := 5 }
    ((∀ finding ∈ colonSummary.findings, finding.IsLegible) ∧
      (∀ finding ∈ other.findings, finding.IsLegible) ∧
      complaints true false colonSummary = complaints true false other) ∧
    readFindings (complaints true false colonSummary) =
      [("a:7:b.py", "f: untested: g", 12), ("Error:", "functions found!", 0)] ∧
    colonSummary.findings.map Finding.place = other.findings.map Finding.place := by
  intro other
  have hlegible : ∀ finding ∈ colonSummary.findings, finding.IsLegible := by decide
  have hother : ∀ finding ∈ other.findings, finding.IsLegible := by decide
  have hunique := @place_eq_of_complaints_eq true false _ hlegible
  exact ⟨⟨hlegible, hother, rfl⟩, hunique.1, hunique.2 true false other hother rfl⟩

end Terminal

end Untested
