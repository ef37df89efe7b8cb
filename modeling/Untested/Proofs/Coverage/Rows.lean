/-
# No row is lost

Whatever bytes a table is read from, its rows are the lines of five words or more up to the first
line that is blank or begins with dashes.  The table is read exactly when all lines up to there
are texts and all rows have well-formed lists of lines, and every row leaves its entry.  Otherwise
the first line with a defect says what the fault is, and what stands behind it is not looked at.

A line does one of three things: it has a defect, the rows stop at it, or it is read on its way to
the next one.  Everything about tables follows from that by induction on the lines.
-/

import Untested.Proofs.Coverage.Report
import Untested.Proofs.Coverage.Table
import Untested.Proofs.Line.Pieces
import Untested.Proofs.Text.Columns

namespace Untested.CoverageTable

open Text

/-! ## Lines of a table -/

/-- The bytes of a line are a text. -/
def IsText (line : List UInt8) : Prop :=
  (decode? line).isSome = true

instance (line : List UInt8) : Decidable (IsText line) :=
  inferInstanceAs (Decidable (_ = true))

/-- Whether a line begins with dashes, be it a text or not. -/
def beginsWithDashes (line : List UInt8) : Bool :=
  [0x2D, 0x2D, 0x2D, 0x2D].isPrefixOf line

/-- Whether the rows of a table stop at a line: it is blank or begins with dashes. -/
def stops (line : List UInt8) : Bool :=
  beginsWithDashes line || (decode? line).any isBlankText

/-- The lines before the one at which the rows stop. -/
def considered (lines : List (List UInt8)) : List (List UInt8) :=
  lines.takeWhile fun line => !stops line

/-- The lines up to the one at which the rows stop, that line included. -/
def reached (lines : List (List UInt8)) : List (List UInt8) :=
  considered lines ++ (lines.find? stops).toList

/-- The first word of a line of five words or more, and the text from the fifth word on, up to the
end of the trimmed line. -/
def columns? (line : List UInt8) : Option (List Char × List Char) :=
  (decode? line).bind fun text =>
    if 5 ≤ (words text).length then some ((words text).headD [], fromWord 4 (trim text)) else none

/-- The columns of the rows of a table. -/
def rowsOf (lines : List (List UInt8)) : List (List Char × List Char) :=
  (considered lines).filterMap columns?

/-- A row leaves an entry: its first word is the path, and its last column denotes the lines. -/
def LeavesEntry (row : List Char × List Char) (entry : String × LineSet) : Prop :=
  entry.1 = String.ofList row.1 ∧ LineSet.Denotes row.2 entry.2

/-- A line has a defect, which makes for a fault. -/
inductive Offends (line : List UInt8) : Fault → Prop
  | notText : ¬IsText line → Offends line (.io streamName notText)
  /-- The row has a malformed list of lines. -/
  | malformed {row : List Char × List Char} {error : RangeError} :
      stops line = false → columns? line = some row →
        LineSet.IsFirstMalformed (LineSet.tokens row.2) error →
          Offends line (.invalidLineRange (String.ofList error.token) error.fault.message)

/-- A line is read on its way: it leaves its entry, if any, and the rows go on. -/
structure Passes (line : List UInt8) (entries : List (String × LineSet)) : Prop where
  isText : IsText line
  not_stops : stops line = false
  leaves : List.Forall₂ LeavesEntry (columns? line).toList entries

/-! ## One line -/

variable {line : List UInt8} {text : List Char}

theorem exists_decodeLine (htext : IsText line) :
    ∃ text, decode? line = some text ∧ decodeLine line = .ok text := by
  obtain ⟨text, hdecode⟩ := Option.isSome_iff_exists.1 htext
  exact ⟨text, hdecode, by rw [decodeLine, hdecode]⟩

theorem decodeLine_of_not_isText (htext : ¬IsText line) :
    decodeLine line = .error (.io streamName notText) := by
  rw [decodeLine, Option.not_isSome_iff_eq_none.1 htext]

/-- The first column of a row is the first word of its line.  The last one has the words of the
line from the fifth on, and it ends where the trimmed line does. -/
theorem exists_text_of_columns? {name ranges : List Char}
    (hcolumns : columns? line = some (name, ranges)) :
    ∃ text, decode? line = some text ∧ (words text).head? = some name ∧
      words ranges = (words text).drop 4 ∧ ranges <:+ trim text := by
  rw [columns?, Option.bind_eq_some_iff] at hcolumns
  obtain ⟨text, hdecode, hcolumns⟩ := hcolumns
  split at hcolumns
  · rename_i hlong
    obtain ⟨rfl, rfl⟩ := Prod.mk.inj (Option.some.inj hcolumns)
    refine ⟨text, hdecode, ?_, ?_, fromWord_suffix 4 (trim text)⟩
    · have hne : words text ≠ [] := List.ne_nil_of_length_pos (by omega)
      obtain ⟨first, others, hwords⟩ := List.exists_cons_of_ne_nil hne
      rw [hwords]
      rfl
    · rw [words_fromWord (trimStart_trim text), words_trim]
  · cases hcolumns

theorem isRule_of_decode? (hdecode : decode? line = some text) :
    isRule text = beginsWithDashes line := by
  have hdashes : ∀ c ∈ dashes, 0 < c.toNat ∧ c.toNat < 0x80 := by
    intro c hc
    rw [List.eq_of_mem_replicate (show c ∈ List.replicate 4 '-' from hc)]
    decide
  exact isPrefixOf_of_decode? hdashes hdecode

theorem endsRows_of_decode? (hdecode : decode? line = some text) :
    endsRows text = stops line := by
  rw [endsRows, stops, isRule_of_decode? hdecode, hdecode, Option.any_some]

/-- The columns of a row are read as what they are. -/
theorem readRow_of_decode? (hdecode : decode? line = some text) :
    readRow text = match columns? line with
      | none => .ok none
      | some (name, ranges) =>
        match LineSet.read ranges with
        | .ok missing => .ok (some (String.ofList name, missing))
        | .error error => .error (.ofRangeError error) := by
  rw [columns?, hdecode, Option.bind_some]
  by_cases hlong : 5 ≤ (words text).length
  · have hfields : fields 4 (trim text) =
        (words text).take 4 ++ [fromWord 4 (trim text)] := by
      rw [fields_eq_take_append (by rw [words_trim]; omega), words_trim, trimStart_trim]
    rw [if_pos hlong, readRow, hfields]
    rcases hwords : words text with
      _ | ⟨name, _ | ⟨statements, _ | ⟨missed, _ | ⟨cover, others⟩⟩⟩⟩
    case cons.cons.cons.cons =>
      dsimp only [List.take, List.cons_append, List.nil_append, List.headD]
      cases hread : LineSet.read (fromWord 4 (trim text)) <;>
        simp only [trim_fromWord_trim, hread]
    all_goals
      rw [hwords] at hlong
      simp only [List.length_cons, List.length_nil] at hlong
      omega
  · rw [if_neg hlong, readRow_of_short (by omega)]

/-! ## From one line to the next -/

variable (report : CoverageReport) (rest : List (List UInt8))

theorem readRows_cons_of_decode? (hdecode : decode? line = some text) :
    readRows report (line :: rest) =
      if stops line then .ok report
      else match columns? line with
        | none => readRows report rest
        | some (name, ranges) =>
          match LineSet.read ranges with
          | .ok missing => readRows (report.insert (String.ofList name) missing) rest
          | .error error => .error (.ofRangeError error) := by
  have hline : decodeLine line = .ok text := by rw [decodeLine, hdecode]
  rw [readRows, hline]
  show (if endsRows text then _ else _) = _
  rw [endsRows_of_decode? hdecode, readRow_of_decode? hdecode]
  split
  · rfl
  · cases columns? line with
    | none => rfl
    | some row =>
        obtain ⟨name, ranges⟩ := row
        dsimp only
        cases LineSet.read ranges <;> rfl

/-- The rows end at a line that stops them. -/
theorem readRows_of_stops (htext : IsText line) (hstops : stops line = true) :
    readRows report (line :: rest) = .ok report := by
  obtain ⟨text, hdecode⟩ := Option.isSome_iff_exists.1 htext
  rw [readRows_cons_of_decode? report rest hdecode, if_pos hstops]

/-- A line with a defect makes the whole table fail. -/
theorem readRows_of_offends {fault : Fault} (hoffends : Offends line fault) :
    readRows report (line :: rest) = .error fault := by
  cases hoffends with
  | notText htext =>
      rw [readRows, decodeLine_of_not_isText htext]
      rfl
  | @malformed row error hstops hcolumns hfirst =>
      cases hdecode : decode? line with
      | none => rw [columns?, hdecode] at hcolumns; cases hcolumns
      | some text =>
          rw [readRows_cons_of_decode? report rest hdecode, hstops, hcolumns]
          dsimp only
          rw [LineSet.read_eq_error_iff.2 hfirst]
          rfl

/-- Any other line is followed by the next one, with its entry in the report. -/
theorem readRows_of_passes {entries : List (String × LineSet)} (hpasses : Passes line entries) :
    readRows report (line :: rest) =
      readRows (entries.foldl (fun report entry => report.insert entry.1 entry.2) report) rest := by
  obtain ⟨htext, hstops, hleaves⟩ := hpasses
  obtain ⟨text, hdecode⟩ := Option.isSome_iff_exists.1 htext
  rw [readRows_cons_of_decode? report rest hdecode, hstops]
  cases hcolumns : columns? line with
  | none =>
      rw [hcolumns] at hleaves
      cases hleaves
      rfl
  | some row =>
      obtain ⟨name, ranges⟩ := row
      rw [hcolumns] at hleaves
      obtain ⟨⟨path, missing⟩, _, ⟨hpath, hdenotes⟩, hnil, rfl⟩ :=
        List.forall₂_cons_left_iff.1 hleaves
      cases hnil
      dsimp only at hpath hdenotes ⊢
      rw [LineSet.read_eq_ok_iff.2 hdenotes, hpath]
      rfl

/-- A line has a defect, or the rows stop at it, or it is read on its way. -/
theorem line_cases (line : List UInt8) :
    (∃ fault, Offends line fault) ∨ (IsText line ∧ stops line = true) ∨
      ∃ entries, Passes line entries := by
  by_cases htext : IsText line
  · cases hstops : stops line with
    | true => exact .inr (.inl ⟨htext, rfl⟩)
    | false =>
        cases hcolumns : columns? line with
        | none => exact .inr (.inr ⟨[], htext, hstops, by rw [hcolumns]; exact .nil⟩)
        | some row =>
            cases hread : LineSet.read row.2 with
            | error error =>
                exact .inl ⟨_, .malformed hstops hcolumns (LineSet.read_eq_error_iff.1 hread)⟩
            | ok missing =>
                refine .inr (.inr ⟨[(String.ofList row.1, missing)], htext, hstops, ?_⟩)
                rw [hcolumns]
                exact .cons ⟨rfl, LineSet.read_eq_ok_iff.1 hread⟩ .nil
  · exact .inl ⟨_, .notText htext⟩

/-- A line is not both read on its way and at fault. -/
theorem Passes.not_offends {entries : List (String × LineSet)} (hpasses : Passes line entries)
    {fault : Fault} : ¬Offends line fault := by
  intro hoffends
  -- the line alone would give both a report and a fault
  have hread := readRows_of_passes ∅ [] hpasses
  rw [readRows_of_offends ∅ [] hoffends] at hread
  cases hread

/-! ## All lines -/

/-- The first defect of some lines, which no line before it hides. -/
def IsFirstOffence (lines : List (List UInt8)) (fault : Fault) : Prop :=
  ∃ before line after, lines = before ++ line :: after ∧ Offends line fault ∧
    ∀ earlier ∈ before, stops earlier = false ∧ ∀ other, ¬Offends earlier other

variable {lines : List (List UInt8)}

theorem considered_cons_of_stops (hstops : stops line = true) :
    considered (line :: rest) = [] := by
  rw [considered, List.takeWhile_cons, hstops]
  rfl

theorem considered_cons_of_not_stops (hstops : stops line = false) :
    considered (line :: rest) = line :: considered rest := by
  rw [considered, List.takeWhile_cons, hstops]
  rfl

theorem reached_cons_of_stops (hstops : stops line = true) : reached (line :: rest) = [line] := by
  rw [reached, considered_cons_of_stops rest hstops, List.find?_cons_of_pos hstops]
  rfl

theorem reached_cons_of_not_stops (hstops : stops line = false) :
    reached (line :: rest) = line :: reached rest := by
  have hfind : (line :: rest).find? stops = rest.find? stops :=
    List.find?_cons_of_neg (by rw [hstops]; decide)
  rw [reached, considered_cons_of_not_stops rest hstops, hfind]
  rfl

/-- Behind lines at which the rows do not stop the next line is reached. -/
theorem mem_reached {before after : List (List UInt8)}
    (hbefore : ∀ earlier ∈ before, stops earlier = false) :
    line ∈ reached (before ++ line :: after) ∧
      (stops line = false → line ∈ considered (before ++ line :: after)) := by
  induction before with
  | nil =>
      rw [List.nil_append]
      cases hstops : stops line with
      | true =>
          rw [reached_cons_of_stops after hstops]
          exact ⟨List.mem_cons_self, fun heq => Bool.noConfusion heq⟩
      | false =>
          rw [reached_cons_of_not_stops after hstops, considered_cons_of_not_stops after hstops]
          exact ⟨List.mem_cons_self, fun _ => List.mem_cons_self⟩
  | cons earlier before ih =>
      rw [List.forall_mem_cons] at hbefore
      obtain ⟨hstops, hbefore⟩ := hbefore
      obtain ⟨hreached, hconsidered⟩ := ih hbefore
      rw [List.cons_append, reached_cons_of_not_stops _ hstops,
        considered_cons_of_not_stops _ hstops]
      exact ⟨List.mem_cons_of_mem _ hreached, fun hline =>
        List.mem_cons_of_mem _ (hconsidered hline)⟩

/-- The first defect of the lines is the fault of the table. -/
theorem readRows_of_isFirstOffence {fault : Fault} (hfirst : IsFirstOffence lines fault) :
    readRows report lines = .error fault := by
  obtain ⟨before, line, after, rfl, hoffends, hbefore⟩ := hfirst
  induction before generalizing report with
  | nil => exact readRows_of_offends report after hoffends
  | cons earlier before ih =>
      rw [List.forall_mem_cons] at hbefore
      obtain ⟨⟨hstops, hnone⟩, hbefore⟩ := hbefore
      rcases line_cases earlier with ⟨other, hother⟩ | ⟨_, hstops'⟩ | ⟨entries, hpasses⟩
      · exact absurd hother (hnone other)
      · rw [hstops] at hstops'
        cases hstops'
      · rw [List.cons_append, readRows_of_passes report _ hpasses]
        exact ih _ hbefore

/-- Either the lines have a first defect, or they are texts as far as they are reached and every
row leaves its entry. -/
theorem readRows_cases (lines : List (List UInt8)) :
    (∃ fault, IsFirstOffence lines fault) ∨
      (∀ line ∈ reached lines, IsText line) ∧
        ∃ entries, List.Forall₂ LeavesEntry (rowsOf lines) entries ∧
          ∀ report, readRows report lines =
            .ok (entries.foldl (fun report entry => report.insert entry.1 entry.2) report) := by
  induction lines with
  | nil => exact .inr ⟨fun _ hline => absurd hline List.not_mem_nil, [], .nil, fun _ => rfl⟩
  | cons line lines ih =>
      rcases line_cases line with ⟨fault, hoffends⟩ | ⟨htext, hstops⟩ | ⟨entries, hpasses⟩
      · exact .inl ⟨fault, [], line, lines, rfl, hoffends,
          fun _ hearlier => absurd hearlier List.not_mem_nil⟩
      · refine .inr ⟨?_, [], ?_, fun report => readRows_of_stops report lines htext hstops⟩
        · rw [reached_cons_of_stops lines hstops]
          exact fun other hother => List.mem_singleton.1 hother ▸ htext
        · rw [rowsOf, considered_cons_of_stops lines hstops]
          exact .nil
      · have hstops := hpasses.not_stops
        rcases ih with ⟨fault, before, later, after, rfl, hoffends, hbefore⟩ |
          ⟨htexts, others, hothers, hread⟩
        · refine .inl ⟨fault, line :: before, later, after, rfl, hoffends, ?_⟩
          exact List.forall_mem_cons.2 ⟨⟨hstops, fun _ => hpasses.not_offends⟩, hbefore⟩
        · refine .inr ⟨?_, entries ++ others, ?_, fun report => ?_⟩
          · rw [reached_cons_of_not_stops lines hstops]
            exact List.forall_mem_cons.2 ⟨hpasses.isText, htexts⟩
          · have hrows : rowsOf (line :: lines) = (columns? line).toList ++ rowsOf lines := by
              rw [rowsOf, considered_cons_of_not_stops lines hstops, List.filterMap_cons, rowsOf]
              cases columns? line <;> rfl
            rw [hrows]
            exact List.rel_append hpasses.leaves hothers
          · rw [readRows_of_passes report lines hpasses, hread, List.foldl_append]

theorem exists_denotes_of_mem {rows : List (List Char × List Char)}
    {entries : List (String × LineSet)} (hentries : List.Forall₂ LeavesEntry rows entries)
    {row : List Char × List Char} (hrow : row ∈ rows) :
    ∃ missing, LineSet.Denotes row.2 missing := by
  induction hentries with
  | nil => exact absurd hrow List.not_mem_nil
  | cons hleaves _ ih =>
      rcases List.mem_cons.1 hrow with rfl | hrow
      · exact ⟨_, hleaves.2⟩
      · exact ih hrow

/-- Without a first defect the lines are texts and the rows have well-formed lists, and the other
way round. -/
theorem exists_isFirstOffence_iff :
    (∃ fault, IsFirstOffence lines fault) ↔
      ¬((∀ line ∈ reached lines, IsText line) ∧
        ∀ row ∈ rowsOf lines, ∃ missing, LineSet.Denotes row.2 missing) := by
  constructor
  · rintro ⟨fault, before, line, after, rfl, hoffends, hbefore⟩ ⟨htexts, hrows⟩
    have hplace : line ∈ reached (before ++ line :: after) ∧
        (stops line = false → line ∈ considered (before ++ line :: after)) :=
      mem_reached fun earlier hearlier => (hbefore earlier hearlier).1
    cases hoffends with
    | notText htext => exact htext (htexts line hplace.1)
    | @malformed row error hstops hcolumns hfirst =>
        obtain ⟨missing, hdenotes⟩ :=
          hrows row (List.mem_filterMap.2 ⟨line, hplace.2 hstops, hcolumns⟩)
        have hread := LineSet.read_eq_ok_iff.2 hdenotes
        rw [LineSet.read_eq_error_iff.2 hfirst] at hread
        cases hread
  · intro hnot
    rcases readRows_cases lines with hfirst | ⟨htexts, entries, hentries, _⟩
    · exact hfirst
    · exact absurd ⟨htexts, fun row hrow => exists_denotes_of_mem hentries hrow⟩ hnot

/-- Lines behind one that ends the table are not looked at. -/
theorem readRows_append (more : List (List UInt8))
    (hends : ∃ line ∈ lines, stops line = true ∨ ∃ fault, Offends line fault) :
    readRows report (lines ++ more) = readRows report lines := by
  induction lines generalizing report with
  | nil =>
      obtain ⟨line, hline, _⟩ := hends
      exact absurd hline List.not_mem_nil
  | cons line lines ih =>
      rw [List.cons_append]
      rcases line_cases line with ⟨fault, hoffends⟩ | ⟨htext, hstops⟩ | ⟨entries, hpasses⟩
      · rw [readRows_of_offends report _ hoffends, readRows_of_offends report _ hoffends]
      · rw [readRows_of_stops report _ htext hstops, readRows_of_stops report _ htext hstops]
      · rw [readRows_of_passes report _ hpasses, readRows_of_passes report _ hpasses]
        refine ih _ ?_
        obtain ⟨other, hother, hcause⟩ := hends
        rcases List.mem_cons.1 hother with rfl | hother
        · rcases hcause with hstops | ⟨fault, hoffends⟩
          · rw [hpasses.not_stops] at hstops
            cases hstops
          · exact absurd hoffends hpasses.not_offends
        · exact ⟨other, hother, hcause⟩

theorem readRows_eq_error_iff {fault : Fault} :
    readRows report lines = .error fault ↔ IsFirstOffence lines fault := by
  refine ⟨fun hread => ?_, readRows_of_isFirstOffence report⟩
  rcases readRows_cases lines with ⟨other, hfirst⟩ | ⟨_, entries, _, hok⟩
  · rw [readRows_of_isFirstOffence report hfirst] at hread
    exact Except.error.inj hread ▸ hfirst
  · rw [hok report] at hread
    cases hread

theorem exists_readRows_eq_ok_iff :
    (∃ result, readRows report lines = .ok result) ↔
      (∀ line ∈ reached lines, IsText line) ∧
        ∀ row ∈ rowsOf lines, ∃ missing, LineSet.Denotes row.2 missing := by
  rw [← not_iff_not, ← exists_isFirstOffence_iff]
  constructor
  · intro hnot
    cases hread : readRows report lines with
    | error fault => exact ⟨fault, (readRows_eq_error_iff report).1 hread⟩
    | ok result => exact absurd ⟨result, hread⟩ hnot
  · rintro ⟨fault, hfirst⟩ ⟨result, hread⟩
    rw [readRows_of_isFirstOffence report hfirst] at hread
    cases hread

/-- A report has the entries of the rows: their paths by first occurrence, and for each path the
lines of the last entry. -/
theorem entries_of_readRows {result : CoverageReport} (hread : readRows ∅ lines = .ok result) :
    ∃ entries, List.Forall₂ LeavesEntry (rowsOf lines) entries ∧
      result.paths = (entries.map Prod.fst).eraseDups ∧
        ∀ path, result.get? path = entries.reverse.lookup path := by
  rcases readRows_cases lines with ⟨fault, hfirst⟩ | ⟨_, entries, hentries, hok⟩
  · rw [readRows_of_isFirstOffence ∅ hfirst] at hread
    cases hread
  · rw [hok ∅] at hread
    obtain rfl := Except.ok.inj hread
    exact ⟨entries, hentries, CoverageReport.paths_ofList entries,
      CoverageReport.get?_ofList entries⟩

/-! ## The first two lines -/

variable {bytes header second : List UInt8}

theorem read_of_not_isText (hlines : byteLines bytes = header :: lines) (hheader : ¬IsText header) :
    read bytes = .error (.io streamName notText) := by
  rw [read, hlines]
  dsimp only
  rw [decodeLine_of_not_isText hheader]
  rfl

theorem read_of_byteLines (hlines : byteLines bytes = header :: second :: lines) :
    read bytes =
      if IsText header ∧ IsText second then
        if beginsWithDashes second then readRows ∅ lines else .error .missingSeparator
      else .error (.io streamName notText) := by
  by_cases hheader : IsText header
  · obtain ⟨first, _, hfirst⟩ := exists_decodeLine hheader
    rw [read, hlines]
    dsimp only
    rw [hfirst]
    by_cases hsecond : IsText second
    · obtain ⟨text, hdecode, htext⟩ := exists_decodeLine hsecond
      rw [if_pos ⟨hheader, hsecond⟩, htext, ← isRule_of_decode? hdecode]
      show (if !isRule text then _ else _) = _
      cases isRule text <;> rfl
    · rw [if_neg fun hboth => hsecond hboth.2, decodeLine_of_not_isText hsecond]
      rfl
  · rw [if_neg fun hboth => hheader hboth.1, read_of_not_isText hlines hheader]

section

variable (hlines : byteLines bytes = header :: second :: lines)
  (hdashes : beginsWithDashes second = true)

include hlines hdashes

theorem exists_read_eq_ok_iff :
    (∃ report, read bytes = .ok report) ↔
      (∀ line ∈ header :: second :: reached lines, IsText line) ∧
        ∀ row ∈ rowsOf lines, ∃ missing, LineSet.Denotes row.2 missing := by
  rw [read_of_byteLines hlines, if_pos hdashes, List.forall_mem_cons, List.forall_mem_cons,
    ← and_assoc, and_assoc]
  by_cases hboth : IsText header ∧ IsText second
  · rw [if_pos hboth, exists_readRows_eq_ok_iff, and_iff_right hboth]
  · rw [if_neg hboth]
    exact iff_of_false (fun ⟨report, hread⟩ => by cases hread) fun hall => hboth hall.1

theorem entries_of_read {report : CoverageReport} (hread : read bytes = .ok report) :
    ∃ entries, List.Forall₂ LeavesEntry (rowsOf lines) entries ∧
      report.paths = (entries.map Prod.fst).eraseDups ∧
        ∀ path, report.get? path = entries.reverse.lookup path := by
  rw [read_of_byteLines hlines, if_pos hdashes] at hread
  split at hread
  · exact entries_of_readRows hread
  · cases hread

theorem read_eq_error_iff {fault : Fault} :
    read bytes = .error fault ↔
      ¬(IsText header ∧ IsText second) ∧ fault = .io streamName notText ∨
        (IsText header ∧ IsText second) ∧ IsFirstOffence lines fault := by
  rw [read_of_byteLines hlines, if_pos hdashes]
  by_cases hboth : IsText header ∧ IsText second
  · rw [if_pos hboth, readRows_eq_error_iff]
    constructor
    · exact fun hfirst => .inr ⟨hboth, hfirst⟩
    · rintro (⟨hnot, _⟩ | ⟨_, hfirst⟩)
      · exact absurd hboth hnot
      · exact hfirst
  · rw [if_neg hboth]
    constructor
    · exact fun hread => .inl ⟨hboth, (Except.error.inj hread).symm⟩
    · rintro (⟨_, rfl⟩ | ⟨hboth', _⟩)
      · rfl
      · exact absurd hboth' hboth

end

theorem isSolid_of_mem_rowsOf {row : List Char × List Char} (hrow : row ∈ rowsOf lines) :
    IsSolid row.1 := by
  obtain ⟨line, -, hcolumns⟩ := List.mem_filterMap.1 hrow
  obtain ⟨text, -, hhead, -⟩ := exists_text_of_columns? hcolumns
  exact (forall_mem_words text row.1 (List.mem_of_mem_head? hhead)).2

theorem isSolid_of_forall₂ {rows : List (List Char × List Char)} {entries : List (String × LineSet)}
    (hentries : List.Forall₂ LeavesEntry rows entries) (hrows : ∀ row ∈ rows, IsSolid row.1) :
    ∀ entry ∈ entries, IsSolid entry.1.toList := by
  induction hentries with
  | nil => exact fun _ hentry => absurd hentry List.not_mem_nil
  | cons hleaves _ ih =>
      rw [List.forall_mem_cons] at hrows ⊢
      rw [hleaves.1, String.toList_ofList]
      exact ⟨hrows.1, ih hrows.2⟩

/-- A table without a line of dashes in second place is none, if its first lines are texts. -/
theorem read_of_no_rule (hnone : ∀ header second lines,
      byteLines bytes = header :: second :: lines → beginsWithDashes second = false) :
    read bytes = .error
      (if ∀ line ∈ (byteLines bytes).take 2, IsText line then .missingSeparator
      else .io streamName notText) := by
  cases hlines : byteLines bytes with
  | nil =>
      rw [read, hlines]
      rfl
  | cons header rest =>
      cases rest with
      | nil =>
          by_cases hheader : IsText header
          · obtain ⟨text, _, htext⟩ := exists_decodeLine hheader
            rw [if_pos (by simpa using hheader), read, hlines]
            dsimp only
            rw [htext]
            rfl
          · rw [if_neg (by simpa using hheader), read_of_not_isText hlines hheader]
      | cons second lines =>
          rw [read_of_byteLines hlines, hnone header second lines hlines]
          by_cases hboth : IsText header ∧ IsText second
          · rw [if_pos hboth, if_neg (by decide), if_pos (by simpa using hboth)]
          · rw [if_neg hboth, if_neg (by simpa using hboth)]

theorem exists_rule_of_read {report : CoverageReport} (hread : read bytes = .ok report) :
    ∃ header second lines, byteLines bytes = header :: second :: lines ∧
      beginsWithDashes second = true := by
  by_contra hnone
  rw [read_of_no_rule fun header second lines hlines => Bool.eq_false_iff.2 fun hdashes =>
    hnone ⟨header, second, lines, hlines, hdashes⟩] at hread
  cases hread

/-- The paths of a report have no blanks in them. -/
theorem isSolid_of_read {report : CoverageReport} (hread : read bytes = .ok report) {path : String}
    (hpath : path ∈ report.paths) : IsSolid path.toList := by
  obtain ⟨header, second, lines, hlines, hdashes⟩ := exists_rule_of_read hread
  obtain ⟨entries, hentries, hpaths, -⟩ := entries_of_read hlines hdashes hread
  rw [hpaths, List.mem_eraseDups] at hpath
  obtain ⟨entry, hentry, rfl⟩ := List.mem_map.1 hpath
  exact isSolid_of_forall₂ hentries (fun row => isSolid_of_mem_rowsOf) entry hentry

/-! ## What is not looked at -/

/-- Complete lines are split off whatever follows them. -/
theorem byteLines_append (front more : List UInt8) :
    byteLines (front ++ 0x0A :: more) = byteLines (front ++ [0x0A]) ++ byteLines more := by
  have general (before : List UInt8) :
      byteLines.go before (front ++ 0x0A :: more) =
        byteLines.go before (front ++ [0x0A]) ++ byteLines more := by
    induction front generalizing before with
    | nil =>
        rw [List.nil_append, List.nil_append, byteLines.go, byteLines.go, if_pos rfl, if_pos rfl]
        rfl
    | cons byte front ih =>
        rw [List.cons_append, List.cons_append, byteLines.go, byteLines.go]
        split
        · rw [ih, List.cons_append]
        · exact ih (byte :: before)
  exact general []

/-- Some lines say what becomes of the table, whatever lines follow them: one of the first two is
no text, the second is no line of dashes, or a later one stops the rows or has a defect. -/
inductive Settles : List (List UInt8) → Prop
  | header {header : List UInt8} {rest : List (List UInt8)} :
      ¬IsText header → Settles (header :: rest)
  | second {header second : List UInt8} {rest : List (List UInt8)} :
      ¬IsText second ∨ beginsWithDashes second = false → Settles (header :: second :: rest)
  | row {header second line : List UInt8} {lines : List (List UInt8)} :
      line ∈ lines → (stops line = true ∨ ∃ fault, Offends line fault) →
        Settles (header :: second :: lines)

/-- Bytes behind lines that settle the table do not matter. -/
theorem read_append {front : List UInt8} (hsettles : Settles (byteLines (front ++ [0x0A])))
    (more : List UInt8) : read (front ++ 0x0A :: more) = read (front ++ [0x0A]) := by
  have hmore := byteLines_append front more
  generalize hlines : byteLines (front ++ [0x0A]) = lines at hsettles hmore
  cases hsettles with
  | header hheader =>
      rw [List.cons_append] at hmore
      rw [read_of_not_isText hmore hheader, read_of_not_isText hlines hheader]
  | second hsecond =>
      rw [List.cons_append, List.cons_append] at hmore
      rw [read_of_byteLines hmore, read_of_byteLines hlines]
      rcases hsecond with hsecond | hdashes
      · rw [if_neg fun hboth => hsecond hboth.2, if_neg fun hboth => hsecond hboth.2]
      · rw [hdashes]
        rfl
  | @row header second line lines hline hends =>
      rw [List.cons_append, List.cons_append] at hmore
      rw [read_of_byteLines hmore, read_of_byteLines hlines,
        readRows_append ∅ (byteLines more) ⟨line, hline, hends⟩]

/-! ## Tables -/

/-- Reading a table, whatever its bytes.  With a line of dashes in second place, the table is read
exactly when all lines that are reached are texts and all rows have well-formed lists.  The report
then has the entries of the rows, with the paths by first occurrence and the lines of the last
entry for each, and otherwise the fault is that of the first defect.  Without a line of dashes in
second place the table is none, or one of its first two lines is no text.  What stands behind the
line that stops the rows or has the defect does not matter. -/
theorem read_spec (bytes : List UInt8) :
    (∀ header rule lines, byteLines bytes = header :: rule :: lines →
      beginsWithDashes rule = true →
        ((∃ report, read bytes = .ok report) ↔
          (∀ line ∈ header :: rule :: reached lines, IsText line) ∧
            ∀ row ∈ rowsOf lines, ∃ missing, LineSet.Denotes row.2 missing) ∧
        (∀ report, read bytes = .ok report →
          ∃ entries, List.Forall₂ LeavesEntry (rowsOf lines) entries ∧
            report.paths = (entries.map Prod.fst).eraseDups ∧
              ∀ path, report.get? path = entries.reverse.lookup path) ∧
        ∀ fault, read bytes = .error fault ↔
          ¬(IsText header ∧ IsText rule) ∧ fault = .io streamName notText ∨
            (IsText header ∧ IsText rule) ∧ IsFirstOffence lines fault) ∧
    ((∀ header second lines, byteLines bytes = header :: second :: lines →
        beginsWithDashes second = false) →
      read bytes = .error
        (if ∀ line ∈ (byteLines bytes).take 2, IsText line then .missingSeparator
        else .io streamName notText)) ∧
    ∀ front more, bytes = front ++ 0x0A :: more → Settles (byteLines (front ++ [0x0A])) →
      read bytes = read (front ++ [0x0A]) := by
  refine ⟨fun header rule lines hlines hdashes => ⟨?_, ?_, ?_⟩, read_of_no_rule, ?_⟩
  · exact exists_read_eq_ok_iff hlines hdashes
  · exact fun report => entries_of_read hlines hdashes
  · exact fun fault => read_eq_error_iff hlines hdashes
  · rintro front more rfl hsettles
    exact read_append hsettles more

/-- A table with a path that comes up again, a row without a last column, and behind the blank
line a byte that is no text. -/
def repeatedTable : List UInt8 :=
  encode ("\n".intercalate
    ["Name Stmts Miss Cover Missing",
      "-----------------------------",
      "a.py 9 1 88% 3",
      "b.py 2 0 100%",
      "a.py 9 4 55% 8, 5-6,8",
      "", ""]) ++ [0xFF]

theorem read_spec_repeatedTable :
    ∃ report, read repeatedTable = .ok report ∧
      ∃ entries, List.Forall₂ LeavesEntry
          [("a.py".toList, "3".toList), ("a.py".toList, "8, 5-6,8".toList)] entries ∧
        report.paths = (entries.map Prod.fst).eraseDups ∧
          ∀ path, report.get? path = entries.reverse.lookup path := by
  have hlines : byteLines repeatedTable =
      (byteLines repeatedTable).headD [] :: (byteLines repeatedTable).getD 1 [] ::
        (byteLines repeatedTable).drop 2 := by decide +kernel
  have hrows : rowsOf ((byteLines repeatedTable).drop 2) =
      [("a.py".toList, "3".toList), ("a.py".toList, "8, 5-6,8".toList)] := by decide +kernel
  obtain ⟨hok, hentries, _⟩ :=
    (read_spec repeatedTable).1 _ _ _ hlines (by decide +kernel)
  rw [hrows] at hok hentries
  have hdenotes : ∀ row ∈ [("a.py".toList, "3".toList), ("a.py".toList, "8, 5-6,8".toList)],
      ∃ missing, LineSet.Denotes row.2 missing := by
    rw [List.forall_mem_cons, List.forall_mem_singleton]
    exact ⟨⟨_, LineSet.read_eq_ok_iff.1 rfl⟩, ⟨_, LineSet.read_eq_ok_iff.1 rfl⟩⟩
  obtain ⟨report, hread⟩ := hok.2 ⟨by decide +kernel, hdenotes⟩
  exact ⟨report, hread, hentries report hread⟩

example :
    (read repeatedTable).toOption.map (fun report => (report.paths, report.get? "a.py")) =
      some (["a.py"], some (.ofList [5, 6, 8])) := by
  decide +kernel

end Untested.CoverageTable
