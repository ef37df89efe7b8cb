/-
# Laid out tables are read back

A layout says how a coverage table may be printed: any header, a line of dashes, rows with
arbitrary blanks between their columns, rows without a fifth column anywhere among them, and an
ending.  Whatever the layout, reading its bytes gives the report of its entries.

The proof reads one line at a time.  A line is shown to the reader either as it was printed or,
when it is followed by a line feed, without a carriage return at its end; neither of the tests on
a line notices the difference.
-/

import Untested.Coverage.Table
import Untested.Proofs.Line.Compact
import Untested.Proofs.Text.Utf8

namespace Untested.CoverageTable

open Text

/-! ## Lines of bytes -/

theorem byteLines_go_append {line : List UInt8} (hline : 0x0A ∉ line) (before rest : List UInt8) :
    byteLines.go before (line ++ rest) = byteLines.go (line.reverse ++ before) rest := by
  induction line generalizing before with
  | nil => rfl
  | cons byte line ih =>
      rw [List.mem_cons, not_or] at hline
      rw [List.cons_append, byteLines.go, if_neg (Ne.symm hline.1), ih hline.2,
        List.reverse_cons, List.append_assoc, List.singleton_append]

theorem withoutReturn_concat (line : List UInt8) : withoutReturn (line ++ [0x0D]) = line := by
  rw [withoutReturn, if_pos List.getLast?_concat, List.dropLast_concat]

/-- A line with a line feed behind it loses its carriage return. -/
theorem byteLines_append_lineFeed {line : List UInt8} (hline : 0x0A ∉ line) (rest : List UInt8) :
    byteLines (line ++ 0x0A :: rest) = withoutReturn line :: byteLines rest := by
  rw [byteLines, byteLines_go_append hline, List.append_nil, byteLines.go, if_pos rfl,
    List.reverse_reverse]
  rfl

/-- A last line without a line feed stays as it is. -/
theorem byteLines_of_not_mem {line : List UInt8} (hline : 0x0A ∉ line) (hne : line ≠ []) :
    byteLines line = [line] := by
  have := byteLines_go_append hline [] []
  rw [List.append_nil, List.append_nil] at this
  rw [byteLines, this, byteLines.go, if_neg (by simpa using hne), List.reverse_reverse]

/-- The line feed of a text is a line feed of its bytes. -/
theorem lineFeed_not_mem_encode {line : List Char} (hline : '\n' ∉ line) :
    0x0A ∉ encode (String.ofList line) := by
  rw [mem_encode_iff (by decide)]
  rintro ⟨c, hc, heq⟩
  have : c = '\n' := Char.toNat_inj.1 heq
  exact hline (this ▸ hc)

/-- How a printed line is shown to the reader: as it is, or without a carriage return at its
end. -/
inductive IsShown : List Char → List Char → Prop
  | whole (line : List Char) : IsShown line line
  | withoutReturn (line : List Char) : IsShown (line ++ ['\r']) line

/-- Taking a carriage return off the bytes of a line takes one off the line. -/
theorem decodeLine_withoutReturn (line : List Char) :
    ∃ shown, IsShown line shown ∧
      decodeLine (withoutReturn (encode (String.ofList line))) = .ok shown := by
  by_cases hlast : (encode (String.ofList line)).getLast? = some 0x0D
  · obtain ⟨front, c, rfl, heq⟩ := getLast?_encode (by decide) hlast
    have hc : c = '\r' := Char.toNat_inj.1 heq
    subst hc
    refine ⟨front, .withoutReturn front, ?_⟩
    have hbytes : encode (String.ofList (front ++ ['\r'])) =
        encode (String.ofList front) ++ [0x0D] := by
      rw [encode_ofList, encode_ofList, List.flatMap_append]
      rfl
    rw [withoutReturn, if_pos hlast, hbytes, List.dropLast_concat, decodeLine, decode?_encode]
  · exact ⟨line, .whole line, by rw [withoutReturn, if_neg hlast, decodeLine, decode?_encode]⟩

/-- The first line of a table, whatever comes after it.  The condition on the bytes behind it
says that there are none or that they start a line of their own. -/
theorem byteLines_encode_append {line : List Char} (hline : '\n' ∉ line) {rest : List UInt8}
    (hrest : ∀ byte ∈ rest.head?, byte = 0x0A) (hne : line ≠ [] ∨ rest ≠ []) :
    ∃ bytes shown, IsShown line shown ∧ decodeLine bytes = .ok shown ∧
      byteLines (encode (String.ofList line) ++ rest) = bytes :: byteLines rest.tail := by
  cases rest with
  | nil =>
      have hline' : line ≠ [] := by simpa using hne
      refine ⟨encode (String.ofList line), line, .whole line,
        by rw [decodeLine, decode?_encode], ?_⟩
      rw [List.append_nil, byteLines_of_not_mem (lineFeed_not_mem_encode hline)]
      · rfl
      · intro hnil
        have := decode?_encode line
        rw [hnil] at this
        exact hline' (Option.some.inj (this.symm.trans (decode?_encode [])))
  | cons byte rest =>
      obtain rfl : byte = 0x0A := hrest byte rfl
      obtain ⟨shown, hshown, hdecode⟩ := decodeLine_withoutReturn line
      exact ⟨_, shown, hshown, hdecode,
        byteLines_append_lineFeed (lineFeed_not_mem_encode hline) rest⟩

/-! ## Tests on lines -/

/-- A character that is no dash decides nothing about a line of dashes behind it. -/
theorem isRule_append_cons {c : Char} (hc : c ≠ '-') (line rest : List Char) :
    isRule (line ++ c :: rest) = isRule line := by
  have general : ∀ pattern : List Char, (∀ d ∈ pattern, d ≠ c) → ∀ line : List Char,
      pattern.isPrefixOf (line ++ c :: rest) = pattern.isPrefixOf line := by
    intro pattern hpattern
    induction pattern with
    | nil => intro line; simp
    | cons d pattern ih =>
        intro line
        cases line with
        | nil =>
            rw [List.nil_append, List.isPrefixOf_cons_cons,
              beq_eq_false_iff_ne.2 (hpattern d List.mem_cons_self)]
            rfl
        | cons e line =>
            rw [List.cons_append, List.isPrefixOf_cons_cons, List.isPrefixOf_cons_cons,
              ih fun d hd => hpattern d (List.mem_cons_of_mem _ hd)]
  exact general dashes (by intro d hd; simp [dashes] at hd; rw [hd]; exact Ne.symm hc) line

theorem isRule_of_isShown {line shown : List Char} (hshown : IsShown line shown) :
    isRule shown = isRule line := by
  cases hshown with
  | whole => rfl
  | withoutReturn => exact (isRule_append_cons (by decide) shown []).symm

theorem isBlankText_of_isShown {line shown : List Char} (hshown : IsShown line shown) :
    isBlankText shown = isBlankText line := by
  cases hshown with
  | whole => rfl
  | withoutReturn =>
      rw [isBlankText, isBlankText, List.all_append]
      simp [show isBlank '\r' = true by decide]

/-- Whether a line ends the rows shows in spite of the carriage return. -/
theorem endsRows_of_isShown {line shown : List Char} (hshown : IsShown line shown) :
    endsRows shown = endsRows line := by
  rw [endsRows, endsRows, isRule_of_isShown hshown, isBlankText_of_isShown hshown]

theorem words_of_isShown {line shown : List Char} (hshown : IsShown line shown) :
    words shown = words line := by
  cases hshown with
  | whole => rfl
  | withoutReturn =>
      exact (words_append_gap (fun c hc => List.mem_singleton.1 hc ▸ by decide) shown).symm

/-- A line of at most four words has no fifth column. -/
theorem readRow_of_short {line : List Char} (hshort : (words line).length ≤ 4) :
    readRow line = .ok none := by
  rw [← words_trim] at hshort
  rw [readRow, fields_eq_words hshort]
  match words (trim line), hshort with
  | [], _ | [_], _ | [_, _], _ | [_, _, _], _ | [_, _, _, _], _ => rfl

/-! ## Layouts -/

/-- A word of a row. -/
structure Word where
  text : List Char
  solid : IsSolid text
  ne_nil : text ≠ []

/-- The space between two columns. -/
structure Gap where
  text : List Char
  blank : IsGap text
  ne_nil : text ≠ []
  oneLine : '\n' ∉ text

/-- A row that leaves an entry. -/
structure EntryRow where
  path : Word
  not_rule : isRule path.text = false
  /-- The second column. -/
  statements : Word
  /-- The third column. -/
  missed : Word
  /-- The fourth column. -/
  cover : Word
  /-- The lines of the fifth column. -/
  missing : LineSet
  missing_ne : missing ≠ ∅
  le_maxLine : ∀ line ∈ missing, line ≤ maxLine
  afterPath : Gap
  afterStatements : Gap
  afterMissed : Gap
  afterCover : Gap

/-- A row that leaves no entry. -/
structure ShortRow where
  /-- The whole row. -/
  text : List Char
  oneLine : '\n' ∉ text
  not_blank : isBlankText text = false
  not_rule : isRule text = false
  short : (words text).length ≤ 4

/-- A row of a table. -/
inductive Row where
  | entry (row : EntryRow)
  | short (row : ShortRow)

/-- What stands behind the last row of a table. -/
inductive Ending where
  | nothing
  /-- The line feed of the last row. -/
  | lineFeed
  /-- A line that ends the rows and, when a line feed ends that line, any bytes. -/
  | stop (line : List Char) (oneLine : '\n' ∉ line) (ends : endsRows line = true)
      (more : Option (List UInt8))

/-- The text of a row with five columns. -/
def EntryRow.text (row : EntryRow) : List Char :=
  row.path.text ++ (row.afterPath.text ++ (row.statements.text ++ (row.afterStatements.text ++
    (row.missed.text ++ (row.afterMissed.text ++ (row.cover.text ++ (row.afterCover.text ++
      row.missing.write)))))))

def Row.text : Row → List Char
  | .entry row => row.text
  | .short row => row.text

/-- The entry that a row leaves. -/
def Row.entry? : Row → Option (String × LineSet)
  | .entry row => some (String.ofList row.path.text, row.missing)
  | .short _ => none

def Ending.bytes : Ending → List UInt8
  | .nothing => []
  | .lineFeed => [0x0A]
  | .stop line _ _ none => 0x0A :: encode (String.ofList line)
  | .stop line _ _ (some more) => 0x0A :: (encode (String.ofList line) ++ 0x0A :: more)

/-- A way to print a table. -/
structure Layout where
  /-- The first line. -/
  header : List Char
  header_oneLine : '\n' ∉ header
  /-- The line of dashes. -/
  rule : List Char
  rule_oneLine : '\n' ∉ rule
  isRule_rule : isRule rule = true
  rows : List Row
  /-- What stands behind the rows. -/
  ending : Ending

/-- The bytes of some lines and an ending behind a line that is still open. -/
def followed (lines : List (List Char)) (ending : Ending) : List UInt8 :=
  lines.flatMap (fun line => 0x0A :: encode (String.ofList line)) ++ ending.bytes

/-- The bytes of the printed table. -/
def Layout.bytes (layout : Layout) : List UInt8 :=
  encode (String.ofList layout.header) ++
    followed (layout.rule :: layout.rows.map Row.text) layout.ending

/-- The entries of a table, repeated paths included. -/
def Layout.entries (layout : Layout) : List (String × LineSet) :=
  layout.rows.filterMap Row.entry?

/-- A word of one digit. -/
def Word.zero : Word where
  text := ['0']
  solid := by decide
  ne_nil := List.cons_ne_nil _ _

/-- A single space. -/
def Gap.space : Gap where
  text := [' ']
  blank := by decide
  ne_nil := List.cons_ne_nil _ _
  oneLine := by decide

/-- Any entries with paths that are words and line numbers that exist can be laid out, in any
order and with any repetitions. -/
theorem exists_layout {entries : List (String × LineSet)}
    (hpath : ∀ entry ∈ entries, entry.1.toList ≠ [] ∧ IsSolid entry.1.toList ∧
      isRule entry.1.toList = false)
    (hmissing : ∀ entry ∈ entries, entry.2 ≠ ∅ ∧ ∀ line ∈ entry.2, line ≤ maxLine) :
    ∃ layout : Layout, layout.entries = entries := by
  have hrows : ∃ rows : List Row, rows.filterMap Row.entry? = entries := by
    induction entries with
    | nil => exact ⟨[], rfl⟩
    | cons entry entries ih =>
        obtain ⟨rows, hrows⟩ := ih (fun other hother => hpath other (List.mem_cons_of_mem _ hother))
          (fun other hother => hmissing other (List.mem_cons_of_mem _ hother))
        obtain ⟨hne, hsolid, hrule⟩ := hpath entry List.mem_cons_self
        obtain ⟨hmissing_ne, hmax⟩ := hmissing entry List.mem_cons_self
        let row : EntryRow :=
          { path := ⟨entry.1.toList, hsolid, hne⟩, not_rule := hrule, statements := .zero,
            missed := .zero, cover := .zero, missing := entry.2, missing_ne := hmissing_ne,
            le_maxLine := hmax, afterPath := .space, afterStatements := .space,
            afterMissed := .space, afterCover := .space }
        refine ⟨.entry row :: rows, ?_⟩
        rw [List.filterMap_cons_some (show Row.entry? (.entry row) = some entry from ?_), hrows]
        show some (String.ofList entry.1.toList, entry.2) = some entry
        rw [String.ofList_toList]
  obtain ⟨rows, hrows⟩ := hrows
  exact ⟨{ header := [], header_oneLine := List.not_mem_nil, rule := dashes,
           rule_oneLine := by decide, isRule_rule := by decide, rows, ending := .nothing }, hrows⟩

/-! ## Rows are read back -/

theorem Word.lineFeed_not_mem (word : Word) : '\n' ∉ word.text := by
  intro hmem
  exact absurd (word.solid '\n' hmem) (by decide)

theorem EntryRow.lineFeed_not_mem (row : EntryRow) : '\n' ∉ row.text := by
  simp only [EntryRow.text, List.mem_append, not_or]
  exact ⟨row.path.lineFeed_not_mem, row.afterPath.oneLine, row.statements.lineFeed_not_mem,
    row.afterStatements.oneLine, row.missed.lineFeed_not_mem, row.afterMissed.oneLine,
    row.cover.lineFeed_not_mem, row.afterCover.oneLine,
    LineSet.lineFeed_not_mem_writeRuns row.missing.runs⟩

/-- The list of a set that is not empty is not empty either. -/
theorem EntryRow.write_ne_nil (row : EntryRow) : row.missing.write ≠ [] :=
  LineSet.writeRuns_ne_nil (LineSet.runs_ne_nil row.missing_ne)

/-- The first character of a path is the first one of its row. -/
theorem EntryRow.exists_head (row : EntryRow) :
    ∃ c rest, row.text = c :: rest ∧ isBlank c = false := by
  obtain ⟨c, word, hpath⟩ := List.exists_cons_of_ne_nil row.path.ne_nil
  refine ⟨c, _, by rw [EntryRow.text, hpath, List.cons_append], ?_⟩
  exact row.path.solid c (by rw [hpath]; exact List.mem_cons_self)

/-- The last character of a row is a digit. -/
theorem EntryRow.isDigit_last (row : EntryRow) : ∀ c ∈ row.text.getLast?, isDigit c = true := by
  have hwrite := row.write_ne_nil
  have hlast := LineSet.isDigit_last_writeRuns row.missing.runs
  intro c hc
  rw [EntryRow.text] at hc
  repeat rw [List.getLast?_append_of_ne_nil _ (by simp [hwrite])] at hc
  exact hlast c hc

theorem EntryRow.trim_text (row : EntryRow) : trim row.text = row.text := by
  obtain ⟨c, rest, hrow, hc⟩ := row.exists_head
  apply trim_eq_self
  · intro d hd
    rw [hrow, List.head?_cons, Option.mem_some_iff] at hd
    rwa [← hd]
  · exact fun d hd => isBlank_of_isDigit (row.isDigit_last d hd)

/-- The list of missing lines has nothing to trim. -/
theorem EntryRow.trim_write (row : EntryRow) : trim row.missing.write = row.missing.write :=
  trim_eq_self
    (fun c hc => isBlank_of_isDigit (LineSet.isDigit_head_writeRuns row.missing.runs c hc))
    (fun c hc => isBlank_of_isDigit (LineSet.isDigit_last_writeRuns row.missing.runs c hc))

/-- The five columns of a row. -/
theorem EntryRow.fields_text (row : EntryRow) :
    fields 4 row.text =
      [row.path.text, row.statements.text, row.missed.text, row.cover.text, row.missing.write] := by
  obtain ⟨c, rest, hwrite⟩ := List.exists_cons_of_ne_nil row.write_ne_nil
  have hc : isBlank c = false := isBlank_of_isDigit
    (LineSet.isDigit_head_writeRuns row.missing.runs c (by
      rw [← LineSet.write, hwrite, List.head?_cons, Option.mem_some_iff]))
  have column (limit : Nat) (word : Word) (gap : Gap) (rest : List Char) :
      fields (limit + 1) (word.text ++ (gap.text ++ rest)) = word.text :: fields limit rest :=
    fields_word_append word.solid word.ne_nil gap.blank gap.ne_nil limit rest
  rw [EntryRow.text, column, column, column, column, hwrite, fields_zero_of_not_blank hc]

/-- A row with five columns is read as its entry. -/
theorem EntryRow.readRow_text (row : EntryRow) :
    readRow row.text = .ok (some (String.ofList row.path.text, row.missing)) := by
  rw [readRow, row.trim_text, row.fields_text]
  dsimp only
  rw [row.trim_write, LineSet.read_write row.missing_ne row.le_maxLine]

theorem EntryRow.endsRows_text (row : EntryRow) : endsRows row.text = false := by
  obtain ⟨c, gap, hgap⟩ := List.exists_cons_of_ne_nil row.afterPath.ne_nil
  have hc : c ≠ '-' := by
    rintro rfl
    exact absurd (row.afterPath.blank '-' (by rw [hgap]; exact List.mem_cons_self)) (by decide)
  have hrule : isRule row.text = false := by
    rw [EntryRow.text, hgap, List.cons_append, isRule_append_cons hc]
    exact row.not_rule
  obtain ⟨d, rest, hrow, hd⟩ := row.exists_head
  rw [endsRows, hrule, hrow, isBlankText, List.all_cons, hd]
  rfl

theorem Row.lineFeed_not_mem (row : Row) : '\n' ∉ row.text := by
  cases row with
  | entry row => exact row.lineFeed_not_mem
  | short row => exact row.oneLine

theorem Row.endsRows_text (row : Row) : endsRows row.text = false := by
  cases row with
  | entry row => exact row.endsRows_text
  | short row => rw [Row.text, endsRows, row.not_rule, row.not_blank]; rfl

theorem Row.text_ne_nil (row : Row) : row.text ≠ [] := by
  intro hnil
  have := row.endsRows_text
  rw [hnil] at this
  exact absurd this (by decide)

/-- A row ends with a digit or is short, and either way it is read as its entry. -/
theorem Row.readRow_shown (row : Row) {shown : List Char} (hshown : IsShown row.text shown) :
    readRow shown = .ok row.entry? := by
  cases row with
  | short row =>
      apply readRow_of_short
      rw [words_of_isShown hshown]
      exact row.short
  | entry row =>
      have hlast := row.isDigit_last
      rw [Row.text] at hshown
      generalize hline : row.text = line at hshown hlast
      cases hshown with
      | whole =>
          rw [← hline]
          exact row.readRow_text
      | withoutReturn =>
          exact absurd (hlast '\r' (by simp)) (by decide)

/-! ## Tables are read back -/

theorem head_ending (ending : Ending) : ∀ byte ∈ ending.bytes.head?, byte = 0x0A := by
  intro byte hbyte
  match ending with
  | .nothing => exact absurd hbyte (by simp [Ending.bytes])
  | .lineFeed | .stop _ _ _ none | .stop _ _ _ (some _) => exact (Option.mem_some_iff.1 hbyte).symm

/-- Whatever follows an open line starts with a line feed. -/
theorem head_followed (lines : List (List Char)) (ending : Ending) :
    ∀ byte ∈ (followed lines ending).head?, byte = 0x0A := by
  cases lines with
  | nil => exact head_ending ending
  | cons line lines => exact fun byte hbyte => (Option.mem_some_iff.1 hbyte).symm

theorem tail_followed_cons (line : List Char) (lines : List (List Char)) (ending : Ending) :
    (followed (line :: lines) ending).tail =
      encode (String.ofList line) ++ followed lines ending := by
  rw [followed, followed, List.flatMap_cons, List.cons_append, List.cons_append, List.tail_cons,
    List.append_assoc]

/-- A line behind an open line is the next one to be read. -/
theorem byteLines_tail_followed {line : List Char} (hline : '\n' ∉ line)
    (lines : List (List Char)) (ending : Ending) (hne : line ≠ [] ∨ followed lines ending ≠ []) :
    ∃ bytes shown, IsShown line shown ∧ decodeLine bytes = .ok shown ∧
      byteLines (followed (line :: lines) ending).tail =
        bytes :: byteLines (followed lines ending).tail := by
  rw [tail_followed_cons]
  exact byteLines_encode_append hline (head_followed lines ending) hne

/-- Nothing behind an ending is read. -/
theorem readRows_ending (report : CoverageReport) (ending : Ending) :
    readRows report (byteLines ending.bytes.tail) = .ok report := by
  have stop (line : List Char) (oneLine : '\n' ∉ line) (ends : endsRows line = true)
      (rest : List UInt8) (hrest : ∀ byte ∈ rest.head?, byte = 0x0A) :
      readRows report (byteLines (encode (String.ofList line) ++ rest)) = .ok report := by
    by_cases hne : line ≠ [] ∨ rest ≠ []
    · obtain ⟨bytes, shown, hshown, hdecode, hbytes⟩ := byteLines_encode_append oneLine hrest hne
      rw [hbytes, readRows, hdecode]
      show (if endsRows shown then _ else _) = _
      rw [endsRows_of_isShown hshown, if_pos ends]
      rfl
    · simp only [not_or, not_not] at hne
      obtain ⟨rfl, rfl⟩ := hne
      rfl
  match ending with
  | .nothing | .lineFeed => rfl
  | .stop line oneLine ends none =>
      have := stop line oneLine ends [] (by simp)
      rwa [List.append_nil] at this
  | .stop line oneLine ends (some more) =>
      exact stop line oneLine ends (0x0A :: more) fun byte hbyte =>
        (Option.mem_some_iff.1 hbyte).symm

/-- Each row adds its entry to the report, and the rows are all read. -/
theorem readRows_rows (rows : List Row) (ending : Ending) (report : CoverageReport) :
    readRows report (byteLines (followed (rows.map Row.text) ending).tail) =
      .ok ((rows.filterMap Row.entry?).foldl
        (fun report entry => report.insert entry.1 entry.2) report) := by
  induction rows generalizing report with
  | nil => exact readRows_ending report ending
  | cons row rows ih =>
      obtain ⟨bytes, shown, hshown, hdecode, hbytes⟩ :=
        byteLines_tail_followed row.lineFeed_not_mem (rows.map Row.text) ending
          (.inl row.text_ne_nil)
      have hends : endsRows shown = false := by
        rw [endsRows_of_isShown hshown, row.endsRows_text]
      rw [List.map_cons, hbytes, readRows, hdecode]
      show (if endsRows shown then _ else _) = _
      rw [hends, if_neg (by decide), row.readRow_shown hshown]
      cases hentry : row.entry? with
      | none => rw [List.filterMap_cons_none hentry]; exact ih report
      | some entry =>
          rw [List.filterMap_cons_some hentry]
          exact ih (report.insert entry.1 entry.2)

/-- However a table is laid out, reading it gives the report of its entries.  Bytes behind the
line that ends the rows need not even be a text. -/
theorem read_bytes (layout : Layout) :
    read layout.bytes = .ok (CoverageReport.ofList layout.entries) := by
  have hrule : layout.rule ≠ [] := by
    intro hnil
    have := layout.isRule_rule
    rw [hnil] at this
    exact absurd this (by decide)
  obtain ⟨header, text, _, hheader, hlines⟩ :=
    byteLines_encode_append layout.header_oneLine
      (head_followed (layout.rule :: layout.rows.map Row.text) layout.ending)
      (.inr (List.cons_ne_nil _ _))
  obtain ⟨bytes, shown, hshown, hdecode, hrest⟩ :=
    byteLines_tail_followed layout.rule_oneLine (layout.rows.map Row.text) layout.ending
      (.inl hrule)
  rw [hrest] at hlines
  have hisRule : isRule shown = true := by
    rw [isRule_of_isShown hshown, layout.isRule_rule]
  rw [read, Layout.bytes, hlines]
  simp only [hheader, hdecode]
  show (if !isRule shown then _ else _) = _
  rw [hisRule, if_neg (by decide)]
  exact readRows_rows layout.rows layout.ending ∅

end Untested.CoverageTable
