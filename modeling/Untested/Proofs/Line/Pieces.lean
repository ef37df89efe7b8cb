/-
# What a line list denotes

A line list denotes the lines of its pieces: a piece is a line number, or two of them with a dash
in between and the greater one last.  Lists of such pieces are read, and any other list is given
up at its first malformed piece.
-/

import Mathlib.Data.List.Forall2
import Untested.Proofs.Line.Compact

namespace Untested.LineSet

open Text

/-! ## Line numbers -/

/-- A line number is written in decimal digits and may have blanks around it. -/
structure IsNumber (text : List Char) (line : Nat) : Prop where
  ne_nil : trim text ≠ []
  isDigit : ∀ c ∈ trim text, isDigit c = true
  value : decimalValue (trim text) = line
  le_maxLine : line ≤ maxLine

theorem readLine_eq_ok_iff {text : List Char} {line : Nat} :
    readLine text = .ok line ↔ IsNumber text line := by
  rw [readLine]
  constructor
  · intro hread
    split at hread
    · cases hread
    · rename_i hdigits
      rw [Bool.or_eq_true, not_or, Bool.not_eq_true, Bool.not_eq_true', Bool.not_eq_false,
        List.all_eq_true, List.isEmpty_eq_false_iff] at hdigits
      split at hread
      · cases hread
      · rename_i hmax
        obtain rfl := Except.ok.inj hread
        exact ⟨hdigits.1, hdigits.2, rfl, Nat.not_lt.1 hmax⟩
  · rintro ⟨hne, hdigits, rfl, hmax⟩
    have hall : (trim text).all Text.isDigit = true := List.all_eq_true.2 hdigits
    have hempty : (trim text).isEmpty = false := List.isEmpty_eq_false_iff.2 hne
    rw [hall, hempty, if_neg (by decide), if_neg (Nat.not_lt.2 hmax)]

/-- A line number holds nothing but digits and blanks. -/
theorem IsNumber.dash_not_mem {text : List Char} {line : Nat} (hnumber : IsNumber text line) :
    '-' ∉ text := by
  intro hmem
  obtain ⟨before, hbefore, htext⟩ := exists_gap_trimStart text
  obtain ⟨after, hafter, hstart⟩ := exists_gap_trimEnd (trimStart text)
  rw [htext, hstart, List.mem_append, List.mem_append] at hmem
  rcases hmem with hmem | hmem | hmem
  · exact absurd (hbefore _ hmem) (by decide)
  · exact absurd (hnumber.isDigit _ hmem) (by decide)
  · exact absurd (hafter _ hmem) (by decide)

/-! ## Pieces -/

/-- A piece denotes a run of lines. -/
inductive IsPiece : List Char → Nat × Nat → Prop
  | line {text : List Char} {line : Nat} : IsNumber text line → IsPiece text (line, line)
  | range {left right : List Char} {start stop : Nat} :
      IsNumber left start → IsNumber right stop → start ≤ stop →
        IsPiece (left ++ '-' :: right) (start, stop)

theorem readPiece_of_isPiece {text : List Char} {run : Nat × Nat} (hpiece : IsPiece text run) :
    readPiece text = .ok (interval run.1 run.2) := by
  cases hpiece with
  | line hnumber =>
      rw [readPiece, splitOnce?_of_not_mem hnumber.dash_not_mem]
      dsimp only
      rw [readLine_eq_ok_iff.2 hnumber]
      rfl
  | range hleft hright hle =>
      rw [readPiece, splitOnce?_append hleft.dash_not_mem]
      dsimp only
      rw [readLine_eq_ok_iff.2 hleft, readLine_eq_ok_iff.2 hright]
      show (if _ < _ then _ else _) = _
      rw [if_neg (Nat.not_lt.2 hle)]
      rfl

/-- A piece that is read denotes the lines that are read. -/
theorem exists_isPiece_of_readPiece {text : List Char} {lines : LineSet}
    (hread : readPiece text = .ok lines) :
    ∃ run, IsPiece text run ∧ lines = interval run.1 run.2 := by
  by_cases hdash : '-' ∈ text
  · obtain ⟨left, right, rfl, hleft⟩ := List.eq_append_cons_of_mem hdash
    rw [readPiece, splitOnce?_append hleft] at hread
    dsimp only at hread
    cases hstart : readLine left with
    | error fault => rw [hstart] at hread; cases hread
    | ok start =>
        cases hstop : readLine right with
        | error fault => rw [hstart, hstop] at hread; cases hread
        | ok stop =>
            rw [hstart, hstop] at hread
            replace hread : (if stop < start then Except.error RangeFault.reversed
              else .ok (interval start stop)) = .ok lines := hread
            split at hread
            · cases hread
            · rename_i hle
              obtain rfl := Except.ok.inj hread
              exact ⟨(start, stop), .range (readLine_eq_ok_iff.1 hstart)
                (readLine_eq_ok_iff.1 hstop) (Nat.not_lt.1 hle), rfl⟩
  · rw [readPiece, splitOnce?_of_not_mem hdash] at hread
    dsimp only at hread
    cases hline : readLine text with
    | error fault => rw [hline] at hread; cases hread
    | ok line =>
        rw [hline] at hread
        obtain rfl := Except.ok.inj hread
        exact ⟨(line, line), .line (readLine_eq_ok_iff.1 hline), rfl⟩

/-! ## Malformed pieces -/

/-- What is wrong with a text that should be a line number. -/
inductive IsNoNumber : List Char → RangeFault → Prop
  | notDecimal {text : List Char} :
      (trim text ≠ [] → ∃ c ∈ trim text, isDigit c = false) → IsNoNumber text .notDecimal
  | tooLarge {text : List Char} :
      trim text ≠ [] → (∀ c ∈ trim text, isDigit c = true) →
        maxLine < decimalValue (trim text) → IsNoNumber text .tooLarge

theorem exists_isNumber_or_isNoNumber (text : List Char) :
    (∃ line, IsNumber text line) ∨ ∃ fault, IsNoNumber text fault := by
  by_cases hempty : trim text = []
  · exact .inr ⟨_, .notDecimal fun hne => absurd hempty hne⟩
  · by_cases hdigits : ∀ c ∈ trim text, isDigit c = true
    · rcases Nat.lt_or_ge maxLine (decimalValue (trim text)) with hmax | hmax
      · exact .inr ⟨_, .tooLarge hempty hdigits hmax⟩
      · exact .inl ⟨_, hempty, hdigits, rfl, hmax⟩
    · rw [← List.all_eq_true, Bool.not_eq_true, List.all_eq_false] at hdigits
      obtain ⟨c, hc, hdigit⟩ := hdigits
      exact .inr ⟨_, .notDecimal fun _ => ⟨c, hc, Bool.eq_false_iff.2 hdigit⟩⟩

theorem readLine_of_isNoNumber {text : List Char} {fault : RangeFault}
    (hfault : IsNoNumber text fault) : readLine text = .error fault := by
  rw [readLine]
  cases hfault with
  | notDecimal hdigits =>
      rw [if_pos]
      rw [Bool.or_eq_true, List.isEmpty_iff, Bool.not_eq_true', List.all_eq_false]
      by_cases hempty : trim text = []
      · exact .inl hempty
      · obtain ⟨c, hc, hdigit⟩ := hdigits hempty
        exact .inr ⟨c, hc, Bool.eq_false_iff.1 hdigit⟩
  | tooLarge hne hdigits hmax =>
      have hall : (trim text).all isDigit = true := List.all_eq_true.2 hdigits
      have hempty : (trim text).isEmpty = false := List.isEmpty_eq_false_iff.2 hne
      rw [hall, hempty, if_neg (by decide), if_pos hmax]

/-- What is wrong with a piece.  Of two ends the first one is looked at before the second one,
and their order only when both are line numbers. -/
inductive IsNoPiece : List Char → RangeFault → Prop
  | line {text : List Char} {fault : RangeFault} :
      '-' ∉ text → IsNoNumber text fault → IsNoPiece text fault
  | start {left right : List Char} {fault : RangeFault} :
      '-' ∉ left → IsNoNumber left fault → IsNoPiece (left ++ '-' :: right) fault
  | stop {left right : List Char} {start : Nat} {fault : RangeFault} :
      IsNumber left start → IsNoNumber right fault → IsNoPiece (left ++ '-' :: right) fault
  | reversed {left right : List Char} {start stop : Nat} :
      IsNumber left start → IsNumber right stop → stop < start →
        IsNoPiece (left ++ '-' :: right) .reversed

theorem exists_isPiece_or_isNoPiece (text : List Char) :
    (∃ run, IsPiece text run) ∨ ∃ fault, IsNoPiece text fault := by
  by_cases hdash : '-' ∈ text
  · obtain ⟨left, right, rfl, hleft⟩ := List.eq_append_cons_of_mem hdash
    rcases exists_isNumber_or_isNoNumber left with ⟨start, hstart⟩ | ⟨fault, hfault⟩
    · rcases exists_isNumber_or_isNoNumber right with ⟨stop, hstop⟩ | ⟨fault, hfault⟩
      · rcases Nat.lt_or_ge stop start with hlt | hle
        · exact .inr ⟨_, .reversed hstart hstop hlt⟩
        · exact .inl ⟨_, .range hstart hstop hle⟩
      · exact .inr ⟨_, .stop hstart hfault⟩
    · exact .inr ⟨_, .start hleft hfault⟩
  · rcases exists_isNumber_or_isNoNumber text with ⟨line, hline⟩ | ⟨fault, hfault⟩
    · exact .inl ⟨_, .line hline⟩
    · exact .inr ⟨_, .line hdash hfault⟩

theorem readPiece_of_isNoPiece {text : List Char} {fault : RangeFault}
    (hpiece : IsNoPiece text fault) : readPiece text = .error fault := by
  cases hpiece with
  | line hdash hline =>
      rw [readPiece, splitOnce?_of_not_mem hdash]
      dsimp only
      rw [readLine_of_isNoNumber hline]
      rfl
  | start hdash hleft =>
      rw [readPiece, splitOnce?_append hdash]
      dsimp only
      rw [readLine_of_isNoNumber hleft]
      rfl
  | stop hleft hright =>
      rw [readPiece, splitOnce?_append hleft.dash_not_mem]
      dsimp only
      rw [readLine_eq_ok_iff.2 hleft, readLine_of_isNoNumber hright]
      rfl
  | reversed hleft hright hlt =>
      rw [readPiece, splitOnce?_append hleft.dash_not_mem]
      dsimp only
      rw [readLine_eq_ok_iff.2 hleft, readLine_eq_ok_iff.2 hright]
      show (if _ < _ then _ else _) = _
      rw [if_pos hlt]
      rfl

/-- A piece is refused for what is wrong with it. -/
theorem readPiece_eq_error_iff {text : List Char} {fault : RangeFault} :
    readPiece text = .error fault ↔ IsNoPiece text fault := by
  refine ⟨fun hread => ?_, readPiece_of_isNoPiece⟩
  rcases exists_isPiece_or_isNoPiece text with ⟨run, hpiece⟩ | ⟨other, hother⟩
  · rw [readPiece_of_isPiece hpiece] at hread
    cases hread
  · rw [readPiece_of_isNoPiece hother] at hread
    exact Except.error.inj hread ▸ hother

/-! ## Lists -/

/-- The pieces of a list without the blanks at their ends. -/
def tokens (text : List Char) : List (List Char) :=
  (splitAt ',' text).map trim

/-- A list denotes the lines of all its pieces together. -/
def Denotes (text : List Char) (lines : LineSet) : Prop :=
  ∃ runs, List.Forall₂ IsPiece (tokens text) runs ∧ covered runs = lines

/-- The first malformed one of some pieces, and what is wrong with it. -/
def IsFirstMalformed (pieces : List (List Char)) (error : RangeError) : Prop :=
  readPiece error.token = .error error.fault ∧
    ∃ before after, pieces = before ++ error.token :: after ∧
      ∀ other ∈ before, ∃ run, IsPiece other run

theorem exists_runs_or_isFirstMalformed (pieces : List (List Char)) :
    (∃ runs, List.Forall₂ IsPiece pieces runs) ∨ ∃ error, IsFirstMalformed pieces error := by
  induction pieces with
  | nil => exact .inl ⟨[], .nil⟩
  | cons piece pieces ih =>
      cases hread : readPiece piece with
      | error fault =>
          exact .inr ⟨⟨piece, fault⟩, hread, [], pieces, rfl,
            fun _ hother => absurd hother List.not_mem_nil⟩
      | ok lines =>
          obtain ⟨run, hpiece, _⟩ := exists_isPiece_of_readPiece hread
          rcases ih with ⟨runs, hruns⟩ | ⟨error, hfault, before, after, rfl, hbefore⟩
          · exact .inl ⟨run :: runs, .cons hpiece hruns⟩
          · exact .inr ⟨error, hfault, piece :: before, after, rfl,
              List.forall_mem_cons.2 ⟨⟨run, hpiece⟩, hbefore⟩⟩

theorem readPieces_of_forall₂ {pieces : List (List Char)} {runs : List (Nat × Nat)}
    (hruns : List.Forall₂ IsPiece (pieces.map trim) runs) :
    readPieces pieces = .ok (covered runs) := by
  rw [List.forall₂_map_left_iff] at hruns
  induction hruns with
  | nil => rfl
  | cons hpiece _ ih =>
      rw [readPieces, readPiece_of_isPiece hpiece, ih]
      rfl

theorem readPieces_of_isFirstMalformed {pieces : List (List Char)} {error : RangeError}
    (hfirst : IsFirstMalformed (pieces.map trim) error) : readPieces pieces = .error error := by
  obtain ⟨hfault, before, after, hsplit, hbefore⟩ := hfirst
  induction pieces generalizing before with
  | nil => exact absurd hsplit.symm (List.append_ne_nil_of_right_ne_nil _ (List.cons_ne_nil _ _))
  | cons piece pieces ih =>
      cases before with
      | nil =>
          obtain ⟨htoken, _⟩ := List.cons.inj hsplit
          rw [readPieces, htoken, hfault]
      | cons token before =>
          obtain ⟨htoken, hrest⟩ := List.cons.inj hsplit
          rw [List.forall_mem_cons] at hbefore
          obtain ⟨⟨run, hpiece⟩, hbefore⟩ := hbefore
          rw [readPieces, htoken, readPiece_of_isPiece hpiece, ih before hrest hbefore]
          rfl

/-- A list is read when it denotes some lines, and then it is read as those. -/
theorem read_eq_ok_iff {text : List Char} {lines : LineSet} :
    read text = .ok lines ↔ Denotes text lines := by
  constructor
  · intro hread
    rcases exists_runs_or_isFirstMalformed (tokens text) with ⟨runs, hruns⟩ | ⟨error, hfirst⟩
    · rw [read, readPieces_of_forall₂ hruns] at hread
      exact ⟨runs, hruns, Except.ok.inj hread⟩
    · rw [read, readPieces_of_isFirstMalformed hfirst] at hread
      cases hread
  · rintro ⟨runs, hruns, rfl⟩
    exact readPieces_of_forall₂ hruns

/-- A list is given up at its first malformed piece. -/
theorem read_eq_error_iff {text : List Char} {error : RangeError} :
    read text = .error error ↔ IsFirstMalformed (tokens text) error := by
  refine ⟨fun hread => ?_, readPieces_of_isFirstMalformed⟩
  rcases exists_runs_or_isFirstMalformed (tokens text) with ⟨runs, hruns⟩ | ⟨other, hfirst⟩
  · rw [read, readPieces_of_forall₂ hruns] at hread
    cases hread
  · rw [read, readPieces_of_isFirstMalformed hfirst] at hread
    exact Except.error.inj hread ▸ hfirst

theorem mem_covered {runs : List (Nat × Nat)} {line : Nat} :
    line ∈ covered runs ↔ ∃ run ∈ runs, run.1 ≤ line ∧ line ≤ run.2 := by
  induction runs with
  | nil => exact iff_of_false (not_mem_empty line) (by simp)
  | cons run runs ih =>
      rw [covered_cons, mem_union, mem_interval, ih, List.exists_mem_cons_iff]

theorem exists_isPiece_of_forall₂ {pieces : List (List Char)} {runs : List (Nat × Nat)}
    (hruns : List.Forall₂ IsPiece pieces runs) : ∀ piece ∈ pieces, ∃ run, IsPiece piece run := by
  have hboth : List.Forall₂ (fun piece run => (∃ other, IsPiece piece other) ∧ IsPiece piece run)
      pieces runs := hruns.imp fun _ _ hpiece => ⟨⟨_, hpiece⟩, hpiece⟩
  exact ((List.forall₂_and_left _ _).1 hboth).1

/-- Reading a line list, whatever its characters.  It is split at its commas, and the blanks at
the ends of the pieces are dropped.  When all pieces are line numbers or ranges, it is read, as
the lines of all pieces together.  Otherwise it is given up at the first piece that is none, with
that piece and with what is wrong with it. -/
theorem read_by_pieces (text : List Char) :
    (∃ pieces, [','].intercalate pieces = text ∧ (∀ piece ∈ pieces, ',' ∉ piece) ∧
      tokens text = pieces.map trim) ∧
    ((∃ lines, read text = .ok lines) ↔ ∀ token ∈ tokens text, ∃ run, IsPiece token run) ∧
    (∀ lines, read text = .ok lines ↔ ∃ runs, List.Forall₂ IsPiece (tokens text) runs ∧
      ∀ line, line ∈ lines ↔ ∃ run ∈ runs, run.1 ≤ line ∧ line ≤ run.2) ∧
    ∀ error, read text = .error error ↔
      ∃ before after, tokens text = before ++ error.token :: after ∧
        (∀ token ∈ before, ∃ run, IsPiece token run) ∧ IsNoPiece error.token error.fault := by
  refine ⟨⟨splitAt ',' text, intercalate_splitAt ',' text, fun _ => not_mem_of_mem_splitAt, rfl⟩,
    ⟨?_, ?_⟩, fun lines => ?_, fun error => ?_⟩
  · rintro ⟨lines, hread⟩
    obtain ⟨runs, hruns, -⟩ := read_eq_ok_iff.1 hread
    exact exists_isPiece_of_forall₂ hruns
  · intro hpieces
    rcases exists_runs_or_isFirstMalformed (tokens text) with ⟨runs, hruns⟩ | ⟨error, hfirst⟩
    · exact ⟨covered runs, read_eq_ok_iff.2 ⟨runs, hruns, rfl⟩⟩
    · obtain ⟨hfault, before, after, hsplit, -⟩ := hfirst
      obtain ⟨run, hpiece⟩ := hpieces error.token (hsplit ▸ List.mem_append_cons_self)
      rw [readPiece_of_isPiece hpiece] at hfault
      cases hfault
  · rw [read_eq_ok_iff]
    refine exists_congr fun runs => and_congr_right fun _ => ?_
    constructor
    · rintro rfl line
      exact mem_covered
    · intro hlines
      ext line
      rw [mem_covered, hlines]
  · rw [read_eq_error_iff, IsFirstMalformed, readPiece_eq_error_iff]
    constructor
    · rintro ⟨hfault, before, after, hsplit, hbefore⟩
      exact ⟨before, after, hsplit, hbefore, hfault⟩
    · rintro ⟨before, after, hsplit, hbefore, hfault⟩
      exact ⟨hfault, before, after, hsplit, hbefore⟩

example : read "5-8, 012, 20-21 ".toList = .ok (.ofList [5, 6, 7, 8, 12, 20, 21]) := by
  decide +kernel

example : read "7,9--8,x".toList = .error ⟨"9--8".toList, .notDecimal⟩ := by
  decide

end Untested.LineSet
