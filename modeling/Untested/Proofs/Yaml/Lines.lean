/-
# Lines of a source

A stretch of a text in which no line ends stays on its line, so its cells have its characters.
Between tokens a reader passes blanks, comments and ends of lines.
-/

import Mathlib.Data.List.Infix
import Untested.Proofs.Yaml.Opening

namespace Untested.Yaml

/-- The characters of a text with which a line ends. -/
def lineEnds : List Char :=
  ['\n', '\r', '\u0085', '\u2028', '\u2029']

/-- A stretch of a text in which no line ends. -/
def IsLineText (text : List Char) : Prop :=
  ∀ c ∈ text, c ∉ lineEnds

/-- The place a number of characters further on the line. -/
def Mark.along (mark : Mark) (count : Nat) : Mark :=
  ⟨mark.index + count, mark.line, mark.column + count⟩

variable {mark : Mark} {c : Char} {text front rest : List Char}

theorem isBreak_of_not_mem_lineEnds (hc : c ∉ lineEnds) : isBreak c = false := by
  simp only [lineEnds, List.mem_cons, List.not_mem_nil, or_false, not_or] at hc
  simp [isBreak, hc]

theorem cellsFrom_cons (hc : c ∉ lineEnds) :
    cellsFrom mark (c :: rest) = ⟨c, mark⟩ :: cellsFrom (mark.along 1) rest := by
  have hbreak := isBreak_of_not_mem_lineEnds hc
  simp only [lineEnds, List.mem_cons, List.not_mem_nil, or_false, not_or] at hc
  have hchar : (if c = '\r' || c = '\u0085' then '\n' else c) = c := by simp [hc]
  have hnext : mark.next c = mark.along 1 := by
    rw [Mark.next, hbreak]
    rfl
  rw [cellsFrom.eq_3 _ _ _ (fun _ hreturn => absurd hreturn hc.2.1), hchar, hnext]

theorem Mark.along_along (mark : Mark) (first second : Nat) :
    (mark.along first).along second = mark.along (first + second) := by
  simp only [along, Nat.add_assoc]

theorem cellsFrom_append (hfront : IsLineText front) (mark : Mark) (rest : List Char) :
    cellsFrom mark (front ++ rest) =
      cellsFrom mark front ++ cellsFrom (mark.along front.length) rest := by
  induction front generalizing mark with
  | nil => rfl
  | cons c front ih =>
      rw [IsLineText, List.forall_mem_cons] at hfront
      rw [List.cons_append, cellsFrom_cons hfront.1, cellsFrom_cons hfront.1, ih hfront.2,
        Mark.along_along, List.cons_append, List.length_cons, Nat.add_comm]

/-- The first cell of a source has the first character of the text, unless a line ends there. -/
theorem eq_cons_of_cellsFrom {cell : Cell} {cells : List Cell}
    (hcells : cellsFrom mark text = cell :: cells) (hcell : isBreak cell.char = false) :
    ∃ rest, text = cell.char :: rest ∧ cell.mark = mark ∧
      cells = cellsFrom (mark.along 1) rest := by
  cases text with
  | nil => cases hcells
  | cons c rest =>
      by_cases hc : c ∈ lineEnds
      · -- An end of a line becomes a cell with an end of a line.
        have hbreak : ∃ end' cells', cellsFrom mark (c :: rest) = end' :: cells' ∧
            isBreak end'.char = true := by
          by_cases hpair : c = '\r' ∧ ∃ behind, rest = '\n' :: behind
          · obtain ⟨rfl, behind, rfl⟩ := hpair
            exact ⟨_, _, rfl, rfl⟩
          · have hunpaired : ∀ behind, c = '\r' → rest = '\n' :: behind → False :=
              fun behind hreturn hbehind => hpair ⟨hreturn, behind, hbehind⟩
            refine ⟨_, _, cellsFrom.eq_3 _ _ _ hunpaired, ?_⟩
            simp only [lineEnds, List.mem_cons, List.not_mem_nil, or_false] at hc
            rcases hc with rfl | rfl | rfl | rfl | rfl <;> rfl
        obtain ⟨end', cells', heq, hend⟩ := hbreak
        obtain ⟨rfl, -⟩ := List.cons.inj (heq.symm.trans hcells)
        rw [hend] at hcell
        cases hcell
      · rw [cellsFrom_cons hc] at hcells
        obtain ⟨rfl, rfl⟩ := List.cons.inj hcells
        exact ⟨rest, rfl, rfl, rfl⟩

/-- A mark of three equal characters stands in the text as it stands in the source. -/
theorem eq_append_of_isThreefold (hmark : isThreefold c (cellsFrom mark text) = true)
    (hc : isBreak c = false) :
    mark.column = 0 ∧ ∃ rest, text = [c, c, c] ++ rest ∧
      isBlankEnd (cellsFrom (mark.along 3) rest) = true := by
  generalize hcells : cellsFrom mark text = cells at hmark
  match cells with
  | [] | [_] | [_, _] => cases hmark
  | first :: second :: third :: behind =>
      simp only [isThreefold, Bool.and_eq_true, decide_eq_true_eq] at hmark
      obtain ⟨⟨⟨⟨hcolumn, hfirst⟩, hsecond⟩, hthird⟩, hblank⟩ := hmark
      obtain ⟨text, rfl, hplace, hcells⟩ := eq_cons_of_cellsFrom hcells (hfirst ▸ hc)
      obtain ⟨text, rfl, -, hcells⟩ := eq_cons_of_cellsFrom hcells.symm (hsecond ▸ hc)
      obtain ⟨text, rfl, -, rfl⟩ := eq_cons_of_cellsFrom hcells.symm (hthird ▸ hc)
      rw [hfirst, hsecond, hthird]
      exact ⟨hplace ▸ hcolumn, text, rfl, hblank⟩

theorem char_of_mem_cellsFrom (hfront : IsLineText front) (mark : Mark) :
    ∀ cell ∈ cellsFrom mark front, cell.char ∈ front ∧ cell.mark.line = mark.line := by
  induction front generalizing mark with
  | nil => nofun
  | cons c front ih =>
      rw [IsLineText, List.forall_mem_cons] at hfront
      rw [cellsFrom_cons hfront.1, List.forall_mem_cons]
      refine ⟨⟨List.mem_cons_self, rfl⟩, ?_⟩
      intro cell hcell
      obtain ⟨hchar, hline⟩ := ih hfront.2 _ cell hcell
      exact ⟨List.mem_cons_of_mem c hchar, hline⟩

theorem Mark.line_le_next (mark : Mark) (c : Char) : mark.line ≤ (mark.next c).line := by
  rw [next]
  split
  · exact Nat.le_succ _
  · exact Nat.le_refl _

/-- Places come in the order of the text. -/
theorem line_le_of_mem_cellsFrom (mark : Mark) (text : List Char) :
    ∀ cell ∈ cellsFrom mark text, mark.line ≤ cell.mark.line := by
  induction mark, text using cellsFrom.induct with
  | case1 mark => nofun
  | case2 mark rest afterReturn ih =>
      rw [cellsFrom, List.forall_mem_cons]
      refine ⟨Nat.le_refl _, ?_⟩
      intro cell hcell
      exact (Mark.line_le_next afterReturn '\n').trans (ih cell hcell)
  | case3 mark c rest hreturn c' ih =>
      rw [cellsFrom.eq_3 _ _ _ hreturn, List.forall_mem_cons]
      refine ⟨Nat.le_refl _, ?_⟩
      intro cell hcell
      exact (Mark.line_le_next mark _).trans (ih cell hcell)

/-! ## Colons -/

/-- Whether a line has a colon with blank space or the end of the line behind it. -/
def hasKeyMark : List Char → Bool
  | [] => false
  | c :: rest => c = ':' && rest.head?.all ([' ', '\t', '\r'].contains ·) || hasKeyMark rest

theorem hasKeyMark_of_append (front rest : List Char) (hmark : hasKeyMark (front ++ rest) = false) :
    hasKeyMark rest = false := by
  induction front with
  | nil => exact hmark
  | cons c front ih =>
      rw [List.cons_append, hasKeyMark, Bool.or_eq_false_iff] at hmark
      exact ih hmark.2

/-- A text whose lines all end in the common ways. -/
def HasCommonEnds (text : List Char) : Prop :=
  ∀ c ∈ text, c ∉ ['\u0085', '\u2028', '\u2029']

instance (text : List Char) : Decidable (HasCommonEnds text) :=
  List.decidableBAll (fun c => c ∉ ['\u0085', '\u2028', '\u2029']) text

/-- An end of a line has nothing of its line behind it. -/
theorem clear_cons_of_isBreak {cell : Cell} (hcell : isBreak cell.char = true)
    (rest : List Char) (start : Mark) (hstart : start.line = cell.mark.line) :
    Clear cell.mark.line (cell :: cellsFrom (start.next cell.char) rest) := by
  intro colon behind hcolon hchar _
  rcases List.suffix_cons_iff.1 hcolon with heq | hcolon
  · obtain ⟨rfl, rfl⟩ := List.cons.inj heq
    rw [hchar] at hcell
    exact absurd hcell (by decide)
  · have hline := line_le_of_mem_cellsFrom _ _ colon (hcolon.subset List.mem_cons_self)
    rw [Mark.next, if_pos hcell] at hline
    exact Nat.lt_of_lt_of_le (hstart ▸ Nat.lt_succ_self _) hline

theorem isBlankEnd_cellsFrom (mark : Mark) (rest : List Char) (hends : HasCommonEnds rest)
    (hblank : isBlankEnd (cellsFrom mark rest) = true) :
    (rest.takeWhile (· ≠ '\n')).head?.all ([' ', '\t', '\r'].contains ·) = true := by
  cases rest with
  | nil => rfl
  | cons c rest =>
      rw [HasCommonEnds, List.forall_mem_cons] at hends
      by_cases hfeed : c = '\n'
      · simp [hfeed]
      · by_cases hreturn : c = '\r'
        · simp [hreturn]
        · have hc : c ∉ lineEnds := by
            simpa [lineEnds, hfeed, hreturn] using hends.1
          rw [cellsFrom_cons hc, isBlankEnd, isBreak_of_not_mem_lineEnds hc, Bool.or_false, isGap,
            Bool.or_eq_true, decide_eq_true_eq, decide_eq_true_eq] at hblank
          rcases hblank with rfl | rfl <;> rfl

/-- A text has no key on its first line if no colon there has blank space behind it. -/
theorem clear_cellsFrom (mark : Mark) (text : List Char) (hends : HasCommonEnds text)
    (hmark : hasKeyMark (text.takeWhile (· ≠ '\n')) = false) :
    Clear mark.line (cellsFrom mark text) := by
  induction text generalizing mark with
  | nil => exact fun cell rest hcell => absurd hcell.length_le (by simp [cellsFrom])
  | cons c rest ih =>
      rw [HasCommonEnds, List.forall_mem_cons] at hends
      by_cases hfeed : c = '\n'
      · subst hfeed
        exact clear_cons_of_isBreak rfl rest mark rfl
      · by_cases hreturn : c = '\r'
        · subst hreturn
          by_cases hpair : ∃ behind, rest = '\n' :: behind
          · obtain ⟨behind, rfl⟩ := hpair
            exact clear_cons_of_isBreak rfl behind { mark with index := mark.index + 1 } rfl
          · have hcells : cellsFrom mark ('\r' :: rest) =
                ⟨'\n', mark⟩ :: cellsFrom (mark.next '\n') rest :=
              cellsFrom.eq_3 _ _ _ fun behind _ hbehind => hpair ⟨behind, hbehind⟩
            rw [hcells]
            exact clear_cons_of_isBreak rfl rest mark rfl
        · have hc : c ∉ lineEnds := by
            simpa [lineEnds, hfeed, hreturn] using hends.1
          rw [List.takeWhile_cons_of_pos (by simpa using hfeed), hasKeyMark,
            Bool.or_eq_false_iff] at hmark
          rw [cellsFrom_cons hc]
          intro colon behind hcolon hchar hblank
          rcases List.suffix_cons_iff.1 hcolon with heq | hcolon
          · obtain ⟨rfl, rfl⟩ := List.cons.inj heq
            have hc : c = ':' := hchar
            rw [hc, isBlankEnd_cellsFrom _ _ hends.2 hblank] at hmark
            exact absurd hmark.1 (by decide)
          · exact ih (mark.along 1) hends.2 hmark.2 colon behind hcolon hchar hblank

/-! ## Between tokens -/

namespace Scan

variable {cells rest : List Cell} {isKeyAllowed : Bool}

theorem nextToken_blanks {front : List Cell}
    (hfront : ∀ cell ∈ front, cell.char = ' ' ∨ cell.char = '\t' ∧ isKeyAllowed = false) :
    nextToken false isKeyAllowed false (front ++ rest) =
      nextToken false isKeyAllowed false rest := by
  induction front with
  | nil => rfl
  | cons cell front ih =>
      rw [List.forall_mem_cons] at hfront
      rw [List.cons_append, nextToken, ← ih hfront.2]
      rcases hfront.1 with hcell | ⟨hcell, rfl⟩
      · simp [hcell, isBreak]
      · simp [hcell, isBreak]

theorem nextToken_comment {front : List Cell} (hfront : ∀ cell ∈ front, isBreak cell.char = false) :
    nextToken false isKeyAllowed true (front ++ rest) = nextToken false isKeyAllowed true rest := by
  induction front with
  | nil => rfl
  | cons cell front ih =>
      rw [List.forall_mem_cons] at hfront
      rw [List.cons_append, nextToken, hfront.1, ← ih hfront.2]
      rfl

theorem nextToken_break {cell : Cell} (hcell : isBreak cell.char = true) (isComment : Bool) :
    nextToken false isKeyAllowed isComment (cell :: rest) = nextToken false true false rest := by
  rw [nextToken, if_pos hcell, Bool.not_false, Bool.or_true]

end Scan

end Untested.Yaml
