/-
# Where a parser stands

A parser never loses its place: what it has still to read is what the text has behind the place
where it stands, and it never goes back behind a place that it has passed.  This is shown here of
whatever moves it on, from single characters to the next token, along with what a word and the
beginning of a string literal look like.
-/

import Mathlib.Data.List.TakeWhile
import Untested.Python.Parse

namespace Untested.Python

/-- A text, and how much of it a parser has read at some time. -/
class Reading where
  source : List Char
  /-- The number of characters that have been read. -/
  passed : Nat

/-- A letter that may stand before the quotation mark of a literal. -/
def isLiteralLetter (c : Char) : Bool :=
  ['f', 'r', 'b', 'u'].contains c.toLower

/-- A literal begins with letters and a quotation mark. -/
structure OpensWith (literal letters : List Char) (mark : Char) : Prop where
  opening : letters ++ [mark] <+: literal
  letters : ∀ c ∈ letters, isLiteralLetter c = true
  mark : Layout.opensString mark = true

/-- All characters may stand inside a word. -/
def IsWord (letters : List Char) : Prop :=
  ∀ c ∈ letters, Text.isIdentifierPart c = true

namespace Reading

variable {reading : Reading} {position : Position} {input : Input}

/-- A parser may stand at an input after what has been read. -/
structure Reaches (reading : Reading) (input : Input) : Prop where
  rest : input.rest = reading.source.drop input.position.offset
  passed : reading.passed ≤ input.position.offset

/-! ## Single characters -/

theorem Reaches.after {c : Char} {rest : List Char}
    (hreaches : reading.Reaches { rest := c :: rest, position }) :
    reading.Reaches { rest, position := position.after c } where
  rest := by
    have hrest : c :: rest = reading.source.drop position.offset := hreaches.rest
    show rest = reading.source.drop (position.offset + 1)
    rw [← List.drop_drop, ← hrest, List.drop_one, List.tail_cons]
  passed := Nat.le_succ_of_le hreaches.passed

theorem Reaches.tail (hreaches : reading.Reaches input) : reading.Reaches input.tail := by
  cases input with
  | mk rest position =>
      cases rest with
      | nil => exact hreaches
      | cons c rest => exact hreaches.after

theorem Reaches.drop (hreaches : reading.Reaches input) (count : Nat) :
    reading.Reaches (input.drop count) := by
  induction count generalizing input with
  | zero => exact hreaches
  | succ count ih => exact ih hreaches.tail

theorem Reaches.dropWhile (hreaches : reading.Reaches input) (condition : Char → Bool) :
    reading.Reaches (input.dropWhile condition) := by
  cases input with
  | mk rest position =>
      rw [Input.dropWhile]
      induction rest generalizing position with
      | nil => exact hreaches
      | cons c rest ih =>
          rw [Input.dropWhile.go]
          split
          · exact ih _ hreaches.after
          · exact hreaches

/-- Nothing has been read yet where the parser begins. -/
theorem Reaches.here (hreaches : reading.Reaches input) :
    Reaches ⟨reading.source, input.position.offset⟩ input :=
  ⟨hreaches.rest, Nat.le_refl _⟩

/-! ## Layout -/

/-- What stands behind blank space is reached.  At the end of the text nothing does. -/
theorem Reaches.gap {skipsComments inComment endsLine : Bool} {indent : Nat}
    {firstComment : Option Nat} {characters : List Char} {gap : Gap}
    (hreaches : reading.Reaches { rest := characters, position })
    (hgap : readGap skipsComments inComment endsLine indent firstComment position characters =
      some gap) (hrest : gap.stop.rest ≠ []) : reading.Reaches gap.stop := by
  fun_induction readGap skipsComments inComment endsLine indent firstComment position characters
  case case1 | case13 =>
    cases hgap
    exact absurd rfl hrest
  case case2 | case3 =>
    rename_i ih
    exact ih hreaches.after.after.after hgap
  case case4 =>
    rename_i ih
    exact ih hreaches.after.after hgap
  case case5 | case6 | case7 | case8 | case9 | case10 | case11 =>
    rename_i ih
    exact ih hreaches.after hgap
  case case12 | case14 => cases hgap
  case case15 =>
    cases hgap
    exact hreaches

end Reading

/-! ## Words -/

theorem isIdentifierPart_of_isIdentifierStart {c : Char}
    (hstart : Text.isIdentifierStart c = true) :
    Text.isIdentifierPart c = true := by
  rw [Text.isIdentifierPart]
  split
  case isTrue hascii =>
    rw [Text.isIdentifierStart, if_pos hascii, Bool.or_eq_true] at hstart
    rw [Char.isAlphanum, Bool.or_assoc, Bool.or_eq_true, Bool.or_eq_true]
    exact hstart.imp_right .inr
  case isFalse => rw [hstart, Bool.true_or]

/-- The letters of a word are those at its beginning and all that may follow them. -/
theorem isWord_cons_takeWhile {c : Char} (hstart : Text.isIdentifierStart c = true)
    (rest : List Char) : IsWord (c :: rest.takeWhile Text.isIdentifierPart) :=
  List.forall_mem_cons.2
    ⟨isIdentifierPart_of_isIdentifierStart hstart, fun _ => List.mem_takeWhile_imp⟩

theorem IsWord.newline_not_mem {letters : List Char} (hword : IsWord letters) :
    '\n' ∉ letters := fun hmem =>
  absurd (hword '\n' hmem) (by decide +kernel)

/-! ## The beginning of a literal -/

theorem OpensWith.cons {c mark : Char} {rest letters : List Char}
    (hletter : isLiteralLetter c = true) (hopens : OpensWith rest letters mark) :
    OpensWith (c :: rest) (c :: letters) mark where
  opening := List.cons_prefix_cons.2 ⟨rfl, hopens.opening⟩
  letters := List.forall_mem_cons.2 ⟨hletter, hopens.letters⟩
  mark := hopens.mark

theorem OpensWith.of_mark {mark : Char} (rest : List Char)
    (hmark : Layout.opensString mark = true) : OpensWith (mark :: rest) [] mark where
  opening := List.cons_prefix_cons.2 ⟨rfl, List.nil_prefix⟩
  letters := by simp
  mark := hmark

/-- Between two places stand the letters and the first quotation mark of a literal, if not more of
it. -/
def BeginsLiteral (source : List Char) (start stop : Input) : Prop :=
  ∃ letters mark, OpensWith start.rest letters mark ∧
    Reading.Reaches ⟨source, start.position.offset + letters.length + 1⟩ stop

section

variable {source rest : List Char} {position : Position} {c : Char} {stop : Input}

theorem BeginsLiteral.cons (hletter : isLiteralLetter c = true)
    (hbegins : BeginsLiteral source { rest, position := position.after c } stop) :
    BeginsLiteral source { rest := c :: rest, position } stop := by
  obtain ⟨letters, mark, hopens, hrest, hpassed⟩ := hbegins
  refine ⟨c :: letters, mark, hopens.cons hletter, hrest, ?_⟩
  simp only [Position.after, List.length_cons] at hpassed ⊢
  omega

theorem BeginsLiteral.of_mark (hmark : Layout.opensString c = true)
    (hreaches : Reading.Reaches ⟨source, position.offset + 1⟩ stop) :
    BeginsLiteral source { rest := c :: rest, position } stop :=
  ⟨[], c, .of_mark rest hmark, hreaches⟩

end

/-- Where a literal is found to begin, one begins. -/
theorem beginsLiteral_of_readStringStart {source : List Char} {delimiter opened : Delimiter}
    {start stop : Input}
    (hreaches : Reading.Reaches ⟨source, start.position.offset⟩ start)
    (hopened : readStringStart delimiter start = some (opened, stop)) :
    BeginsLiteral source start stop := by
  cases start with
  | mk rest position =>
      rw [readStringStart] at hopened
      fun_induction readStringStart.go delimiter position rest
      case case1 | case10 => cases hopened
      case case2 hletter ih | case3 hletter ih | case4 hletter ih | case5 hletter ih =>
        refine .cons ?_ (ih hreaches.after.here hopened)
        rw [Bool.or_eq_true, decide_eq_true_eq, decide_eq_true_eq] at hletter
        rcases hletter with rfl | rfl <;> rfl
      case case6 =>
        cases hopened
        exact .of_mark rfl hreaches.after.here
      case case7 hmark _ _ _ _ =>
        cases hopened
        refine .of_mark ?_ hreaches.after.here.after.after
        rw [Bool.or_eq_true, decide_eq_true_eq, decide_eq_true_eq] at hmark
        rcases hmark with rfl | rfl <;> rfl
      case case8 hmark _ _ _ _ | case9 hmark _ =>
        cases hopened
        refine .of_mark ?_ hreaches.after.here
        rw [Bool.or_eq_true, decide_eq_true_eq, decide_eq_true_eq] at hmark
        rcases hmark with rfl | rfl <;> rfl

/-! ## Tokens -/

section

variable {reading : Reading} {input start stop : Input}

theorem Reading.Reaches.beginsLiteral {delimiter opened : Delimiter}
    (hreaches : reading.Reaches start)
    (hopened : readStringStart delimiter start = some (opened, stop)) :
    BeginsLiteral reading.source start stop :=
  beginsLiteral_of_readStringStart hreaches.here hopened

/-- There is more of the text where a literal begins. -/
theorem rest_ne_nil_of_readStringStart {delimiter opened : Delimiter}
    (hopened : readStringStart delimiter start = some (opened, stop)) : start.rest ≠ [] := by
  intro hnil
  rw [readStringStart, hnil, readStringStart.go] at hopened
  cases hopened

/-- A layout token is found where the parser stands or behind the blank space there. -/
theorem Reading.Reaches.scan {expected : Expected} {layout after : Layout} {token : LayoutToken}
    (hreaches : reading.Reaches input)
    (hscan : layout.scan expected input = some (token, start, stop, after)) :
    reading.Reaches start ∧ (token = .stringStart → BeginsLiteral reading.source start stop) := by
  rw [Layout.scan, Option.bind_eq_bind, Option.bind_eq_some_iff] at hscan
  obtain ⟨gap, hgap, hscan⟩ := hscan
  dsimp only at hscan
  split at hscan
  · cases hscan
    exact ⟨hreaches, nofun⟩
  · split at hscan
    · cases hscan
      exact ⟨hreaches, nofun⟩
    · split at hscan
      · cases hscan
        exact ⟨hreaches, nofun⟩
      · split at hscan
        · rw [Option.bind_eq_bind, Option.bind_eq_some_iff] at hscan
          obtain ⟨⟨delimiter, stop⟩, hopened, hscan⟩ := hscan
          cases hscan
          have hstart := hreaches.gap hgap (rest_ne_nil_of_readStringStart hopened)
          exact ⟨hstart, fun _ => hstart.beginsLiteral hopened⟩
        · cases hscan

/-- A piece of a literal may end where the parser stands. -/
theorem Reading.Reaches.piece {hasContent : Bool} {token : StringToken}
    (hreaches : reading.Reaches input)
    (hpiece : (if hasContent = true then some (StringToken.content, input) else none) =
      some (token, stop)) : reading.Reaches stop := by
  cases hasContent with
  | false => cases hpiece
  | true =>
      cases hpiece
      exact hreaches

/-- A piece of a literal ends where the parser stands or behind that. -/
theorem Reading.Reaches.content {delimiter : Delimiter} {passed : Passed} {hasContent : Bool}
    {position : Position} {characters : List Char} {token : StringToken}
    (hreaches : reading.Reaches { rest := characters, position })
    (hcontent : readContent delimiter passed hasContent position characters = some (token, stop)) :
    reading.Reaches stop := by
  fun_induction readContent delimiter passed hasContent position characters
  case case1 | case7 | case20 => cases hcontent
  case case2 ih | case3 ih | case4 ih | case5 ih | case6 ih | case9 ih | case10 ih | case21 ih =>
    exact ih hreaches.after hcontent
  case case8 | case11 | case12 | case18 => exact hreaches.piece hcontent
  case case13 =>
    cases hcontent
    exact hreaches.after.after.after
  case case14 | case15 =>
    cases hcontent
    exact hreaches.after.after
  case case16 | case17 | case19 =>
    cases hcontent
    exact hreaches.after

theorem Reading.Reaches.scanString {layout after : Layout} {token : StringToken}
    (hreaches : reading.Reaches input)
    (hscan : layout.scanString input = some (token, stop, after)) : reading.Reaches stop := by
  rw [Layout.scanString] at hscan
  split at hscan
  · cases hscan
  · split at hscan
    · cases hscan
    · split at hscan
      · split at hscan
        · cases hscan
          exact hreaches.drop 2
        · cases hscan
      · split at hscan
        case h_1 hcontent =>
          cases hscan
          exact hreaches.content hcontent
        case h_2 hcontent =>
          cases hscan
          exact hreaches.content hcontent
        case h_3 => cases hscan

end

end Untested.Python
