/-
# Both kinds of line ends

A table may end its lines with line feeds alone or with a carriage return before each line feed.
Reading takes one carriage return off a line, so with the second kind of line ends every line is
shown to the reader as it stands, and with the first kind possibly without a carriage return at
its end.  That makes no difference: a carriage return at the end of a line is a blank, which
neither begins a line of dashes nor shows in a trimmed row, and no text gains or loses its
meaning as bytes by it.
-/

import Untested.Proofs.Coverage.Table
import Untested.Proofs.Text.Lenient

namespace Untested.CoverageTable

open Text

/-- The bytes with a carriage return put in front of every line feed. -/
def withReturns (bytes : List UInt8) : List UInt8 :=
  bytes.flatMap fun byte => if byte = 0x0A then [0x0D, 0x0A] else [byte]

theorem withReturns_cons (byte : UInt8) (rest : List UInt8) :
    withReturns (byte :: rest) =
      (if byte = 0x0A then [0x0D, 0x0A] else [byte]) ++ withReturns rest :=
  List.flatMap_cons

/-! ## Lines of bytes -/

/-- A line of bytes as it is, or with a carriage return at its end. -/
inductive MayReturn : List UInt8 → List UInt8 → Prop
  | same (line : List UInt8) : MayReturn line line
  | returned (line : List UInt8) : MayReturn line (line ++ [0x0D])

theorem mayReturn_withoutReturn (line : List UInt8) : MayReturn (withoutReturn line) line := by
  rw [withoutReturn]
  split
  · rename_i hlast
    obtain ⟨front, rfl⟩ := List.getLast?_eq_some_iff.1 hlast
    rw [List.dropLast_concat]
    exact .returned front
  · exact .same line

/-- Carriage returns before the line feeds leave each line as it is, or put one at its end. -/
theorem forall₂_byteLines_withReturns (bytes : List UInt8) :
    List.Forall₂ MayReturn (byteLines bytes) (byteLines (withReturns bytes)) := by
  have general (before : List UInt8) :
      List.Forall₂ MayReturn (byteLines.go before bytes)
        (byteLines.go before (withReturns bytes)) := by
    induction bytes generalizing before with
    | nil =>
        rw [withReturns, List.flatMap_nil, byteLines.go]
        split
        · exact .nil
        · exact .cons (.same _) .nil
    | cons byte rest ih =>
        rw [withReturns_cons, byteLines.go]
        split
        · -- the carriage return put in is the one that is taken off again
          rw [List.cons_append, List.singleton_append, byteLines.go, if_neg (by decide),
            byteLines.go, if_pos rfl, List.reverse_cons, withoutReturn_concat]
          exact .cons (mayReturn_withoutReturn _) (ih [])
        · rename_i hbyte
          rw [List.singleton_append, byteLines.go, if_neg hbyte]
          exact ih (byte :: before)
  exact general []

/-! ## One line -/

/-- A carriage return at the end of the bytes of a line is one at the end of the line. -/
theorem decode?_mayReturn {line other : List UInt8} (hline : MayReturn line other) :
    decode? line = none ∧ decode? other = none ∨
      ∃ shown printed, IsShown printed shown ∧
        decode? line = some shown ∧ decode? other = some printed := by
  cases hdecode : decode? line with
  | none =>
      refine .inl ⟨rfl, ?_⟩
      cases hline with
      | same => exact hdecode
      | returned => rw [decode?_concat (by decide), hdecode, Option.map_none]
  | some shown =>
      refine .inr ⟨shown, ?_⟩
      cases hline with
      | same => exact ⟨shown, .whole shown, rfl, hdecode⟩
      | returned =>
          refine ⟨shown ++ ['\r'], .withoutReturn shown, rfl, ?_⟩
          rw [decode?_concat (by decide), hdecode]
          rfl

theorem readRow_of_isShown {line shown : List Char} (hshown : IsShown line shown) :
    readRow shown = readRow line := by
  cases hshown with
  | whole => rfl
  | withoutReturn =>
      have hgap : IsGap ['\r'] := by decide
      rw [readRow, readRow, trim_append_of_isGap hgap]

/-! ## Tables -/

theorem readRows_mayReturn {lines others : List (List UInt8)}
    (hlines : List.Forall₂ MayReturn lines others) (report : CoverageReport) :
    readRows report others = readRows report lines := by
  induction hlines generalizing report with
  | nil => rfl
  | cons hline _ ih =>
      simp only [readRows, decodeLine]
      rcases decode?_mayReturn hline with ⟨hnone, hnone'⟩ | ⟨shown, printed, hshown, hsome, hsome'⟩
      · rw [hnone, hnone']
        rfl
      · simp only [hsome, hsome', bind, Except.bind, endsRows_of_isShown hshown,
          readRow_of_isShown hshown, ih]

/-- Reading a table does not depend on the kind of its line ends, whatever bytes it is made of:
the report is the same, or the fault is. -/
theorem read_withReturns (bytes : List UInt8) : read (withReturns bytes) = read bytes := by
  have hlines := forall₂_byteLines_withReturns bytes
  rw [read, read]
  revert hlines
  generalize byteLines bytes = lines
  generalize byteLines (withReturns bytes) = others
  intro hlines
  cases hlines with
  | nil => rfl
  | cons hheader hlines =>
      dsimp only
      rw [decodeLine, decodeLine]
      rcases decode?_mayReturn hheader with ⟨hnone, hnone'⟩ | ⟨_, _, _, hsome, hsome'⟩
      · rw [hnone, hnone']
        rfl
      · rw [hsome, hsome']
        cases hlines with
        | nil => rfl
        | cons hsecond hrows =>
            dsimp only
            rw [decodeLine, decodeLine]
            rcases decode?_mayReturn hsecond with
              ⟨hnone, hnone'⟩ | ⟨shown, printed, hshown, hsecond, hsecond'⟩
            · rw [hnone, hnone']
              rfl
            · simp only [hsecond, hsecond', bind, Except.bind, isRule_of_isShown hshown,
                readRows_mayReturn hrows]

/-- A carriage return that a line has already stays where it is. -/
example :
    withReturns (encode "Name\r\n----\na.py 3 2 33% 1-2\r") =
      encode "Name\r\r\n----\r\na.py 3 2 33% 1-2\r" := by
  decide +kernel

end Untested.CoverageTable
