/-
# Tables decoded before they are read

A table may be decoded as a whole, with a mark in place of whatever encodes no character, and
then be read as a text.  The lines of that text are those of the table, each decoded by itself,
because a line feed is a character wherever it stands.  So as long as the table is not refused for
bytes that are no text, the outcome is the same; behind the line where reading stops there may be
such bytes all the same.
-/

import Untested.Proofs.Coverage.Table
import Untested.Proofs.Text.Lenient

namespace Untested.CoverageTable

open Text

/-! ## Lines of bytes -/

/-- Decoding leaves a carriage return at the end of a line where it is, and makes none. -/
theorem withoutReturn_repaired (line : List UInt8) :
    withoutReturn (repaired line) = repaired (withoutReturn line) := by
  by_cases hlast : line.getLast? = some 0x0D
  · obtain ⟨front, rfl⟩ := List.getLast?_eq_some_iff.1 hlast
    rw [withoutReturn_concat, repaired_append_cons (by decide), repaired_eq_nil_iff.2 rfl,
      withoutReturn_concat]
  · have hlast' : (repaired line).getLast? ≠ some 0x0D :=
      fun heq => hlast ((getLast?_repaired_iff (by decide) (by decide)).1 heq)
    rw [withoutReturn, if_neg hlast', withoutReturn, if_neg hlast]

/-- The lines of the decoded table are those of the table, each decoded by itself. -/
theorem byteLines_repaired (bytes : List UInt8) :
    byteLines (repaired bytes) = (byteLines bytes).map repaired := by
  have hnone {line : List UInt8} (hline : 0x0A ∉ line) : 0x0A ∉ repaired line :=
    fun hmem => hline (mem_of_mem_repaired (by decide) (by decide) hmem)
  induction hlength : bytes.length using Nat.strongRecOn generalizing bytes with
  | ind length ih =>
      by_cases hfeed : (0x0A : UInt8) ∈ bytes
      · obtain ⟨line, rest, rfl, hline⟩ := List.eq_append_cons_of_mem hfeed
        have hshorter : rest.length < length := by
          rw [List.length_append, List.length_cons] at hlength
          omega
        rw [repaired_append_cons (by decide), byteLines_append_lineFeed (hnone hline),
          byteLines_append_lineFeed hline, withoutReturn_repaired, ih _ hshorter rest rfl,
          List.map_cons]
      · by_cases hnil : bytes = []
        · rw [hnil, repaired_eq_nil_iff.2 rfl]
          rfl
        · rw [byteLines_of_not_mem (hnone hfeed) (mt repaired_eq_nil_iff.1 hnil),
            byteLines_of_not_mem hfeed hnil, List.map_singleton]

/-! ## Tables -/

/-- Bytes are not refused for being no text. -/
def NotRefused {α : Type} (result : Except Fault α) : Prop :=
  ∀ path cause, result ≠ .error (.io path cause)

/-- A line that is not refused is a text, and decoding it beforehand changes nothing. -/
theorem exists_decodeLine_of_bind {α : Type} {line : List UInt8} {next : List Char → Except Fault α}
    (hread : NotRefused (decodeLine line >>= next)) :
    ∃ text, decodeLine line = .ok text ∧ decodeLine (repaired line) = .ok text := by
  cases hdecode : decode? line with
  | none =>
      rw [decodeLine, hdecode] at hread
      exact absurd rfl (hread streamName notText)
  | some text =>
      refine ⟨text, by rw [decodeLine, hdecode], ?_⟩
      rw [decodeLine, decode?_repaired, decodeLenient_of_decode? hdecode]

theorem readRows_map_repaired {lines : List (List UInt8)} {report : CoverageReport}
    (hread : NotRefused (readRows report lines)) :
    readRows report (lines.map repaired) = readRows report lines := by
  induction lines generalizing report with
  | nil => rfl
  | cons line rest ih =>
      rw [readRows] at hread
      obtain ⟨text, hline, hline'⟩ := exists_decodeLine_of_bind hread
      rw [List.map_cons, readRows, readRows, hline, hline']
      rw [hline] at hread
      simp only [bind, Except.bind] at hread ⊢
      split
      · rfl
      · rename_i hends
        rw [if_neg hends] at hread
        cases hrow : readRow text with
        | error fault => rfl
        | ok entry =>
            rw [hrow] at hread
            cases entry with
            | none => exact ih hread
            | some entry => exact ih hread

/-- Unless a table is refused for bytes that are no text, decoding all of it beforehand gives the
same report or the same fault, whatever stands behind the line where reading stops. -/
theorem read_repaired {bytes : List UInt8} (hread : NotRefused (read bytes)) :
    read (repaired bytes) = read bytes := by
  rw [read] at hread
  rw [read, read, byteLines_repaired]
  generalize byteLines bytes = lines at hread ⊢
  cases lines with
  | nil => rfl
  | cons header rest =>
      obtain ⟨text, hheader, hheader'⟩ := exists_decodeLine_of_bind hread
      rw [List.map_cons]
      dsimp only at hread ⊢
      rw [hheader, hheader']
      rw [hheader] at hread
      cases rest with
      | nil => rfl
      | cons second rows =>
          obtain ⟨rule, hsecond, hsecond'⟩ := exists_decodeLine_of_bind hread
          rw [List.map_cons]
          dsimp only at hread ⊢
          rw [hsecond, hsecond']
          rw [hsecond] at hread
          simp only [bind, Except.bind] at hread ⊢
          split
          · rfl
          · rename_i hrule
            rw [if_neg hrule] at hread
            exact readRows_map_repaired hread

end Untested.CoverageTable
