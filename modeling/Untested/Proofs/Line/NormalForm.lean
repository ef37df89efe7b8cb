/-
# Normal forms of line lists

Many lists denote the same lines, and printing these lines picks one of the lists.  It is read
back as the lines that were printed, so it does not change any more when it is read and printed
again, and two lists denote the same lines exactly when they are printed alike.  Only the empty
set is printed as a text that is no list.
-/

import Mathlib.Data.Set.Function
import Untested.Proofs.Line.Pieces

namespace Untested.LineSet

open Text

/-- The list that is printed for the lines of a list. -/
def normalForm (text : List Char) : Except RangeError (List Char) :=
  (read text).map write

/-! ## What lists denote -/

theorem IsPiece.bounds {text : List Char} {run : Nat × Nat} (hpiece : IsPiece text run) :
    run.1 ≤ run.2 ∧ run.2 ≤ maxLine := by
  cases hpiece with
  | line hnumber => exact ⟨Nat.le_refl _, hnumber.le_maxLine⟩
  | range _ hstop hle => exact ⟨hle, hstop.le_maxLine⟩

theorem exists_isPiece_of_mem_runs {pieces : List (List Char)} {runs : List (Nat × Nat)}
    (hruns : List.Forall₂ IsPiece pieces runs) : ∀ run ∈ runs, ∃ piece, IsPiece piece run := by
  have hboth : List.Forall₂ (fun run piece => (∃ other, IsPiece other run) ∧ IsPiece piece run)
      runs pieces := hruns.flip.imp fun _ _ hpiece => ⟨⟨_, hpiece⟩, hpiece⟩
  exact ((List.forall₂_and_left _ _).1 hboth).1

theorem tokens_ne_nil (text : List Char) : tokens text ≠ [] :=
  mt List.map_eq_nil_iff.1 (splitAt_ne_nil ',' text)

/-- Only line numbers are read. -/
theorem le_maxLine_of_read {text : List Char} {lines : LineSet} (hread : read text = .ok lines) :
    ∀ line ∈ lines, line ≤ maxLine := by
  obtain ⟨runs, hruns, rfl⟩ := read_eq_ok_iff.1 hread
  intro line hline
  obtain ⟨run, hrun, -, hstop⟩ := mem_covered.1 hline
  obtain ⟨piece, hpiece⟩ := exists_isPiece_of_mem_runs hruns run hrun
  exact hstop.trans hpiece.bounds.2

/-- Every list that is read has a line in it. -/
theorem ne_empty_of_read {text : List Char} {lines : LineSet} (hread : read text = .ok lines) :
    lines ≠ ∅ := by
  obtain ⟨runs, hruns, rfl⟩ := read_eq_ok_iff.1 hread
  intro hempty
  cases hruns' : runs with
  | nil =>
      rw [hruns', List.forall₂_nil_right_iff] at hruns
      exact tokens_ne_nil text hruns
  | cons run rest =>
      have hrun : run ∈ runs := hruns' ▸ List.mem_cons_self
      obtain ⟨piece, hpiece⟩ := exists_isPiece_of_mem_runs hruns run hrun
      have hmem : run.1 ∈ covered runs :=
        mem_covered.2 ⟨run, hrun, Nat.le_refl _, hpiece.bounds.1⟩
      rw [hempty] at hmem
      exact not_mem_empty _ hmem

/-! ## What is printed -/

theorem write_eq_nil_iff {set : LineSet} : set.write = [] ↔ set = ∅ := by
  constructor
  · intro hwrite
    by_contra hne
    exact writeRuns_ne_nil (runs_ne_nil hne) hwrite
  · rintro rfl
    rfl

/-- Sets of line numbers that are printed alike are the same. -/
theorem injOn_write : Set.InjOn write {set | ∀ line ∈ set, line ≤ maxLine} := by
  intro first hfirst second hsecond hwrite
  by_cases hempty : first = ∅
  · rw [write_eq_nil_iff.2 hempty, eq_comm, write_eq_nil_iff] at hwrite
    rw [hempty, hwrite]
  · have hempty' : second ≠ ∅ := by
      rwa [ne_eq, ← write_eq_nil_iff, ← hwrite, write_eq_nil_iff]
    have hread := read_write hempty hfirst
    rw [hwrite, read_write hempty' hsecond] at hread
    exact (Except.ok.inj hread).symm

/-- The lines of a list are read again from what is printed for them. -/
theorem read_write_of_read {text : List Char} {lines : LineSet} (hread : read text = .ok lines) :
    read lines.write = .ok lines :=
  read_write (ne_empty_of_read hread) (le_maxLine_of_read hread)

/-- Printing and reading sets of line numbers.  A set that is not empty is read back from what is
printed for it, and the empty set is printed as the empty text, the only printed text that is
no list.  So sets that are printed alike are the same.  What is printed for the lines of a list
is a normal form of the list: lists denote the same lines exactly when they have the same normal
form, and a normal form is its own. -/
theorem read_write_normalForm :
    (∀ set : LineSet, (∀ line ∈ set, line ≤ maxLine) →
      (set ≠ ∅ → read set.write = .ok set) ∧
      (set.write = [] ↔ set = ∅) ∧
      ((∃ error, read set.write = .error error) ↔ set.write = [])) ∧
    Set.InjOn write {set | ∀ line ∈ set, line ≤ maxLine} ∧
    (∀ text other lines lines', read text = .ok lines → read other = .ok lines' →
      (lines = lines' ↔ normalForm text = normalForm other)) ∧
    ∀ text form, normalForm text = .ok form → normalForm form = .ok form := by
  refine ⟨fun set hset => ⟨fun hne => read_write hne hset, write_eq_nil_iff, ?_⟩, injOn_write,
    ?_, ?_⟩
  · constructor
    · rintro ⟨error, hread⟩
      by_contra hne
      rw [write_eq_nil_iff] at hne
      rw [read_write hne hset] at hread
      cases hread
    · intro hwrite
      rw [hwrite]
      exact ⟨⟨[], .notDecimal⟩, rfl⟩
  · intro text other lines lines' hread hread'
    rw [normalForm, normalForm, hread, hread']
    constructor
    · rintro rfl
      rfl
    · intro hform
      exact injOn_write (le_maxLine_of_read hread) (le_maxLine_of_read hread')
        (Except.ok.inj hform)
  · intro text form hform
    cases hread : read text with
    | error error =>
        rw [normalForm, hread] at hform
        cases hform
    | ok lines =>
        rw [normalForm, hread] at hform
        obtain rfl := Except.ok.inj hform
        rw [normalForm, read_write_of_read hread]
        rfl

example :
    normalForm "4294967295, 0,007 ,4294967294 - 4294967294".toList =
      .ok "0, 7, 4294967294-4294967295".toList := by
  decide +kernel

end Untested.LineSet
