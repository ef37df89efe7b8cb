/-
# Runs are maximal

The runs of a set are listed in ascending order, and between two of them at least one line is
missing from the set.  No other runs have the same lines: the first one has to begin with the
least line of the set and to go on as long as there is a next line, and what remains is a smaller
set.

Runs may also be collected in the order of the lines, with the last one left open: a line right
behind it goes into it, and any other line opens a run of its own.  Behind the greatest line
number there is none, so a run that has come so far stays as it is.
-/

import Mathlib.Data.List.Chain
import Untested.Proofs.Line.Pieces

namespace Untested.LineSet

/-- At least one line lies between two runs. -/
def HasGap (earlier later : Nat × Nat) : Prop :=
  earlier.2 + 1 < later.1

/-- Runs that have all lines of a set and no others, in ascending order, and of which no two can be
joined. -/
structure IsDecomposition (set : LineSet) (runs : List (Nat × Nat)) : Prop where
  ordered : ∀ run ∈ runs, run.1 ≤ run.2
  apart : runs.IsChain HasGap
  covers : ∀ line, line ∈ set ↔ ∃ run ∈ runs, run.1 ≤ line ∧ line ≤ run.2

/-! ## The runs of a set -/

/-- A line in front of some runs keeps them apart. -/
theorem isChain_consRun {line : Nat} {runs : List (Nat × Nat)} (hruns : runs.IsChain HasGap)
    (hline : ∀ run ∈ runs.head?, line < run.1) : (consRun line runs).IsChain HasGap := by
  cases runs with
  | nil => exact .singleton _
  | cons first runs =>
      obtain ⟨start, stop⟩ := first
      have hlt : line < start := hline (start, stop) rfl
      rw [consRun]
      split
      · refine hruns.imp_head ?_
        exact id
      · rename_i hnext
        refine hruns.cons fun run hrun => ?_
        obtain rfl : (start, stop) = run := Option.some.inj hrun
        show line + 1 < start
        omega

theorem isChain_foldr_consRun {lines : List Nat} (ascending : lines.Pairwise (· < ·)) :
    (lines.foldr consRun []).IsChain HasGap := by
  induction lines with
  | nil => exact .nil
  | cons line lines ih =>
      rw [List.pairwise_cons] at ascending
      refine isChain_consRun (ih ascending.2) fun run hrun => ascending.1 run.1 ?_
      -- a run starts with one of the lines that it was made from
      have hmem := List.mem_of_mem_head? hrun
      have hstart : run.1 ∈ covered (lines.foldr consRun []) :=
        mem_covered.2 ⟨run, hmem, Nat.le_refl _, (foldr_consRun_bounds lines run hmem).1⟩
      rwa [show lines.foldr consRun [] = runs ⟨lines, ascending.2⟩ from rfl, covered_runs] at hstart

theorem isDecomposition_runs (set : LineSet) : set.IsDecomposition set.runs where
  ordered run hrun := (foldr_consRun_bounds set.lines run hrun).1
  apart := isChain_foldr_consRun set.ascending
  covers line := by rw [← mem_covered, covered_runs]

/-! ## There are no others -/

namespace IsDecomposition

variable {set : LineSet} {line start stop stop' : Nat} {runs runs' : List (Nat × Nat)}

theorem covered_eq (hset : set.IsDecomposition runs) : covered runs = set := by
  ext line
  rw [mem_covered, hset.covers]

theorem tail (hset : set.IsDecomposition ((start, stop) :: runs)) :
    (covered runs).IsDecomposition runs where
  ordered run hrun := hset.ordered run (List.mem_cons_of_mem _ hrun)
  apart := hset.apart.tail
  covers _ := mem_covered

/-- The lines of the later runs lie behind the first run, with a gap. -/
theorem lt_of_mem_covered (hset : set.IsDecomposition ((start, stop) :: runs))
    (hline : line ∈ covered runs) : stop + 1 < line := by
  induction runs generalizing set start stop with
  | nil => exact absurd hline (not_mem_empty line)
  | cons next runs ih =>
      have hgap : stop + 1 < next.1 := (List.isChain_cons_cons.1 hset.apart).1
      have hordered : next.1 ≤ next.2 := hset.tail.ordered next List.mem_cons_self
      rw [covered_cons, mem_union, mem_interval] at hline
      rcases hline with hline | hline
      · omega
      · have := ih hset.tail hline
        omega

theorem mem_iff (hset : set.IsDecomposition ((start, stop) :: runs)) :
    line ∈ set ↔ start ≤ line ∧ line ≤ stop ∨ line ∈ covered runs := by
  rw [hset.covers, mem_covered, List.exists_mem_cons_iff]

theorem mem_covered_iff (hset : set.IsDecomposition ((start, stop) :: runs)) :
    line ∈ covered runs ↔ line ∈ set ∧ stop < line := by
  rw [hset.mem_iff]
  constructor
  · intro hline
    have := hset.lt_of_mem_covered hline
    exact ⟨.inr hline, by omega⟩
  · rintro ⟨⟨-, hle⟩ | hline, hlt⟩
    · omega
    · exact hline

theorem start_le_stop (hset : set.IsDecomposition ((start, stop) :: runs)) : start ≤ stop :=
  hset.ordered (start, stop) List.mem_cons_self

/-- The first run begins with a line of the set. -/
theorem start_mem (hset : set.IsDecomposition ((start, stop) :: runs)) : start ∈ set :=
  hset.mem_iff.2 (.inl ⟨Nat.le_refl _, hset.start_le_stop⟩)

/-- The first run begins with the least line. -/
theorem start_le (hset : set.IsDecomposition ((start, stop) :: runs)) (hline : line ∈ set) :
    start ≤ line := by
  rcases hset.mem_iff.1 hline with ⟨hle, -⟩ | hline
  · exact hle
  · have := hset.lt_of_mem_covered hline
    have := hset.start_le_stop
    omega

/-- The first run goes on as long as there is a next line. -/
theorem stop_le (hset : set.IsDecomposition ((start, stop) :: runs))
    (hset' : set.IsDecomposition ((start, stop') :: runs')) : stop' ≤ stop := by
  by_contra hlt
  have hstart := hset.start_le_stop
  have hnext : stop + 1 ∈ set := hset'.mem_iff.2 (.inl ⟨by omega, by omega⟩)
  rcases hset.mem_iff.1 hnext with ⟨-, hle⟩ | hline
  · omega
  · exact absurd (hset.lt_of_mem_covered hline) (Nat.lt_irrefl _)

/-- A set has one decomposition at most. -/
theorem eq (hset : set.IsDecomposition runs) (hset' : set.IsDecomposition runs') :
    runs = runs' := by
  induction runs generalizing set runs' with
  | nil =>
      cases runs' with
      | nil => rfl
      | cons first runs' =>
          have hmem := hset'.start_mem
          rw [← hset.covered_eq] at hmem
          exact absurd hmem (not_mem_empty _)
  | cons first runs ih =>
      cases runs' with
      | nil =>
          have hmem := hset.start_mem
          rw [← hset'.covered_eq] at hmem
          exact absurd hmem (not_mem_empty _)
      | cons first' runs' =>
          obtain ⟨start, stop⟩ := first
          obtain ⟨start', stop'⟩ := first'
          obtain rfl : start = start' :=
            Nat.le_antisymm (hset.start_le hset'.start_mem) (hset'.start_le hset.start_mem)
          obtain rfl : stop = stop' := Nat.le_antisymm (hset'.stop_le hset) (hset.stop_le hset')
          have hrest : covered runs = covered runs' := by
            ext line
            rw [hset.mem_covered_iff, hset'.mem_covered_iff]
          rw [ih hset.tail (hrest ▸ hset'.tail)]

end IsDecomposition

/-! ## Runs in the order of the lines -/

/-- The line behind another one, when it has a number. -/
def following? (line : Nat) : Option Nat :=
  if line < maxLine then some (line + 1) else none

/-- Adds a line behind the runs before it: it extends the last run when it is the line behind that
run, and otherwise starts a run of its own. -/
def appendRun (runs : List (Nat × Nat)) (line : Nat) : List (Nat × Nat) :=
  match runs.getLast? with
  | some (start, stop) =>
    if following? stop = some line then runs.dropLast ++ [(start, line)]
    else runs ++ [(line, line)]
  | none => [(line, line)]

theorem following?_eq_some_iff {line next : Nat} (hnext : next ≤ maxLine) :
    following? line = some next ↔ next = line + 1 := by
  rw [following?]
  split
  · rw [Option.some.injEq, eq_comm]
  · rename_i hmax
    refine iff_of_false (by simp) ?_
    omega

theorem appendRun_concat (earlier : List (Nat × Nat)) (start stop : Nat) {line : Nat}
    (hmax : line ≤ maxLine) :
    appendRun (earlier ++ [(start, stop)]) line =
      if line = stop + 1 then earlier ++ [(start, line)]
      else (earlier ++ [(start, stop)]) ++ [(line, line)] := by
  simp [appendRun, following?_eq_some_iff hmax]

theorem mem_covered_concat {runs : List (Nat × Nat)} {start stop line : Nat} :
    line ∈ covered (runs ++ [(start, stop)]) ↔
      line ∈ covered runs ∨ start ≤ line ∧ line ≤ stop := by
  simp only [mem_covered, List.mem_append, List.mem_singleton, or_and_right, exists_or,
    exists_eq_left]

/-- A run goes behind some others when it lies behind them with a gap. -/
theorem IsDecomposition.concat {front set : LineSet} {start stop : Nat} {runs : List (Nat × Nat)}
    (hfront : front.IsDecomposition runs) (hordered : start ≤ stop)
    (hapart : ∀ run ∈ runs.getLast?, run.2 + 1 < start)
    (hset : ∀ line, line ∈ set ↔ line ∈ front ∨ start ≤ line ∧ line ≤ stop) :
    set.IsDecomposition (runs ++ [(start, stop)]) where
  ordered run hrun := by
    rcases List.mem_append.1 hrun with hrun | hrun
    · exact hfront.ordered run hrun
    · rw [List.mem_singleton.1 hrun]
      exact hordered
  apart := by
    refine hfront.apart.append (.singleton _) fun run hrun next hnext => ?_
    obtain rfl : (start, stop) = next := Option.some.inj hnext
    exact hapart run hrun
  covers line := by
    rw [← mem_covered, mem_covered_concat, hset, hfront.covers, mem_covered]

/-- The runs in front of the last one are the runs of the lines in front of it. -/
theorem IsDecomposition.dropLast {set : LineSet} {start stop : Nat} {runs : List (Nat × Nat)}
    (hset : set.IsDecomposition (runs ++ [(start, stop)])) :
    (covered runs).IsDecomposition runs where
  ordered run hrun := hset.ordered run (List.mem_append_left _ hrun)
  apart := hset.apart.left_of_append
  covers _ := mem_covered

/-- One more line, behind all others, goes into the runs. -/
theorem IsDecomposition.appendRun {front set : LineSet} {line : Nat} {runs : List (Nat × Nat)}
    (hfront : front.IsDecomposition runs) (hbehind : ∀ other ∈ front, other < line)
    (hset : ∀ other, other ∈ set ↔ other ∈ front ∨ other = line) (hmax : line ≤ maxLine) :
    set.IsDecomposition (appendRun runs line) := by
  rcases List.eq_nil_or_concat runs with rfl | ⟨earlier, ⟨start, stop⟩, rfl⟩
  · refine hfront.concat (Nat.le_refl line) (by simp) fun other => ?_
    rw [hset]
    exact or_congr_right (by omega)
  · rw [List.concat_eq_append] at *
    have hle : start ≤ stop := hfront.ordered (start, stop) (by simp)
    have hmem (other : Nat) : other ∈ front ↔
        other ∈ covered earlier ∨ start ≤ other ∧ other ≤ stop := by
      rw [hfront.covers, ← mem_covered, mem_covered_concat]
    have hlt : stop < line := hbehind stop ((hmem stop).2 (.inr ⟨hle, Nat.le_refl _⟩))
    have hapart := (List.isChain_append.1 hfront.apart).2.2
    rw [appendRun_concat earlier start stop hmax]
    split
    · refine hfront.dropLast.concat (by omega) (fun run hrun => ?_) fun other => ?_
      · exact hapart run hrun (start, stop) rfl
      · rw [hset, hmem, or_assoc]
        exact or_congr_right (by omega)
    · refine hfront.concat (Nat.le_refl line) (fun run hrun => ?_) fun other => ?_
      · obtain rfl : (start, stop) = run := by simpa using hrun
        show stop + 1 < line
        omega
      · rw [hset]
        exact or_congr_right (by omega)

/-- Whatever comes out when the lines are collected one after the other is a decomposition. -/
theorem isDecomposition_foldl_appendRun {set : LineSet} (hmax : ∀ line ∈ set, line ≤ maxLine) :
    set.IsDecomposition (set.lines.foldl appendRun []) := by
  obtain ⟨lines, ascending⟩ := set
  induction lines using List.reverseRecOn with
  | nil => exact isDecomposition_runs ∅
  | append_singleton lines line ih =>
      have hfront := List.pairwise_append.1 ascending
      rw [List.foldl_append]
      refine (ih hfront.1 fun other hother => hmax other (List.mem_append_left _ hother)).appendRun
        (fun other hother => hfront.2.2 other hother line List.mem_cons_self) (fun other => ?_)
        (hmax line (List.mem_append_right _ List.mem_cons_self))
      exact List.mem_append.trans (or_congr_right List.mem_singleton)

/-- Collecting the lines one after the other gives the runs. -/
theorem foldl_appendRun {set : LineSet} (hmax : ∀ line ∈ set, line ≤ maxLine) :
    set.lines.foldl appendRun [] = set.runs :=
  (isDecomposition_foldl_appendRun hmax).eq set.isDecomposition_runs

/-- The runs of a set are its only decomposition: they are in order, at least one line lies between
any of them and the next one, and the lines of the set are those in some run, which holds of no
other list of pairs.  Collecting the lines one after the other gives them, also when the last one
ends with the greatest line number. -/
theorem isDecomposition_iff_eq_runs {set : LineSet} :
    (∀ runs, set.IsDecomposition runs ↔ runs = set.runs) ∧
    ((∀ line ∈ set, line ≤ maxLine) → set.lines.foldl appendRun [] = set.runs) := by
  refine ⟨fun runs => ⟨?_, ?_⟩, foldl_appendRun⟩
  · intro hset
    exact hset.eq set.isDecomposition_runs
  · rintro rfl
    exact set.isDecomposition_runs

/-- A run may end with the greatest line number. -/
theorem isDecomposition_iff_eq_runs_maxLine :
    let set := ofList [maxLine, 0, 7, maxLine - 1]
    (∀ line ∈ set, line ≤ maxLine) ∧
    set.IsDecomposition [(0, 0), (7, 7), (maxLine - 1, maxLine)] ∧
    set.lines.foldl appendRun [] = [(0, 0), (7, 7), (maxLine - 1, maxLine)] := by
  intro set
  have hmax : ∀ line ∈ set, line ≤ maxLine := by decide
  obtain ⟨hunique, hcollected⟩ := @isDecomposition_iff_eq_runs set
  exact ⟨hmax, (hunique _).2 (by decide), (hcollected hmax).trans (by decide)⟩

end Untested.LineSet
