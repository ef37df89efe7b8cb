/-
# Sets of source lines

`LineSet` is a finite set of line numbers, kept as the strictly ascending list of its members, so
that two sets with the same members are equal.  A set is read either through membership or
through `runs`, its maximal stretches of consecutive lines.
-/

namespace Untested

/-- The greatest line number: line numbers are words of 32 bits. -/
def maxLine : Nat := 4294967295

/-- A finite set of line numbers. -/
structure LineSet where
  /-- The members in ascending order. -/
  lines : List Nat
  /-- Each member is less than all later ones. -/
  ascending : lines.Pairwise (· < ·) := by simp

namespace LineSet

instance : EmptyCollection LineSet where
  emptyCollection := { lines := [] }

instance : Inhabited LineSet := ⟨∅⟩

/-- A line belongs to a set when it is one of the listed members. -/
instance : Membership Nat LineSet where
  mem set line := line ∈ set.lines

instance (line : Nat) (set : LineSet) : Decidable (line ∈ set) :=
  inferInstanceAs (Decidable (line ∈ set.lines))

theorem mem_iff {line : Nat} {set : LineSet} : line ∈ set ↔ line ∈ set.lines := Iff.rfl

/-- Ascending lists with the same members are the same list. -/
theorem lines_eq_of_mem_iff : ∀ {first second : List Nat}, first.Pairwise (· < ·) →
    second.Pairwise (· < ·) → (∀ line, line ∈ first ↔ line ∈ second) → first = second
  | [], [], _, _, _ => rfl
  | [], b :: _, _, _, same => absurd ((same b).2 (by simp)) (by simp)
  | a :: _, [], _, _, same => absurd ((same a).1 (by simp)) (by simp)
  | a :: first, b :: second, hfirst, hsecond, same => by
    rw [List.pairwise_cons] at hfirst hsecond
    -- the two heads are the least members, hence equal
    have heq : a = b := by
      have ha := (same a).1 (by simp)
      have hb := (same b).2 (by simp)
      rw [List.mem_cons] at ha hb
      rcases ha with ha | ha
      · exact ha
      · rcases hb with hb | hb
        · exact hb.symm
        · have := hsecond.1 a ha
          have := hfirst.1 b hb
          omega
    subst heq
    have htail : first = second := by
      refine lines_eq_of_mem_iff hfirst.2 hsecond.2 fun line => ⟨fun h => ?_, fun h => ?_⟩
      · have := (same line).1 (List.mem_cons_of_mem _ h)
        rw [List.mem_cons] at this
        have := hfirst.1 line h
        rcases ‹line = a ∨ line ∈ second› with rfl | h'
        · omega
        · exact h'
      · have := (same line).2 (List.mem_cons_of_mem _ h)
        rw [List.mem_cons] at this
        have := hsecond.1 line h
        rcases ‹line = a ∨ line ∈ first› with rfl | h'
        · omega
        · exact h'
    rw [htail]

/-- Sets with the same members are equal. -/
@[ext] theorem ext {first second : LineSet} (same : ∀ line, line ∈ first ↔ line ∈ second) :
    first = second := by
  cases first with
  | mk first hfirst =>
    cases second with
    | mk second hsecond =>
      have : first = second := lines_eq_of_mem_iff hfirst hsecond same
      subst this
      rfl

instance : DecidableEq LineSet := fun first second =>
  if h : first.lines = second.lines then
    .isTrue (LineSet.ext fun line => by rw [mem_iff, mem_iff, h])
  else
    .isFalse fun heq => h (by rw [heq])

/-- The ascending list with one more member. -/
def insertLine (line : Nat) : List Nat → List Nat
  | [] => [line]
  | first :: rest =>
    if line < first then line :: first :: rest
    else if line = first then first :: rest
    else first :: insertLine line rest

theorem mem_insertLine {line other : Nat} {lines : List Nat} :
    other ∈ insertLine line lines ↔ other = line ∨ other ∈ lines := by
  induction lines with
  | nil => simp [insertLine]
  | cons first rest ih =>
    simp only [insertLine]
    split
    · simp
    · split
      · rename_i h
        subst h
        simp
      · simp only [List.mem_cons, ih]
        grind

theorem pairwise_insertLine (line : Nat) {lines : List Nat} (ascending : lines.Pairwise (· < ·)) :
    (insertLine line lines).Pairwise (· < ·) := by
  induction lines with
  | nil => simp [insertLine]
  | cons first rest ih =>
    simp only [insertLine]
    rw [List.pairwise_cons] at ascending
    split
    · rename_i h
      rw [List.pairwise_cons]
      refine ⟨fun other hother => ?_, List.pairwise_cons.2 ascending⟩
      rcases List.mem_cons.1 hother with rfl | hother
      · exact h
      · exact Nat.lt_trans h (ascending.1 other hother)
    · split
      · exact List.pairwise_cons.2 ascending
      · rw [List.pairwise_cons]
        refine ⟨fun other hother => ?_, ih ascending.2⟩
        rcases mem_insertLine.1 hother with rfl | hother
        · omega
        · exact ascending.1 other hother

def insert (set : LineSet) (line : Nat) : LineSet where
  lines := insertLine line set.lines
  ascending := pairwise_insertLine line set.ascending

@[simp, grind =] theorem mem_insert {set : LineSet} {line other : Nat} :
    other ∈ set.insert line ↔ other = line ∨ other ∈ set := mem_insertLine

/-- The merge of two ascending lists, without repetitions. -/
def mergeLines : List Nat → List Nat → List Nat
  | [], second => second
  | first, [] => first
  | a :: first, b :: second =>
    if a < b then a :: mergeLines first (b :: second)
    else if b < a then b :: mergeLines (a :: first) second
    else a :: mergeLines first second
termination_by first second => first.length + second.length

theorem mem_mergeLines {line : Nat} {first second : List Nat} :
    line ∈ mergeLines first second ↔ line ∈ first ∨ line ∈ second := by
  fun_induction mergeLines first second <;> simp_all <;> grind

theorem pairwise_mergeLines {first second : List Nat} (hfirst : first.Pairwise (· < ·))
    (hsecond : second.Pairwise (· < ·)) : (mergeLines first second).Pairwise (· < ·) := by
  fun_induction mergeLines first second with
  | case1 => exact hsecond
  | case2 => exact hfirst
  | case3 a first b second hlt ih =>
    rw [List.pairwise_cons] at hfirst ⊢
    refine ⟨fun line hline => ?_, ih hfirst.2 hsecond⟩
    rw [List.pairwise_cons] at hsecond
    rcases mem_mergeLines.1 hline with h | h
    · exact hfirst.1 line h
    · rcases List.mem_cons.1 h with rfl | h
      · exact hlt
      · exact Nat.lt_trans hlt (hsecond.1 line h)
  | case4 a first b second hnlt hlt ih =>
    rw [List.pairwise_cons] at hsecond ⊢
    refine ⟨fun line hline => ?_, ih hfirst hsecond.2⟩
    rw [List.pairwise_cons] at hfirst
    rcases mem_mergeLines.1 hline with h | h
    · rcases List.mem_cons.1 h with rfl | h
      · exact hlt
      · exact Nat.lt_trans hlt (hfirst.1 line h)
    · exact hsecond.1 line h
  | case5 a first b second hnlt hngt ih =>
    rw [List.pairwise_cons] at hfirst hsecond ⊢
    refine ⟨fun line hline => ?_, ih hfirst.2 hsecond.2⟩
    rcases mem_mergeLines.1 hline with h | h
    · exact hfirst.1 line h
    · have := hsecond.1 line h
      omega

def union (first second : LineSet) : LineSet where
  lines := mergeLines first.lines second.lines
  ascending := pairwise_mergeLines first.ascending second.ascending

@[simp, grind =] theorem mem_union {first second : LineSet} {line : Nat} :
    line ∈ first.union second ↔ line ∈ first ∨ line ∈ second := mem_mergeLines

/-- The consecutive lines from `start` to `stop`, both included. -/
def interval (start stop : Nat) : LineSet where
  lines := List.range' start (stop + 1 - start)
  ascending := List.pairwise_lt_range'

@[simp, grind =] theorem mem_interval {start stop line : Nat} :
    line ∈ interval start stop ↔ start ≤ line ∧ line ≤ stop := by
  simp only [mem_iff, interval, List.mem_range'_1]
  omega

/-- The set of the listed lines, in any order and with any repetitions. -/
def ofList (lines : List Nat) : LineSet :=
  lines.foldl insert ∅

@[simp, grind =] theorem mem_ofList {lines : List Nat} {line : Nat} :
    line ∈ ofList lines ↔ line ∈ lines := by
  have general : ∀ set : LineSet, line ∈ lines.foldl insert set ↔ line ∈ set ∨ line ∈ lines := by
    induction lines with
    | nil => simp
    | cons first rest ih =>
      intro set
      simp only [List.foldl_cons, ih, mem_insert, List.mem_cons]
      grind
  rw [ofList, general]
  simp [mem_iff, EmptyCollection.emptyCollection]

/-- The number of members. -/
def size (set : LineSet) : Nat :=
  set.lines.length

def isEmpty (set : LineSet) : Bool :=
  set.lines.isEmpty

def contains (set : LineSet) (line : Nat) : Bool :=
  set.lines.contains line

/-- Whether every listed line is a member.  This holds of no lines at all. -/
def containsAll (set : LineSet) (lines : List Nat) : Bool :=
  lines.all set.contains

@[simp] theorem contains_iff {set : LineSet} {line : Nat} :
    set.contains line = true ↔ line ∈ set := by
  simp [contains, mem_iff]

theorem containsAll_iff {set : LineSet} {lines : List Nat} :
    set.containsAll lines = true ↔ ∀ line ∈ lines, line ∈ set := by
  simp [containsAll]

/-- Adds a line behind the runs before it: it extends the first run of the list when it precedes
that run directly, and otherwise starts a run of its own. -/
def consRun (line : Nat) : List (Nat × Nat) → List (Nat × Nat)
  | [] => [(line, line)]
  | (start, stop) :: runs =>
    if line + 1 = start then (line, stop) :: runs else (line, line) :: (start, stop) :: runs

/-- The maximal stretches of consecutive members, each with its two ends, in ascending order. -/
def runs (set : LineSet) : List (Nat × Nat) :=
  set.lines.foldr consRun []

end LineSet

end Untested
