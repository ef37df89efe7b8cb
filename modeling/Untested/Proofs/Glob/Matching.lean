/-
# Matching against a pattern

The language of a pattern says which texts it stands for, whatever the order in which a search looks
at them.  The search finds out whether a text is in the language.  When it gives up because the text
is too short, no ending of the text that it could still come to is in the language of the remaining
pieces, so it misses no way to split the text.
-/

import Untested.Glob.Match
import Untested.Proofs.Glob.Grammar

namespace Untested.Glob

/-! ## Languages -/

/-- The item of a class has the character. -/
def ClassItem.Includes : ClassItem → Char → Prop
  | single d, c => c = d
  | range first last, c => first ≤ c ∧ c ≤ last

/-- The piece stands for the single character.  No wildcard stands for a slash. -/
def Piece.StandsFor : Piece → Char → Prop
  | literal d, c => c = d
  | anyChar, c => c ≠ '/'
  | oneOf items, c => c ≠ '/' ∧ ∃ item ∈ items, item.Includes c
  | noneOf items, c => c ≠ '/' ∧ ∀ item ∈ items, ¬item.Includes c
  | star, _ => False
  | directories, _ => False

/-- The names of directories, each with a slash behind it. -/
def pathOf (names : List (List Char)) : List Char :=
  names.flatMap (· ++ ['/'])

/-- The text is in the language of the pieces.  Directories at the end stand for any text, and
anywhere else for any number of names without slashes, each with a slash behind it. -/
def Denotes : List Piece → List Char → Prop
  | [], text => text = []
  | .star :: pieces, text =>
    ∃ stretch rest, text = stretch ++ rest ∧ '/' ∉ stretch ∧ Denotes pieces rest
  | .directories :: pieces, text =>
    pieces = [] ∨ ∃ names rest, text = pathOf names ++ rest ∧ (∀ name ∈ names, '/' ∉ name) ∧
      Denotes pieces rest
  | piece :: pieces, text =>
    ∃ c rest, text = c :: rest ∧ piece.StandsFor c ∧ Denotes pieces rest

/-! ## Paths -/

/-- The ending of a text begins a component of it: it is the whole text or stands behind a slash. -/
def BeginsComponent (ending text : List Char) : Prop :=
  ending = text ∨ '/' :: ending <:+ text

section

variable {ending later text : List Char}

/-- A text is made up of directories and a last component. -/
theorem exists_eq_pathOf_append (text : List Char) :
    ∃ names last, text = pathOf names ++ last ∧ (∀ name ∈ names, '/' ∉ name) ∧ '/' ∉ last := by
  induction text with
  | nil => exact ⟨[], [], rfl, nofun, List.not_mem_nil⟩
  | cons c rest ih =>
      obtain ⟨names, last, rfl, hnames, hlast⟩ := ih
      by_cases hc : c = '/'
      · subst hc
        refine ⟨[] :: names, last, rfl, ?_, hlast⟩
        exact List.forall_mem_cons.2 ⟨List.not_mem_nil, hnames⟩
      · cases names with
        | nil => exact ⟨[], c :: last, rfl, nofun, by simp [Ne.symm hc, hlast]⟩
        | cons name names =>
            obtain ⟨hname, hnames⟩ := List.forall_mem_cons.1 hnames
            refine ⟨(c :: name) :: names, last, rfl, ?_, hlast⟩
            exact List.forall_mem_cons.2 ⟨by simp [Ne.symm hc, hname], hnames⟩

/-- In front of the beginning of a component stand directories. -/
theorem beginsComponent_iff : BeginsComponent ending text ↔
    ∃ names, text = pathOf names ++ ending ∧ ∀ name ∈ names, '/' ∉ name := by
  constructor
  · rintro (rfl | ⟨front, rfl⟩)
    · exact ⟨[], rfl, nofun⟩
    · obtain ⟨names, last, rfl, hnames, hlast⟩ := exists_eq_pathOf_append front
      refine ⟨names ++ [last], by simp [pathOf], ?_⟩
      simpa [or_imp, forall_and] using ⟨hnames, hlast⟩
  · rintro ⟨names, rfl, -⟩
    rcases names.eq_nil_or_concat' with rfl | ⟨front, name, rfl⟩
    · exact .inl rfl
    · exact .inr ⟨pathOf front ++ name, by simp [pathOf]⟩

theorem BeginsComponent.suffix (hbegins : BeginsComponent ending text) : ending <:+ text := by
  rcases hbegins with rfl | hslash
  · exact List.suffix_rfl
  · exact (List.suffix_cons '/' ending).trans hslash

theorem BeginsComponent.trans (hending : BeginsComponent ending later)
    (hlater : BeginsComponent later text) : BeginsComponent ending text := by
  rcases hending with rfl | hslash
  · exact hlater
  · exact .inr (hslash.trans hlater.suffix)

/-- What begins a component of a text begins one of every ending that reaches as far. -/
theorem BeginsComponent.of_suffix (hbegins : BeginsComponent ending text)
    (hending : ending <:+ later) (hlater : later <:+ text) : BeginsComponent ending later := by
  rcases hbegins with rfl | hslash
  · exact .inl (hending.eq_of_length_le hlater.length_le)
  · rcases hending.length_le.eq_or_lt with hlength | hlength
    · exact .inl (hending.eq_of_length hlength)
    · exact .inr (List.suffix_of_suffix_length_le hslash hlater hlength)

end

/-! ## Single steps of the search -/

theorem ClassItem.contains_iff (item : ClassItem) (c : Char) :
    item.contains c = true ↔ item.Includes c := by
  cases item with
  | single d => exact decide_eq_true_iff
  | range first last =>
      rw [ClassItem.contains, Bool.and_eq_true, decide_eq_true_iff, decide_eq_true_iff]
      rfl

theorem Piece.admits_iff (piece : Piece) (c : Char) :
    piece.admits c = true ↔ piece.StandsFor c := by
  cases piece with
  | literal d => exact decide_eq_true_iff
  | anyChar => simp [Piece.admits, Piece.StandsFor]
  | oneOf items => simp [Piece.admits, Piece.StandsFor, ClassItem.contains_iff]
  | noneOf items => simp [Piece.admits, Piece.StandsFor, ← ClassItem.contains_iff]
  | star => exact Bool.false_eq_true.to_iff
  | directories => exact Bool.false_eq_true.to_iff

section

variable {next : List Char → Outcome} {ending text : List Char}

theorem searchStar_matched (hsearch : searchStar next text = .matched) :
    ∃ stretch rest, text = stretch ++ rest ∧ '/' ∉ stretch ∧ next rest = .matched := by
  fun_induction searchStar next text with
  | case1 => exact ⟨[], [], rfl, List.not_mem_nil, hsearch⟩
  | case2 => cases hsearch
  | case3 c rest hnext hc ih =>
      obtain ⟨stretch, behind, rfl, hstretch, hmatched⟩ := ih hsearch
      exact ⟨c :: stretch, behind, rfl, by simp [Ne.symm hc, hstretch], hmatched⟩
  | case4 c rest => exact ⟨[], c :: rest, rfl, List.not_mem_nil, hsearch⟩

theorem searchStar_mismatched (hsearch : searchStar next text = .mismatched)
    {stretch rest : List Char} (htext : text = stretch ++ rest) (hstretch : '/' ∉ stretch) :
    next rest = .mismatched := by
  fun_induction searchStar next text generalizing stretch with
  | case1 =>
      obtain ⟨rfl, rfl⟩ := List.append_eq_nil_iff.1 htext.symm
      exact hsearch
  | case2 behind hnext =>
      cases stretch with
      | nil => exact (congrArg next htext).symm.trans hnext
      | cons d stretch =>
          obtain ⟨rfl, -⟩ := List.cons.inj htext
          exact absurd List.mem_cons_self hstretch
  | case3 c behind hnext hc ih =>
      cases stretch with
      | nil => exact (congrArg next htext).symm.trans hnext
      | cons d stretch =>
          exact ih hsearch (List.cons.inj htext).2 (List.not_mem_of_not_mem_cons hstretch)
  | case4 c behind hnext => exact absurd hsearch hnext

/-- A search behind a star gives up either past a given ending of the text or where the text still
has that ending. -/
theorem searchStar_exhausted (hsearch : searchStar next text = .exhausted)
    (hending : ending <:+ text) :
    next ending = .mismatched ∨ ∃ later, next later = .exhausted ∧ ending <:+ later := by
  fun_induction searchStar next text with
  | case1 => exact .inr ⟨[], hsearch, hending⟩
  | case2 => cases hsearch
  | case3 c rest hnext hc ih =>
      rcases List.suffix_cons_iff.1 hending with rfl | hrest
      · exact .inl hnext
      · exact ih hsearch hrest
  | case4 c rest => exact .inr ⟨c :: rest, hsearch, hending⟩

theorem searchBehindSlashes_matched (hsearch : searchBehindSlashes next text = .matched) :
    next [] = .matched ∨ ∃ rest, '/' :: rest <:+ text ∧ next rest = .matched := by
  fun_induction searchBehindSlashes next text with
  | case1 => exact .inl hsearch
  | case2 _ _ ih | case4 _ _ _ ih =>
      refine (ih hsearch).imp_right fun ⟨behind, hslash, hmatched⟩ => ?_
      exact ⟨behind, hslash.trans (List.suffix_cons _ _), hmatched⟩
  | case3 rest => exact .inr ⟨rest, List.suffix_rfl, hsearch⟩

theorem searchBehindSlashes_mismatched (hsearch : searchBehindSlashes next text = .mismatched)
    (hslash : '/' :: ending <:+ text) : next ending = .mismatched := by
  fun_induction searchBehindSlashes next text with
  | case1 => cases List.suffix_nil.1 hslash
  | case2 rest hnext ih =>
      rcases List.suffix_cons_iff.1 hslash with hhere | hrest
      · exact (List.cons.inj hhere).2 ▸ hnext
      · exact ih hsearch hrest
  | case3 rest hnext => exact absurd hsearch hnext
  | case4 c rest hc ih =>
      rcases List.suffix_cons_iff.1 hslash with hhere | hrest
      · exact absurd (List.cons.inj hhere).1.symm hc
      · exact ih hsearch hrest

/-- A search behind slashes gives up either past a given ending of the text or where the text still
has that ending. -/
theorem searchBehindSlashes_exhausted (hsearch : searchBehindSlashes next text = .exhausted)
    (hslash : '/' :: ending <:+ text) :
    next ending = .mismatched ∨
      ∃ later, next later = .exhausted ∧ ending <:+ later ∧ later <:+ text := by
  fun_induction searchBehindSlashes next text with
  | case1 => cases List.suffix_nil.1 hslash
  | case2 rest hnext ih =>
      rcases List.suffix_cons_iff.1 hslash with hhere | hrest
      · exact .inl ((List.cons.inj hhere).2 ▸ hnext)
      · refine (ih hsearch hrest).imp_right fun ⟨later, hexhausted, hending, hlater⟩ => ?_
        exact ⟨later, hexhausted, hending, hlater.trans (List.suffix_cons _ _)⟩
  | case3 rest _ =>
      refine .inr ⟨rest, hsearch, ?_, List.suffix_cons _ _⟩
      rcases List.suffix_cons_iff.1 hslash with hhere | hrest
      · exact (List.cons.inj hhere).2 ▸ List.suffix_rfl
      · exact (List.suffix_cons _ _).trans hrest
  | case4 c rest hc ih =>
      rcases List.suffix_cons_iff.1 hslash with hhere | hrest
      · exact absurd (List.cons.inj hhere).1.symm hc
      · refine (ih hsearch hrest).imp_right fun ⟨later, hexhausted, hending, hlater⟩ => ?_
        exact ⟨later, hexhausted, hending, hlater.trans (List.suffix_cons _ _)⟩

end

/-! ## Searching -/

/-- The ending of a text is one at which a search for pieces may still have to look, given whether
the pieces stand at the beginning of a component. -/
def IsCandidate : Bool → List Char → List Char → Prop
  | true => BeginsComponent
  | false => fun ending text => ending <:+ text

/-- A search for the pieces finds out the truth about every text. -/
structure Decides (starts : Bool) (pieces : List Piece) : Prop where
  matched : ∀ text, search pieces text = .matched → Denotes pieces text
  mismatched : ∀ text, search pieces text = .mismatched → ¬Denotes pieces text
  exhausted : ∀ text, search pieces text = .exhausted →
    ∀ ending, IsCandidate starts ending text → ¬Denotes pieces ending

section

variable {starts : Bool} {piece : Piece} {pieces : List Piece} {ending text : List Char}

theorem IsCandidate.self : IsCandidate starts text text := by
  cases starts with
  | false => exact List.suffix_rfl
  | true => exact .inl rfl

theorem IsCandidate.suffix (hcandidate : IsCandidate starts ending text) : ending <:+ text := by
  cases starts with
  | false => exact hcandidate
  | true => exact BeginsComponent.suffix hcandidate

/-- What stands behind the first character of an ending is a candidate in the rest of the text. -/
theorem isCandidate_tail {c d : Char} {behind rest : List Char}
    (hsuffix : d :: behind <:+ c :: rest) (hslash : starts = true → d = '/') :
    IsCandidate starts behind rest := by
  rcases List.suffix_cons_iff.1 hsuffix with hwhole | hrest
  · rw [(List.cons.inj hwhole).2]
    exact .self
  · cases starts with
    | false => exact (List.suffix_cons d behind).trans hrest
    | true => exact .inr (hslash rfl ▸ hrest)

theorem Decides.search_eq_matched_iff (hdecides : Decides starts pieces) :
    search pieces text = .matched ↔ Denotes pieces text := by
  refine ⟨hdecides.matched text, fun hdenotes => ?_⟩
  cases hsearch : search pieces text with
  | matched => rfl
  | mismatched => exact absurd hdenotes (hdecides.mismatched text hsearch)
  | exhausted => exact absurd hdenotes (hdecides.exhausted text hsearch text .self)

theorem decides_nil : Decides starts [] where
  matched text hsearch := by
    rw [search] at hsearch
    split at hsearch
    case isTrue hempty => exact hempty
    case isFalse => cases hsearch
  mismatched text hsearch hempty := by
    rw [Denotes] at hempty
    rw [search, if_pos hempty] at hsearch
    cases hsearch
  exhausted text hsearch := by
    rw [search] at hsearch
    split at hsearch <;> cases hsearch

/-- A piece for exactly one character. -/
def Piece.IsSingle (piece : Piece) : Prop :=
  piece ≠ .star ∧ piece ≠ .directories

theorem Piece.IsSingle.denotes_iff (hsingle : piece.IsSingle) : Denotes (piece :: pieces) text ↔
    ∃ c rest, text = c :: rest ∧ piece.StandsFor c ∧ Denotes pieces rest := by
  rw [Denotes]
  exacts [hsingle.1, hsingle.2]

theorem Piece.IsSingle.search_nil (hsingle : piece.IsSingle) :
    search (piece :: pieces) [] = .exhausted := by
  rw [search]
  exacts [hsingle.1, hsingle.2]

theorem Piece.IsSingle.search_cons (hsingle : piece.IsSingle) (c : Char) :
    search (piece :: pieces) (c :: text) =
      if piece.admits c then search pieces text else .mismatched := by
  rw [search]
  exacts [hsingle.1, hsingle.2]

/-- A piece for one character decides what the pieces behind it decide, provided that they stand at
the beginning of a component only if it stands for slashes alone. -/
theorem Decides.single {next : Bool} (hdecides : Decides next pieces) (hsingle : piece.IsSingle)
    (hnext : next = true → ∀ c, piece.StandsFor c → c = '/') :
    Decides starts (piece :: pieces) where
  matched
    | [], hsearch => by
        rw [hsingle.search_nil] at hsearch
        cases hsearch
    | c :: rest, hsearch => by
        rw [hsingle.search_cons] at hsearch
        split at hsearch
        case isTrue hadmits =>
          refine hsingle.denotes_iff.2 ⟨c, rest, rfl, (piece.admits_iff c).1 hadmits, ?_⟩
          exact hdecides.matched rest hsearch
        case isFalse => cases hsearch
  mismatched text hsearch hdenotes := by
    obtain ⟨c, rest, rfl, hstands, hrest⟩ := hsingle.denotes_iff.1 hdenotes
    rw [hsingle.search_cons, if_pos ((piece.admits_iff c).2 hstands)] at hsearch
    exact hdecides.mismatched rest hsearch hrest
  exhausted text hsearch ending hcandidate hdenotes := by
    obtain ⟨d, behind, rfl, hstands, hbehind⟩ := hsingle.denotes_iff.1 hdenotes
    cases text with
    | nil => cases List.suffix_nil.1 hcandidate.suffix
    | cons c rest =>
        rw [hsingle.search_cons] at hsearch
        split at hsearch
        case isTrue =>
          refine hdecides.exhausted rest hsearch behind ?_ hbehind
          exact isCandidate_tail hcandidate.suffix fun hstarts => hnext hstarts d hstands
        case isFalse => cases hsearch

theorem Decides.star (hdecides : Decides false pieces) : Decides starts (.star :: pieces) where
  matched text hsearch := by
    rw [search] at hsearch
    obtain ⟨stretch, rest, rfl, hstretch, hmatched⟩ := searchStar_matched hsearch
    exact ⟨stretch, rest, rfl, hstretch, hdecides.matched rest hmatched⟩
  mismatched text hsearch := by
    rw [search] at hsearch
    rintro ⟨stretch, rest, htext, hstretch, hdenotes⟩
    refine hdecides.mismatched rest ?_ hdenotes
    exact searchStar_mismatched hsearch htext hstretch
  exhausted text hsearch ending hcandidate := by
    rw [search] at hsearch
    rintro ⟨stretch, rest, rfl, -, hdenotes⟩
    -- the rest need not be within reach of the star, but the search has not looked past it
    have hrest : rest <:+ text := (List.suffix_append stretch rest).trans hcandidate.suffix
    obtain hmismatched | ⟨later, hexhausted, hending⟩ := searchStar_exhausted hsearch hrest
    · exact hdecides.mismatched rest hmismatched hdenotes
    · exact hdecides.exhausted later hexhausted rest hending hdenotes

theorem denotes_directories_iff : Denotes (.directories :: pieces) text ↔
    pieces = [] ∨ ∃ ending, BeginsComponent ending text ∧ Denotes pieces ending := by
  rw [Denotes]
  refine or_congr_right ⟨?_, ?_⟩
  · rintro ⟨names, rest, htext, hnames, hdenotes⟩
    exact ⟨rest, beginsComponent_iff.2 ⟨names, htext, hnames⟩, hdenotes⟩
  · rintro ⟨ending, hbegins, hdenotes⟩
    obtain ⟨names, htext, hnames⟩ := beginsComponent_iff.1 hbegins
    exact ⟨names, ending, htext, hnames, hdenotes⟩

/-- Pieces that stand for the empty text stand for any last component as well. -/
theorem denotes_of_denotes_nil (hsome : pieces ≠ []) (hdenotes : Denotes pieces [])
    (hslash : '/' ∉ text) : Denotes pieces text := by
  induction pieces with
  | nil => exact absurd rfl hsome
  | cons piece pieces ih =>
      by_cases hstar : piece = .star
      · subst hstar
        obtain ⟨stretch, rest, hempty, -, hrest⟩ := hdenotes
        obtain ⟨-, rfl⟩ := List.append_eq_nil_iff.1 hempty.symm
        exact ⟨text, [], (List.append_nil text).symm, hslash, hrest⟩
      by_cases hdirectories : piece = .directories
      · subst hdirectories
        rw [denotes_directories_iff] at hdenotes ⊢
        by_cases hlast : pieces = []
        · exact .inl hlast
        · obtain ⟨ending, hbegins, hending⟩ := hdenotes.resolve_left hlast
          obtain rfl := List.suffix_nil.1 hbegins.suffix
          exact .inr ⟨text, .inl rfl, ih hlast hending⟩
      · have hsingle : piece.IsSingle := ⟨hstar, hdirectories⟩
        obtain ⟨c, rest, hempty, -⟩ := hsingle.denotes_iff.1 hdenotes
        cases hempty

theorem search_nil_of_ne_mismatched (hsearch : search [] text ≠ .mismatched) :
    search [] text = .matched := by
  rw [search] at hsearch ⊢
  split at hsearch
  case isTrue hempty => exact if_pos hempty
  case isFalse => exact absurd rfl hsearch

theorem searchBehindSlashes_nil (text : List Char) :
    searchBehindSlashes (search []) text = .matched := by
  fun_induction searchBehindSlashes (search []) text with
  | case1 => rfl
  | case2 _ _ ih | case4 _ _ _ ih => exact ih
  | case3 rest hsearch => exact search_nil_of_ne_mismatched hsearch

/-- Directories at the end of a pattern match everything. -/
theorem search_directories (text : List Char) : search [.directories] text = .matched := by
  rw [search]
  split
  case h_1 => exact searchBehindSlashes_nil text
  case h_2 hsearch => exact search_nil_of_ne_mismatched hsearch

theorem Decides.directories (hdecides : Decides true pieces) :
    Decides true (.directories :: pieces) where
  matched text hsearch := by
    rw [search] at hsearch
    rw [denotes_directories_iff]
    split at hsearch
    case h_1 =>
      obtain hend | ⟨rest, hslash, hmatched⟩ := searchBehindSlashes_matched hsearch
      · -- at the end of the text the directories have taken the last component, too
        by_cases hsome : pieces = []
        · exact .inl hsome
        · obtain ⟨names, last, htext, hnames, hlast⟩ := exists_eq_pathOf_append text
          refine .inr ⟨last, beginsComponent_iff.2 ⟨names, htext, hnames⟩, ?_⟩
          exact denotes_of_denotes_nil hsome (hdecides.matched [] hend) hlast
      · exact .inr ⟨rest, .inr hslash, hdecides.matched rest hmatched⟩
    case h_2 => exact .inr ⟨text, .inl rfl, hdecides.matched text hsearch⟩
  mismatched text hsearch := by
    rw [denotes_directories_iff]
    rintro (rfl | ⟨ending, hbegins, hdenotes⟩)
    · cases (search_directories text).symm.trans hsearch
    · rw [search] at hsearch
      split at hsearch
      case h_1 hfirst =>
        refine hdecides.mismatched ending ?_ hdenotes
        rcases hbegins with rfl | hslash
        · exact hfirst
        · exact searchBehindSlashes_mismatched hsearch hslash
      case h_2 hfirst => exact hfirst hsearch
  exhausted text hsearch ending hcandidate := by
    rw [denotes_directories_iff]
    rintro (rfl | ⟨rest, hbegins, hdenotes⟩)
    · cases (search_directories text).symm.trans hsearch
    · have hrest : BeginsComponent rest text := hbegins.trans hcandidate
      rw [search] at hsearch
      split at hsearch
      case h_1 hfirst =>
        rcases hrest with rfl | hslash
        · exact hdecides.mismatched rest hfirst hdenotes
        obtain hmismatched | ⟨later, hexhausted, hsuffix, hlater⟩ :=
          searchBehindSlashes_exhausted hsearch hslash
        · exact hdecides.mismatched rest hmismatched hdenotes
        · refine hdecides.exhausted later hexhausted rest ?_ hdenotes
          exact BeginsComponent.of_suffix (.inr hslash) hsuffix hlater
      case h_2 => exact hdecides.exhausted text hsearch rest hrest hdenotes

theorem Spells.decides {pattern : List Char} (hspells : Spells starts pattern pieces) :
    Decides starts pieces := by
  induction hspells with
  | nil => exact decides_nil
  | directories _ ih => exact ih.directories
  | everything => exact decides_nil.directories
  | star _ _ ih => exact ih.star
  | anyChar _ ih => exact ih.single ⟨nofun, nofun⟩ nofun
  | oneOf _ _ _ _ ih => exact ih.single ⟨nofun, nofun⟩ nofun
  | noneOf _ _ _ ih => exact ih.single ⟨nofun, nofun⟩ nofun
  | literal _ _ ih =>
      refine ih.single ⟨nofun, nofun⟩ fun hslash c hstands => ?_
      exact hstands.trans (of_decide_eq_true hslash)

/-- Every slash of a text is one that the pieces name. -/
theorem Denotes.count_slash_eq (hdenotes : Denotes pieces text) (hnone : .directories ∉ pieces) :
    text.count '/' = pieces.count (.literal '/') := by
  induction pieces generalizing text with
  | nil =>
      rw [Denotes] at hdenotes
      rw [hdenotes, List.count_nil, List.count_nil]
  | cons piece pieces ih =>
      rw [List.mem_cons, not_or] at hnone
      by_cases hstar : piece = .star
      · subst hstar
        obtain ⟨stretch, rest, rfl, hslash, hrest⟩ := hdenotes
        rw [List.count_append, List.count_eq_zero_of_not_mem hslash, ih hrest hnone.2, Nat.zero_add,
          List.count_cons_of_ne (by decide)]
      · have hsingle : piece.IsSingle := ⟨hstar, Ne.symm hnone.1⟩
        obtain ⟨c, rest, rfl, hstands, hrest⟩ := hsingle.denotes_iff.1 hdenotes
        rw [List.count_cons, List.count_cons, ih hrest hnone.2]
        cases piece with
        | literal d => simp [hstands.symm]
        | anyChar => simpa [Piece.StandsFor] using hstands
        | oneOf items => simpa using hstands.1
        | noneOf items => simpa using hstands.1
        | star => cases hstands
        | directories => cases hstands

end

/-- A pattern matches the texts of its language and no others, and a malformed pattern matches its
own text and no other.  Without two stars in a row a pattern matches no text with more or fewer
slashes than it has outside its classes. -/
theorem isMatch_spec (pattern text : List Char) :
    (∀ pieces, Spells true pattern pieces →
      (isMatch pattern text = true ↔ Denotes pieces text)) ∧
    ((∀ pieces, ¬Spells true pattern pieces) → (isMatch pattern text = true ↔ text = pattern)) ∧
    (¬['*', '*'] <:+: pattern → isMatch pattern text = true →
      (∀ pieces, Spells true pattern pieces → text.count '/' = pieces.count (.literal '/')) ∧
      ('[' ∉ pattern → text.count '/' = pattern.count '/')) := by
  have hspelled : ∀ pieces, Spells true pattern pieces →
      (isMatch pattern text = true ↔ Denotes pieces text) := fun pieces hspells => by
    rw [isMatch, pieces?_eq_some_iff.2 hspells]
    simp only [decide_eq_true_eq]
    exact hspells.decides.search_eq_matched_iff
  have hmalformed (hnone : ∀ pieces, ¬Spells true pattern pieces) :
      isMatch pattern text = true ↔ text = pattern := by
    have hread : pieces? pattern = none := by
      rw [Option.eq_none_iff_forall_ne_some]
      exact fun pieces hpieces => hnone pieces (pieces?_eq_some_iff.1 hpieces)
    rw [isMatch, hread]
    simp only [decide_eq_true_eq]
    exact eq_comm
  refine ⟨hspelled, hmalformed, fun hstars hmatch => ?_⟩
  have hnone : ∀ pieces, Spells true pattern pieces → .directories ∉ pieces :=
    fun pieces hspells hmem => hstars (hspells.infix_of_directories hmem)
  have hcount : ∀ pieces, Spells true pattern pieces →
      text.count '/' = pieces.count (.literal '/') := fun pieces hspells =>
    ((hspelled pieces hspells).1 hmatch).count_slash_eq (hnone pieces hspells)
  refine ⟨hcount, fun hnoClass => ?_⟩
  by_cases hwell : ∃ pieces, Spells true pattern pieces
  · obtain ⟨pieces, hspells⟩ := hwell
    rw [hcount pieces hspells, hspells.count_slash_eq hnoClass (hnone pieces hspells)]
  · rw [(hmalformed (not_exists.1 hwell)).1 hmatch]

example :
    ["app/migrations/first.py", "migrations/first.py", "app/migrations_old/first.py"].map
        (fun text => isMatch "**/migrations/*.py".toList text.toList) = [true, true, false] := by
  decide

/-- The slash in a class is never matched, so a pattern may have more slashes than its texts. -/
theorem isMatch_slashInClass :
    ¬['*', '*'] <:+: "[/a]".toList ∧ isMatch "[/a]".toList "a".toList = true ∧
      "a".toList.count '/' ≠ "[/a]".toList.count '/' := by
  decide

end Untested.Glob
