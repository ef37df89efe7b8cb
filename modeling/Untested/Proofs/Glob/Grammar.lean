/-
# The grammar of glob patterns

A pattern is well formed if it spells a sequence of pieces.  The grammar says so without reading
the pattern from left to right: a class is whatever stands between its brackets, and two stars spell
directories only if they make up a whole component.  Reading finds the pieces of every well-formed
pattern, and none of any other.
-/

import Mathlib.Data.List.Infix
import Untested.Glob.Pattern

namespace Untested.Glob

/-! ## The grammar -/

/-- The characters between the brackets of a class spell its items.  A character with a dash and a
further character behind it begins a range. -/
inductive SpellsItems : List Char → List ClassItem → Prop where
  | nil : SpellsItems [] []
  | range {first last : Char} {rest : List Char} {items : List ClassItem} :
      SpellsItems rest items →
        SpellsItems (first :: '-' :: last :: rest) (.range first last :: items)
  | single {c : Char} {rest : List Char} {items : List ClassItem} :
      (∀ last behind, rest ≠ '-' :: last :: behind) → SpellsItems rest items →
        SpellsItems (c :: rest) (.single c :: items)

/-- A pattern, or what is left of it at the beginning of a component or elsewhere, spells pieces.
A class has at least one character, and the first one may be a closing bracket. -/
inductive Spells : Bool → List Char → List Piece → Prop where
  | nil {starts : Bool} : Spells starts [] []
  | directories {rest : List Char} {pieces : List Piece} :
      Spells true rest pieces → Spells true ('*' :: '*' :: '/' :: rest) (.directories :: pieces)
  | everything : Spells true ['*', '*'] [.directories]
  | star {starts : Bool} {rest : List Char} {pieces : List Piece} :
      rest.head? ≠ some '*' → Spells false rest pieces →
        Spells starts ('*' :: rest) (.star :: pieces)
  | anyChar {starts : Bool} {rest : List Char} {pieces : List Piece} :
      Spells false rest pieces → Spells starts ('?' :: rest) (.anyChar :: pieces)
  | oneOf {starts : Bool} {first : Char} {members rest : List Char} {items : List ClassItem}
      {pieces : List Piece} :
      first ≠ '!' → ']' ∉ members → SpellsItems (first :: members) items →
        Spells false rest pieces →
        Spells starts ('[' :: first :: (members ++ ']' :: rest)) (.oneOf items :: pieces)
  | noneOf {starts : Bool} {first : Char} {members rest : List Char} {items : List ClassItem}
      {pieces : List Piece} :
      ']' ∉ members → SpellsItems (first :: members) items → Spells false rest pieces →
        Spells starts ('[' :: '!' :: first :: (members ++ ']' :: rest)) (.noneOf items :: pieces)
  | literal {starts : Bool} {c : Char} {rest : List Char} {pieces : List Piece} :
      c ∉ ['*', '?', '['] → Spells (c = '/') rest pieces →
        Spells starts (c :: rest) (.literal c :: pieces)

/-! ## Reading -/

theorem spellsItems_classItems (members : List Char) :
    SpellsItems members (classItems members) := by
  fun_induction classItems members with
  | case1 first last rest ih => exact .range ih
  | case2 c rest hdash ih => exact .single (fun last behind h => hdash last behind h) ih
  | case3 => exact .nil

theorem SpellsItems.classItems_eq {members : List Char} {items : List ClassItem}
    (hitems : SpellsItems members items) : classItems members = items := by
  induction hitems with
  | nil => rfl
  | range _ ih => rw [classItems, ih]
  | single hdash _ ih => rw [classItems, ih]; exact hdash

/-- What the rest of a pattern spells when the reader stands where the mode says. -/
def Mode.Spells : Mode → List Char → List Piece → Prop
  | .outside starts, pattern, pieces => Glob.Spells starts pattern pieces
  | .inside isNegated members, pattern, pieces =>
    ∃ more rest behind, pattern = more ++ ']' :: rest ∧ ']' ∉ more ∧
      pieces = classPiece isNegated (members.reverse ++ more) :: behind ∧
      Glob.Spells false rest behind

theorem spells_of_piecesFrom {mode : Mode} {pattern : List Char} {pieces : List Piece}
    (hread : piecesFrom mode pattern = some pieces) : mode.Spells pattern pieces := by
  fun_induction piecesFrom mode pattern generalizing pieces with
  | case1 => cases hread
  | case2 isNegated members rest ih =>
      obtain ⟨behind, hbehind, rfl⟩ := Option.map_eq_some_iff.1 hread
      exact ⟨[], rest, behind, rfl, List.not_mem_nil, by rw [List.append_nil], ih hbehind⟩
  | case3 isNegated members c rest hc ih =>
      obtain ⟨more, after, behind, rfl, hmore, rfl, hbehind⟩ := ih hread
      refine ⟨c :: more, after, behind, rfl, ?_, by simp, hbehind⟩
      exact List.not_mem_cons_of_ne_of_not_mem (Ne.symm hc) hmore
  | case4 => cases hread; exact .nil
  | case5 rest ih =>
      obtain ⟨behind, hbehind, rfl⟩ := Option.map_eq_some_iff.1 hread
      exact .directories (ih hbehind)
  | case6 => cases hread
  | case7 => cases hread; exact .everything
  | case8 => cases hread
  | case9 => cases hread
  | case10 starts rest _ _ hstar ih =>
      obtain ⟨behind, hbehind, rfl⟩ := Option.map_eq_some_iff.1 hread
      refine .star (fun hhead => ?_) (ih hbehind)
      obtain ⟨tail, htail⟩ := List.head?_eq_some_iff.1 hhead
      exact hstar tail htail
  | case11 starts rest ih =>
      obtain ⟨behind, hbehind, rfl⟩ := Option.map_eq_some_iff.1 hread
      exact .anyChar (ih hbehind)
  | case12 starts c rest ih =>
      obtain ⟨more, after, behind, rfl, hmore, rfl, hbehind⟩ := ih hread
      exact .noneOf hmore (spellsItems_classItems _) hbehind
  | case13 => cases hread
  | case14 starts c rest hmark hmarkAlone ih =>
      obtain ⟨more, after, behind, rfl, hmore, rfl, hbehind⟩ := ih hread
      refine .oneOf (fun hc => ?_) hmore (spellsItems_classItems _) hbehind
      cases hrest : more ++ ']' :: after with
      | nil => exact hmarkAlone hc hrest
      | cons d tail => exact hmark d tail hc hrest
  | case15 => cases hread
  | case16 starts c rest _ _ _ hstar hany _ _ hopen hopenAlone ih =>
      obtain ⟨behind, hbehind, rfl⟩ := Option.map_eq_some_iff.1 hread
      refine .literal ?_ (ih hbehind)
      have hbracket : c ≠ '[' := fun hc => by
        cases rest with
        | nil => exact hopenAlone hc rfl
        | cons d tail => exact hopen d tail hc rfl
      simpa using ⟨hstar, hany, hbracket⟩

theorem piecesFrom_inside (isNegated : Bool) {more : List Char} (hmore : ']' ∉ more)
    (members rest : List Char) :
    piecesFrom (.inside isNegated members) (more ++ ']' :: rest) =
      (piecesFrom (.outside false) rest).map
        (classPiece isNegated (members.reverse ++ more) :: ·) := by
  induction more generalizing members with
  | nil => rw [List.nil_append, piecesFrom, if_pos rfl, List.append_nil]
  | cons c more ih =>
      rw [List.mem_cons, not_or] at hmore
      obtain ⟨hc, hmore⟩ := hmore
      rw [List.cons_append, piecesFrom, if_neg (Ne.symm hc), ih hmore, List.reverse_cons,
        List.append_assoc, List.singleton_append]

theorem Spells.piecesFrom_eq {starts : Bool} {pattern : List Char} {pieces : List Piece}
    (hspells : Spells starts pattern pieces) :
    piecesFrom (.outside starts) pattern = some pieces := by
  induction hspells with
  | nil => rfl
  | directories _ ih => rw [piecesFrom, if_pos rfl, ih, Option.map_some]
  | everything => rfl
  | @star starts rest pieces hhead _ ih =>
      have hstar : ∀ tail, rest ≠ '*' :: tail := fun tail htail => hhead (by rw [htail]; rfl)
      rw [piecesFrom, ih, Option.map_some]
      exacts [fun tail => hstar ('/' :: tail), hstar [], hstar]
  | anyChar _ ih => rw [piecesFrom, ih, Option.map_some]
  | oneOf hfirst hmembers hitems _ ih =>
      rw [piecesFrom, piecesFrom_inside false hmembers, ih, Option.map_some,
        ← hitems.classItems_eq]
      exacts [rfl, fun _ _ hmark => absurd hmark hfirst, fun hmark => absurd hmark hfirst]
  | noneOf hmembers hitems _ ih =>
      rw [piecesFrom, piecesFrom_inside true hmembers, ih, Option.map_some, ← hitems.classItems_eq]
      rfl
  | @literal starts c rest pieces hc _ ih =>
      obtain ⟨hstar, hany, hbracket⟩ : c ≠ '*' ∧ c ≠ '?' ∧ c ≠ '[' := by simpa using hc
      rw [piecesFrom, ih, Option.map_some]
      all_goals
        intros
        contradiction

/-- Reading finds what a pattern spells, and fails on a malformed pattern only. -/
theorem pieces?_eq_some_iff {pattern : List Char} {pieces : List Piece} :
    pieces? pattern = some pieces ↔ Spells true pattern pieces :=
  ⟨@spells_of_piecesFrom (.outside true) pattern pieces, Spells.piecesFrom_eq⟩

/-! ## Stars and slashes -/

section

variable {starts : Bool} {pattern : List Char} {pieces : List Piece}

theorem Spells.infix_of_directories (hspells : Spells starts pattern pieces)
    (hmem : .directories ∈ pieces) : ['*', '*'] <:+: pattern := by
  induction hspells with
  | nil => cases hmem
  | @directories rest pieces _ _ => exact ⟨[], '/' :: rest, rfl⟩
  | everything => exact List.infix_rfl
  | star _ _ ih => exact List.infix_cons (ih (by simpa using hmem))
  | anyChar _ ih => exact List.infix_cons (ih (by simpa using hmem))
  | oneOf _ _ _ _ ih =>
      have hbehind := List.infix_cons (a := ']') (ih (by simpa using hmem))
      refine List.infix_cons (List.infix_cons ?_)
      exact hbehind.trans (List.suffix_append _ _).isInfix
  | noneOf _ _ _ ih =>
      have hbehind := List.infix_cons (a := ']') (ih (by simpa using hmem))
      refine List.infix_cons (List.infix_cons (List.infix_cons ?_))
      exact hbehind.trans (List.suffix_append _ _).isInfix
  | literal _ _ ih => exact List.infix_cons (ih (by simpa using hmem))

/-- Without classes and directories, the slashes of a pattern are pieces of their own. -/
theorem Spells.count_slash_eq (hspells : Spells starts pattern pieces)
    (hnoClass : '[' ∉ pattern) (hnone : .directories ∉ pieces) :
    pattern.count '/' = pieces.count (.literal '/') := by
  induction hspells with
  | nil => rfl
  | directories => exact absurd List.mem_cons_self hnone
  | everything => exact absurd List.mem_cons_self hnone
  | oneOf => exact absurd List.mem_cons_self hnoClass
  | noneOf => exact absurd List.mem_cons_self hnoClass
  | star _ _ ih | anyChar _ ih | literal _ _ ih =>
      rw [List.mem_cons, not_or] at hnoClass hnone
      simp [List.count_cons, ih hnoClass.2 hnone.2]

end

end Untested.Glob
