/-
# The values of string literals

What a string literal is, plain text, bytes or formatted, is told by the letters in front of its
first quotation mark alone.  Adjacent literals are formatted if one of them is, and are otherwise
bytes or plain text only if they agree.  Parentheses change nothing, and no other expression counts
as a string.
-/

import Untested.Proofs.Python.Documentation

namespace Untested.Python

/-! ## Letters -/

/-- A quotation mark of either kind. -/
def IsQuotationMark (c : Char) : Prop :=
  c = '\x27' ∨ c = '\x22'

/-- The letters of a literal are what it has in front of its first quotation mark, whatever stands
behind the mark.  A literal without any such mark has no letters. -/
inductive HasLetters : List Char → List Char → Prop where
  | marked {letters rest : List Char} {mark : Char} :
      (∀ c ∈ letters, ¬IsQuotationMark c) → IsQuotationMark mark →
        HasLetters (letters ++ mark :: rest) letters
  | unmarked {literal : List Char} : (∀ c ∈ literal, ¬IsQuotationMark c) → HasLetters literal []

/-- Among the letters of a formatted literal is an `f` of either case. -/
def AreFormatted (letters : List Char) : Prop :=
  'f' ∈ letters ∨ 'F' ∈ letters

/-- Among the letters of a bytes literal is a `b` of either case. -/
def AreBytes (letters : List Char) : Prop :=
  'b' ∈ letters ∨ 'B' ∈ letters

instance (letters : List Char) : Decidable (AreFormatted letters) :=
  inferInstanceAs (Decidable (_ ∨ _))

instance (letters : List Char) : Decidable (AreBytes letters) :=
  inferInstanceAs (Decidable (_ ∨ _))

theorem isQuote_iff {c : Char} : literalLetters.isQuote c = true ↔ IsQuotationMark c := by
  rw [literalLetters.isQuote, Bool.or_eq_true, decide_eq_true_eq, decide_eq_true_eq,
    IsQuotationMark, or_comm]

/-- Every literal has letters, if perhaps none at all. -/
theorem exists_hasLetters (literal : List Char) : ∃ letters, HasLetters literal letters := by
  cases hfind : literal.find? literalLetters.isQuote with
  | none =>
      refine ⟨[], .unmarked fun c hc hmark => ?_⟩
      exact List.find?_eq_none.1 hfind c hc (isQuote_iff.2 hmark)
  | some mark =>
      obtain ⟨hmark, letters, rest, rfl, hfree⟩ := List.find?_eq_some_iff_append.1 hfind
      refine ⟨letters, .marked (fun c hc hquote => ?_) (isQuote_iff.1 hmark)⟩
      have hpass := hfree c hc
      rw [isQuote_iff.2 hquote] at hpass
      cases hpass

theorem HasLetters.literalLetters_eq {literal letters : List Char}
    (hletters : HasLetters literal letters) : literalLetters literal = letters := by
  cases hletters with
  | @marked letters rest mark hfree hmark =>
      have hpass : ∀ c ∈ letters, (!literalLetters.isQuote c) = true := fun c hc => by
        rw [Bool.not_eq_true', ← Bool.not_eq_true, isQuote_iff]
        exact hfree c hc
      have hstop : literalLetters.isQuote mark = true := isQuote_iff.2 hmark
      rw [literalLetters, if_pos (by simp [hstop]), List.takeWhile_append_of_pos hpass,
        List.takeWhile_cons_of_neg (by simp [hstop]), List.append_nil]
  | unmarked hfree =>
      refine if_neg fun hmarked => ?_
      obtain ⟨c, hc, hmark⟩ := List.any_eq_true.1 hmarked
      exact hfree c hc (isQuote_iff.1 hmark)

theorem hasLetters_literalLetters (literal : List Char) :
    HasLetters literal (literalLetters literal) := by
  obtain ⟨letters, hletters⟩ := exists_hasLetters literal
  rwa [hletters.literalLetters_eq]

/-- Only a letter and its capital have that letter as their small form. -/
theorem toLower_eq_iff {c small : Char} (hsmall : small.toLower = small) :
    c.toLower = small ↔ c = small ∨ c = small.toUpper := by
  constructor
  · rintro rfl
    by_cases hupper : c.isUpper
    · right
      rw [Char.toUpper_toLower_eq_toUpper, Char.toUpper_eq_of_not_isLower]
      exact Char.not_isLower_of_isUpper hupper
    · exact .inl (Char.toLower_eq_of_not_isUpper hupper).symm
  · rintro (rfl | rfl)
    · exact hsmall
    · rw [Char.toLower_toUpper_eq_toLower, hsmall]

theorem mem_map_toLower {letters : List Char} {small : Char} (hsmall : small.toLower = small) :
    small ∈ letters.map Char.toLower ↔ small ∈ letters ∨ small.toUpper ∈ letters := by
  simp only [List.mem_map, toLower_eq_iff hsmall]
  constructor
  · rintro ⟨c, hc, rfl | rfl⟩
    · exact .inl hc
    · exact .inr hc
  · rintro (hc | hc)
    · exact ⟨_, hc, .inl rfl⟩
    · exact ⟨_, hc, .inr rfl⟩

/-! ## Values -/

/-- What a literal with the given letters is. -/
def Value.ofLetters (letters : List Char) : Value :=
  if AreFormatted letters then .formatted else if AreBytes letters then .bytes else .text

theorem ofLiteral_eq {literal letters : List Char} (hletters : HasLetters literal letters) :
    Value.ofLiteral literal = Value.ofLetters letters := by
  have hformatted : (letters.map Char.toLower).contains 'f' = true ↔ AreFormatted letters := by
    rw [List.contains_iff_mem]
    exact mem_map_toLower (by decide)
  have hbytes : (letters.map Char.toLower).contains 'b' = true ↔ AreBytes letters := by
    rw [List.contains_iff_mem]
    exact mem_map_toLower (by decide)
  rw [Value.ofLiteral, hletters.literalLetters_eq]
  simp only [Value.ofLetters, hformatted, hbytes]

/-- What one or more adjacent literals with the given letters are. -/
def Value.ofLiterals (prefixes : List (List Char)) : Value :=
  if ∃ letters ∈ prefixes, AreFormatted letters then .formatted
  else if ∀ letters ∈ prefixes, AreBytes letters then .bytes
  else if ∀ letters ∈ prefixes, ¬AreBytes letters then .text
  else .other

section

variable (letters : List Char)

theorem ofLetters_eq_formatted_iff :
    Value.ofLetters letters = .formatted ↔ AreFormatted letters := by
  rw [Value.ofLetters]
  grind

theorem ofLetters_eq_bytes_iff :
    Value.ofLetters letters = .bytes ↔ ¬AreFormatted letters ∧ AreBytes letters := by
  rw [Value.ofLetters]
  grind

theorem ofLetters_eq_text_iff :
    Value.ofLetters letters = .text ↔ ¬AreFormatted letters ∧ ¬AreBytes letters := by
  rw [Value.ofLetters]
  grind

theorem ofLiterals_singleton : Value.ofLiterals [letters] = Value.ofLetters letters := by
  rw [Value.ofLiterals, Value.ofLetters]
  simp only [List.mem_singleton, exists_eq_left, forall_eq]
  grind

end

/-- Adjacent literals are told by their letters as they are by their values. -/
theorem ofParts_map_ofLetters {prefixes : List (List Char)} (hsome : prefixes ≠ []) :
    Value.ofParts (prefixes.map Value.ofLetters) = Value.ofLiterals prefixes := by
  have hformatted : (prefixes.map Value.ofLetters).contains .formatted = true ↔
      ∃ letters ∈ prefixes, AreFormatted letters := by
    simp [ofLetters_eq_formatted_iff]
  have hbytes : (prefixes.map Value.ofLetters).all (· = .bytes) = true ↔
      ∀ letters ∈ prefixes, ¬AreFormatted letters ∧ AreBytes letters := by
    simp [ofLetters_eq_bytes_iff]
  have htext : (prefixes.map Value.ofLetters).all (· = .text) = true ↔
      ∀ letters ∈ prefixes, ¬AreFormatted letters ∧ ¬AreBytes letters := by
    simp [ofLetters_eq_text_iff]
  have hempty : (prefixes.map Value.ofLetters).isEmpty = false := by
    simpa using hsome
  simp only [Value.ofParts, Value.ofLiterals, hformatted, hbytes, htext, hempty, Bool.not_false,
    Bool.true_and]
  -- once none is formatted, the other tests need not ask about it
  by_cases hany : ∃ letters ∈ prefixes, AreFormatted letters
  · rw [if_pos hany, if_pos hany]
  · have hnone : ∀ letters ∈ prefixes, ¬AreFormatted letters := fun letters hmem hletters =>
      hany ⟨letters, hmem, hletters⟩
    rw [if_neg hany, if_neg hany]
    simp only [forall₂_and, eq_true hnone, true_and]

/-! ## Expressions -/

/-- Literals side by side have the given letters. -/
def HaveLetters (source : List Char) : List Node → List (List Char) → Prop :=
  List.Forall₂ fun part letters => part.kind = .string ∧ HasLetters (part.text source) letters

/-- A string expression is a literal, one or more adjacent literals, or such an expression in
parentheses.  Its literals have the given letters, in the order of the source text. -/
inductive Node.HasLiterals (source : List Char) : Node → List (List Char) → Prop where
  | literal {node : Node} {letters : List Char} : node.kind = .string →
      HasLetters (node.text source) letters → HasLiterals source node [letters]
  | adjacent {node : Node} {prefixes : List (List Char)} : node.kind = .concatenatedString →
      prefixes ≠ [] →
      HaveLetters source node.significantChildren prefixes → HasLiterals source node prefixes
  | parenthesized {node inner : Node} {prefixes : List (List Char)} : node.kind = .parenthesized →
      node.significantChildren = [inner] → HasLiterals source inner prefixes →
      HasLiterals source node prefixes

/-- One expression is another one in any number of parentheses. -/
inductive Node.Encloses : Node → Node → Prop where
  | self (node : Node) : Encloses node node
  | layer {outer inner node : Node} : outer.kind = .parenthesized →
      outer.significantChildren = [inner] → Encloses inner node → Encloses outer node

section

variable {source : List Char} {node : Node}

theorem Node.valuesAmong_children (source : List Char) (node : Node) :
    valuesAmong source node.children = node.significantChildren.map (Node.value source) :=
  valuesAmong_eq source node.children

theorem Node.value_of_string (hkind : node.kind = .string) {letters : List Char}
    (hletters : HasLetters (node.text source) letters) :
    node.value source = Value.ofLetters letters := by
  rw [value_eq, hkind]
  exact ofLiteral_eq hletters

/-- Parentheses around a single expression do not change its value. -/
theorem Node.value_of_parenthesized {inner : Node} (hkind : node.kind = .parenthesized)
    (hinner : node.significantChildren = [inner]) : node.value source = inner.value source := by
  rw [value_eq, hkind]
  dsimp only
  rw [Node.valuesAmong_children, hinner]
  rfl

theorem HaveLetters.map_value {parts : List Node} {prefixes : List (List Char)}
    (hparts : HaveLetters source parts prefixes) :
    parts.map (Node.value source) = prefixes.map Value.ofLetters := by
  induction hparts with
  | nil => rfl
  | cons hpart _ ih =>
      rw [List.map_cons, List.map_cons, Node.value_of_string hpart.1 hpart.2, ih]

theorem haveLetters_of_string {parts : List Node} (hparts : ∀ part ∈ parts, part.kind = .string) :
    HaveLetters source parts (parts.map fun part => literalLetters (part.text source)) := by
  rw [HaveLetters, List.forall₂_map_right_iff, List.forall₂_same]
  exact fun part hpart => ⟨hparts part hpart, hasLetters_literalLetters _⟩

theorem Node.HasLiterals.value_eq {prefixes : List (List Char)}
    (hliterals : node.HasLiterals source prefixes) :
    node.value source = Value.ofLiterals prefixes := by
  induction hliterals with
  | literal hkind hletters => rw [Node.value_of_string hkind hletters, ofLiterals_singleton]
  | adjacent hkind hsome hparts =>
      rw [Node.value_eq, hkind]
      dsimp only
      rw [Node.valuesAmong_children, hparts.map_value, ofParts_map_ofLetters hsome]
  | parenthesized hkind hinner _ ih => rw [Node.value_of_parenthesized hkind hinner, ih]

/-- Expressions that are no strings have no value that matters. -/
theorem Node.value_eq_other
    (hadjacent : ∀ inner ∈ node.preorder, inner.kind = .concatenatedString →
      inner.significantChildren ≠ [] ∧ ∀ part ∈ inner.significantChildren, part.kind = .string)
    (hnone : ∀ prefixes, ¬node.HasLiterals source prefixes) : node.value source = .other := by
  induction node using Node.forall_of_children with
  | step node ih =>
      rw [value_eq]
      split
      case h_1 hkind =>
        rw [Node.valuesAmong_children]
        match hinner : node.significantChildren with
        | [] => rfl
        | [inner] =>
            have hmem : inner ∈ node.children :=
              List.mem_of_mem_filter (hinner ▸ List.mem_singleton_self inner)
            refine ih inner hmem ?_ fun prefixes hprefixes => ?_
            · exact fun other hother => hadjacent other (mem_preorder_of_mem_children hmem hother)
            · exact hnone prefixes (.parenthesized hkind hinner hprefixes)
        | _ :: _ :: _ => rfl
      case h_2 hkind =>
        exact absurd (.literal hkind (hasLetters_literalLetters _)) (hnone _)
      case h_3 hkind =>
        obtain ⟨hsome, hparts⟩ := hadjacent node node.mem_preorder_self hkind
        refine absurd (.adjacent hkind ?_ (haveLetters_of_string hparts)) (hnone _)
        simpa using hsome
      case h_4 => rfl

theorem Node.Encloses.value_eq {outer : Node} (hencloses : outer.Encloses node) :
    outer.value source = node.value source := by
  induction hencloses with
  | self => rfl
  | layer hkind hinner _ ih => rw [Node.value_of_parenthesized hkind hinner, ih]

/-- Every expression has one value.  A string expression has the value that the letters of its
literals tell, whatever their order and whatever stands between the quotation marks: it is
formatted if one of them is, bytes if all of them are, and plain text if none of them is bytes.
Any other expression has no value that matters, and parentheses make no difference. -/
theorem value_of_literals
    (hadjacent : ∀ inner ∈ node.preorder, inner.kind = .concatenatedString →
      inner.significantChildren ≠ [] ∧ ∀ part ∈ inner.significantChildren, part.kind = .string) :
    (∀ prefixes, node.HasLiterals source prefixes →
      node.value source =
        if ∃ letters ∈ prefixes, AreFormatted letters then .formatted
        else if ∀ letters ∈ prefixes, AreBytes letters then .bytes
        else if ∀ letters ∈ prefixes, ¬AreBytes letters then .text
        else .other) ∧
    ((∀ prefixes, ¬node.HasLiterals source prefixes) → node.value source = .other) ∧
    ∀ outer : Node, outer.Encloses node → outer.value source = node.value source :=
  ⟨fun _ hliterals => hliterals.value_eq, Node.value_eq_other hadjacent,
    fun _ hencloses => hencloses.value_eq⟩

end

/-- Two adjacent bytes literals in parentheses, with a comment between them and an `f` and a
quotation mark of the other kind behind the first letters. -/
def bytesSource : List Char :=
  "(rb'f\x22' # f\n B\x22\x22)\n".toList

theorem value_of_literals_bytesSource :
    ∃ node ∈ (syntaxTree bytesSource).preorder,
      node.HasLiterals bytesSource [['r', 'b'], ['B']] ∧ node.value bytesSource = .bytes ∧
        ∀ outer : Node, outer.Encloses node → outer.value bytesSource = .bytes := by
  have hparts : ∀ node ∈ (syntaxTree bytesSource).preorder, node.kind = .concatenatedString →
      node.significantChildren ≠ [] ∧
        ∀ part ∈ node.significantChildren, part.kind = .string := by
    decide +kernel
  obtain ⟨node, hmem, hkind, hprefixes⟩ : ∃ node ∈ (syntaxTree bytesSource).preorder,
      node.kind = .concatenatedString ∧
        node.significantChildren.map (fun part => literalLetters (part.text bytesSource)) =
          [['r', 'b'], ['B']] := by
    decide +kernel
  have hliterals : node.HasLiterals bytesSource [['r', 'b'], ['B']] := by
    refine .adjacent hkind (by decide) ?_
    rw [← hprefixes]
    exact haveLetters_of_string (hparts node hmem hkind).2
  obtain ⟨hvalue, -, hencloses⟩ := value_of_literals fun inner hinner =>
    hparts inner (Node.mem_preorder_trans hmem hinner)
  have hbytes : node.value bytesSource = .bytes := (hvalue _ hliterals).trans (by decide)
  exact ⟨node, hmem, hliterals, hbytes, fun outer houter => (hencloses outer houter).trans hbytes⟩

end Untested.Python
