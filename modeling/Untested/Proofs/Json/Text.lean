/-
# Strings are read back

A string is written with escapes and read in two passes.  Whatever the characters of a text are,
each of them comes back from its escape: the first pass finds one item for it, from which the
second pass makes the character.
-/

import Untested.Json.Text

namespace Untested.JsonText

/-- The digits of a control character denote its value. -/
theorem unitValue?_hexDigit : ∀ value < 0x20,
    unitValue? (some '0') (some '0') (some (hexDigit (value / 16))) (some (hexDigit (value % 16))) =
      some value := by
  decide

/-- A unit of a control character is that character. -/
theorem assemble_unit {c : Char} (hcontrol : c.toNat < 0x20) (items : List Item) :
    assemble (.unit c.toNat :: items) = (assemble items).map (c :: ·) := by
  have hleading : isLeading c.toNat = false := by
    simp only [isLeading, Bool.and_eq_false_iff, decide_eq_false_iff_not]
    omega
  have htrailing : isTrailing c.toNat = false := by
    simp only [isTrailing, Bool.and_eq_false_iff, decide_eq_false_iff_not]
    omega
  rw [assemble.eq_def]
  simp only [hleading, htrailing]
  rw [if_neg (by decide), if_neg (by decide), Char.ofNat_toNat]

theorem assemble_plain (c : Char) (items : List Item) :
    assemble (.plain (some c) :: items) = (assemble items).map (c :: ·) := by
  rw [assemble]
  cases assemble items <;> rfl

/-- A letter behind a backslash is read as the character that it stands for. -/
theorem readItems_letter {letter c : Char} (hletter : escaped? letter = some c)
    (hunit : letter ≠ 'u') (rest : Source) :
    readItems (some '\\' :: some letter :: rest) =
      (readItems rest).map fun result => (.plain (some c) :: result.1, result.2) := by
  rw [readItems]
  · rw [hletter]
    cases readItems rest <;> rfl
  · exact fun _ _ _ _ _ _ heq => hunit heq

/-- The escape of a control character is read as a unit. -/
theorem readItems_unit {value : Nat} (hcontrol : value < 0x20) (rest : Source) :
    readItems
        (['\\', 'u', '0', '0', hexDigit (value / 16), hexDigit (value % 16)].map some ++ rest) =
      (readItems rest).map fun result => (.unit value :: result.1, result.2) := by
  simp only [List.map_cons, List.map_nil, List.cons_append, List.nil_append]
  rw [readItems, unitValue?_hexDigit value hcontrol]
  cases readItems rest <;> rfl

/-- A character without an escape is read as itself. -/
theorem readItems_plain {c : Char} (hquote : c ≠ '\x22') (hbackslash : c ≠ '\\')
    (hcontrol : ¬ c.toNat < 0x20) (rest : Source) :
    readItems (some c :: rest) =
      (readItems rest).map fun result => (.plain (some c) :: result.1, result.2) := by
  have hplain : isControl (some c) = false := decide_eq_false hcontrol
  rw [readItems]
  · rw [hplain, if_neg (by decide)]
    cases readItems rest <;> rfl
  all_goals simp_all

/-- The ways in which a character is written inside a string. -/
inductive IsEscape (c : Char) : List Char → Prop
  /-- As a letter behind a backslash. -/
  | letter {letter : Char} : escaped? letter = some c → letter ≠ 'u' → IsEscape c ['\\', letter]
  /-- As a unit of four digits. -/
  | unit : c.toNat < 0x20 →
      IsEscape c ['\\', 'u', '0', '0', hexDigit (c.toNat / 16), hexDigit (c.toNat % 16)]
  /-- As itself. -/
  | plain : c ≠ '\x22' → c ≠ '\\' → ¬ c.toNat < 0x20 → IsEscape c [c]

theorem isEscape_escape (c : Char) : IsEscape c (escape c) := by
  fun_cases escape c with
  | case1 h => exact .letter (by rw [h]; rfl) (by decide)
  | case2 _ h => exact .letter (by rw [h]; rfl) (by decide)
  | case3 _ _ h => exact .letter (by rw [h]; rfl) (by decide)
  | case4 _ _ _ h => exact .letter (by rw [h]; rfl) (by decide)
  | case5 _ _ _ _ h => exact .letter (by rw [h]; rfl) (by decide)
  | case6 _ _ _ _ _ h => exact .letter (by rw [h]; rfl) (by decide)
  | case7 _ _ _ _ _ _ h => exact .letter (by rw [h]; rfl) (by decide)
  | case8 _ _ _ _ _ _ _ hcontrol => exact .unit hcontrol
  | case9 hquote hbackslash _ _ _ _ _ hcontrol => exact .plain hquote hbackslash hcontrol

/-- What is written for a character is read as one item, which stands for the character. -/
theorem IsEscape.readItems_append {c : Char} {text : List Char} (h : IsEscape c text) : ∃ item,
    (∀ rest, readItems (text.map some ++ rest) =
      (readItems rest).map fun result => (item :: result.1, result.2)) ∧
    ∀ items, assemble (item :: items) = (assemble items).map (c :: ·) := by
  cases h with
  | letter hletter hunit => exact ⟨_, readItems_letter hletter hunit, assemble_plain c⟩
  | unit hcontrol => exact ⟨_, readItems_unit hcontrol, assemble_unit hcontrol⟩
  | plain hquote hbackslash hcontrol =>
      exact ⟨_, readItems_plain hquote hbackslash hcontrol, assemble_plain c⟩

/-- A text between its marks is read back, whatever follows it. -/
theorem readItems_flatMap_escape (text : List Char) (rest : Source) : ∃ items,
    readItems ((text.flatMap escape).map some ++ some '\x22' :: rest) = some (items, rest) ∧
      assemble items = some text := by
  induction text with
  | nil => exact ⟨[], by rw [List.flatMap_nil, List.map_nil, List.nil_append, readItems], rfl⟩
  | cons c text ih =>
      obtain ⟨items, hitems, htext⟩ := ih
      obtain ⟨item, hitem, hc⟩ := (isEscape_escape c).readItems_append
      refine ⟨item :: items, ?_, ?_⟩
      · rw [List.flatMap_cons, List.map_append, List.append_assoc, hitem, hitems]
        rfl
      · rw [hc, htext]
        rfl

end Untested.JsonText
