/-
# Words and fields

The words of a text split at every blank, and everything else about them follows from that.  The
fields of a text are its words as long as there are few enough of them; a text that is laid out
as words with gaps in between gives back its words, and the rest of it as one last field.
-/

import Untested.Text.Blank
import Mathlib.Data.List.DropRight
import Mathlib.Data.List.TakeWhile

namespace Untested.Text

/-- A text without a blank in it, which may be a word. -/
def IsSolid (text : List Char) : Prop :=
  ∀ c ∈ text, isBlank c = false

/-- A text of blanks only, which may be a gap between words. -/
def IsGap (text : List Char) : Prop :=
  ∀ c ∈ text, isBlank c = true

instance (text : List Char) : Decidable (IsSolid text) :=
  List.decidableBAll (fun c => isBlank c = false) text

instance (text : List Char) : Decidable (IsGap text) :=
  List.decidableBAll (fun c => isBlank c = true) text

/-! ## Trimming -/

theorem trimStart_append_of_isGap {gap : List Char} (hgap : IsGap gap) (rest : List Char) :
    trimStart (gap ++ rest) = trimStart rest :=
  List.dropWhile_append_of_pos hgap

theorem trimStart_cons_of_not_blank {c : Char} (hc : isBlank c = false) (rest : List Char) :
    trimStart (c :: rest) = c :: rest :=
  List.dropWhile_cons_of_neg (by simp [hc])

theorem trimStart_eq_self {text : List Char}
    (hhead : ∀ c ∈ text.head?, isBlank c = false) : trimStart text = text := by
  cases text with
  | nil => rfl
  | cons c rest => exact trimStart_cons_of_not_blank (hhead c rfl) rest

/-- Trimming leaves no blank at the start. -/
theorem isBlank_of_trimStart_eq_cons {text : List Char} {c : Char} {rest : List Char}
    (htext : trimStart text = c :: rest) : isBlank c = false := by
  have := List.head?_dropWhile_not isBlank text
  rw [← trimStart, htext] at this
  simpa using this

@[simp]
theorem trimStart_trimStart (text : List Char) : trimStart (trimStart text) = trimStart text :=
  List.dropWhile_idempotent _ _

theorem trimEnd_eq_self {text : List Char}
    (hlast : ∀ c ∈ text.getLast?, isBlank c = false) : trimEnd text = text := by
  rw [trimEnd]
  have : trimStart text.reverse = text.reverse :=
    trimStart_eq_self (by rwa [List.head?_reverse])
  rw [← trimStart, this, List.reverse_reverse]

/-- A text that neither starts nor ends with a blank stays as it is. -/
theorem trim_eq_self {text : List Char} (hhead : ∀ c ∈ text.head?, isBlank c = false)
    (hlast : ∀ c ∈ text.getLast?, isBlank c = false) : trim text = text := by
  rw [trim, trimStart_eq_self hhead, trimEnd_eq_self hlast]

/-- Trimming leaves no blank at the end. -/
theorem isBlank_getLast_trimEnd (text : List Char) :
    ∀ c ∈ (trimEnd text).getLast?, isBlank c = false := by
  intro c hc
  rw [trimEnd, List.getLast?_reverse, Option.mem_def] at hc
  have := List.head?_dropWhile_not isBlank text.reverse
  rw [hc] at this
  exact this

theorem exists_gap_trimEnd (text : List Char) :
    ∃ gap, IsGap gap ∧ text = trimEnd text ++ gap := by
  refine ⟨(text.reverse.takeWhile isBlank).reverse, fun c hc => ?_, ?_⟩
  · rw [List.mem_reverse] at hc
    exact List.mem_takeWhile_imp hc
  · rw [trimEnd, ← List.reverse_append, List.takeWhile_append_dropWhile, List.reverse_reverse]

theorem exists_gap_trimStart (text : List Char) :
    ∃ gap, IsGap gap ∧ text = gap ++ trimStart text :=
  ⟨text.takeWhile isBlank, fun _ hc => List.mem_takeWhile_imp hc,
    (List.takeWhile_append_dropWhile).symm⟩

@[simp]
theorem trimStart_trim (text : List Char) : trimStart (trim text) = trim text := by
  apply trimStart_eq_self
  intro c hc
  obtain ⟨gap, hgap, hsplit⟩ := exists_gap_trimEnd (trimStart text)
  rw [← trim] at hsplit
  obtain ⟨rest, htrim⟩ := List.head?_eq_some_iff.1 hc
  rw [htrim, List.cons_append] at hsplit
  exact isBlank_of_trimStart_eq_cons hsplit

theorem trimEnd_append_of_isGap {gap : List Char} (hgap : IsGap gap) (text : List Char) :
    trimEnd (text ++ gap) = trimEnd text := by
  rw [trimEnd, List.reverse_append,
    List.dropWhile_append_of_pos fun c hc => hgap c (List.mem_reverse.1 hc)]
  rfl

/-- Blanks behind a text are trimmed away. -/
theorem trim_append_of_isGap {gap : List Char} (hgap : IsGap gap) (text : List Char) :
    trim (text ++ gap) = trim text := by
  have hstart : trimStart (text ++ gap) = trimStart text ++ gap ∨
      trimStart text = [] ∧ trimStart (text ++ gap) = [] := by
    simp only [trimStart, List.dropWhile_append]
    split
    · rename_i hnil
      exact .inr ⟨List.isEmpty_iff.1 hnil, List.dropWhile_eq_nil_iff.2 hgap⟩
    · exact .inl rfl
  rcases hstart with hstart | ⟨hnil, hstart⟩
  · rw [trim, hstart, trimEnd_append_of_isGap hgap, trim]
  · rw [trim, hstart, trim, hnil]

/-! ## Words -/

/-- Words split at a blank, also where a word is open. -/
theorem words_go_append_blank {c : Char} (hc : isBlank c = true) (first second : List Char)
    (letters : List Char) :
    words.go letters (first ++ c :: second) = words.go letters first ++ words second := by
  induction first generalizing letters with
  | nil =>
      simp only [List.nil_append, words.go, if_pos hc]
      split <;> rfl
  | cons d first ih =>
      rw [List.cons_append, words.go, words.go]
      split
      · split
        · exact ih []
        · rw [ih [], List.cons_append]
      · exact ih (d :: letters)

theorem words_append_blank {c : Char} (hc : isBlank c = true) (first second : List Char) :
    words (first ++ c :: second) = words first ++ words second :=
  words_go_append_blank hc first second []

theorem words_of_isGap {gap : List Char} (hgap : IsGap gap) : words gap = [] := by
  induction gap with
  | nil => rfl
  | cons c gap ih =>
      rw [show c :: gap = [] ++ c :: gap from rfl,
        words_append_blank (hgap c List.mem_cons_self),
        ih fun d hd => hgap d (List.mem_cons_of_mem c hd)]
      rfl

theorem words_gap_append {gap : List Char} (hgap : IsGap gap) (text : List Char) :
    words (gap ++ text) = words text := by
  rcases List.eq_nil_or_concat gap with rfl | ⟨front, c, rfl⟩
  · rfl
  · rw [List.concat_eq_append] at *
    rw [List.append_assoc, List.singleton_append, words_append_blank (hgap c (by simp)),
      words_of_isGap fun d hd => hgap d (by simp [hd]), List.nil_append]

theorem words_append_gap {gap : List Char} (hgap : IsGap gap) (text : List Char) :
    words (text ++ gap) = words text := by
  cases gap with
  | nil => rw [List.append_nil]
  | cons c gap =>
      rw [words_append_blank (hgap c List.mem_cons_self),
        words_of_isGap fun d hd => hgap d (List.mem_cons_of_mem c hd), List.append_nil]

@[simp]
theorem words_trimStart (text : List Char) : words (trimStart text) = words text := by
  obtain ⟨gap, hgap, heq⟩ := exists_gap_trimStart text
  conv_rhs => rw [heq]
  rw [words_gap_append hgap]

@[simp]
theorem words_trimEnd (text : List Char) : words (trimEnd text) = words text := by
  obtain ⟨gap, hgap, heq⟩ := exists_gap_trimEnd text
  conv_rhs => rw [heq]
  rw [words_append_gap hgap]

@[simp]
theorem words_trim (text : List Char) : words (trim text) = words text := by
  rw [trim, words_trimEnd, words_trimStart]

/-- The letters of an open word go into it up to the next blank. -/
theorem words_go_of_isSolid {word : List Char} (hword : IsSolid word) (letters : List Char)
    (hne : letters ++ word ≠ []) : words.go letters word = [letters.reverse ++ word] := by
  induction word generalizing letters with
  | nil =>
      rw [List.append_nil] at hne
      rw [words.go, if_neg (by simpa using hne), List.append_nil]
  | cons c word ih =>
      have hc : ¬ isBlank c = true := by simp [hword c List.mem_cons_self]
      rw [words.go, if_neg hc, ih (fun d hd => hword d (List.mem_cons_of_mem c hd)) _ (by simp),
        List.reverse_cons, List.append_assoc, List.singleton_append]

theorem words_of_isSolid {word : List Char} (hword : IsSolid word) (hne : word ≠ []) :
    words word = [word] := by
  rw [words, words_go_of_isSolid hword [] (by simpa using hne)]
  rfl

/-! ## The leading word -/

/-- Whatever follows the leading word starts with a blank. -/
theorem isBlank_head_dropWhile (text : List Char) :
    ∀ c ∈ (text.dropWhile fun c => !isBlank c).head?, isBlank c = true := by
  intro c hc
  by_contra hblank
  have := List.head?_dropWhile_not (fun c => !isBlank c) text
  rw [Option.mem_def] at hc
  rw [hc] at this
  simp [hblank] at this

theorem isSolid_leadingWord (text : List Char) : IsSolid (leadingWord text) := by
  intro c hc
  have := List.mem_takeWhile_imp hc
  simpa using this

theorem leadingWord_append {word rest : List Char} (hword : IsSolid word)
    (hrest : ∀ c ∈ rest.head?, isBlank c = true) : leadingWord (word ++ rest) = word := by
  have hall : ∀ c ∈ word, (!isBlank c) = true := fun c hc => by simp [hword c hc]
  rw [leadingWord, List.takeWhile_append_of_pos hall]
  cases rest with
  | nil => rw [List.takeWhile_nil, List.append_nil]
  | cons c rest => rw [List.takeWhile_cons_of_neg (by simp [hrest c rfl]), List.append_nil]

theorem afterLeadingWord_append {word rest : List Char} (hword : IsSolid word)
    (hrest : ∀ c ∈ rest.head?, isBlank c = true) :
    afterLeadingWord (word ++ rest) = trimStart rest := by
  have hall : ∀ c ∈ word, (!isBlank c) = true := fun c hc => by simp [hword c hc]
  rw [afterLeadingWord, List.dropWhile_append_of_pos hall]
  cases rest with
  | nil => rfl
  | cons c rest => rw [List.dropWhile_cons_of_neg (by simp [hrest c rfl])]

/-- The words of a text that starts with one are that word and the words behind it. -/
theorem words_cons_of_not_blank {c : Char} (hc : isBlank c = false) (rest : List Char) :
    words (c :: rest) = leadingWord (c :: rest) :: words (afterLeadingWord (c :: rest)) := by
  have hsplit : c :: rest = leadingWord (c :: rest) ++ (c :: rest).dropWhile fun d => !isBlank d :=
    (List.takeWhile_append_dropWhile).symm
  have hne : leadingWord (c :: rest) ≠ [] := by
    rw [leadingWord, List.takeWhile_cons_of_pos (by simp [hc])]
    exact List.cons_ne_nil _ _
  have hword := words_of_isSolid (isSolid_leadingWord (c :: rest)) hne
  rw [afterLeadingWord, words_trimStart]
  conv_lhs => rw [hsplit]
  have hblank := isBlank_head_dropWhile (c :: rest)
  cases hrest : (c :: rest).dropWhile fun d => !isBlank d with
  | nil => rw [List.append_nil, hword]; rfl
  | cons d more =>
      rw [hrest] at hblank
      have hd := hblank d rfl
      rw [words_append_blank hd, hword, show d :: more = [] ++ d :: more from rfl,
        words_append_blank hd]
      rfl

/-! ## Fields -/

@[simp]
theorem fields_trimStart (limit : Nat) (text : List Char) :
    fields limit (trimStart text) = fields limit text := by
  rw [fields.eq_def, fields.eq_def limit text]
  simp only [trimStart_trimStart]

/-- A word with a gap behind it is a field, as long as there may be more fields. -/
theorem fields_word_append {word gap : List Char} (hword : IsSolid word) (hne : word ≠ [])
    (hgap : IsGap gap) (hgap' : gap ≠ []) (limit : Nat) (rest : List Char) :
    fields (limit + 1) (word ++ (gap ++ rest)) = word :: fields limit rest := by
  obtain ⟨c, word, rfl⟩ := List.exists_cons_of_ne_nil hne
  obtain ⟨d, gap, rfl⟩ := List.exists_cons_of_ne_nil hgap'
  have hblank : ∀ e ∈ (d :: gap ++ rest).head?, isBlank e = true := fun e he => by
    rw [List.cons_append, List.head?_cons, Option.mem_some_iff] at he
    exact he ▸ hgap d List.mem_cons_self
  have hstart : trimStart (c :: word ++ (d :: gap ++ rest)) = c :: (word ++ (d :: gap ++ rest)) :=
    trimStart_cons_of_not_blank (hword c List.mem_cons_self) _
  rw [fields, hstart]
  dsimp only
  rw [← List.cons_append, leadingWord_append hword hblank, afterLeadingWord_append hword hblank,
    trimStart_append_of_isGap hgap, fields_trimStart]

/-- When there may be no more fields, what is left is the last one. -/
theorem fields_zero_of_not_blank {c : Char} (hc : isBlank c = false) (rest : List Char) :
    fields 0 (c :: rest) = [c :: rest] := by
  rw [fields, trimStart_cons_of_not_blank hc]

/-- The fields of a text with few enough words are its words. -/
theorem fields_eq_words {limit : Nat} {text : List Char}
    (hfew : (words text).length ≤ limit) : fields limit text = words text := by
  induction limit generalizing text with
  | zero =>
      rw [← words_trimStart] at hfew ⊢
      rw [fields]
      cases hstart : trimStart text with
      | nil => rfl
      | cons c rest =>
          rw [hstart] at hfew
          have hc := isBlank_of_trimStart_eq_cons hstart
          rw [words_cons_of_not_blank hc, List.length_cons] at hfew
          omega
  | succ limit ih =>
      rw [← words_trimStart] at hfew ⊢
      rw [fields]
      cases hstart : trimStart text with
      | nil => rfl
      | cons c rest =>
          rw [hstart] at hfew
          have hc := isBlank_of_trimStart_eq_cons hstart
          rw [words_cons_of_not_blank hc, List.length_cons] at hfew
          dsimp only
          rw [words_cons_of_not_blank hc, ih (by omega)]

/-- What is left of a text that starts with a word when its first words are left out. -/
def fromWord : Nat → List Char → List Char
  | 0, text => text
  | count + 1, text => fromWord count (afterLeadingWord text)

/-- The fields of a text with more words are the first ones, and then the text from the next word
on. -/
theorem fields_eq_take_append {limit : Nat} {text : List Char}
    (hmany : limit < (words text).length) :
    fields limit text = (words text).take limit ++ [fromWord limit (trimStart text)] := by
  induction limit generalizing text with
  | zero =>
      rw [fields]
      cases hstart : trimStart text with
      | nil =>
          rw [← words_trimStart, hstart] at hmany
          exact absurd hmany (Nat.lt_irrefl 0)
      | cons c rest => rfl
  | succ limit ih =>
      rw [← words_trimStart] at hmany ⊢
      rw [fields]
      cases hstart : trimStart text with
      | nil =>
          rw [hstart] at hmany
          exact absurd hmany (Nat.not_lt_zero _)
      | cons c rest =>
          have hc := isBlank_of_trimStart_eq_cons hstart
          rw [hstart, words_cons_of_not_blank hc, List.length_cons] at hmany
          dsimp only
          rw [ih (by omega), words_cons_of_not_blank hc, List.take_succ_cons, List.cons_append,
            fromWord]
          rw [afterLeadingWord, trimStart_trimStart]

theorem words_afterLeadingWord {text : List Char} (hstart : trimStart text = text) :
    words (afterLeadingWord text) = (words text).tail := by
  cases text with
  | nil => rfl
  | cons c rest =>
      rw [words_cons_of_not_blank (isBlank_of_trimStart_eq_cons hstart), List.tail_cons]

@[simp]
theorem trimStart_afterLeadingWord (text : List Char) :
    trimStart (afterLeadingWord text) = afterLeadingWord text := by
  rw [afterLeadingWord, trimStart_trimStart]

theorem afterLeadingWord_suffix (text : List Char) : afterLeadingWord text <:+ text :=
  (List.dropWhile_suffix _).trans (List.dropWhile_suffix _)

/-- The text from a word on has the words from there on. -/
theorem words_fromWord {text : List Char} (hstart : trimStart text = text) (count : Nat) :
    words (fromWord count text) = (words text).drop count := by
  induction count generalizing text with
  | zero => rfl
  | succ count ih =>
      rw [fromWord, ih (trimStart_afterLeadingWord text), words_afterLeadingWord hstart,
        List.drop_tail]

theorem fromWord_suffix (count : Nat) (text : List Char) : fromWord count text <:+ text := by
  induction count generalizing text with
  | zero => exact List.suffix_refl text
  | succ count ih => exact (ih (afterLeadingWord text)).trans (afterLeadingWord_suffix text)

theorem trimStart_fromWord {text : List Char} (hstart : trimStart text = text) (count : Nat) :
    trimStart (fromWord count text) = fromWord count text := by
  induction count generalizing text with
  | zero => exact hstart
  | succ count ih => exact ih (trimStart_afterLeadingWord text)

/-- In a trimmed text the text from a word on is trimmed too. -/
theorem trim_fromWord_trim (count : Nat) (text : List Char) :
    trim (fromWord count (trim text)) = fromWord count (trim text) := by
  rw [trim, trimStart_fromWord (trimStart_trim text)]
  apply trimEnd_eq_self
  intro c hc
  obtain ⟨front, hfront⟩ := fromWord_suffix count (trim text)
  have hlast : c ∈ (trim text).getLast? := by
    rw [← hfront, List.getLast?_append, Option.mem_def.1 hc]
    rfl
  exact isBlank_getLast_trimEnd _ c hlast

/-! ## Pieces -/

theorem splitAt_ne_nil (separator : Char) (text : List Char) : splitAt separator text ≠ [] := by
  cases text with
  | nil => exact List.cons_ne_nil _ _
  | cons c rest =>
      rw [splitAt]
      split
      · exact List.cons_ne_nil _ _
      · split <;> exact List.cons_ne_nil _ _

theorem splitAt_of_not_mem {separator : Char} {text : List Char} (hmem : separator ∉ text) :
    splitAt separator text = [text] := by
  induction text with
  | nil => rfl
  | cons c rest ih =>
      rw [List.mem_cons, not_or] at hmem
      rw [splitAt, if_neg (Ne.symm hmem.1), ih hmem.2]

/-- The piece before the first separator is split off. -/
theorem splitAt_append {separator : Char} {piece : List Char} (hmem : separator ∉ piece)
    (rest : List Char) :
    splitAt separator (piece ++ separator :: rest) = piece :: splitAt separator rest := by
  induction piece with
  | nil => rw [List.nil_append, splitAt, if_pos rfl]
  | cons c piece ih =>
      rw [List.mem_cons, not_or] at hmem
      rw [List.cons_append, splitAt, if_neg (Ne.symm hmem.1), ih hmem.2]

/-- The first piece reaches up to the first separator. -/
theorem exists_splitAt_eq_cons (separator : Char) (text : List Char) :
    ∃ pieces, splitAt separator text = text.takeWhile (· ≠ separator) :: pieces := by
  induction text with
  | nil => exact ⟨[], rfl⟩
  | cons c rest ih =>
      obtain ⟨pieces, hsplit⟩ := ih
      rw [splitAt]
      split
      · rename_i hc
        exact ⟨_, by rw [List.takeWhile_cons_of_neg (by simpa using hc)]⟩
      · rename_i hc
        rw [hsplit, List.takeWhile_cons_of_pos (by simpa using hc)]
        exact ⟨pieces, rfl⟩

/-- With the separator put back between them, the pieces of a text are the text. -/
theorem intercalate_splitAt (separator : Char) (text : List Char) :
    [separator].intercalate (splitAt separator text) = text := by
  induction text with
  | nil => rfl
  | cons c rest ih =>
      obtain ⟨piece, pieces, hsplit⟩ := List.exists_cons_of_ne_nil (splitAt_ne_nil separator rest)
      rw [hsplit] at ih
      rw [splitAt, hsplit]
      split
      · rename_i hc
        rw [hc]
        exact congrArg (separator :: ·) ih
      · cases pieces with
        | nil => exact congrArg (c :: ·) ih
        | cons next pieces => exact congrArg (c :: ·) ih

theorem not_mem_of_mem_splitAt {separator : Char} {text piece : List Char}
    (hpiece : piece ∈ splitAt separator text) : separator ∉ piece := by
  induction text generalizing piece with
  | nil =>
      rw [List.mem_singleton.1 hpiece]
      exact List.not_mem_nil
  | cons c rest ih =>
      rw [splitAt] at hpiece
      split at hpiece
      · rcases List.mem_cons.1 hpiece with rfl | hpiece
        · exact List.not_mem_nil
        · exact ih hpiece
      · rename_i hc
        obtain ⟨first, pieces, hsplit⟩ :=
          List.exists_cons_of_ne_nil (splitAt_ne_nil separator rest)
        rw [hsplit] at hpiece ih
        rcases List.mem_cons.1 hpiece with rfl | hpiece
        · rw [List.mem_cons, not_or]
          exact ⟨Ne.symm hc, ih List.mem_cons_self⟩
        · exact ih (List.mem_cons_of_mem _ hpiece)

theorem splitOnce?_of_not_mem {separator : Char} {text : List Char} (hmem : separator ∉ text) :
    splitOnce? separator text = none := by
  induction text with
  | nil => rfl
  | cons c rest ih =>
      rw [List.mem_cons, not_or] at hmem
      rw [splitOnce?, if_neg (Ne.symm hmem.1), ih hmem.2, Option.map_none]

/-- The two sides of a separator that the left side does not contain. -/
theorem splitOnce?_append {separator : Char} {left : List Char} (hmem : separator ∉ left)
    (right : List Char) :
    splitOnce? separator (left ++ separator :: right) = some (left, right) := by
  induction left with
  | nil => rw [List.nil_append, splitOnce?, if_pos rfl]
  | cons c left ih =>
      rw [List.mem_cons, not_or] at hmem
      rw [List.cons_append, splitOnce?, if_neg (Ne.symm hmem.1), ih hmem.2, Option.map_some]

end Untested.Text
