/-
# Columns of a row

A row with few words has its words for columns.  In a longer one the last column is all that is
left when the others are taken away: the text from the next word on, with the blanks inside it and
behind it.  No other part of the row that reaches to its end starts with that word, because it
would have more letters or fewer.
-/

import Untested.Proofs.Text.Fields

namespace Untested.Text

/-! ## Words -/

/-- Words are not empty and have no blank in them. -/
theorem forall_mem_words_go {letters : List Char} (hletters : IsSolid letters)
    (text : List Char) : ∀ word ∈ words.go letters text, word ≠ [] ∧ IsSolid word := by
  have hopen : letters.isEmpty = false → letters.reverse ≠ [] ∧ IsSolid letters.reverse :=
    fun hne => ⟨by simpa using hne, fun c hc => hletters c (List.mem_reverse.1 hc)⟩
  induction text generalizing letters with
  | nil =>
      rw [words.go]
      split
      · exact fun _ hword => absurd hword List.not_mem_nil
      · rename_i hne
        exact List.forall_mem_singleton.2 (hopen (Bool.eq_false_iff.2 hne))
  | cons c rest ih =>
      have hrest : ∀ word ∈ words.go [] rest, word ≠ [] ∧ IsSolid word :=
        ih (fun _ hc => absurd hc List.not_mem_nil) (by simp)
      rw [words.go]
      split
      · split
        · exact hrest
        · rename_i hne
          exact List.forall_mem_cons.2 ⟨hopen (Bool.eq_false_iff.2 hne), hrest⟩
      · rename_i hblank
        have hsolid : IsSolid (c :: letters) :=
          List.forall_mem_cons.2 ⟨Bool.eq_false_iff.2 hblank, hletters⟩
        exact ih hsolid fun _ => ⟨by simp, fun d hd => hsolid d (List.mem_reverse.1 hd)⟩

theorem forall_mem_words (text : List Char) : ∀ word ∈ words text, word ≠ [] ∧ IsSolid word :=
  forall_mem_words_go (fun _ hc => absurd hc List.not_mem_nil) text

theorem flatten_words_go (letters text : List Char) :
    (words.go letters text).flatten = letters.reverse ++ text.filter fun c => !isBlank c := by
  induction text generalizing letters with
  | nil =>
      rw [words.go]
      split
      · rename_i hnil
        rw [List.isEmpty_iff.1 hnil]
        rfl
      · simp
  | cons c rest ih =>
      rw [words.go]
      split
      · rename_i hblank
        rw [List.filter_cons_of_neg (by simp [hblank])]
        split
        · rename_i hnil
          rw [List.isEmpty_iff.1 hnil, ih]
        · rw [List.flatten_cons, ih, List.reverse_nil, List.nil_append]
      · rename_i hblank
        rw [List.filter_cons_of_pos (by simp [hblank]), ih, List.reverse_cons, List.append_assoc,
          List.singleton_append]

/-- The letters of a text are those of its words. -/
theorem flatten_words (text : List Char) :
    (words text).flatten = text.filter fun c => !isBlank c :=
  flatten_words_go [] text

/-! ## The rest of a text from a word on -/

/-- What is left of a text from the word with the given number on: it reaches to the end of the
text, begins with that word, and has the words from there on. -/
structure IsFromWord (count : Nat) (text tail : List Char) : Prop where
  suffix : tail <:+ text
  begins : ∃ word, (words text)[count]? = some word ∧ word <+: tail
  words_eq : words tail = (words text).drop count

theorem IsFromWord.exists_cons {count : Nat} {text tail : List Char}
    (htail : IsFromWord count text tail) : ∃ c rest, tail = c :: rest ∧ isBlank c = false := by
  obtain ⟨word, hword, rest, rfl⟩ := htail.begins
  obtain ⟨hne, hsolid⟩ := forall_mem_words text word (List.mem_of_getElem? hword)
  obtain ⟨c, letters, rfl⟩ := List.exists_cons_of_ne_nil hne
  exact ⟨c, letters ++ rest, rfl, hsolid c List.mem_cons_self⟩

/-- Of two such parts the longer one would have more letters. -/
theorem IsFromWord.eq_of_suffix {count : Nat} {text first second : List Char}
    (hfirst : IsFromWord count text first) (hsecond : IsFromWord count text second)
    (hsuffix : first <:+ second) : first = second := by
  obtain ⟨front, rfl⟩ := hsuffix
  have hletters : first.filter (fun c => !isBlank c) =
      (front ++ first).filter fun c => !isBlank c := by
    rw [← flatten_words, ← flatten_words, hfirst.words_eq, hsecond.words_eq]
  cases front with
  | nil => rfl
  | cons d front =>
      obtain ⟨c, rest, hcons, hc⟩ := hsecond.exists_cons
      obtain rfl : d = c := (List.cons.inj hcons).1
      have hlength := congrArg List.length hletters
      rw [List.cons_append, List.filter_cons_of_pos (by simp [hc]), List.filter_append,
        List.length_cons, List.length_append] at hlength
      omega

theorem IsFromWord.eq {count : Nat} {text first second : List Char}
    (hfirst : IsFromWord count text first) (hsecond : IsFromWord count text second) :
    first = second := by
  rcases List.suffix_or_suffix_of_suffix hfirst.suffix hsecond.suffix with hsuffix | hsuffix
  · exact hfirst.eq_of_suffix hsecond hsuffix
  · exact (hsecond.eq_of_suffix hfirst hsuffix).symm

theorem isFromWord_fromWord {count : Nat} {text : List Char}
    (hmany : count < (words text).length) :
    IsFromWord count text (fromWord count (trimStart text)) := by
  have hwords : words (fromWord count (trimStart text)) = (words text).drop count := by
    rw [words_fromWord (trimStart_trimStart text), words_trimStart]
  have hstart := trimStart_fromWord (trimStart_trimStart text) count
  refine ⟨(fromWord_suffix count _).trans (List.dropWhile_suffix _), ?_, hwords⟩
  rw [List.drop_eq_getElem_cons hmany] at hwords
  cases htail : fromWord count (trimStart text) with
  | nil =>
      rw [htail] at hwords
      exact absurd hwords (List.cons_ne_nil _ _).symm
  | cons c rest =>
      rw [htail] at hwords hstart
      rw [words_cons_of_not_blank (isBlank_of_trimStart_eq_cons hstart)] at hwords
      rw [List.getElem?_eq_getElem hmany, ← (List.cons.inj hwords).1]
      exact ⟨_, rfl, List.takeWhile_prefix _⟩

/-! ## Fields -/

theorem forall_mem_fields (limit : Nat) (text : List Char) :
    ∀ field ∈ fields limit text, field ≠ [] := by
  induction limit generalizing text with
  | zero =>
      rw [fields]
      cases trimStart text with
      | nil => exact fun _ hfield => absurd hfield List.not_mem_nil
      | cons c rest => exact List.forall_mem_singleton.2 (List.cons_ne_nil c rest)
  | succ limit ih =>
      rw [fields]
      cases hstart : trimStart text with
      | nil => exact fun _ hfield => absurd hfield List.not_mem_nil
      | cons c rest =>
          have hc := isBlank_of_trimStart_eq_cons hstart
          refine List.forall_mem_cons.2 ⟨?_, ih _⟩
          rw [leadingWord, List.takeWhile_cons_of_pos (by simp [hc])]
          exact List.cons_ne_nil _ _

/-- The fields of a text are its words when these are few enough.  Otherwise they are as many words
as are allowed, and one more field that is left as it is in the text: the one part of it that
begins with the next word and reaches to the end of the text.  So there is at most one field more
than words are allowed, and no field is empty. -/
theorem fields_of_words (limit : Nat) (text : List Char) :
    ((words text).length ≤ limit ∧ fields limit text = words text ∨
      limit < (words text).length ∧ ∃ tail, (∀ other, IsFromWord limit text other ↔ other = tail) ∧
        fields limit text = (words text).take limit ++ [tail]) ∧
    (∀ field ∈ fields limit text, field ≠ []) ∧
    (fields limit text).length ≤ limit + 1 := by
  rcases Nat.lt_or_ge limit (words text).length with hmany | hfew
  · have htail := isFromWord_fromWord hmany
    have hfields := fields_eq_take_append hmany
    refine ⟨.inr ⟨hmany, _, fun other => ⟨fun hother => hother.eq htail, ?_⟩, hfields⟩,
      forall_mem_fields limit text, ?_⟩
    · rintro rfl
      exact htail
    · rw [hfields, List.length_append, List.length_take]
      exact Nat.add_le_add_right (Nat.min_le_left ..) 1
  · have hfields := fields_eq_words hfew
    refine ⟨.inl ⟨hfew, hfields⟩, forall_mem_fields limit text, ?_⟩
    rw [hfields]
    omega

/-- Blanks beyond ASCII part the words, and those behind the last column stay. -/
example : fields 4 "\u3000a.py\u00a010\t4  60%\u20285-8, 12 ".toList =
    ["a.py".toList, "10".toList, "4".toList, "60%".toList, "5-8, 12 ".toList] := by
  decide +kernel

end Untested.Text
