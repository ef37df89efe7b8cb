/-
# Texts come back from their bytes

Encoding a text and decoding the bytes gives the text again.  Bytes below 0x80 stand for
themselves alone: such a byte occurs in an encoded text exactly where its character does, so a
text may be cut at line feeds before or after it is encoded.
-/

import Untested.Text.Utf8

namespace Untested.Text

/-! ## Bytes as numbers -/

theorem toNat_ofNat_of_lt {value : Nat} (hvalue : value < 256) :
    (UInt8.ofNat value).toNat = value := by
  rw [UInt8.toNat_ofNat']
  exact Nat.mod_eq_of_lt hvalue

theorem isContinuation_ofNat {value : Nat} (hlow : 0x80 ≤ value) (hhigh : value ≤ 0xBF) :
    isContinuation (UInt8.ofNat value) = true := by
  have hvalue := toNat_ofNat_of_lt (show value < 256 by omega)
  simp only [isContinuation, Bool.and_eq_true, decide_eq_true_eq, UInt8.le_iff_toNat_le, hvalue]
  exact ⟨hlow, hhigh⟩

/-- The value of a character leaves out the surrogates. -/
theorem toNat_bounds (c : Char) :
    c.toNat < 0xD800 ∨ 0xDFFF < c.toNat ∧ c.toNat < 0x110000 :=
  c.valid

/-! ## One character -/

/-- A character below 0x80 is its own byte. -/
theorem utf8EncodeChar_of_lt {c : Char} (hc : c.toNat < 0x80) :
    String.utf8EncodeChar c = [UInt8.ofNat c.toNat] := by
  have hle : c.val.toNat ≤ 0x7f := Nat.le_of_lt_succ hc
  simp only [String.utf8EncodeChar, if_pos hle]
  rfl

/-- All bytes of a character from 0x80 on are at least 0x80. -/
theorem le_of_mem_utf8EncodeChar {c : Char} (hc : 0x80 ≤ c.toNat) {byte : UInt8}
    (hbyte : byte ∈ String.utf8EncodeChar c) : 0x80 ≤ byte.toNat := by
  have hle : ¬ c.val.toNat ≤ 0x7f := Nat.not_le.2 hc
  simp only [String.utf8EncodeChar, if_neg hle] at hbyte
  split at hbyte
  · simp only [List.mem_cons, List.not_mem_nil, or_false] at hbyte
    rcases hbyte with rfl | rfl <;> rw [toNat_ofNat_of_lt (by omega)] <;> omega
  · split at hbyte
    · simp only [List.mem_cons, List.not_mem_nil, or_false] at hbyte
      rcases hbyte with rfl | rfl | rfl <;> rw [toNat_ofNat_of_lt (by omega)] <;> omega
    · simp only [List.mem_cons, List.not_mem_nil, or_false] at hbyte
      rcases hbyte with rfl | rfl | rfl | rfl <;> rw [toNat_ofNat_of_lt (by omega)] <;> omega

theorem ofNat_lt_iff {value : Nat} (hvalue : value < 256) {bound : UInt8} :
    UInt8.ofNat value < bound ↔ value < bound.toNat := by
  rw [UInt8.lt_iff_toNat_lt, toNat_ofNat_of_lt hvalue]

theorem lt_ofNat_iff {value : Nat} (hvalue : value < 256) {bound : UInt8} :
    bound < UInt8.ofNat value ↔ bound.toNat < value := by
  rw [UInt8.lt_iff_toNat_lt, toNat_ofNat_of_lt hvalue]

theorem isSecondOfThree_ofNat {lead second : Nat} (hlead : lead < 256)
    (hlow : 0x80 ≤ second) (hhigh : second ≤ 0xBF) (hoverlong : lead = 0xE0 → 0xA0 ≤ second)
    (hsurrogate : lead = 0xED → second ≤ 0x9F) :
    isSecondOfThree (UInt8.ofNat lead) (UInt8.ofNat second) = true := by
  have hvalue := toNat_ofNat_of_lt (show second < 256 by omega)
  have hlead' := toNat_ofNat_of_lt hlead
  unfold isSecondOfThree
  split
  · rename_i heq
    have : lead = 0xE0 := by rw [← hlead', heq]; rfl
    simp only [Bool.and_eq_true, decide_eq_true_eq, UInt8.le_iff_toNat_le, hvalue]
    exact ⟨hoverlong this, hhigh⟩
  · split
    · rename_i heq
      have : lead = 0xED := by rw [← hlead', heq]; rfl
      simp only [Bool.and_eq_true, decide_eq_true_eq, UInt8.le_iff_toNat_le, hvalue]
      exact ⟨hlow, hsurrogate this⟩
    · exact isContinuation_ofNat hlow hhigh

theorem isSecondOfFour_ofNat {lead second : Nat} (hlead : lead < 256)
    (hlow : 0x80 ≤ second) (hhigh : second ≤ 0xBF) (hoverlong : lead = 0xF0 → 0x90 ≤ second)
    (hbeyond : lead = 0xF4 → second ≤ 0x8F) :
    isSecondOfFour (UInt8.ofNat lead) (UInt8.ofNat second) = true := by
  have hvalue := toNat_ofNat_of_lt (show second < 256 by omega)
  have hlead' := toNat_ofNat_of_lt hlead
  unfold isSecondOfFour
  split
  · rename_i heq
    have : lead = 0xF0 := by rw [← hlead', heq]; rfl
    simp only [Bool.and_eq_true, decide_eq_true_eq, UInt8.le_iff_toNat_le, hvalue]
    exact ⟨hoverlong this, hhigh⟩
  · split
    · rename_i heq
      have : lead = 0xF4 := by rw [← hlead', heq]; rfl
      simp only [Bool.and_eq_true, decide_eq_true_eq, UInt8.le_iff_toNat_le, hvalue]
      exact ⟨hlow, hbeyond this⟩
    · exact isContinuation_ofNat hlow hhigh

/-- The bytes of a character are read as that character, whatever follows them. -/
theorem readings_utf8EncodeChar_append (c : Char) (rest : List UInt8) :
    readings (String.utf8EncodeChar c ++ rest) = some c :: readings rest := by
  have hvalid := toNat_bounds c
  have hval : c.val.toNat = c.toNat := rfl
  have hchar : Char.ofNat c.toNat = c := Char.ofNat_toNat c
  fun_cases String.utf8EncodeChar c with
  | case1 v hle =>
      have hv : v = c.toNat := rfl
      have hlt : v < 256 := by omega
      rw [List.singleton_append, readings.eq_def]
      dsimp only
      rw [if_pos ((ofNat_lt_iff hlt).2 (by simp; omega)), toNat_ofNat_of_lt hlt, hv, hchar]
  | case2 v hnot hle =>
      have hv : v = c.toNat := rfl
      have hlead : v / 64 % 0x20 + 0xc0 < 256 := by omega
      have hsecond : v % 0x40 + 0x80 < 256 := by omega
      rw [List.cons_append, List.singleton_append, readings.eq_def]
      simp only [ofNat_lt_iff hlead, lt_ofNat_iff hlead]
      rw [if_neg (by simp), if_neg (by simp; omega), if_pos (by simp; omega),
        if_pos (isContinuation_ofNat (by omega) (by omega))]
      simp only [assemble, List.foldl_cons, List.foldl_nil, toNat_ofNat_of_lt hlead,
        toNat_ofNat_of_lt hsecond]
      rw [show (v / 64 % 0x20 + 0xc0 - 0xC0) * 64 + (v % 0x40 + 0x80 - 0x80) = c.toNat by omega,
        hchar]
  | case3 v hnot hnot' hle =>
      have hv : v = c.toNat := rfl
      have hlead : v / 4096 % 0x10 + 0xe0 < 256 := by omega
      have hsecond : v / 64 % 0x40 + 0x80 < 256 := by omega
      have hthird : v % 0x40 + 0x80 < 256 := by omega
      rw [List.cons_append, List.cons_append, List.singleton_append, readings.eq_def]
      simp only [ofNat_lt_iff hlead, lt_ofNat_iff hlead]
      rw [if_neg (by simp), if_neg (by simp; omega), if_neg (by simp), if_pos (by simp; omega),
        if_pos (isSecondOfThree_ofNat hlead (by omega) (by omega) (by omega) (by omega)),
        if_pos (isContinuation_ofNat (by omega) (by omega))]
      simp only [assemble, List.foldl_cons, List.foldl_nil, toNat_ofNat_of_lt hlead,
        toNat_ofNat_of_lt hsecond, toNat_ofNat_of_lt hthird]
      rw [show ((v / 4096 % 0x10 + 0xe0 - 0xE0) * 64 + (v / 64 % 0x40 + 0x80 - 0x80)) * 64 +
          (v % 0x40 + 0x80 - 0x80) = c.toNat by omega, hchar]
  | case4 v hnot hnot' hnot'' =>
      have hv : v = c.toNat := rfl
      have hlead : v / 262144 % 0x08 + 0xf0 < 256 := by omega
      have hsecond : v / 4096 % 0x40 + 0x80 < 256 := by omega
      have hthird : v / 64 % 0x40 + 0x80 < 256 := by omega
      have hfourth : v % 0x40 + 0x80 < 256 := by omega
      rw [List.cons_append, List.cons_append, List.cons_append, List.singleton_append,
        readings.eq_def]
      simp only [ofNat_lt_iff hlead, lt_ofNat_iff hlead]
      rw [if_neg (by simp), if_neg (by simp; omega), if_neg (by simp), if_neg (by simp),
        if_pos (isSecondOfFour_ofNat hlead (by omega) (by omega) (by omega) (by omega)),
        if_pos (isContinuation_ofNat (by omega) (by omega)),
        if_pos (isContinuation_ofNat (by omega) (by omega))]
      simp only [assemble, List.foldl_cons, List.foldl_nil, toNat_ofNat_of_lt hlead,
        toNat_ofNat_of_lt hsecond, toNat_ofNat_of_lt hthird, toNat_ofNat_of_lt hfourth]
      rw [show (((v / 262144 % 0x08 + 0xf0 - 0xF0) * 64 + (v / 4096 % 0x40 + 0x80 - 0x80)) * 64 +
          (v / 64 % 0x40 + 0x80 - 0x80)) * 64 + (v % 0x40 + 0x80 - 0x80) = c.toNat by omega, hchar]

/-! ## Whole texts -/

@[simp]
theorem encode_ofList (text : List Char) :
    encode (String.ofList text) = text.flatMap String.utf8EncodeChar := by
  rw [encode, String.toList_ofList]

/-- The bytes of a text are read as its characters and nothing else. -/
theorem readings_encode (text : List Char) :
    readings (encode (String.ofList text)) = text.map some := by
  rw [encode_ofList]
  induction text with
  | nil => rw [List.flatMap_nil, readings, List.map_nil]
  | cons c text ih =>
      rw [List.flatMap_cons, readings_utf8EncodeChar_append, ih, List.map_cons]

/-- Decoding the bytes of a text gives the text. -/
theorem decode?_encode (text : List Char) :
    decode? (encode (String.ofList text)) = some text := by
  rw [decode?, readings_encode]
  induction text with
  | nil => rfl
  | cons c text ih => rw [List.map_cons, List.mapM_cons, ih]; rfl

/-- A byte below 0x80 occurs in an encoded text exactly where its character does. -/
theorem mem_encode_iff {text : List Char} {byte : UInt8} (hbyte : byte.toNat < 0x80) :
    byte ∈ encode (String.ofList text) ↔ ∃ c ∈ text, c.toNat = byte.toNat := by
  rw [encode_ofList, List.mem_flatMap]
  refine exists_congr fun c => and_congr_right fun _ => ?_
  by_cases hc : c.toNat < 0x80
  · rw [utf8EncodeChar_of_lt hc, List.mem_singleton, ← UInt8.toNat_inj,
      toNat_ofNat_of_lt (show c.toNat < 256 by omega)]
    exact eq_comm
  · refine ⟨fun hmem => ?_, fun heq => ?_⟩
    · have := le_of_mem_utf8EncodeChar (Nat.not_lt.1 hc) hmem
      omega
    · omega

/-- A text whose last byte is below 0x80 ends with that character. -/
theorem getLast?_encode {text : List Char} {byte : UInt8} (hbyte : byte.toNat < 0x80)
    (hlast : (encode (String.ofList text)).getLast? = some byte) :
    ∃ front c, text = front ++ [c] ∧ c.toNat = byte.toNat := by
  rcases List.eq_nil_or_concat text with rfl | ⟨front, c, rfl⟩
  · simp [encode] at hlast
  · rw [List.concat_eq_append] at *
    have hmem : byte ∈ encode (String.ofList [c]) := by
      rw [encode_ofList, List.flatMap_append, List.flatMap_singleton, List.getLast?_append,
        List.getLast?_eq_some_getLast String.utf8EncodeChar_ne_nil, Option.some_or,
        Option.some.injEq] at hlast
      rw [encode_ofList, List.flatMap_singleton, ← hlast]
      exact List.getLast_mem _
    obtain ⟨d, hd, heq⟩ := (mem_encode_iff hbyte).1 hmem
    rw [List.mem_singleton] at hd
    subst hd
    exact ⟨front, d, rfl, heq⟩

/-! ## The beginning of a text -/

/-- A value beyond ASCII is no character of ASCII, even if it is no character at all. -/
theorem ofNat_ne {value : Nat} {c : Char} (hvalue : 0x80 ≤ value) (hlow : 0 < c.toNat)
    (hhigh : c.toNat < 0x80) : Char.ofNat value ≠ c := by
  rintro rfl
  by_cases hvalid : value.isValidChar
  · rw [Char.ofNat, dif_pos hvalid] at hhigh
    exact absurd hhigh (Nat.not_lt.2 hvalue)
  · rw [Char.ofNat, dif_neg hvalid] at hlow
    exact absurd hlow (Nat.lt_irrefl 0)

theorem toNat_char_ofNat {value : Nat} (hvalue : value < 0x80) :
    (Char.ofNat value).toNat = value := by
  rw [Char.ofNat, dif_pos (.inl (by omega))]
  rfl

/-- The bounds on the second byte exclude overlong forms of three bytes. -/
theorem le_of_isSecondOfThree {lead byte : UInt8} (hsecond : isSecondOfThree lead byte = true)
    (hlead : 0xE0 ≤ lead.toNat) :
    0x800 ≤ (lead.toNat - 0xE0) * 0x1000 + (byte.toNat - 0x80) * 0x40 := by
  unfold isSecondOfThree at hsecond
  split at hsecond
  · rw [Bool.and_eq_true, decide_eq_true_eq, UInt8.le_iff_toNat_le] at hsecond
    have hlow : 0xA0 ≤ byte.toNat := hsecond.1
    omega
  · rename_i hne
    have : lead.toNat ≠ 0xE0 := fun heq => hne (UInt8.toNat_inj.1 heq)
    omega

/-- The bounds on the second byte exclude overlong forms of four bytes. -/
theorem le_of_isSecondOfFour {lead byte : UInt8} (hsecond : isSecondOfFour lead byte = true)
    (hlead : 0xF0 ≤ lead.toNat) :
    0x10000 ≤ (lead.toNat - 0xF0) * 0x40000 + (byte.toNat - 0x80) * 0x1000 := by
  unfold isSecondOfFour at hsecond
  split at hsecond
  · rw [Bool.and_eq_true, decide_eq_true_eq, UInt8.le_iff_toNat_le] at hsecond
    have hlow : 0x90 ≤ byte.toNat := hsecond.1
    omega
  · rename_i hne
    have : lead.toNat ≠ 0xF0 := fun heq => hne (UInt8.toNat_inj.1 heq)
    omega

/-- No character of ASCII is read from bytes that begin with one from 0x80 on.  U+0000 is left
out, which also stands for values that are no characters. -/
theorem head_readings_ne {byte : UInt8} (hbyte : ¬byte < 0x80) (rest : List UInt8) {c : Char}
    (hlow : 0 < c.toNat) (hhigh : c.toNat < 0x80) :
    (readings (byte :: rest)).head? ≠ some (some c) := by
  have hnone (more : List (Option Char)) : (none :: more).head? ≠ some (some c) := by simp
  have hsome {payload : Nat} {bytes : List UInt8} (more : List (Option Char))
      (hvalue : 0x80 ≤
        bytes.foldl (fun value byte => value * 64 + (byte.toNat - 0x80)) payload) :
      (some (assemble payload bytes) :: more).head? ≠ some (some c) := by
    intro heq
    exact ofNat_ne hvalue hlow hhigh (Option.some.inj (Option.some.inj heq))
  rw [readings.eq_def]
  dsimp only
  rw [if_neg hbyte]
  -- no lead byte at all, and then those of two, three and four bytes
  split
  · exact hnone _
  · rename_i hlead
    rw [Bool.or_eq_true, decide_eq_true_eq, not_or, UInt8.lt_iff_toNat_lt] at hlead
    have htwo : 0xC2 ≤ byte.toNat := Nat.not_lt.1 hlead.1
    split
    · exact hnone _
    · split
      · split
        · refine hsome _ ?_
          simp only [List.foldl_cons, List.foldl_nil]
          omega
        · exact hnone _
      · rename_i hthree
        rw [UInt8.lt_iff_toNat_lt] at hthree
        split
        · split
          · rename_i hsecond
            have hvalue := le_of_isSecondOfThree hsecond (Nat.not_lt.1 hthree)
            split
            · exact hnone _
            · split
              · refine hsome _ ?_
                simp only [List.foldl_cons, List.foldl_nil]
                omega
              · exact hnone _
          · exact hnone _
        · rename_i hfour
          rw [UInt8.lt_iff_toNat_lt] at hfour
          split
          · rename_i hsecond
            have hvalue := le_of_isSecondOfFour hsecond (Nat.not_lt.1 hfour)
            split
            · exact hnone _
            · split
              · split
                · exact hnone _
                · split
                  · refine hsome _ ?_
                    simp only [List.foldl_cons, List.foldl_nil]
                    omega
                  · exact hnone _
              · exact hnone _
          · exact hnone _

/-- A byte below 0x80 is decoded on its own. -/
theorem decode?_cons_of_lt {byte : UInt8} (hbyte : byte < 0x80) (rest : List UInt8) :
    decode? (byte :: rest) = (decode? rest).map (Char.ofNat byte.toNat :: ·) := by
  rw [decode?, readings.eq_def]
  dsimp only
  rw [if_pos hbyte, List.mapM_cons, decode?]
  cases (readings rest).mapM id <;> rfl

/-- All readings of a text are characters. -/
theorem readings_of_decode? {bytes : List UInt8} {text : List Char}
    (hdecode : decode? bytes = some text) : readings bytes = text.map some := by
  rw [decode?] at hdecode
  generalize readings bytes = all at hdecode
  induction all generalizing text with
  | nil =>
      rw [List.mapM_nil] at hdecode
      obtain rfl := Option.some.inj hdecode
      rfl
  | cons reading all ih =>
      rw [List.mapM_cons, Option.bind_eq_bind, Option.bind_eq_some_iff] at hdecode
      obtain ⟨c, hreading, hdecode⟩ := hdecode
      rw [Option.bind_eq_bind, Option.bind_eq_some_iff] at hdecode
      obtain ⟨more, hmore, htext⟩ := hdecode
      obtain rfl := Option.some.inj htext
      rw [List.map_cons, ih hmore]
      exact congrArg (· :: _) hreading

/-- A text begins with some characters of ASCII exactly when its bytes begin with theirs. -/
theorem isPrefixOf_of_decode? {pattern : List Char}
    (hpattern : ∀ c ∈ pattern, 0 < c.toNat ∧ c.toNat < 0x80) {bytes : List UInt8}
    {text : List Char} (hdecode : decode? bytes = some text) :
    pattern.isPrefixOf text = (encode (String.ofList pattern)).isPrefixOf bytes := by
  rw [encode_ofList]
  induction pattern generalizing bytes text with
  | nil => rfl
  | cons c pattern ih =>
      rw [List.forall_mem_cons] at hpattern
      obtain ⟨⟨hlow, hhigh⟩, hpattern⟩ := hpattern
      have hreadings := readings_of_decode? hdecode
      have hnat : (UInt8.ofNat c.toNat).toNat = c.toNat := toNat_ofNat_of_lt (by omega)
      rw [List.flatMap_cons, utf8EncodeChar_of_lt hhigh, List.singleton_append]
      cases bytes with
      | nil =>
          rw [readings, eq_comm, List.map_eq_nil_iff] at hreadings
          rw [hreadings]
          rfl
      | cons byte rest =>
          rw [List.isPrefixOf_cons_cons]
          by_cases hbyte : byte < 0x80
          · rw [decode?_cons_of_lt hbyte, Option.map_eq_some_iff] at hdecode
            obtain ⟨more, hmore, rfl⟩ := hdecode
            rw [List.isPrefixOf_cons_cons, ih hpattern hmore]
            congr 1
            rw [Bool.eq_iff_iff, beq_iff_eq, beq_iff_eq, ← UInt8.toNat_inj, hnat, ← Char.toNat_inj,
              toNat_char_ofNat (UInt8.lt_iff_toNat_lt.1 hbyte)]
          · have hhead := head_readings_ne hbyte rest hlow hhigh
            have hne : (UInt8.ofNat c.toNat == byte) = false := by
              rw [beq_eq_false_iff_ne]
              rintro rfl
              exact hbyte ((ofNat_lt_iff (by omega)).2 hhigh)
            rw [hne, Bool.false_and]
            cases text with
            | nil => rfl
            | cons d more =>
                have hcd : c ≠ d := by
                  rintro rfl
                  rw [hreadings] at hhead
                  exact hhead rfl
                rw [List.isPrefixOf_cons_cons, beq_eq_false_iff_ne.2 hcd, Bool.false_and]

end Untested.Text
