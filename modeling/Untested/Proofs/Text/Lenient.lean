/-
# Bytes that are no text

A byte below 0x80 is a character by itself, whatever stands around it: it ends every sequence of
bytes that begins no well-formed character, and no such sequence takes it in.  So bytes may be
cut at line feeds and carriage returns before or after they are decoded, be they a text or not.
-/

import Untested.Proofs.Text.Utf8

namespace Untested.Text

variable {byte : UInt8}

/-! ## Bytes that continue no character -/

theorem isContinuation_of_lt (hbyte : byte < 0x80) : isContinuation byte = false := by
  rw [isContinuation, decide_eq_false (UInt8.not_le.2 hbyte), Bool.false_and]

theorem isSecondOfThree_of_lt (hbyte : byte < 0x80) (lead : UInt8) :
    isSecondOfThree lead byte = false := by
  have hlow : ¬ (0xA0 : UInt8) ≤ byte := UInt8.not_le.2 (UInt8.lt_trans hbyte (by decide))
  rw [isSecondOfThree, isContinuation_of_lt hbyte, decide_eq_false hlow,
    decide_eq_false (UInt8.not_le.2 hbyte)]
  simp

theorem isSecondOfFour_of_lt (hbyte : byte < 0x80) (lead : UInt8) :
    isSecondOfFour lead byte = false := by
  have hlow : ¬ (0x90 : UInt8) ≤ byte := UInt8.not_le.2 (UInt8.lt_trans hbyte (by decide))
  rw [isSecondOfFour, isContinuation_of_lt hbyte, decide_eq_false hlow,
    decide_eq_false (UInt8.not_le.2 hbyte)]
  simp

/-! ## Cutting at a byte -/

theorem readings_cons_of_lt (hbyte : byte < 0x80) (rest : List UInt8) :
    readings (byte :: rest) = some (Char.ofNat byte.toNat) :: readings rest := by
  rw [readings.eq_def]
  dsimp only
  rw [if_pos hbyte]

/-- A byte below 0x80 is read by itself, and so is what stands in front of it. -/
theorem readings_append_cons (hbyte : byte < 0x80) (front rest : List UInt8) :
    readings (front ++ byte :: rest) =
      readings front ++ some (Char.ofNat byte.toNat) :: readings rest := by
  have hnot := isContinuation_of_lt hbyte
  have hthree := isSecondOfThree_of_lt hbyte
  have hfour := isSecondOfFour_of_lt hbyte
  have hself := readings_cons_of_lt hbyte rest
  fun_induction readings front with
  | case1 => exact hself
  | case2 a more hascii ih =>
      rw [List.cons_append, readings_cons_of_lt hascii, ih, List.cons_append]
  -- the other cases are those of the lead byte and of how far the character goes on
  | case3 | case4 | case5 | case6 | case7 | case8 | case9 | case10 | case11 | case12 | case13
  | case14 | case15 | case16 =>
      simp only [List.cons_append, List.nil_append] at *
      rw [readings.eq_def]
      simp only [*, if_true, if_false, Bool.false_eq_true, ite_self]

theorem decodeLenient_append_cons (hbyte : byte < 0x80) (front rest : List UInt8) :
    decodeLenient (front ++ byte :: rest) =
      decodeLenient front ++ Char.ofNat byte.toNat :: decodeLenient rest := by
  rw [decodeLenient, readings_append_cons hbyte, List.map_append, List.map_cons]
  rfl

/-- Bytes are a text just when those before and behind a byte below 0x80 are. -/
theorem decode?_append_cons (hbyte : byte < 0x80) (front rest : List UInt8) :
    decode? (front ++ byte :: rest) =
      (decode? front).bind fun before =>
        (decode? rest).map fun behind => before ++ Char.ofNat byte.toNat :: behind := by
  simp only [decode?]
  rw [readings_append_cons hbyte, List.mapM_append, List.mapM_cons]
  cases (readings front).mapM id <;> cases (readings rest).mapM id <;> rfl

theorem decode?_concat (hbyte : byte < 0x80) (front : List UInt8) :
    decode? (front ++ [byte]) = (decode? front).map (· ++ [Char.ofNat byte.toNat]) := by
  have hnil : decode? [] = some [] := by rw [decode?, readings, List.mapM_nil]; rfl
  rw [decode?_append_cons hbyte, hnil]
  cases decode? front <;> rfl

/-! ## Lenient decoding -/

/-- A text is left as it is. -/
theorem decodeLenient_of_decode? {bytes : List UInt8} {text : List Char}
    (hdecode : decode? bytes = some text) : decodeLenient bytes = text := by
  rw [decodeLenient, readings_of_decode? hdecode, List.map_map]
  exact List.map_id text

/-- A reading takes in at least one byte. -/
theorem readings_cons (first : UInt8) (rest : List UInt8) :
    ∃ reading behind, behind <:+ rest ∧ readings (first :: rest) = reading :: readings behind := by
  have hnil : [] = readings [] := by rw [readings]
  have htail (a : UInt8) (more : List UInt8) : more <:+ a :: more := List.suffix_cons a more
  rw [readings.eq_def]
  dsimp only
  repeat' split
  all_goals
    first
    | exact ⟨_, _, List.suffix_refl _, rfl⟩
    | exact ⟨_, _, htail _ _, rfl⟩
    | exact ⟨_, _, (htail _ _).trans (htail _ _), rfl⟩
    | exact ⟨_, _, ((htail _ _).trans (htail _ _)).trans (htail _ _), rfl⟩
    | exact ⟨_, _, List.nil_suffix, by rw [← hnil]⟩

/-- No bytes are lost altogether. -/
theorem decodeLenient_eq_nil_iff {bytes : List UInt8} : decodeLenient bytes = [] ↔ bytes = [] := by
  rw [decodeLenient, List.map_eq_nil_iff]
  cases bytes with
  | nil => exact iff_of_true (by rw [readings]) rfl
  | cons first rest =>
      obtain ⟨reading, behind, _, hreadings⟩ := readings_cons first rest
      rw [hreadings]
      exact iff_of_false (List.cons_ne_nil _ _) (List.cons_ne_nil _ _)

/-- A character of ASCII is read from its byte alone. -/
theorem mem_of_mem_readings {c : Char} (hlow : 0 < c.toNat) (hhigh : c.toNat < 0x80)
    {bytes : List UInt8} (hmem : some c ∈ readings bytes) : UInt8.ofNat c.toNat ∈ bytes := by
  induction hlength : bytes.length using Nat.strongRecOn generalizing bytes with
  | ind length ih =>
      cases bytes with
      | nil =>
          rw [readings] at hmem
          exact absurd hmem List.not_mem_nil
      | cons first rest =>
          obtain ⟨reading, behind, hbehind, hreadings⟩ := readings_cons first rest
          rw [hreadings, List.mem_cons] at hmem
          rcases hmem with rfl | hmem
          · by_cases hfirst : first < 0x80
            · rw [readings_cons_of_lt hfirst, List.cons.injEq, Option.some.injEq] at hreadings
              rw [← hreadings.1, toNat_char_ofNat (UInt8.lt_iff_toNat_lt.1 hfirst),
                UInt8.ofNat_toNat]
              exact List.mem_cons_self
            · have hhead := head_readings_ne hfirst rest hlow hhigh
              rw [hreadings, List.head?_cons] at hhead
              exact absurd rfl hhead
          · have hshorter : behind.length < length := by
              have := hbehind.length_le
              rw [List.length_cons] at hlength
              omega
            exact List.mem_cons_of_mem first (hbehind.mem (ih _ hshorter hmem rfl))

theorem mem_of_mem_decodeLenient {c : Char} (hlow : 0 < c.toNat) (hhigh : c.toNat < 0x80)
    {bytes : List UInt8} (hmem : c ∈ decodeLenient bytes) : UInt8.ofNat c.toNat ∈ bytes := by
  rw [decodeLenient, List.mem_map] at hmem
  obtain ⟨reading, hreading, hc⟩ := hmem
  cases reading with
  | none =>
      rw [Option.getD_none] at hc
      rw [← hc] at hhigh
      exact absurd hhigh (by decide)
  | some d =>
      obtain rfl : d = c := hc
      exact mem_of_mem_readings hlow hhigh hreading

/-! ## Texts in place of bytes that are none -/

/-- The bytes of the text that lenient decoding gives. -/
def repaired (bytes : List UInt8) : List UInt8 :=
  encode (String.ofList (decodeLenient bytes))

theorem decode?_repaired (bytes : List UInt8) :
    decode? (repaired bytes) = some (decodeLenient bytes) :=
  decode?_encode (decodeLenient bytes)

theorem repaired_append_cons (hbyte : byte < 0x80) (front rest : List UInt8) :
    repaired (front ++ byte :: rest) = repaired front ++ byte :: repaired rest := by
  have hlt : byte.toNat < 0x80 := UInt8.lt_iff_toNat_lt.1 hbyte
  have hnat := toNat_char_ofNat hlt
  have hchar : String.utf8EncodeChar (Char.ofNat byte.toNat) = [byte] := by
    rw [utf8EncodeChar_of_lt (hnat.symm ▸ hlt), hnat, UInt8.ofNat_toNat]
  simp only [repaired, decodeLenient_append_cons hbyte, encode_ofList, List.flatMap_append,
    List.flatMap_cons, hchar, List.singleton_append]

theorem repaired_eq_nil_iff {bytes : List UInt8} : repaired bytes = [] ↔ bytes = [] := by
  have hlenient : decodeLenient bytes = [] ↔ bytes = [] := decodeLenient_eq_nil_iff
  rw [← hlenient, repaired, encode_ofList, List.flatMap_eq_nil_iff]
  refine ⟨fun hnil => List.eq_nil_iff_forall_not_mem.2 fun c hc => ?_, fun hnil => ?_⟩
  · exact String.utf8EncodeChar_ne_nil (hnil c hc)
  · rw [hnil]
    exact fun _ hc => absurd hc List.not_mem_nil

/-- No byte below 0x80 comes up. -/
theorem mem_of_mem_repaired (hlow : 0 < byte.toNat) (hbyte : byte < 0x80) {bytes : List UInt8}
    (hmem : byte ∈ repaired bytes) : byte ∈ bytes := by
  have hlt : byte.toNat < 0x80 := UInt8.lt_iff_toNat_lt.1 hbyte
  obtain ⟨c, hc, heq⟩ := (mem_encode_iff hlt).1 hmem
  have := mem_of_mem_decodeLenient (heq ▸ hlow) (heq ▸ hlt) hc
  rwa [heq, UInt8.ofNat_toNat] at this

/-- A byte below 0x80 stands at the end just when it does so from the beginning. -/
theorem getLast?_repaired_iff (hlow : 0 < byte.toNat) (hbyte : byte < 0x80) {bytes : List UInt8} :
    (repaired bytes).getLast? = some byte ↔ bytes.getLast? = some byte := by
  have hmem_of_last {all : List UInt8} (hlast : all.getLast? = some byte) : byte ∈ all :=
    List.mem_of_getLast? hlast
  by_cases hmem : byte ∈ bytes
  · -- whatever stands behind the last one of these bytes has none in it
    obtain ⟨after, before, hreverse, hafter⟩ :=
      List.eq_append_cons_of_mem (List.mem_reverse.2 hmem)
    obtain rfl : bytes = before.reverse ++ byte :: after.reverse := by
      rw [← List.reverse_inj, hreverse]
      simp
    rw [← List.mem_reverse] at hafter
    rw [repaired_append_cons hbyte]
    generalize before.reverse = front
    generalize after.reverse = behind at hafter
    have hrepaired : byte ∉ repaired behind := fun hmem =>
      hafter (mem_of_mem_repaired hlow hbyte hmem)
    rcases List.eq_nil_or_concat behind with rfl | ⟨behind, last, rfl⟩
    · rw [repaired_eq_nil_iff.2 rfl, List.getLast?_concat, List.getLast?_concat]
    · rw [List.concat_eq_append] at *
      have hne : repaired (behind ++ [last]) ≠ [] := fun hnil => by
        simpa using repaired_eq_nil_iff.1 hnil
      obtain ⟨other, final, heq⟩ := (List.eq_nil_or_concat _).resolve_left hne
      rw [List.concat_eq_append] at heq
      rw [heq] at hrepaired ⊢
      rw [← List.cons_append, ← List.append_assoc, List.getLast?_concat, ← List.cons_append,
        ← List.append_assoc, List.getLast?_concat]
      refine iff_of_false (fun hlast => hrepaired ?_) fun hlast => hafter ?_
      · simp [Option.some.inj hlast]
      · simp [Option.some.inj hlast]
  · exact iff_of_false (fun hlast => hmem (mem_of_mem_repaired hlow hbyte (hmem_of_last hlast)))
      fun hlast => hmem (hmem_of_last hlast)

end Untested.Text
