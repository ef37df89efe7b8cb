/-
# Documents are read back

A value whose numbers are natural and whose strings and names encode texts is read back from its
document.  Blank space between the tokens is skipped, a numeral ends where a comma or the end of a
line follows it, and the bound on the number of steps is never reached, because every step of the
reader belongs to a character of the document.
-/

import Mathlib.Data.List.SplitBy
import Untested.Json.Read
import Untested.Json.Write
import Untested.Proofs.Json.Text
import Untested.Proofs.Text.Decimal
import Untested.Proofs.Text.Utf8

namespace Untested.JsonValue

open JsonText

/-- A value that has been made from truth values, natural numbers and texts. -/
inductive IsPlain : JsonValue → Prop
  | null : IsPlain null
  | bool (value : Bool) : IsPlain (bool value)
  | ofNat (n : Nat) : IsPlain (ofNat n)
  | string (text : List Char) : IsPlain (string (some text))
  | array {items : List JsonValue} : (∀ item ∈ items, IsPlain item) → IsPlain (array items)
  | object {members : List (Option (List Char) × JsonValue)} :
      (∀ member ∈ members, member.1.isSome) → (∀ member ∈ members, IsPlain member.2) →
        IsPlain (object members)

theorem IsPlain.ofText (text : String) : IsPlain (ofText text) :=
  .string text.toList

theorem IsPlain.ofMembers {members : List (String × JsonValue)}
    (hmembers : ∀ member ∈ members, IsPlain member.2) : IsPlain (ofMembers members) := by
  refine .object ?_ ?_
  · intro member hmember
    obtain ⟨_, _, rfl⟩ := List.mem_map.1 hmember
    rfl
  · intro member hmember
    obtain ⟨origin, horigin, rfl⟩ := List.mem_map.1 hmember
    exact hmembers origin horigin

/-! ## Blank space -/

/-- The beginning of a token: neither blank space nor a closing mark. -/
def Opens (source : Source) : Prop :=
  ∃ c rest, source = some c :: rest ∧ isGap (some c) = false ∧ c ≠ ']' ∧ c ≠ '\x7d'

/-- What may follow a value in a document: nothing, a comma or the end of a line. -/
def Delimits (source : Source) : Prop :=
  source = [] ∨ ∃ rest, source = some ',' :: rest ∨ source = some '\n' :: rest

theorem skipGap_cons {c : Char} (hc : isGap (some c) = false) (rest : Source) :
    skipGap (some c :: rest) = some c :: rest := by
  rw [skipGap, List.dropWhile_cons_of_neg (by simpa using hc)]

theorem skipGap_lineBreak (depth : Nat) (rest : Source) :
    skipGap ((lineBreak depth).map some ++ rest) = skipGap rest := by
  rw [skipGap, List.dropWhile_append_of_pos, skipGap]
  intro reading hreading
  obtain ⟨c, hc, rfl⟩ := List.mem_map.1 hreading
  rcases List.mem_cons.1 hc with rfl | hc
  · decide
  · rw [(List.mem_replicate.1 hc).2]
    decide

/-- A value may have blank space before it. -/
theorem readValue_of_skipGap {first second : Source} (hskip : skipGap first = skipGap second)
    (bound : Nat) : readValue bound first = readValue bound second := by
  cases bound with
  | zero => rw [readValue, readValue]
  | succ bound => rw [readValue, readValue, hskip]

theorem readArray_of_skipGap {first second : Source} (hskip : skipGap first = skipGap second)
    (bound : Nat) : readArray bound first = readArray bound second := by
  cases bound with
  | zero => rw [readArray, readArray]
  | succ bound => rw [readArray, readArray, readValue_of_skipGap hskip]

theorem readObject_of_skipGap {first second : Source} (hskip : skipGap first = skipGap second)
    (bound : Nat) : readObject bound first = readObject bound second := by
  cases bound with
  | zero => rw [readObject, readObject]
  | succ bound => rw [readObject, readObject, hskip]

/-! ## Numbers -/

theorem digits_append {run : List Char} (hrun : ∀ c ∈ run, Text.isDigit c = true)
    {rest : Source} (hrest : Delimits rest) : digits (run.map some ++ rest) = (run, rest) := by
  induction run with
  | nil =>
      rcases hrest with rfl | ⟨rest, rfl | rfl⟩
      · rfl
      · rw [List.map_nil, List.nil_append, digits, if_neg (by decide)]
      · rw [List.map_nil, List.nil_append, digits, if_neg (by decide)]
  | cons c run ih =>
      rw [List.forall_mem_cons] at hrun
      rw [List.map_cons, List.cons_append, digits, ih hrun.2]
      exact if_pos hrun.1

/-- Nothing but zero is written with a leading zero. -/
theorem head?_decimalDigits {n : Nat} (hn : 0 < n) :
    (Text.decimalDigits n).head? ≠ some '0' := by
  have hdigit : ∀ value < 10, 0 < value → Text.digitChar value ≠ '0' := by decide
  induction n using Text.decimalDigits.induct with
  | case1 n hlt =>
      rw [Text.decimalDigits, if_pos hlt, List.head?_cons, ne_eq, Option.some.injEq]
      exact hdigit n hlt hn
  | case2 n hge ih =>
      rw [Text.decimalDigits, if_neg hge,
        List.head?_append_of_ne_nil _ (Text.decimalDigits_ne_nil _)]
      exact ih (by omega)

theorem markedDigits_of_delimits {marks : List Char} (hcomma : marks.contains ',' = false)
    (hline : marks.contains '\n' = false) (signs : List Char) {rest : Source}
    (hrest : Delimits rest) : markedDigits marks signs rest = some ([], rest) := by
  rcases hrest with rfl | ⟨rest, rfl | rfl⟩
  · rfl
  · rw [markedDigits.eq_def]
    dsimp only
    rw [if_neg (by simpa using hcomma)]
  · rw [markedDigits.eq_def]
    dsimp only
    rw [if_neg (by simpa using hline)]

/-- A numeral does not begin with a sign, a quotation mark or another opening mark. -/
theorem exists_digit_decimalDigits (n : Nat) :
    ∃ c rest, Text.decimalDigits n = c :: rest ∧ Text.isDigit c = true := by
  obtain ⟨c, rest, hdigits⟩ := List.exists_cons_of_ne_nil (Text.decimalDigits_ne_nil n)
  exact ⟨c, rest, hdigits, Text.isDigit_of_mem_decimalDigits (hdigits ▸ List.mem_cons_self)⟩

theorem not_leadingZero_decimalDigits (n : Nat) :
    ((Text.decimalDigits n).head? = some '0' && (Text.decimalDigits n).length ≠ 1) = false := by
  rw [Bool.and_eq_false_iff, decide_eq_false_iff_not, decide_eq_false_iff_not, not_not]
  rcases Nat.eq_zero_or_pos n with rfl | hn
  · right
    rw [Text.decimalDigits, if_pos (by decide), List.length_singleton]
  · left
    exact head?_decimalDigits hn

/-- A numeral is read to its end. -/
theorem readNumber_decimalDigits (n : Nat) {rest : Source} (hrest : Delimits rest) :
    readNumber ((Text.decimalDigits n).map some ++ rest) = some (Text.decimalDigits n, rest) := by
  have hdigit : ∀ c ∈ Text.decimalDigits n, Text.isDigit c = true :=
    fun c => Text.isDigit_of_mem_decimalDigits
  have hdigits := digits_append hdigit hrest
  have hempty : (Text.decimalDigits n).isEmpty = false :=
    List.isEmpty_eq_false_iff.2 (Text.decimalDigits_ne_nil n)
  rw [readNumber]
  · simp only [hdigits, hempty, not_leadingZero_decimalDigits]
    rw [if_neg (by decide), markedDigits_of_delimits rfl rfl [] hrest]
    simp only [Option.bind_eq_bind, Option.bind_some]
    rw [markedDigits_of_delimits rfl rfl ['+', '-'] hrest, Option.bind_some, List.nil_append,
      List.append_nil, List.append_nil]
    rfl
  · intro rest' heq
    obtain ⟨c, _, hc, hdigit⟩ := exists_digit_decimalDigits n
    rw [hc] at heq
    obtain rfl : c = '-' := Option.some.inj (List.cons.inj heq).1
    exact absurd hdigit (by decide)

theorem isGap_of_isDigit {c : Char} (hdigit : Text.isDigit c = true) :
    isGap (some c) = false := by
  cases hgap : isGap (some c) with
  | false => rfl
  | true =>
      simp only [isGap, Option.any_some, Bool.or_eq_true, decide_eq_true_eq] at hgap
      rcases hgap with ((rfl | rfl) | rfl) | rfl <;> exact absurd hdigit (by decide)

/-- A digit begins none of the other values. -/
theorem readValue_digit {c : Char} (hdigit : Text.isDigit c = true) (bound : Nat) (rest : Source) :
    readValue (bound + 1) (some c :: rest) =
      (readNumber (some c :: rest)).map fun result => (.number result.1, result.2) := by
  rw [readValue, skipGap_cons (isGap_of_isDigit hdigit)]
  split
  case h_7 =>
    cases readNumber (some c :: rest) <;> rfl
  all_goals
    rename_i heq
    obtain rfl := Option.some.inj (List.cons.inj heq).1
    exact absurd hdigit (by decide)

/-! ## Values inside others -/

/-- The document of a value is read as that value, whatever follows it. -/
def ReadsBack (value : JsonValue) : Prop :=
  ∀ depth bound rest, 2 * (value.write depth).length ≤ bound → Delimits rest →
    readValue bound ((value.write depth).map some ++ rest) = some (value, rest)

theorem opens_cons {c : Char} (hgap : isGap (some c) = false) (hbracket : c ≠ ']')
    (hbrace : c ≠ '\x7d') (rest : Source) : Opens (some c :: rest) :=
  ⟨c, rest, rfl, hgap, hbracket, hbrace⟩

theorem Opens.skipGap_eq {source : Source} (h : Opens source) : skipGap source = source := by
  obtain ⟨c, rest, rfl, hgap, _⟩ := h
  exact skipGap_cons hgap rest

/-- A value begins with a token. -/
theorem IsPlain.opens_write {value : JsonValue} (hplain : IsPlain value) (depth : Nat)
    (rest : Source) : Opens ((value.write depth).map some ++ rest) := by
  cases hplain with
  | null => exact opens_cons (by decide) (by decide) (by decide) _
  | bool value => cases value <;> exact opens_cons (by decide) (by decide) (by decide) _
  | ofNat n =>
      obtain ⟨c, digits, hdigits, hdigit⟩ := exists_digit_decimalDigits n
      rw [JsonValue.ofNat, write, hdigits]
      refine opens_cons (isGap_of_isDigit hdigit) ?_ ?_ _
      · rintro rfl
        exact absurd hdigit (by decide)
      · rintro rfl
        exact absurd hdigit (by decide)
  | string text => exact opens_cons (by decide) (by decide) (by decide) _
  | @array items hitems =>
      cases items with
      | nil => exact opens_cons (by decide) (by decide) (by decide) _
      | cons item items => exact opens_cons (by decide) (by decide) (by decide) _
  | @object members hnames hmembers =>
      cases members with
      | nil => exact opens_cons (by decide) (by decide) (by decide) _
      | cons member members => exact opens_cons (by decide) (by decide) (by decide) _

theorem delimits_lineBreak (depth : Nat) (rest : Source) :
    Delimits ((lineBreak depth).map some ++ rest) :=
  .inr ⟨_, .inr rfl⟩

/-- What follows an item is a comma or the end of a line. -/
theorem delimits_writeItems (depth outer : Nat) (items : List JsonValue) (rest : Source) :
    Delimits ((writeItems depth items).map some ++ ((lineBreak outer).map some ++ rest)) := by
  cases items with
  | nil => exact delimits_lineBreak outer rest
  | cons item items => exact .inr ⟨_, .inl rfl⟩

theorem delimits_writeMembers (depth outer : Nat)
    (members : List (Option (List Char) × JsonValue)) (rest : Source) :
    Delimits ((writeMembers depth members).map some ++ ((lineBreak outer).map some ++ rest)) := by
  cases members with
  | nil => exact delimits_lineBreak outer rest
  | cons member members => exact .inr ⟨_, .inl rfl⟩

/-- Items that are read back one by one are read back together. -/
theorem readArray_writeItems {item : JsonValue} {items : List JsonValue}
    (hitems : ∀ other ∈ item :: items, ReadsBack other) {depth outer bound : Nat}
    (hbound : 2 * ((item.write depth).length + (writeItems depth items).length) < bound)
    (rest : Source) :
    readArray bound ((item.write depth).map some ++ ((writeItems depth items).map some ++
      ((lineBreak outer).map some ++ some ']' :: rest))) = some (item :: items, rest) := by
  induction items generalizing item bound with
  | nil =>
      obtain ⟨bound, rfl⟩ : ∃ smaller, bound = smaller + 1 := ⟨bound - 1, by omega⟩
      rw [readArray, hitems item List.mem_cons_self depth bound _ (by omega)
        (delimits_writeItems depth outer [] _)]
      simp only [writeItems, List.map_nil, List.nil_append, Option.bind_eq_bind, Option.bind_some,
        skipGap_lineBreak]
      rw [skipGap_cons (by decide)]
      rfl
  | cons next items ih =>
      obtain ⟨bound, rfl⟩ : ∃ smaller, bound = smaller + 1 := ⟨bound - 1, by omega⟩
      rw [writeItems] at hbound
      simp only [List.length_append, List.length_cons] at hbound
      have hnextItems : ∀ other ∈ next :: items, ReadsBack other :=
        fun other hother => hitems other (List.mem_cons_of_mem _ hother)
      have hsmaller :
          2 * ((next.write depth).length + (writeItems depth items).length) < bound := by
        omega
      have hnext := ih hnextItems hsmaller
      rw [readArray, hitems item List.mem_cons_self depth bound _ (by omega)
        (delimits_writeItems depth outer (next :: items) _)]
      simp only [writeItems, List.map_append, List.map_cons, List.cons_append, List.append_assoc,
        Option.bind_eq_bind, Option.bind_some]
      rw [skipGap_cons (by decide)]
      simp only [readArray_of_skipGap (skipGap_lineBreak _ _), hnext]
      rfl

/-- A member is read by its name and its value, and a comma or a closing brace says whether there
are more. -/
theorem readObject_member {name : List Char} {value : JsonValue} {bound : Nat}
    {rest rest' : Source} (hvalue : readValue bound (some ' ' :: rest) = some (value, rest')) :
    (∀ next, skipGap rest' = some ',' :: next →
      readObject (bound + 1) ((quote name).map some ++ some ':' :: some ' ' :: rest) =
        (readObject bound next).map fun result => ((some name, value) :: result.1, result.2)) ∧
    ∀ next, skipGap rest' = some '\x7d' :: next →
      readObject (bound + 1) ((quote name).map some ++ some ':' :: some ' ' :: rest) =
        some ([(some name, value)], next) := by
  obtain ⟨items, hitems, hname⟩ :=
    readItems_flatMap_escape name (some ':' :: some ' ' :: rest)
  rw [quote, List.map_append, List.append_assoc, List.map_cons, List.cons_append, readObject,
    skipGap_cons (by decide)]
  simp only [List.map_cons, List.map_nil, List.cons_append, List.nil_append, hitems,
    Option.bind_eq_bind, Option.bind_some]
  rw [skipGap_cons (by decide)]
  simp only [hvalue, Option.bind_some, hname]
  constructor
  · intro next hnext
    rw [hnext]
    show ((readObject bound next).bind fun result =>
      some ((some name, value) :: result.1, result.2)) = _
    cases readObject bound next <;> rfl
  · intro next hnext
    rw [hnext]
    rfl

/-- Members that are read back one by one are read back together. -/
theorem readObject_writeMembers {name : List Char} {value : JsonValue}
    {members : List (Option (List Char) × JsonValue)}
    (hnames : ∀ member ∈ members, member.1.isSome)
    (hvalues : ∀ member ∈ (some name, value) :: members, ReadsBack member.2)
    {depth outer bound : Nat}
    (hbound : 2 * ((value.write depth).length + (writeMembers depth members).length) < bound)
    (rest : Source) :
    readObject bound ((quote name).map some ++ some ':' :: some ' ' ::
      ((value.write depth).map some ++ ((writeMembers depth members).map some ++
        ((lineBreak outer).map some ++ some '\x7d' :: rest)))) =
      some ((some name, value) :: members, rest) := by
  have hblank (source : Source) : skipGap (some ' ' :: source) = skipGap source := rfl
  induction members generalizing name value bound with
  | nil =>
      obtain ⟨bound, rfl⟩ : ∃ smaller, bound = smaller + 1 := ⟨bound - 1, by omega⟩
      have hback : ReadsBack value := hvalues _ List.mem_cons_self
      have hvalue := hback depth bound _ (by omega)
        (delimits_writeMembers depth outer [] (some '\x7d' :: rest))
      rw [← readValue_of_skipGap (hblank _)] at hvalue
      refine (readObject_member hvalue).2 rest ?_
      rw [writeMembers, List.map_nil, List.nil_append, skipGap_lineBreak, skipGap_cons (by decide)]
  | cons next members ih =>
      obtain ⟨bound, rfl⟩ : ∃ smaller, bound = smaller + 1 := ⟨bound - 1, by omega⟩
      obtain ⟨name?, nextValue⟩ := next
      rw [List.forall_mem_cons] at hnames
      obtain ⟨nextName, rfl⟩ := Option.isSome_iff_exists.1 hnames.1
      rw [writeMembers] at hbound
      simp only [List.length_append, List.length_cons] at hbound
      have hsmaller : 2 * ((nextValue.write depth).length +
          (writeMembers depth members).length) < bound := by
        omega
      have hnext := ih hnames.2
        (fun other hother => hvalues other (List.mem_cons_of_mem _ hother)) hsmaller
      have hback : ReadsBack value := hvalues _ List.mem_cons_self
      have hvalue := hback depth bound _ (by omega)
        (delimits_writeMembers depth outer ((some nextName, nextValue) :: members)
          (some '\x7d' :: rest))
      rw [← readValue_of_skipGap (hblank _)] at hvalue
      rw [(readObject_member hvalue).1 ((lineBreak depth).map some ++ ((quote nextName).map some ++
        some ':' :: some ' ' :: ((nextValue.write depth).map some ++
          ((writeMembers depth members).map some ++
            ((lineBreak outer).map some ++ some '\x7d' :: rest))))),
        readObject_of_skipGap (skipGap_lineBreak _ _), hnext]
      · rfl
      · simp only [writeMembers, List.map_append, List.map_cons, List.cons_append,
          List.append_assoc, Option.getD_some]
        exact skipGap_cons (by decide) _

/-! ## Whole documents -/

/-- No document is empty, so that there is always a first step. -/
theorem IsPlain.readsBack_of_step {value : JsonValue} (hplain : IsPlain value)
    (hstep : ∀ depth bound rest, 2 * (value.write depth).length ≤ bound + 1 → Delimits rest →
      readValue (bound + 1) ((value.write depth).map some ++ rest) = some (value, rest)) :
    ReadsBack value := by
  intro depth bound rest hbound hrest
  obtain ⟨c, tail, hwrite, _⟩ := hplain.opens_write depth []
  rw [List.append_nil] at hwrite
  have hlength : (value.write depth).length = tail.length + 1 := by
    rw [← List.length_map some, hwrite, List.length_cons]
  obtain ⟨bound, rfl⟩ : ∃ smaller, bound = smaller + 1 := ⟨bound - 1, by omega⟩
  exact hstep depth bound rest hbound hrest

theorem readValue_string (text : List Char) (bound : Nat) (rest : Source) :
    readValue (bound + 1) ((quote text).map some ++ rest) = some (.string (some text), rest) := by
  obtain ⟨items, hitems, htext⟩ := readItems_flatMap_escape text rest
  rw [quote, List.map_append, List.append_assoc, List.map_cons, List.cons_append, readValue,
    skipGap_cons (by decide)]
  simp only [List.map_cons, List.map_nil, List.cons_append, List.nil_append, hitems,
    Option.bind_eq_bind, Option.bind_some, htext]
  rfl

/-- An array that does not end at once has items. -/
theorem readValue_array {bound : Nat} {source rest : Source} {items : List JsonValue}
    (hopens : Opens (skipGap source)) (hitems : readArray bound source = some (items, rest)) :
    readValue (bound + 1) (some '[' :: source) = some (.array items, rest) := by
  obtain ⟨c, tail, hskip, _, hbracket, _⟩ := hopens
  rw [readValue, skipGap_cons (by decide)]
  simp only [hskip, hitems]
  split
  · rename_i heq
    exact absurd (Option.some.inj (List.cons.inj heq).1) hbracket
  · rfl

/-- An object that does not end at once has members. -/
theorem readValue_object {bound : Nat} {source rest : Source}
    {members : List (Option (List Char) × JsonValue)} (hopens : Opens (skipGap source))
    (hmembers : readObject bound source = some (members, rest)) :
    readValue (bound + 1) (some '\x7b' :: source) = some (.object members, rest) := by
  obtain ⟨c, tail, hskip, _, _, hbrace⟩ := hopens
  rw [readValue, skipGap_cons (by decide)]
  simp only [hskip, hmembers]
  split
  · rename_i heq
    exact absurd (Option.some.inj (List.cons.inj heq).1) hbrace
  · rfl

/-- A plain value is read back wherever it stands. -/
theorem IsPlain.readsBack {value : JsonValue} (hplain : IsPlain value) : ReadsBack value := by
  induction hplain with
  | null => exact IsPlain.null.readsBack_of_step fun _ _ _ _ _ => rfl
  | bool value =>
      cases value <;> exact (IsPlain.bool _).readsBack_of_step fun _ _ _ _ _ => rfl
  | ofNat n =>
      refine (IsPlain.ofNat n).readsBack_of_step fun depth bound rest _ hrest => ?_
      obtain ⟨c, digits, hdigits, hdigit⟩ := exists_digit_decimalDigits n
      have hnumber := readNumber_decimalDigits n hrest
      rw [JsonValue.ofNat, write]
      rw [hdigits, List.map_cons, List.cons_append] at hnumber ⊢
      rw [readValue_digit hdigit, hnumber, Option.map_some]
  | string text =>
      exact (IsPlain.string text).readsBack_of_step fun depth bound rest _ _ =>
        readValue_string text bound rest
  | @array items hitems ih =>
      refine (IsPlain.array hitems).readsBack_of_step fun depth bound rest hbound hrest => ?_
      cases items with
      | nil => rfl
      | cons item items =>
          rw [write] at hbound ⊢
          simp only [List.length_append, List.length_cons] at hbound
          simp only [List.map_append, List.map_cons, List.map_nil, List.cons_append,
            List.append_assoc, List.nil_append]
          refine readValue_array ?_ ?_
          · rw [skipGap_lineBreak, ((hitems item List.mem_cons_self).opens_write _ _).skipGap_eq]
            exact (hitems item List.mem_cons_self).opens_write _ _
          · rw [readArray_of_skipGap (skipGap_lineBreak _ _)]
            exact readArray_writeItems ih (by omega) rest
  | @object members hnames hmembers ih =>
      refine (IsPlain.object hnames hmembers).readsBack_of_step fun depth bound rest hbound _ => ?_
      cases members with
      | nil => rfl
      | cons member members =>
          obtain ⟨name?, value⟩ := member
          rw [List.forall_mem_cons] at hnames
          obtain ⟨name, rfl⟩ := Option.isSome_iff_exists.1 hnames.1
          rw [write] at hbound ⊢
          simp only [List.length_append, List.length_cons] at hbound
          simp only [List.map_append, List.map_cons, List.map_nil, List.cons_append,
            List.append_assoc, List.nil_append, Option.getD_some]
          refine readValue_object ?_ ?_
          · rw [skipGap_lineBreak]
            exact opens_cons (by decide) (by decide) (by decide) _
          · rw [readObject_of_skipGap (skipGap_lineBreak _ _)]
            exact readObject_writeMembers hnames.2 ih (by omega) rest

/-- The document of a plain value holds that value. -/
theorem ofBytes?_encode {value : JsonValue} (hplain : IsPlain value) :
    ofBytes? (Text.encode (toString value)) = some value := by
  have hread := hplain.readsBack 0 (2 * (value.write 0).length + 2) [] (by omega) (.inl rfl)
  rw [List.append_nil] at hread
  show ofSource? (Text.readings (Text.encode (String.ofList (value.write 0)))) = some value
  rw [Text.readings_encode, ofSource?, List.length_map, hread]
  rfl

/-! ## Values as records -/

@[simp]
theorem text?_ofText (text : String) : (ofText text).text? = some text := by
  rw [ofText, text?, String.ofList_toList]

/-- A number that does not exceed the greatest allowed one. -/
theorem nat?_ofNat {n greatest : Nat} (hn : n ≤ greatest) : (ofNat n).nat? greatest = some n := by
  have hdigits : (Text.decimalDigits n).all Text.isDigit = true :=
    List.all_eq_true.2 fun c => Text.isDigit_of_mem_decimalDigits
  rw [ofNat, nat?, hdigits, Text.decimalValue_decimalDigits]
  exact if_pos (by simpa using hn)

/-- Where a function has a result for each value, it has one for all of them together. -/
theorem mapM_eq_some_map {α β : Type} {f : α → Option β} {g : α → β} {values : List α}
    (hvalues : ∀ value ∈ values, f value = some (g value)) :
    values.mapM f = some (values.map g) := by
  induction values with
  | nil => rfl
  | cons value values ih =>
      rw [List.forall_mem_cons] at hvalues
      rw [List.mapM_cons, hvalues.1, ih hvalues.2]
      rfl

/-- A name that comes once names one member. -/
theorem filter_eq_singleton {members : List (String × JsonValue)}
    (hnames : (members.map Prod.fst).Nodup) {member : String × JsonValue}
    (hmember : member ∈ members) :
    members.filter (fun other => other.1 = member.1) = [member] := by
  induction members with
  | nil => cases hmember
  | cons first members ih =>
      rw [List.map_cons, List.nodup_cons] at hnames
      rcases List.mem_cons.1 hmember with rfl | hmember
      · have hnone : members.filter (fun other => other.1 = member.1) = [] := by
          rw [List.filter_eq_nil_iff]
          intro other hother heq
          exact hnames.1 (List.mem_map.2 ⟨other, hother, of_decide_eq_true heq⟩)
        rw [List.filter_cons_of_pos (by simp), hnone]
      · have hfirst : first.1 ≠ member.1 := fun heq =>
          hnames.1 (List.mem_map.2 ⟨member, hmember, heq.symm⟩)
        rw [List.filter_cons_of_neg (by simpa using hfirst), ih hnames.2 hmember]

/-- An object with different names is the record of its values. -/
theorem record?_ofMembers {members : List (String × JsonValue)}
    (hnames : (members.map Prod.fst).Nodup) :
    (ofMembers members).record? (members.map Prod.fst) = some (members.map Prod.snd) := by
  have hnamed : (members.map fun member => (some member.1.toList, member.2)).any
      (·.1.isNone) = false := by
    rw [List.any_map, List.any_eq_false]
    simp
  rw [ofMembers, record?, hnamed, if_neg (by decide), List.mapM_map]
  refine mapM_eq_some_map fun member hmember => ?_
  simp only [Function.comp_def, List.filter_map, Option.some.injEq, String.toList_inj]
  rw [filter_eq_singleton hnames hmember, List.map_singleton]

/-! ## Pieces -/

/-- What is made of the members of several lists is made of all of them together. -/
theorem flatten_map_flatMap {α β : Type} (f : α → List β) (lists : List (List α)) :
    (lists.map (·.flatMap f)).flatten = lists.flatten.flatMap f := by
  rw [← List.flatMap_def, ← List.flatMap_assoc, List.flatMap_id']

theorem flatten_quotePieces (text : List Char) : (quotePieces text).flatten = quote text := by
  rw [quotePieces, List.flatten_append, List.flatten_cons, flatten_map_flatMap,
    List.flatten_splitBy, List.flatten_singleton, quote, List.singleton_append]

theorem flatten_lineBreakPieces (mark : List Char) (depth : Nat) :
    (lineBreakPieces mark depth).flatten = mark ++ lineBreak depth := by
  have hblanks : (List.replicate depth [' ', ' ']).flatten = List.replicate (2 * depth) ' ' := by
    rw [Nat.mul_comm]
    show (List.replicate depth (List.replicate 2 ' ')).flatten = _
    exact List.flatten_replicate_replicate
  rw [lineBreakPieces, List.flatten_cons, hblanks, lineBreak, List.append_assoc,
    List.singleton_append]

mutual

/-- The pieces of a value make up its text. -/
theorem flatten_pieces (depth : Nat) (value : JsonValue) :
    (pieces depth value).flatten = write depth value := by
  match value with
  | null => rfl
  | bool true => rfl
  | bool false => rfl
  | number literal => exact List.flatten_singleton
  | string text => exact flatten_quotePieces _
  | array [] => rfl
  | array (item :: items) =>
      simp only [pieces, write, List.flatten_append, List.flatten_cons, List.flatten_nil,
        flatten_lineBreakPieces, flatten_pieces, flatten_itemPieces, List.append_assoc,
        List.nil_append, List.cons_append, List.append_nil]
  | object [] => rfl
  | object ((name, value) :: members) =>
      simp only [pieces, write, List.flatten_append, List.flatten_cons, List.flatten_nil,
        flatten_lineBreakPieces, flatten_quotePieces, flatten_pieces, flatten_memberPieces,
        List.append_assoc, List.nil_append, List.cons_append, List.append_nil]

theorem flatten_itemPieces (depth : Nat) (items : List JsonValue) :
    (itemPieces depth items).flatten = writeItems depth items := by
  match items with
  | [] => rfl
  | item :: items =>
      simp only [itemPieces, writeItems, List.flatten_append, flatten_lineBreakPieces,
        flatten_pieces, flatten_itemPieces, List.append_assoc, List.cons_append, List.nil_append]

theorem flatten_memberPieces (depth : Nat) (members : List (Option (List Char) × JsonValue)) :
    (memberPieces depth members).flatten = writeMembers depth members := by
  match members with
  | [] => rfl
  | (name, value) :: members =>
      simp only [memberPieces, writeMembers, List.flatten_append, List.flatten_cons,
        flatten_lineBreakPieces, flatten_quotePieces, flatten_pieces, flatten_memberPieces,
        List.append_assoc, List.cons_append, List.nil_append]

end

end Untested.JsonValue
