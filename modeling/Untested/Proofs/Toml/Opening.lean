/-
# How a TOML document begins

Blank lines and comments may come first.  The first line with more begins with a heading or a key.
A key begins with a quotation mark, or it begins with a bare name, behind which only blanks come
before the next mark.
-/

import Mathlib.Data.List.DropRight
import Mathlib.Data.List.TakeWhile
import Untested.Toml.Read

namespace Untested.TomlText

/-- A text begins with a heading or a key. -/
inductive Opens : List Char → Prop
  | mark {c : Char} (rest : List Char) : c ∈ ['[', '\x22', '\x27'] → Opens (c :: rest)
  | name {name gap : List Char} {c : Char} (rest : List Char) :
      name ≠ [] → (∀ c ∈ name, isBare c = true) → (∀ c ∈ gap, isGap c = true) →
        (c = '=' ∨ c = '.') → Opens (name ++ (gap ++ c :: rest))

theorem takeWhile_append_skipGap (text : List Char) :
    text.takeWhile isGap ++ skipGap text = text :=
  List.takeWhile_append_dropWhile

theorem isGap_iff {c : Char} : isGap c = true ↔ c = ' ' ∨ c = '\t' := by
  rw [isGap, Bool.or_eq_true, decide_eq_true_eq, decide_eq_true_eq]

/-- A key that an equals sign follows begins in one of the ways. -/
theorem opens_of_key? {text rest behind : List Char} {key : Toml.Key}
    (hgap : skipGap text = text) (hkey : key? text = some (key, rest))
    (hmark : mark? '=' rest = some behind) : Opens text := by
  rw [key?, show depthLimit - 1 = 78 + 1 from rfl, names?, hgap] at hkey
  simp only [Option.bind_eq_bind, Option.bind_eq_some_iff] at hkey
  obtain ⟨⟨name, left⟩, hname, hkey⟩ := hkey
  rw [name?.eq_def] at hname
  split at hname
  · exact .mark _ (by decide)
  · exact .mark _ (by decide)
  · dsimp only at hname
    split at hname
    · cases hname
    · rename_i hnonempty
      obtain ⟨rfl, rfl⟩ := Prod.mk.inj (Option.some.inj hname)
      obtain ⟨c, rest', hnext, hc⟩ : ∃ c rest', skipGap (text.dropWhile isBare) = c :: rest' ∧
          (c = '=' ∨ c = '.') := by
        dsimp only at hkey
        split at hkey
        · rename_i rest' hnext
          exact ⟨'.', rest', hnext, .inr rfl⟩
        · obtain ⟨-, rfl⟩ := Prod.mk.inj (Option.some.inj hkey)
          generalize skipGap (text.dropWhile isBare) = next at hmark
          cases next with
          | nil => cases hmark
          | cons c rest' =>
              rw [mark?] at hmark
              split at hmark
              · exact ⟨c, rest', rfl, .inl ‹_›⟩
              · cases hmark
      have htext : text = text.takeWhile isBare ++
          ((text.dropWhile isBare).takeWhile isGap ++ c :: rest') := by
        rw [← hnext, takeWhile_append_skipGap, List.takeWhile_append_dropWhile]
      rw [htext]
      refine .name rest' ?_ ?_ ?_ hc
      · simpa using hnonempty
      · exact fun c hc => List.mem_takeWhile_imp hc
      · exact fun c hc => List.mem_takeWhile_imp hc

theorem opens_of_line? {text : List Char} {draft : Draft} {result : Draft × List Char}
    (hgap : skipGap text = text) (hline : line? draft text = some result) : Opens text := by
  rw [line?.eq_def] at hline
  split at hline
  · exact .mark _ (by decide)
  · exact .mark _ (by decide)
  · simp only [Option.bind_eq_bind, Option.bind_eq_some_iff] at hline
    obtain ⟨⟨key, rest⟩, hkey, behind, hmark, -⟩ := hline
    exact opens_of_key? hgap hkey hmark

/-- Whether a heading or a key may begin with the character. -/
def opensLine (c : Char) : Bool :=
  isBare c || ['[', '\x22', '\x27'].contains c

theorem Opens.exists_head {text : List Char} (hopens : Opens text) :
    ∃ c rest, text = c :: rest ∧ opensLine c = true := by
  cases hopens with
  | mark rest hc => exact ⟨_, rest, rfl, Bool.or_eq_true _ _ ▸ .inr (List.contains_iff_mem.2 hc)⟩
  | name rest hname hbare hgap hc =>
      obtain ⟨c, name, rfl⟩ := List.exists_cons_of_ne_nil hname
      exact ⟨c, _, rfl, Bool.or_eq_true _ _ ▸ .inl (hbare c List.mem_cons_self)⟩

theorem toNat_lt_of_opensLine {c : Char} (hc : opensLine c = true) : c.toNat < 128 := by
  have hle {last : Char} (hlast : last.toNat < 128) (hle : c ≤ last) : c.toNat < 128 :=
    Nat.lt_of_le_of_lt hle hlast
  simp only [opensLine, isBare, Bool.or_eq_true, Bool.and_eq_true, decide_eq_true_eq,
    List.contains_iff_mem, List.mem_cons, List.not_mem_nil, or_false] at hc
  rcases hc with ((((hc | hc) | hc) | rfl) | rfl) | rfl | rfl | rfl
  · exact hle (by decide) hc.2
  · exact hle (by decide) hc.2
  · exact hle (by decide) hc.2
  all_goals decide

/-- What holds of these characters can be looked up one by one. -/
theorem forall_of_opensLine {p : Char → Prop}
    (hall : ∀ n < 128, opensLine (Char.ofNat n) = true → p (Char.ofNat n)) {c : Char}
    (hc : opensLine c = true) : p c := by
  rw [← Char.ofNat_toNat c] at hc ⊢
  exact hall c.toNat (toNat_lt_of_opensLine (Char.ofNat_toNat c ▸ hc)) hc

/-- A bare name ends where blanks and the next mark follow. -/
theorem takeWhile_isBare_of_gap {gap : List Char} (hgap : ∀ c ∈ gap, isGap c = true) {c : Char}
    (hc : c = '=' ∨ c = '.') (rest : List Char) : (gap ++ c :: rest).takeWhile isBare = [] := by
  cases gap with
  | nil =>
      apply List.takeWhile_cons_of_neg
      rcases hc with rfl | rfl <;> decide
  | cons first gap =>
      have hfirst := hgap first List.mem_cons_self
      apply List.takeWhile_cons_of_neg
      rcases isGap_iff.1 hfirst with rfl | rfl <;> decide

/-! ## Lines that say nothing -/

/-- A line has blanks and perhaps a comment. -/
inductive IsIdle : List Char → Prop
  | blank {gap : List Char} : (∀ c ∈ gap, isGap c = true) → IsIdle gap
  | comment {gap words : List Char} : (∀ c ∈ gap, isGap c = true) →
      (∀ c ∈ words, isForbidden c = false) → IsIdle (gap ++ '#' :: words)

/-- A text begins with lines that say nothing, up to some content or to its end. -/
inductive Leads : Option (List Char) → List Char → Prop
  | nothing {front : List Char} : IsIdle front → Leads none front
  | line {content? : Option (List Char)} {front ending rest : List Char} : IsIdle front →
      ending ∈ [['\n'], ['\r', '\n']] → Leads content? rest →
        Leads content? (front ++ (ending ++ rest))
  | content {gap content : List Char} : (∀ c ∈ gap, isGap c = true) → Opens content →
      Leads (some content) (gap ++ content)

/-- The content lies at the end of the text. -/
theorem Leads.exists_suffix {content text : List Char} (hleads : Leads (some content) text) :
    Opens content ∧ content <:+ text := by
  generalize hcontent : some content = content? at hleads
  induction hleads with
  | nothing => cases hcontent
  | @line _ front ending rest _ _ _ ih =>
      obtain ⟨hopens, hsuffix⟩ := ih hcontent
      exact ⟨hopens, hsuffix.trans ((List.suffix_append ending rest).trans
        (List.suffix_append front (ending ++ rest)))⟩
  | content _ hopens =>
      obtain rfl := Option.some.inj hcontent
      exact ⟨hopens, List.suffix_append _ _⟩

theorem isGap_of_isForbidden {c : Char} (hc : isForbidden c = true) : isGap c = false := by
  rw [Bool.eq_false_iff, ne_eq, isGap_iff]
  rintro (rfl | rfl) <;> exact absurd hc (by decide)

/-- No heading or key begins with a control character, a blank or the mark of a comment. -/
theorem Opens.exists_ordinary {text : List Char} (hopens : Opens text) :
    ∃ c rest, text = c :: rest ∧ isForbidden c = false ∧ isGap c = false ∧ c ≠ '#' := by
  obtain ⟨c, rest, rfl, hc⟩ := hopens.exists_head
  refine ⟨c, rest, rfl, ?_⟩
  apply forall_of_opensLine _ hc
  decide

/-- A line says nothing up to its content, and behind a comment only a control character comes. -/
theorem exists_isIdle (text : List Char) :
    ∃ front, IsIdle front ∧ text = front ++ skipComment (skipGap text) ∧
      (skipComment (skipGap text) = skipGap text ∨
        (skipComment (skipGap text)).head?.all isForbidden = true) := by
  have hgap : ∀ c ∈ text.takeWhile isGap, isGap c = true := fun c hc => List.mem_takeWhile_imp hc
  have htext := takeWhile_append_skipGap text
  by_cases hcomment : ∃ words, skipGap text = '#' :: words
  · obtain ⟨words, hwords⟩ := hcomment
    refine ⟨text.takeWhile isGap ++ '#' :: words.takeWhile (!isForbidden ·), ?_, ?_, .inr ?_⟩
    · refine .comment hgap fun c hc => ?_
      simpa using List.mem_takeWhile_imp hc
    · rw [hwords, skipComment, List.append_assoc, List.cons_append,
        List.takeWhile_append_dropWhile, ← hwords, htext]
    · rw [hwords, skipComment]
      have hhead := List.head?_dropWhile_not (!isForbidden ·) words
      generalize (words.dropWhile (!isForbidden ·)).head? = head? at hhead ⊢
      cases head? with
      | none => rfl
      | some c => simpa using hhead
  · have hsame : skipComment (skipGap text) = skipGap text := by
      rw [skipComment.eq_def]
      split
      · exact absurd ⟨_, ‹_›⟩ hcomment
      · rfl
    exact ⟨text.takeWhile isGap, .blank hgap, by rw [hsame, htext], .inl hsame⟩

/-- A document begins with lines that say nothing, and it is empty if it has nothing else. -/
theorem exists_leads_of_lines? {fuel : Nat} {draft : Draft} {text : List Char} {root : Toml}
    (hlines : lines? fuel draft text = some root) :
    ∃ content?, Leads content? text ∧ (content? = none → root = draft.root) := by
  induction fuel generalizing text draft with
  | zero => cases hlines
  | succ fuel ih =>
      obtain ⟨front, hidle, htext, hbehind⟩ := exists_isIdle text
      rw [lines?] at hlines
      generalize hafter : skipComment (skipGap text) = after at htext hbehind hlines
      split at hlines
      · rw [htext, List.append_nil]
        exact ⟨none, .nothing hidle, fun _ => (Option.some.inj hlines).symm⟩
      · obtain ⟨content?, hleads, hempty⟩ := ih hlines
        have hending : ['\n'] ∈ [['\n'], ['\r', '\n']] := by decide
        rw [htext]
        exact ⟨content?, .line hidle hending hleads, hempty⟩
      · obtain ⟨content?, hleads, hempty⟩ := ih hlines
        have hending : ['\r', '\n'] ∈ [['\n'], ['\r', '\n']] := by decide
        rw [htext]
        exact ⟨content?, .line hidle hending hleads, hempty⟩
      · split at hlines
        · rename_i draft' rest hline
          rcases hbehind with hsame | hforbidden
          · -- Without a comment, the line begins with what the reader has found.
            have hgap : skipGap after = after := by
              rw [hsame]
              exact List.dropWhile_idempotent _ _
            have hleads : Leads (some after) (text.takeWhile isGap ++ after) :=
              .content (fun c hc => List.mem_takeWhile_imp hc) (opens_of_line? hgap hline)
            rw [hsame, takeWhile_append_skipGap, ← hsame] at hleads
            exact ⟨some after, hleads, nofun⟩
          · -- Behind a comment there is a control character, with which no line begins.
            have hgap : skipGap after = after := by
              cases after with
              | nil => rfl
              | cons c behind =>
                  apply List.dropWhile_cons_of_neg
                  rw [Bool.not_eq_true]
                  exact isGap_of_isForbidden (by simpa using hforbidden)
            obtain ⟨c, behind, rfl, hc, -, -⟩ := (opens_of_line? hgap hline).exists_ordinary
            rw [List.head?_cons, Option.all_some, hc] at hforbidden
            cases hforbidden
        · cases hlines

end Untested.TomlText
