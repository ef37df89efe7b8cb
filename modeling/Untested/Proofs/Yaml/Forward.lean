/-
# Readers go forward

Whatever a reader of YAML takes in, what it leaves is an end of the source it was given.  So the
cells that are still to be read keep their characters and their places, and whatever holds of all
ends of a source holds wherever a reader has come to.
-/

import Mathlib.Data.List.Infix
import Untested.Yaml.Token

namespace Untested.Yaml

/-- A result of reading a source leaves an end of it, if there is a result at all. -/
def Leaves {α : Type} (rest : α → List Cell) (cells : List Cell) (result : Option α) : Prop :=
  ∀ reading ∈ result, rest reading <:+ cells

namespace Leaves

variable {α β : Type} {rest : α → List Cell} {rest' : β → List Cell} {cells cells' : List Cell}
  {result : Option α} {reading : α}

theorem none : Leaves rest cells .none :=
  nofun

theorem some (hrest : rest reading <:+ cells) : Leaves rest cells (.some reading) := by
  intro other hother
  obtain rfl := Option.some.inj hother
  exact hrest

theorem of_suffix (hresult : Leaves rest cells result) (hcells : cells <:+ cells') :
    Leaves rest cells' result :=
  fun reading hreading => (hresult reading hreading).trans hcells

theorem map {f : α → β} (hresult : Leaves rest cells result)
    (hmap : ∀ reading, rest' (f reading) = rest reading) : Leaves rest' cells (result.map f) := by
  cases result with
  | none => exact .none
  | some reading => exact .some (hmap reading ▸ hresult reading rfl)

theorem bind {next : α → Option β} (hresult : Leaves rest cells result)
    (hnext : ∀ reading, rest reading <:+ cells → Leaves rest' cells (next reading)) :
    Leaves rest' cells (result >>= next) := by
  cases result with
  | none => exact .none
  | some reading => exact hnext reading (hresult reading rfl)

end Leaves

variable {cells rest : List Cell}

/-! ## Scalars -/

theorem leaves_plain (inFlow : Bool) (indent : Nat) (gap : Gap) (cells : List Cell) :
    Leaves ScalarReading.rest cells (plain inFlow indent gap cells) := by
  induction cells generalizing gap with
  | nil => exact .some List.suffix_rfl
  | cons cell cells ih =>
      have hbehind (gap : Gap) :
          Leaves ScalarReading.rest (cell :: cells) (plain inFlow indent gap cells) :=
        (ih gap).of_suffix (List.suffix_cons cell cells)
      rw [plain]
      split_ifs
      · exact hbehind _
      · exact .none
      · exact hbehind _
      · exact .some List.suffix_rfl
      · exact .none
      · exact .some List.suffix_rfl
      · exact (hbehind _).map fun _ => rfl

theorem leaves_quoted (isSingle : Bool) (state : QuotedState) (gap : Gap) (cells : List Cell) :
    Leaves ScalarReading.rest cells (quoted isSingle state gap cells) := by
  induction cells generalizing state gap with
  | nil =>
      cases state with
      | apostrophe => exact .some List.suffix_rfl
      | ordinary | backslash | digits => exact .none
  | cons cell cells ih =>
      have hbehind (state : QuotedState) (gap : Gap) :
          Leaves ScalarReading.rest (cell :: cells) (quoted isSingle state gap cells) :=
        (ih state gap).of_suffix (List.suffix_cons cell cells)
      cases state with
      | apostrophe =>
          rw [quoted]
          split_ifs
          · exact (hbehind _ _).map fun _ => rfl
          · exact .some List.suffix_rfl
      | backslash =>
          rw [quoted]
          split_ifs
          · exact (hbehind _ _).map fun _ => rfl
          · split
            · exact (hbehind _ _).map fun _ => rfl
            · exact (hbehind _ _).map fun _ => rfl
            · exact .none
      | digits left value =>
          rw [quoted]
          split
          · exact .none
          · dsimp only
            split_ifs
            · exact hbehind _ _
            · exact (hbehind _ _).map fun _ => rfl
            · exact .none
      | ordinary =>
          rw [quoted]
          split_ifs
          · exact .none
          · exact hbehind _ _
          · exact hbehind _ _
          · exact hbehind _ _
          · exact (hbehind _ _).map fun _ => rfl
          · exact .some (List.suffix_cons cell cells)
          · exact hbehind _ _
          · exact (hbehind _ _).map fun _ => rfl

theorem skipGap_suffix (cells : List Cell) : skipGap cells <:+ cells :=
  List.dropWhile_suffix _

theorem leaves_skipComment? (cells : List Cell) : Leaves id cells (skipComment? cells) := by
  have hcomment : (if startsWith '#' (skipGap cells) then skipLine (skipGap cells)
      else skipGap cells) <:+ cells := by
    split
    · exact (List.dropWhile_suffix _).trans (skipGap_suffix cells)
    · exact skipGap_suffix cells
  rw [skipComment?]
  split_ifs at hcomment ⊢
  · exact .some hcomment
  · exact .none
  · exact .some hcomment
  · exact .none

theorem leaves_blockLines (style : BlockStyle) (inLine : Bool) (gap : BlockGap)
    (cells : List Cell) : Leaves ScalarReading.rest cells (blockLines style inLine gap cells) := by
  induction cells generalizing inLine gap with
  | nil => exact .some List.suffix_rfl
  | cons cell cells ih =>
      have hbehind (inLine : Bool) (gap : BlockGap) :
          Leaves ScalarReading.rest (cell :: cells) (blockLines style inLine gap cells) :=
        (ih inLine gap).of_suffix (List.suffix_cons cell cells)
      rw [blockLines]
      split_ifs
      · exact hbehind _ _
      · exact (hbehind _ _).map fun _ => rfl
      · exact hbehind _ _
      · exact .none
      · exact hbehind _ _
      · exact (hbehind _ _).map fun _ => rfl
      · exact .some List.suffix_rfl

theorem leaves_leadingLines (deepest : Nat) (ends : List Char) (cells : List Cell) :
    Leaves (fun reading => reading.2.2) cells (leadingLines deepest ends cells) := by
  induction cells generalizing deepest ends with
  | nil => exact .some List.suffix_rfl
  | cons cell cells ih =>
      have hbehind (deepest : Nat) (ends : List Char) :
          Leaves (fun reading => reading.2.2) (cell :: cells) (leadingLines deepest ends cells) :=
        (ih deepest ends).of_suffix (List.suffix_cons cell cells)
      rw [leadingLines]
      split_ifs
      · exact hbehind _ _
      · exact .none
      · exact hbehind _ _
      · exact .some List.suffix_rfl

theorem leaves_chomping? (cells : List Cell) : Leaves Prod.snd cells (chomping? cells) := by
  cases cells with
  | nil => exact .none
  | cons cell cells =>
      rw [chomping?]
      split_ifs
      · exact .some (List.suffix_cons cell cells)
      · exact .some (List.suffix_cons cell cells)
      · exact .none

theorem leaves_increment? (cells : List Cell) : Leaves Prod.snd cells (increment? cells) := by
  cases cells with
  | nil => exact .some List.suffix_rfl
  | cons cell cells =>
      rw [increment?]
      split_ifs
      · exact .none
      · exact .some (List.suffix_cons cell cells)
      · exact .some List.suffix_rfl

theorem leaves_blockMarks? (cells : List Cell) :
    Leaves (fun reading => reading.2.2) cells (blockMarks? cells) := by
  rw [blockMarks?]
  split
  · rename_i chomping rest hchomping
    have hrest : rest <:+ cells := leaves_chomping? cells _ hchomping
    exact ((leaves_increment? rest).of_suffix hrest).map fun _ => rfl
  · cases hincrement : increment? cells with
    | none => exact .none
    | some reading =>
        have hrest : reading.2 <:+ cells := leaves_increment? cells _ hincrement
        apply Leaves.some
        dsimp only
        split
        · rename_i chomping rest _ hchomping
          exact (leaves_chomping? _ _ hchomping).trans hrest
        · exact hrest

theorem leaves_block (isLiteral : Bool) (outer : Option Nat) (cells : List Cell) :
    Leaves ScalarReading.rest cells (block isLiteral outer cells) := by
  rw [block]
  apply (leaves_blockMarks? cells).bind
  rintro ⟨chomping, increment, marked⟩ hmarked
  apply ((leaves_skipComment? marked).of_suffix hmarked).bind
  intro commented hcommented
  have hlines : commented.drop 1 <:+ cells := (List.drop_suffix 1 commented).trans hcommented
  cases increment with
  | some increment => exact (leaves_blockLines _ _ _ _).of_suffix hlines
  | none =>
      apply ((leaves_leadingLines 0 [] _).of_suffix hlines).bind
      rintro ⟨deepest, more, rest⟩ hrest
      exact (leaves_blockLines _ _ _ _).of_suffix hrest

/-! ## Tags, anchors and declarations -/

namespace Scan

theorem splitName_suffix (cells : List Cell) : (splitName cells).2 <:+ cells :=
  List.dropWhile_suffix _

theorem leaves_versionNumber? (cells : List Cell) :
    Leaves Prod.snd cells (versionNumber? cells) := by
  rw [versionNumber?]
  split_ifs
  · exact .none
  · exact .some (List.dropWhile_suffix _)

theorem leaves_octet? (cells : List Cell) : Leaves Prod.snd cells (octet? cells) := by
  match cells with
  | a :: b :: c :: rest =>
      rw [octet?]
      split_ifs
      · exact .none
      · intro reading hreading
        simp only [Option.bind_eq_bind, Option.mem_def, Option.bind_eq_some_iff] at hreading
        obtain ⟨_, _, _, _, hreading⟩ := hreading
        obtain rfl := Option.some.inj hreading
        exact ⟨[a, b, c], rfl⟩
  | [] | [_] | [_, _] => exact .none

theorem leaves_moreOctets? (count value : Nat) (cells : List Cell) :
    Leaves Prod.snd cells (moreOctets? count value cells) := by
  induction count generalizing value cells with
  | zero => exact .some List.suffix_rfl
  | succ count ih =>
      rw [moreOctets?]
      apply (leaves_octet? cells).bind
      rintro ⟨octet, rest⟩ hrest
      dsimp only
      split_ifs
      · exact .none
      · exact (ih _ _).of_suffix hrest

theorem leaves_tagText? (isVerbatim : Bool) (fuel : Nat) (cells : List Cell) :
    Leaves Prod.snd cells (tagText? isVerbatim fuel cells) := by
  induction fuel generalizing cells with
  | zero => exact .none
  | succ fuel ih =>
      match cells with
      | [] => exact .some List.suffix_rfl
      | cell :: cells =>
          rw [tagText?]
          split_ifs
          · exact .some List.suffix_rfl
          · apply (leaves_octet? (cell :: cells)).bind
            rintro ⟨octet, rest⟩ hrest
            dsimp only
            cases leadingOctet? octet with
            | none => exact .none
            | some leading =>
                apply ((leaves_moreOctets? leading.1 leading.2 rest).of_suffix hrest).bind
                rintro ⟨value, rest⟩ hrest
                apply ((ih rest).of_suffix hrest).bind
                rintro ⟨text, rest⟩ hrest
                exact .some hrest
          · apply ((ih cells).of_suffix (List.suffix_cons cell cells)).bind
            rintro ⟨text, rest⟩ hrest
            exact .some hrest

theorem leaves_handle? (cells : List Cell) : Leaves Prod.snd cells (handle? cells) := by
  cases cells with
  | nil => exact .none
  | cons cell cells =>
      have hname : (splitName cells).2 <:+ cell :: cells :=
        (splitName_suffix cells).trans (List.suffix_cons cell cells)
      rw [handle?]
      dsimp only
      split_ifs
      · exact .none
      · exact .some ((List.drop_suffix 1 _).trans hname)
      · exact .some hname

theorem leaves_version? (cells : List Cell) : Leaves Prod.snd cells (version? cells) := by
  rw [version?]
  apply ((leaves_versionNumber? _).of_suffix (skipGap_suffix cells)).bind
  rintro ⟨major, rest⟩ hrest
  dsimp only
  split_ifs
  · exact .none
  · apply ((leaves_versionNumber? _).of_suffix ((List.drop_suffix 1 rest).trans hrest)).bind
    rintro ⟨minor, rest⟩ hrest
    exact .some hrest

theorem leaves_shorthand? (cells : List Cell) : Leaves Prod.snd cells (shorthand? cells) := by
  rw [shorthand?]
  apply ((leaves_handle? _).of_suffix (skipGap_suffix cells)).bind
  rintro ⟨handle, rest⟩ hrest
  dsimp only
  split_ifs
  · exact .none
  · exact .none
  · exact .none
  · apply ((leaves_tagText? true _ _).of_suffix ((skipGap_suffix rest).trans hrest)).bind
    rintro ⟨start, rest⟩ hrest
    dsimp only
    split_ifs
    · exact .none
    · exact .some hrest

theorem leaves_declaration? (cells : List Cell) : Leaves Prod.snd cells (declaration? cells) := by
  have hname := splitName_suffix cells
  have hcomment {token? : Option (Token × List Cell)}
      (htoken : Leaves Prod.snd (splitName cells).2 token?) :
      Leaves Prod.snd cells (token? >>= fun reading =>
        skipComment? reading.2 >>= fun rest => some (reading.1, rest.drop 1)) := by
    apply (htoken.of_suffix hname).bind
    intro reading hreading
    apply ((leaves_skipComment? reading.2).of_suffix hreading).bind
    intro rest hrest
    exact .some ((List.drop_suffix 1 rest).trans hrest)
  rw [declaration?]
  dsimp only
  split_ifs
  · exact .none
  · exact .none
  · exact .none
  · exact hcomment (leaves_version? _)
  · exact hcomment (leaves_shorthand? _)
  · exact .none

theorem leaves_verbatimTag? (cells : List Cell) :
    Leaves Prod.snd cells (verbatimTag? cells) := by
  rw [verbatimTag?]
  apply (leaves_tagText? true _ cells).bind
  rintro ⟨suffix, rest⟩ hrest
  dsimp only
  split_ifs
  · exact .none
  · exact .some ((List.drop_suffix 1 rest).trans hrest)

theorem leaves_shortTag? (cells : List Cell) : Leaves Prod.snd cells (shortTag? cells) := by
  rw [shortTag?]
  apply (leaves_handle? cells).bind
  rintro ⟨handle, rest⟩ hrest
  apply ((leaves_tagText? false _ rest).of_suffix hrest).bind
  rintro ⟨suffix, rest⟩ hrest
  dsimp only
  split_ifs
  · exact .none
  · exact .some hrest
  · exact .some hrest
  · exact .some hrest

theorem leaves_tag? (inFlow : Bool) (cells : List Cell) :
    Leaves Prod.snd cells (tag? inFlow cells) := by
  have hcheck {token? : Option (Token × List Cell)} (htoken : Leaves Prod.snd cells token?) :
      Leaves Prod.snd cells (token? >>= fun found =>
        if isBlankEnd found.2 || (inFlow && startsWith ',' found.2) then some found else none) := by
    apply htoken.bind
    intro found hrest
    split
    · exact .some hrest
    · exact .none
  rw [tag?]
  split
  · exact hcheck ((leaves_verbatimTag? _).of_suffix (List.drop_suffix 2 cells))
  · exact hcheck (leaves_shortTag? cells)

theorem leaves_anchorName? (cells : List Cell) : Leaves Prod.snd cells (anchorName? cells) := by
  rw [anchorName?]
  dsimp only
  split
  · exact .some (splitName_suffix cells)
  · exact .none

/-! ## Blank space -/

theorem nextToken_suffix (inFlow isKeyAllowed isComment : Bool) (cells : List Cell) :
    (nextToken inFlow isKeyAllowed isComment cells).1 <:+ cells := by
  induction cells generalizing isKeyAllowed isComment with
  | nil => exact List.suffix_rfl
  | cons cell cells ih =>
      have hbehind (isKeyAllowed isComment : Bool) :
          (nextToken inFlow isKeyAllowed isComment cells).1 <:+ cell :: cells :=
        (ih isKeyAllowed isComment).trans (List.suffix_cons cell cells)
      rw [nextToken]
      split_ifs
      · exact hbehind _ _
      · exact hbehind _ _
      · exact hbehind _ _
      · exact hbehind _ _
      · exact hbehind _ _
      · exact List.suffix_rfl

end Scan

end Untested.Yaml
