/-
# TOML read as YAML

A text in TOML can be read as YAML too.  Both pass lines without content, and what comes first on
the next line begins a heading or a key in TOML.  In YAML it begins a text or a sequence, unless a
colon on that line makes a key of it.  So without such a colon the text is no configuration in YAML.
-/

import Untested.Config.Read
import Untested.Proofs.Text.Fields
import Untested.Proofs.Toml.Opening
import Untested.Proofs.Yaml.Lines
import Untested.Proofs.Yaml.Root

namespace Untested.Config

open TomlText (IsIdle Leads Opens)
open Yaml (Cell Mark Node Token cellsFrom HasCommonEnds hasKeyMark)
open Yaml.Scan (nextToken)

/-- A text without a mark for the order of its bytes. -/
def withoutByteOrderMark (text : List Char) : List Char :=
  if text.head? = some '\ufeff' then text.tail else text

/-- Whether a line has no more than blanks and a comment. -/
def isIdleLine (line : List Char) : Bool :=
  match TomlText.skipGap line with
  | [] => true
  | c :: rest => c = '#' || c = '\r' && rest.isEmpty

/-- The first line of a text that has more, if there is one. -/
def openingLine (text : List Char) : List Char :=
  ((Text.splitAt '\n' (withoutByteOrderMark text)).find? (!isIdleLine ·)).getD []

/-- A text whose lines end in the common ways, without a colon on its first line with content that
has blank space behind it. -/
def OpensWithoutKey (text : String) : Prop :=
  HasCommonEnds text.toList ∧ hasKeyMark (openingLine text.toList) = false

instance (text : String) : Decidable (OpensWithoutKey text) :=
  inferInstanceAs (Decidable (_ ∧ _))

variable {text front gap content ending : List Char}

/-! ## The first line with content -/

theorem ne_newline_of_isGap {c : Char} (hc : TomlText.isGap c = true) : c ≠ '\n' := by
  rintro rfl
  exact absurd hc (by decide)

theorem newline_not_mem_of_isIdle (hfront : IsIdle front) : '\n' ∉ front := by
  cases hfront with
  | blank hgap => exact fun hmem => ne_newline_of_isGap (hgap _ hmem) rfl
  | comment hgap hwords =>
      rw [List.mem_append, List.mem_cons]
      rintro (hmem | hmem | hmem)
      · exact ne_newline_of_isGap (hgap _ hmem) rfl
      · exact absurd hmem (by decide)
      · exact absurd (hwords _ hmem) (by decide)

theorem isIdleLine_append_of_isGap (hgap : ∀ c ∈ gap, TomlText.isGap c = true) (line : List Char) :
    isIdleLine (gap ++ line) = isIdleLine line := by
  rw [isIdleLine, TomlText.skipGap, List.dropWhile_append_of_pos hgap]
  rfl

theorem isIdleLine_of_isIdle (hfront : IsIdle front) (hending : ending ∈ [[], ['\r']]) :
    isIdleLine (front ++ ending) = true := by
  cases hfront with
  | blank hgap =>
      rw [isIdleLine_append_of_isGap hgap]
      revert ending
      decide
  | comment hgap hwords =>
      rw [List.append_assoc, isIdleLine_append_of_isGap hgap]
      rfl

theorem isIdleLine_of_opens (hopens : Opens content) (hgap : ∀ c ∈ gap, TomlText.isGap c = true) :
    isIdleLine (gap ++ content.takeWhile (· ≠ '\n')) = false := by
  obtain ⟨c, rest, rfl, hordinary, hc, hcomment⟩ := hopens.exists_ordinary
  have hfeed : c ≠ '\n' := by
    rintro rfl
    exact absurd hordinary (by decide)
  have hreturn : c ≠ '\r' := by
    rintro rfl
    exact absurd hordinary (by decide)
  rw [isIdleLine_append_of_isGap hgap, List.takeWhile_cons_of_pos (by simpa using hfeed),
    isIdleLine, TomlText.skipGap, List.dropWhile_cons_of_neg (by simpa using hc)]
  simp [hcomment, hreturn]

/-- The first line with content has nothing but blanks before the content. -/
theorem exists_find?_splitAt (hleads : Leads (some content) text) :
    ∃ gap, (Text.splitAt '\n' text).find? (!isIdleLine ·) =
      some (gap ++ content.takeWhile (· ≠ '\n')) := by
  generalize hcontent : some content = content? at hleads
  induction hleads with
  | nothing => cases hcontent
  | @line _ front ending rest hfront hending _ ih =>
      obtain ⟨gap, hfind⟩ := ih hcontent
      have hpass {line : List Char} (hmem : '\n' ∉ line) (hidle : isIdleLine line = true) :
          (Text.splitAt '\n' (line ++ '\n' :: rest)).find? (!isIdleLine ·) =
            some (gap ++ content.takeWhile (· ≠ '\n')) := by
        rw [Text.splitAt_append hmem, List.find?_cons_of_neg (by simp [hidle]), hfind]
      refine ⟨gap, ?_⟩
      rw [List.mem_cons, List.mem_singleton] at hending
      rcases hending with rfl | rfl
      · apply hpass (newline_not_mem_of_isIdle hfront)
        rw [← List.append_nil front]
        exact isIdleLine_of_isIdle hfront (by decide)
      · have hreturn : front ++ (['\r', '\n'] ++ rest) = front ++ ['\r'] ++ '\n' :: rest := by
          rw [List.append_assoc]
          rfl
        rw [hreturn]
        apply hpass _ (isIdleLine_of_isIdle hfront (by decide))
        rw [List.mem_append, not_or]
        exact ⟨newline_not_mem_of_isIdle hfront, by decide⟩
  | @content gap content hgap hopens =>
      obtain rfl := Option.some.inj hcontent
      obtain ⟨pieces, hsplit⟩ := Text.exists_splitAt_eq_cons '\n' (gap ++ content)
      have hline : (gap ++ content).takeWhile (· ≠ '\n') = gap ++ content.takeWhile (· ≠ '\n') :=
        List.takeWhile_append_of_pos fun c hc => by simpa using ne_newline_of_isGap (hgap c hc)
      refine ⟨gap, ?_⟩
      rw [hsplit, hline, List.find?_cons_of_pos (by rw [isIdleLine_of_opens hopens hgap]; rfl)]

/-! ## Lines without content -/

/-- In YAML, the text begins with a tab where a key may begin. -/
def StopsAtTab (cells : List Cell) : Prop :=
  ∃ cell rest, nextToken false true false cells = (cell :: rest, true) ∧ cell.char = '\t'

theorem isLineText_of_isGap (hgap : ∀ c ∈ gap, TomlText.isGap c = true) : Yaml.IsLineText gap := by
  intro c hc
  rcases TomlText.isGap_iff.1 (hgap c hc) with rfl | rfl <;> decide

theorem nextToken_gap (hgap : ∀ c ∈ gap, TomlText.isGap c = true) (mark : Mark) (rest : List Char) :
    StopsAtTab (cellsFrom mark (gap ++ rest)) ∨
      nextToken false true false (cellsFrom mark (gap ++ rest)) =
        nextToken false true false (cellsFrom (mark.along gap.length) rest) := by
  induction gap generalizing mark with
  | nil => exact .inr rfl
  | cons c gap ih =>
      have hline := isLineText_of_isGap hgap c List.mem_cons_self
      rw [List.forall_mem_cons, TomlText.isGap_iff] at hgap
      rw [List.cons_append, Yaml.cellsFrom_cons hline, StopsAtTab]
      rcases hgap.1 with rfl | rfl
      · have hnext (cells : List Cell) :
            nextToken false true false (⟨' ', mark⟩ :: cells) = nextToken false true false cells :=
          rfl
        rw [hnext, List.length_cons, Nat.add_comm, ← Mark.along_along]
        exact ih hgap.2 (mark.along 1)
      · exact .inl ⟨_, _, rfl, rfl⟩

theorem isLineText_of_isForbidden (hwords : ∀ c ∈ front, TomlText.isForbidden c = false)
    (hends : HasCommonEnds front) : Yaml.IsLineText front := by
  intro c hc hmem
  simp only [Yaml.lineEnds, List.mem_cons, List.not_mem_nil, or_false] at hmem
  rcases hmem with rfl | rfl | hmem
  · exact absurd (hwords _ hc) (by decide)
  · exact absurd (hwords _ hc) (by decide)
  · exact hends c hc (by simpa using hmem)

theorem nextToken_idle (hfront : IsIdle front) (hends : HasCommonEnds front) (mark : Mark)
    (rest : List Char) :
    StopsAtTab (cellsFrom mark (front ++ rest)) ∨
      ∃ mark' isComment, nextToken false true false (cellsFrom mark (front ++ rest)) =
        nextToken false true isComment (cellsFrom mark' rest) := by
  cases hfront with
  | blank hgap => exact (nextToken_gap hgap mark rest).imp_right fun hnext => ⟨_, _, hnext⟩
  | @comment gap words hgap hwords =>
      have hline : Yaml.IsLineText ('#' :: words) := by
        rw [Yaml.IsLineText, List.forall_mem_cons]
        refine ⟨by decide, isLineText_of_isForbidden hwords ?_⟩
        exact fun c hc => hends c (List.mem_append_right gap (List.mem_cons_of_mem _ hc))
      rw [List.append_assoc]
      have hcells : ∀ cell ∈ cellsFrom (mark.along gap.length) ('#' :: words),
          Yaml.isBreak cell.char = false := by
        intro cell hcell
        have hchar := Yaml.char_of_mem_cellsFrom hline _ cell hcell
        exact Yaml.isBreak_of_not_mem_lineEnds (hline _ hchar.1)
      refine (nextToken_gap hgap mark ('#' :: words ++ rest)).imp_right fun hnext => ?_
      refine ⟨(mark.along gap.length).along ('#' :: words).length, true, ?_⟩
      rw [hnext, Yaml.cellsFrom_append hline, ← Yaml.Scan.nextToken_comment hcells]
      rfl

theorem nextToken_ending (hending : ending ∈ [['\n'], ['\r', '\n']]) (mark : Mark)
    (rest : List Char) (isComment : Bool) :
    ∃ mark', nextToken false true isComment (cellsFrom mark (ending ++ rest)) =
      nextToken false true false (cellsFrom mark' rest) := by
  rw [List.mem_cons, List.mem_singleton] at hending
  rcases hending with rfl | rfl
  · exact ⟨_, Yaml.Scan.nextToken_break rfl isComment⟩
  · exact ⟨_, Yaml.Scan.nextToken_break rfl isComment⟩

/-- What a heading or a key begins with means no more in YAML, and neither language passes it. -/
theorem opensFieldless_of_opensLine {c : Char} (hc : TomlText.opensLine c = true) :
    Yaml.OpensFieldless c ∧ c ∉ Yaml.lineEnds ∧ c ≠ '\ufeff' := by
  apply TomlText.forall_of_opensLine _ hc
  decide

theorem nextToken_of_opens (hopens : Opens content) (mark : Mark) :
    nextToken false true false (cellsFrom mark content) = (cellsFrom mark content, true) := by
  obtain ⟨c, rest, rfl, hc⟩ := hopens.exists_head
  obtain ⟨hcell, hline, horder⟩ := opensFieldless_of_opensLine hc
  rw [Yaml.cellsFrom_cons hline]
  exact Yaml.Scan.nextToken_of_opensFieldless hcell horder

/-- In YAML too, the first token after lines without content lies where the content begins, if
there is no tab in the way. -/
theorem nextToken_of_leads {content? : Option (List Char)} (hleads : Leads content? text)
    (hends : HasCommonEnds text) (mark : Mark) :
    StopsAtTab (cellsFrom mark text) ∨
      ∃ mark', nextToken false true false (cellsFrom mark text) =
        (cellsFrom mark' (content?.getD []), true) := by
  induction hleads generalizing mark with
  | @nothing front hfront =>
      refine (nextToken_idle hfront hends mark []).imp (by rw [List.append_nil]; exact id) ?_
      rintro ⟨mark', isComment, hnext⟩
      rw [List.append_nil] at hnext
      exact ⟨mark', hnext⟩
  | @line content? front ending rest hfront hending _ ih =>
      have hfrontEnds : HasCommonEnds front := fun c hc => hends c (List.mem_append_left _ hc)
      have hrestEnds : HasCommonEnds rest := fun c hc =>
        hends c (List.mem_append_right _ (List.mem_append_right _ hc))
      rcases nextToken_idle hfront hfrontEnds mark (ending ++ rest) with
        htab | ⟨place, isComment, hnext⟩
      · exact .inl htab
      · obtain ⟨mark', hnext'⟩ := nextToken_ending hending place rest isComment
        rw [StopsAtTab, hnext, hnext']
        exact ih hrestEnds mark'
  | @content gap content hgap hopens =>
      refine (nextToken_gap hgap mark content).imp_right fun hnext => ?_
      exact ⟨mark.along gap.length, hnext.trans (nextToken_of_opens hopens _)⟩

/-! ## The first token -/

theorem takeWhile_isBare_of_isBlankEnd {mark : Mark} {rest : List Char}
    (hblank : Yaml.isBlankEnd (cellsFrom mark rest) = true) :
    rest.takeWhile TomlText.isBare = [] := by
  cases rest with
  | nil => rfl
  | cons c rest =>
      apply List.takeWhile_cons_of_neg
      intro hbare
      have hopens : TomlText.opensLine c = true := by rw [TomlText.opensLine, hbare, Bool.true_or]
      obtain ⟨hcell, hline, -⟩ := opensFieldless_of_opensLine hopens
      obtain ⟨hbreak, hgap, -⟩ := hcell.is_content
      rw [Yaml.cellsFrom_cons hline, Yaml.isBlankEnd, hbreak, hgap] at hblank
      cases hblank

/-- Only a key that begins with three dashes looks like a mark between documents. -/
theorem exists_dashes_of_isBoundary (hopens : Opens content) {mark : Mark}
    (hboundary : Yaml.isBoundary (cellsFrom mark content) = true) :
    Yaml.isThreefold '-' (cellsFrom mark content) = true ∧
      ∃ gap c rest, content = ['-', '-', '-'] ++ (gap ++ c :: rest) ∧
        (∀ c ∈ gap, TomlText.isGap c = true) ∧ (c = '=' ∨ c = '.') := by
  obtain ⟨first, behind, hcontent, hfirst⟩ := hopens.exists_head
  have hcells : cellsFrom mark (first :: behind) = ⟨first, mark⟩ :: cellsFrom _ behind :=
    Yaml.cellsFrom_cons (opensFieldless_of_opensLine hfirst).2.1
  rw [Yaml.isBoundary, Bool.or_eq_true] at hboundary
  rcases hboundary with hdash | hpoint
  · refine ⟨hdash, ?_⟩
    obtain ⟨-, rest, htext, hblank⟩ := Yaml.eq_append_of_isThreefold hdash rfl
    cases hopens with
    | mark _ hc =>
        obtain ⟨rfl, -⟩ := List.cons.inj htext
        exact absurd hc (by decide)
    | @name name gap c rest' _ hbare hgap hc =>
        have hname : name = ['-', '-', '-'] := by
          have hdashes : (['-', '-', '-'] ++ rest).takeWhile TomlText.isBare =
              ['-', '-', '-'] ++ rest.takeWhile TomlText.isBare :=
            rfl
          have htake := congrArg (List.takeWhile TomlText.isBare) htext
          rw [List.takeWhile_append_of_pos hbare, TomlText.takeWhile_isBare_of_gap hgap hc,
            List.append_nil, hdashes, takeWhile_isBare_of_isBlankEnd hblank] at htake
          exact htake
        exact ⟨gap, c, rest', by rw [hname], hgap, hc⟩
  · rw [hcontent, hcells] at hpoint
    obtain rfl : first = '.' := (Yaml.isThreefold_cons hpoint).2
    exact absurd hfirst (by decide)

/-- Behind such dashes, the sign that ends the key begins a text on the same line. -/
theorem exists_nextToken_of_dashes (hgap : ∀ c ∈ gap, TomlText.isGap c = true) {c : Char}
    (hc : c = '=' ∨ c = '.') (mark : Mark) (rest : List Char) :
    ∃ cell behind,
      nextToken false false false
        ((cellsFrom mark (['-', '-', '-'] ++ (gap ++ c :: rest))).drop 3) =
          (cell :: behind, false) ∧
      Yaml.OpensFieldless cell.char ∧ cell.mark.line = mark.line ∧ cell.mark.column ≠ 0 := by
  have hline : c ∉ Yaml.lineEnds := by
    rcases hc with rfl | rfl <;> decide
  have hcell : Yaml.OpensFieldless c ∧ c ≠ '\ufeff' := by
    rcases hc with rfl | rfl <;> decide
  have hgapLine := isLineText_of_isGap hgap
  have hblanks : ∀ cell ∈ cellsFrom (mark.along 3) gap,
      cell.char = ' ' ∨ cell.char = '\t' ∧ false = false := by
    intro cell hmem
    have hblank := hgap cell.char (Yaml.char_of_mem_cellsFrom hgapLine _ cell hmem).1
    exact (TomlText.isGap_iff.1 hblank).imp_right fun htab => ⟨htab, rfl⟩
  refine ⟨⟨c, (mark.along 3).along gap.length⟩,
    cellsFrom (((mark.along 3).along gap.length).along 1) rest, ?_, hcell.1, rfl, ?_⟩
  · show nextToken false false false (cellsFrom (mark.along 3) (gap ++ c :: rest)) = _
    rw [Yaml.cellsFrom_append hgapLine, Yaml.cellsFrom_cons hline,
      Yaml.Scan.nextToken_blanks hblanks]
    exact Yaml.Scan.nextToken_of_opensFieldless hcell.1 hcell.2
  · show mark.column + 3 + gap.length ≠ 0
    omega

/-- Without a colon that makes a key, the tokens begin with one that begins no record, perhaps
behind a mark for the start of the document. -/
theorem exists_prefix_of_opens (hopens : Opens content) (hends : HasCommonEnds content)
    (hkey : hasKeyMark (content.takeWhile (· ≠ '\n')) = false) {start : List Cell}
    {stop mark : Mark}
    (hnext : nextToken false true false start = (cellsFrom mark content, true)) {fuel : Nat}
    {tokens : List Token} (hrun : Yaml.Scan.run fuel { rest := start, stop } = some tokens) :
    ∃ before token, (before = [] ∨ before = [.documentStart]) ∧ token.IsFieldless ∧
      before ++ [token] <+: tokens := by
  have hclear := Yaml.clear_cellsFrom mark content hends hkey
  by_cases hboundary : Yaml.isBoundary (cellsFrom mark content) = true
  · obtain ⟨hmark, gap, c, rest, rfl, hgap, hc⟩ := exists_dashes_of_isBoundary hopens hboundary
    obtain ⟨cell, behind, hbehind, hcell, hline, hcolumn⟩ :=
      exists_nextToken_of_dashes hgap hc mark rest
    have hsuffix := Yaml.Scan.nextToken_suffix false false false
      ((cellsFrom mark (['-', '-', '-'] ++ (gap ++ c :: rest))).drop 3)
    rw [hbehind] at hsuffix
    have hinner : Yaml.Clear cell.mark.line (cell :: behind) := by
      rw [hline]
      exact hclear.of_suffix (hsuffix.trans (List.drop_suffix 3 _))
    obtain ⟨token, htoken, htokensBegin⟩ := Yaml.Scan.exists_prefix_of_run_documentStart hnext hmark
      hbehind hinner (Yaml.isBoundary_of_column hcolumn behind) hcell hrun
    exact ⟨[.documentStart], token, .inr rfl, htoken, htokensBegin⟩
  · rw [Bool.not_eq_true] at hboundary
    obtain ⟨c, rest, rfl, hc⟩ := hopens.exists_head
    obtain ⟨hcell, hline, -⟩ := opensFieldless_of_opensLine hc
    rw [Yaml.cellsFrom_cons hline] at hnext hclear hboundary
    obtain ⟨token, htoken, htokensBegin⟩ :=
      Yaml.Scan.exists_prefix_of_run hnext hclear hboundary hcell hrun
    exact ⟨[], token, .inl rfl, htoken, htokensBegin⟩

/-! ## Configurations -/

theorem hasCommonEnds_withoutByteOrderMark (hends : HasCommonEnds text) :
    HasCommonEnds (withoutByteOrderMark text) := by
  rw [withoutByteOrderMark]
  split
  · exact fun c hc => hends c (List.mem_of_mem_tail hc)
  · exact hends

/-- In YAML too, a mark for the order of bytes at the very beginning is passed. -/
theorem exists_nextToken_withoutByteOrderMark (text : List Char) :
    ∃ mark, nextToken false true false (cellsFrom {} text) =
      nextToken false true false (cellsFrom mark (withoutByteOrderMark text)) := by
  rw [withoutByteOrderMark]
  split
  · rename_i horder
    obtain ⟨rest, rfl⟩ := List.head?_eq_some_iff.1 horder
    rw [Yaml.cellsFrom_cons (by decide)]
    exact ⟨_, rfl⟩
  · exact ⟨{}, rfl⟩

/-- Without content, a text is no document in YAML; with content, its root has no fields. -/
theorem root?_of_leads {content? : Option (List Char)}
    (hleads : Leads content? (withoutByteOrderMark text)) (hends : HasCommonEnds text)
    (hkey : ∀ content ∈ content?, hasKeyMark (content.takeWhile (· ≠ '\n')) = false)
    {root? : Option Node} (hdocument : Yaml.document? text = some root?) :
    content? = none ∧ root? = none ∨ ∃ root, root? = some root ∧ root.fields? root = none := by
  have hcommon := hasCommonEnds_withoutByteOrderMark hends
  obtain ⟨tokens, htokens, -⟩ := Option.bind_eq_some_iff.1 hdocument
  obtain ⟨fuel, stop, hrun⟩ := Yaml.exists_run_of_tokens? htokens
  obtain ⟨mark, hmark⟩ := exists_nextToken_withoutByteOrderMark text
  rcases nextToken_of_leads hleads hcommon mark with ⟨cell, rest, htab, hcell⟩ | ⟨mark', hnext⟩
  · rw [Yaml.Scan.run_of_tab (hmark.trans htab) hcell] at hrun
    cases hrun
  · rw [← hmark] at hnext
    cases content? with
    | none =>
        rw [Yaml.Scan.run_of_end hnext] at hrun
        obtain rfl := Option.some.inj hrun
        rw [Yaml.document?_of_no_token htokens] at hdocument
        exact .inl ⟨rfl, (Option.some.inj hdocument).symm⟩
    | some content =>
        obtain ⟨hopens, hcontent⟩ := hleads.exists_suffix
        obtain ⟨before, token, hbefore, htoken, htokensBegin⟩ := exists_prefix_of_opens hopens
          (fun c hc => hcommon c (hcontent.subset hc)) (hkey content rfl) hnext hrun
        exact .inr (Yaml.fields?_of_document? hbefore htoken htokens htokensBegin hdocument)

/-- A configuration in TOML that opens without a key of YAML is none in YAML, unless both leave all
settings at their defaults. -/
theorem readYaml?_of_opensWithoutKey {text : String} (hplain : OpensWithoutKey text)
    {config : Config} (htoml : readToml? text = some config) :
    readYaml? text = none ∨ readYaml? text = some config := by
  obtain ⟨root, hroot, hconfig⟩ := Option.bind_eq_some_iff.1 htoml
  obtain ⟨content?, hleads, hempty⟩ := TomlText.exists_leads_of_lines? hroot
  have hkey : ∀ content ∈ content?, hasKeyMark (content.takeWhile (· ≠ '\n')) = false := by
    intro content hcontent
    obtain rfl := hcontent
    obtain ⟨gap, hfind⟩ := exists_find?_splitAt hleads
    have hopening := hplain.2
    rw [openingLine, withoutByteOrderMark, hfind] at hopening
    exact Yaml.hasKeyMark_of_append gap _ hopening
  cases hdocument : Yaml.document? text.toList with
  | none => exact .inl (by rw [readYaml?, hdocument]; rfl)
  | some root? =>
      rcases root?_of_leads hleads hplain.1 hkey hdocument with ⟨hnone, rfl⟩ | ⟨node, rfl, hfields⟩
      · obtain rfl := hempty hnone
        obtain rfl : ({} : Config) = config := Option.some.inj hconfig
        exact .inr (by rw [readYaml?, hdocument]; rfl)
      · refine .inl ?_
        rw [readYaml?, hdocument]
        show ofYaml? node = none
        rw [ofYaml?, hfields]
        rfl

end Untested.Config
