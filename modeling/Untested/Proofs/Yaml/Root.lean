/-
# Documents without fields

A document has fields if its root is a mapping, or a plain scalar without text.  In block style a
mapping is known only by the colon behind its first key.  So a document has none that begins with
some text, a quotation mark, a bracket or a dash, unless a colon with blank space behind it follows
on the same line.
-/

import Untested.Proofs.Yaml.Opening
import Untested.Yaml.View

namespace Untested.Yaml

/-- Whether the token begins a node that has no fields by itself. -/
def Token.IsFieldless : Token → Prop
  | scalar isPlain text => isPlain = true → text ≠ []
  | sequenceStart | blockSequence => True
  | _ => False

/-- Whether a plain scalar begins with the character, whatever follows it. -/
def opensPlain (c : Char) : Bool :=
  !"-?:,[]\x7b\x7d#&*!|>'\"%@`".toList.contains c && !isGap c && !isBreak c

/-- Whether the character begins a node that has no fields by itself, unless it belongs to a mark
between documents. -/
def OpensFieldless (c : Char) : Prop :=
  opensPlain c = true ∨ c ∈ ['-', '\x22', '\x27', '[']

instance (c : Char) : Decidable (OpensFieldless c) :=
  inferInstanceAs (Decidable (_ ∨ _))

/-- Such a character is no blank space and does not begin a comment. -/
theorem OpensFieldless.is_content {c : Char} (hc : OpensFieldless c) :
    isBreak c = false ∧ isGap c = false ∧ c ≠ '#' := by
  rcases hc with hplain | hmark
  · simp only [opensPlain, Bool.and_eq_true, Bool.not_eq_true'] at hplain
    refine ⟨hplain.2, hplain.1.2, ?_⟩
    rintro rfl
    exact absurd hplain.1.1 (by decide)
  · simp only [List.mem_cons, List.not_mem_nil, or_false] at hmark
    rcases hmark with rfl | rfl | rfl | rfl <;> decide

theorem isThreefold_cons {c : Char} {cell : Cell} {rest : List Cell}
    (hmark : isThreefold c (cell :: rest) = true) :
    cell.mark.column = 0 ∧ cell.char = c := by
  match rest with
  | [] | [_] => cases hmark
  | b :: d :: behind =>
      simp only [isThreefold, Bool.and_eq_true, decide_eq_true_eq] at hmark
      exact hmark.1.1.1

theorem isBoundary_of_column {cell : Cell} (hcolumn : cell.mark.column ≠ 0) (rest : List Cell) :
    isBoundary (cell :: rest) = false := by
  have hmark (c : Char) : isThreefold c (cell :: rest) = false := by
    rw [Bool.eq_false_iff]
    exact fun hmark => hcolumn (isThreefold_cons hmark).1
  rw [isBoundary, hmark, hmark, Bool.or_self]

namespace Scan

theorem eq_of_dropCandidate {scan dropped : Scan} (hdrop : scan.dropCandidate = some dropped) :
    dropped = { scan with candidate := none } := by
  rw [dropCandidate] at hdrop
  split at hdrop
  · cases hdrop
  · exact (Option.some.inj hdrop).symm

/-- A scan outside of all brackets and braces, of which only what follows on a line can make a key
of the next token. -/
structure Starts (line : Nat) (scan : Scan) : Prop where
  candidate : ∀ candidate ∈ scan.candidate, candidate.mark.line = line
  suspended : scan.suspended = []
  clear : Clear line scan.rest

namespace Starts

variable {line : Nat} {scan : Scan} (h : scan.Starts line)
include h

theorem inFlow_eq : scan.inFlow = false := by
  rw [inFlow, h.suspended]
  rfl

/-- The next token is the first of an opening. -/
theorem push (token : Token) : (scan.push token).Begins (token :: scan.tokens) line := by
  refine ⟨List.suffix_rfl, ?_, h.clear⟩
  show Guarded _ _ (scan.candidate :: scan.suspended)
  rw [h.suspended]
  exact ⟨fun candidate hcandidate => .inr ⟨rfl, h.candidate candidate hcandidate⟩, trivial⟩

theorem markCandidate (hline : scan.mark.line = line) {marked : Scan}
    (hmark : scan.markCandidate = some marked) :
    marked.Starts line ∧ marked.tokens = scan.tokens ∧ marked.rest = scan.rest := by
  rw [Scan.markCandidate] at hmark
  split at hmark
  · simp only [Option.bind_eq_bind, Option.bind_eq_some_iff, Option.pure_def,
      Option.some.injEq] at hmark
    obtain ⟨dropped, hdrop, rfl⟩ := hmark
    obtain rfl := eq_of_dropCandidate hdrop
    refine ⟨⟨?_, h.suspended, h.clear⟩, rfl, rfl⟩
    intro candidate hcandidate
    obtain rfl := Option.some.inj hcandidate
    exact hline
  · obtain rfl := Option.some.inj hmark
    exact ⟨h, rfl, rfl⟩

/-- A scalar between quotation marks is no record, even without text. -/
theorem takeQuoted (hline : scan.mark.line = line) {isSingle : Bool} {taken : Scan}
    (htake : scan.takeQuoted isSingle = some taken) :
    ∃ token : Token, token.IsFieldless ∧ taken.Begins (token :: scan.tokens) line := by
  simp only [Scan.takeQuoted, takeNode, Option.bind_eq_bind, Option.bind_eq_some_iff,
    Option.pure_def, Option.some.injEq, Option.map_eq_some_iff] at htake
  obtain ⟨marked, hmark, ⟨token, rest⟩, ⟨reading, hreading, heq⟩, rfl⟩ := htake
  obtain ⟨rfl, rfl⟩ := Prod.mk.inj heq
  obtain ⟨hmarked, htokens, -⟩ := h.markCandidate hline hmark
  have hleft : reading.rest <:+ marked.rest :=
    (leaves_quoted _ _ _ _ _ hreading).trans (List.drop_suffix 1 marked.rest)
  refine ⟨.scalar false reading.text, fun hplain => absurd hplain Bool.false_ne_true, ?_⟩
  rw [← htokens]
  exact (hmarked.push _).leave hleft false

/-- A bracket begins a sequence. -/
theorem openFlow (hline : scan.mark.line = line) {taken : Scan}
    (htake : scan.openFlow .sequenceStart = some taken) :
    taken.Begins (.sequenceStart :: scan.tokens) line := by
  simp only [Scan.openFlow, Option.bind_eq_bind, Option.bind_eq_some_iff, Option.pure_def,
    Option.some.injEq] at htake
  obtain ⟨marked, hmark, rfl⟩ := htake
  obtain ⟨hmarked, htokens, -⟩ := h.markCandidate hline hmark
  have hpush := (hmarked.push .sequenceStart).skip 1
  rw [← htokens]
  exact ⟨hpush.tokens, hpush.guarded.none, hpush.clear⟩

/-- A dash with blank space behind it begins a sequence. -/
theorem takeIndicator (hindent : scan.indent = none) {isKeyAllowedAfter : Bool} {taken : Scan}
    (htake : scan.takeIndicator .blockSequence .item isKeyAllowedAfter = some taken) :
    taken.Begins (.blockSequence :: scan.tokens) line := by
  rw [Scan.takeIndicator] at htake
  split at htake
  · cases htake
  · simp only [Option.bind_eq_bind, Option.bind_eq_some_iff, Option.pure_def,
      Option.some.injEq] at htake
    obtain ⟨dropped, hdrop, rfl⟩ := htake
    obtain rfl := eq_of_dropCandidate hdrop
    have hopened : scan.openAt scan.mark.column scan.tokens.length .blockSequence =
        { scan.push .blockSequence with
          indent := some scan.mark.column
          outer := scan.indent :: scan.outer } := by
      have hdeeper : (!scan.inFlow && isDeeper scan.mark.column scan.indent) = true := by
        rw [h.inFlow_eq, hindent]
        rfl
      rw [openAt, if_pos hdeeper, insert, Nat.sub_self]
      rfl
    rw [hopened]
    have hpush := ((h.push .blockSequence).push .item).skip 1
    exact ⟨hpush.tokens, hpush.guarded.2.none, hpush.clear⟩

/-- A plain scalar has some text if it begins with some. -/
theorem takePlain (hline : scan.mark.line = line) {cell : Cell} {rest : List Cell}
    (hrest : scan.rest = cell :: rest) (hgap : isGap cell.char = false)
    (hbreak : isBreak cell.char = false) (hcolon : cell.char ≠ ':') {taken : Scan}
    (htake : scan.takePlain = some taken) :
    ∃ token : Token, token.IsFieldless ∧ taken.Begins (token :: scan.tokens) line := by
  simp only [Scan.takePlain, Option.bind_eq_bind, Option.bind_eq_some_iff, Option.pure_def,
    Option.some.injEq] at htake
  obtain ⟨marked, hmark, reading, hreading, rfl⟩ := htake
  obtain ⟨hmarked, htokens, hsame⟩ := h.markCandidate hline hmark
  have htext : reading.text ≠ [] := by
    have hends : endsPlain false cell rest = false := by
      rw [endsPlain, decide_eq_false hcolon, Bool.false_and, Bool.false_and, Bool.or_self]
    rw [hsame, hrest, hmarked.inFlow_eq, plain, hbreak, hgap, hends] at hreading
    obtain ⟨behind, -, rfl⟩ := Option.map_eq_some_iff.1 hreading
    exact List.append_ne_nil_of_left_ne_nil (by simp) _
  refine ⟨.scalar true reading.text, fun _ => htext, ?_⟩
  rw [← htokens]
  exact (hmarked.push _).leave (leaves_plain _ _ _ _ _ hreading) _

omit h in
theorem takeToken_of_opensPlain {cell : Cell} (hcell : opensPlain cell.char = true)
    (hboundary : isBoundary scan.rest = false) (rest : List Cell) :
    scan.takeToken cell rest = scan.takePlain := by
  rw [opensPlain, Bool.and_eq_true, Bool.and_eq_true, Bool.not_eq_true', Bool.not_eq_true',
    Bool.not_eq_true'] at hcell
  obtain ⟨⟨hmarks, hgap⟩, hbreak⟩ := hcell
  have hplain : startsPlain scan.inFlow cell.char rest = true := by
    rw [startsPlain, hmarks, hgap, hbreak]
    rfl
  rw [isBoundary, Bool.or_eq_false_iff] at hboundary
  rw [List.contains_eq_mem, decide_eq_false_iff_not] at hmarks
  have hne (mark : Char) (hmark : mark ∈ "-?:,[]\x7b\x7d#&*!|>'\"%@`".toList) :
      (cell.char = mark) = False := by
    apply eq_false
    rintro rfl
    exact hmarks hmark
  simp only [takeToken, hboundary.1, hboundary.2, hplain, hne '%' (by decide), hne '[' (by decide),
    hne '\x7b' (by decide), hne ']' (by decide), hne '\x7d' (by decide), hne ',' (by decide),
    hne '-' (by decide), hne '?' (by decide), hne ':' (by decide), hne '*' (by decide),
    hne '&' (by decide), hne '!' (by decide), hne '|' (by decide), hne '>' (by decide),
    hne '\x27' (by decide), hne '\x22' (by decide), decide_false, Bool.and_false, Bool.false_and,
    Bool.false_eq_true, if_false, if_true]

/-- No key comes before what some text, a quotation mark, a bracket or a dash begins. -/
theorem exists_begins_of_takeToken (hindent : scan.indent = none) {cell : Cell} {rest : List Cell}
    (hrest : scan.rest = cell :: rest) (hline : cell.mark.line = line)
    (hboundary : isBoundary scan.rest = false)
    (hcell : OpensFieldless cell.char)
    {taken : Scan} (htake : scan.takeToken cell rest = some taken) :
    ∃ token : Token, token.IsFieldless ∧ taken.Begins (token :: scan.tokens) line := by
  have hmark : scan.mark.line = line := by
    rw [mark, hrest]
    exact hline
  rcases hcell with hcell | hcell
  · rw [takeToken_of_opensPlain hcell hboundary] at htake
    simp only [opensPlain, Bool.and_eq_true, Bool.not_eq_true'] at hcell
    obtain ⟨⟨hmarks, hgap⟩, hbreak⟩ := hcell
    refine h.takePlain hmark hrest hgap hbreak ?_ htake
    intro hcolon
    rw [hcolon] at hmarks
    exact absurd hmarks (by decide)
  · rw [isBoundary, Bool.or_eq_false_iff] at hboundary
    simp only [List.mem_cons, List.not_mem_nil, or_false] at hcell
    rcases hcell with hcell | hcell | hcell | hcell
    · cases hblank : isBlankEnd rest with
      | true =>
          have hitem : scan.takeIndicator .blockSequence .item true = some taken := by
            simpa [takeToken, hcell, hboundary.1, hboundary.2, hblank] using htake
          exact ⟨.blockSequence, trivial, h.takeIndicator hindent hitem⟩
      | false =>
          have hplain : startsPlain scan.inFlow '-' rest = true := by
            cases rest with
            | nil => cases hblank
            | cons next behind =>
                rw [isBlankEnd, Bool.or_eq_false_iff] at hblank
                simp [startsPlain, startsIn, hblank.1]
          have htext : scan.takePlain = some taken := by
            simpa [takeToken, hcell, hboundary.1, hboundary.2, hblank, hplain] using htake
          exact h.takePlain hmark hrest (by rw [hcell]; rfl) (by rw [hcell]; rfl)
            (by rw [hcell]; decide) htext
    · have hquoted : scan.takeQuoted false = some taken := by
        simpa [takeToken, hcell, hboundary.1, hboundary.2] using htake
      exact h.takeQuoted hmark hquoted
    · have hquoted : scan.takeQuoted true = some taken := by
        simpa [takeToken, hcell, hboundary.1, hboundary.2] using htake
      exact h.takeQuoted hmark hquoted
    · have hopened : scan.openFlow .sequenceStart = some taken := by
        simpa [takeToken, hcell, hboundary.1, hboundary.2] using htake
      exact ⟨.sequenceStart, trivial, h.openFlow hmark hopened⟩

end Starts

end Scan

/-! ## Roots -/

namespace Reader

theorem fields?_of_node {fuel : Nat} {reading left : Reading} {token : Token} {later : List Token}
    {root : Node} (htokens : reading.tokens = token :: later) (htoken : token.IsFieldless)
    (hnode : (node true false fuel).run reading = some (root, left)) :
    root.fields? root = none := by
  obtain ⟨tokens, anchors, shorthands⟩ := reading
  obtain rfl : tokens = token :: later := htokens
  cases fuel with
  | zero => cases hnode
  | succ fuel =>
      cases token with
      | scalar isPlain text =>
          have hscalar : (node true false (fuel + 1)).run
              ⟨.scalar isPlain text :: later, anchors, shorthands⟩ =
                some (.scalar none none isPlain text, ⟨later, anchors, shorthands⟩) := by
            rw [node]
            rfl
          rw [hscalar] at hnode
          obtain ⟨rfl, rfl⟩ := Prod.mk.inj (Option.some.inj hnode)
          cases isPlain with
          | false => rfl
          | true =>
              obtain ⟨c, rest, rfl⟩ := List.exists_cons_of_ne_nil (htoken rfl)
              rfl
      | sequenceStart =>
          have hitems : (node true false (fuel + 1)).run
              ⟨.sequenceStart :: later, anchors, shorthands⟩ =
                ((flowItems true fuel).run ⟨later, anchors, shorthands⟩).bind fun items =>
                  some (.sequence none items.1, items.2) := by
            rw [node]
            rfl
          rw [hitems, Option.bind_eq_some_iff] at hnode
          obtain ⟨items, -, hnode⟩ := hnode
          obtain ⟨rfl, rfl⟩ := Prod.mk.inj (Option.some.inj hnode)
          rfl
      | blockSequence =>
          have hitems : (node true false (fuel + 1)).run
              ⟨.blockSequence :: later, anchors, shorthands⟩ =
                ((blockItems fuel).run ⟨later, anchors, shorthands⟩).bind fun items =>
                  some (.sequence none items.1, items.2) := by
            rw [node]
            rfl
          rw [hitems, Option.bind_eq_some_iff] at hnode
          obtain ⟨items, -, hnode⟩ := hnode
          obtain ⟨rfl, rfl⟩ := Prod.mk.inj (Option.some.inj hnode)
          rfl
      | _ => cases htoken

/-- A document has no fields that begins with such a token, even behind a mark for its start. -/
theorem fields?_of_document {fuel : Nat} {before later : List Token} {token : Token}
    {document? : Option Node} {left : Reading}
    (hbefore : before = [] ∨ before = [.documentStart]) (htoken : token.IsFieldless)
    (hdocument : (document fuel).run { tokens := before ++ token :: later } =
      some (document?, left)) :
    ∃ root, document? = some root ∧ root.fields? root = none := by
  have hroot {reading : Reading} (htokens : reading.tokens = token :: later)
      (hnode : ((node true false fuel).run reading).bind
        (fun root => some (some root.1, root.2)) = some (document?, left)) :
      ∃ root, document? = some root ∧ root.fields? root = none := by
    obtain ⟨⟨root, behind⟩, hread, heq⟩ := Option.bind_eq_some_iff.1 hnode
    obtain ⟨rfl, rfl⟩ := Prod.mk.inj (Option.some.inj heq)
    exact ⟨root, rfl, fields?_of_node htokens htoken hread⟩
  rcases hbefore with rfl | rfl
  · have hrun : (document fuel).run { tokens := token :: later } =
        ((node true false fuel).run ⟨token :: later, [], commonShorthands⟩).bind fun root =>
          some (some root.1, root.2) := by
      cases token with
      | scalar | sequenceStart | blockSequence => rfl
      | _ => cases htoken
    exact hroot rfl (hrun.symm.trans hdocument)
  · cases fuel with
    | zero => cases hdocument
    | succ fuel =>
        have hrun : (document (fuel + 1)).run { tokens := .documentStart :: token :: later } =
            ((node true false (fuel + 1)).run ⟨token :: later, [], commonShorthands⟩).bind
              fun root => some (some root.1, root.2) := by
          cases token with
          | scalar | sequenceStart | blockSequence => rfl
          | _ => cases htoken
        exact hroot rfl (hrun.symm.trans hdocument)

end Reader

/-! ## Sources -/

namespace Scan

variable {fuel : Nat} {start behind : List Cell} {cell : Cell} {stop : Mark}
  {isKeyAllowed isKeyAllowed' : Bool} {tokens : List Token}

/-- Without candidates and open collections, a scan goes to the next token and does no more. -/
theorem advance_initial (start : List Cell) (stop : Mark) (tokens : List Token)
    (isKeyAllowed : Bool) :
    advance { rest := start, stop, tokens, isKeyAllowed } =
      some { rest := (nextToken false isKeyAllowed false start).1
             stop
             tokens
             isKeyAllowed := (nextToken false isKeyAllowed false start).2 } :=
  rfl

/-- Nothing is passed before such a character, unless it is a mark for the order of bytes. -/
theorem nextToken_of_opensFieldless (hcell : OpensFieldless cell.char)
    (horder : cell.char ≠ '\ufeff') :
    nextToken false isKeyAllowed false (cell :: behind) = (cell :: behind, isKeyAllowed) := by
  obtain ⟨hbreak, hgap, hcomment⟩ := hcell.is_content
  rw [isGap, Bool.or_eq_false_iff, decide_eq_false_iff_not, decide_eq_false_iff_not] at hgap
  simp [nextToken, hbreak, hgap.1, hgap.2, horder, hcomment]

/-- A reader passes no tab where a key may begin, and nothing begins with it. -/
theorem takeToken_tab {scan : Scan} (hrest : scan.rest = cell :: behind)
    (hcell : cell.char = '\t') : scan.takeToken cell behind = none := by
  have hmark (c : Char) (hc : c ≠ '\t') : isThreefold c scan.rest = false := by
    rw [hrest, Bool.eq_false_iff]
    intro hmark
    exact hc ((isThreefold_cons hmark).2.symm.trans hcell)
  simp [takeToken, hcell, hmark, startsPlain, isGap]

theorem run_of_tab
    (hnext : nextToken false isKeyAllowed false start = (cell :: behind, isKeyAllowed'))
    (hcell : cell.char = '\t') (fuel : Nat) (stop : Mark) :
    run fuel { rest := start, stop, isKeyAllowed } = none := by
  cases fuel with
  | zero => rfl
  | succ fuel =>
      rw [run, advance_initial, hnext]
      simp only [Option.bind_eq_bind, Option.bind_some]
      rw [takeToken_tab rfl hcell]
      rfl

theorem run_of_end (hnext : nextToken false isKeyAllowed false start = ([], isKeyAllowed'))
    (fuel : Nat) (stop : Mark) :
    run (fuel + 1) { rest := start, stop, isKeyAllowed } = some [] := by
  rw [run, advance_initial, hnext]
  rfl

/-- The tokens of a source go on with one that begins no record. -/
theorem exists_prefix_of_run {before : List Token}
    (hnext : nextToken false isKeyAllowed false start = (cell :: behind, isKeyAllowed'))
    (hclear : Clear cell.mark.line (cell :: behind))
    (hboundary : isBoundary (cell :: behind) = false)
    (hcell : OpensFieldless cell.char)
    (hrun : run fuel { rest := start, stop, tokens := before, isKeyAllowed } = some tokens) :
    ∃ token : Token, token.IsFieldless ∧ before.reverse ++ [token] <+: tokens := by
  cases fuel with
  | zero => cases hrun
  | succ fuel =>
      simp only [run, advance_initial, hnext, Option.bind_eq_bind, Option.bind_some,
        Option.bind_eq_some_iff] at hrun
      obtain ⟨taken, htaken, hrun⟩ := hrun
      have hstarts : Starts cell.mark.line
          { rest := cell :: behind, stop, tokens := before, isKeyAllowed := isKeyAllowed' } :=
        ⟨fun candidate hcandidate => absurd hcandidate (Option.not_mem_none candidate), rfl, hclear⟩
      obtain ⟨token, htoken, hbegins⟩ :=
        hstarts.exists_begins_of_takeToken rfl rfl rfl hboundary hcell htaken
      refine ⟨token, htoken, ?_⟩
      rw [← List.reverse_cons]
      exact hbegins.prefix_of_run hrun

theorem takeToken_of_isThreefold {scan : Scan} (hmark : isThreefold '-' scan.rest = true)
    (hrest : scan.rest = cell :: behind) :
    scan.takeToken cell behind =
      scan.endBlocks.map fun ended => (ended.push .documentStart).skip 3 := by
  have hdash : cell.char = '-' := (isThreefold_cons (hrest ▸ hmark)).2
  rw [takeToken, hdash, hmark, decide_eq_false (by decide : ('-' : Char) ≠ '%'), Bool.and_false,
    if_neg Bool.false_ne_true, if_pos rfl, Option.map_eq_bind]
  rfl

/-- Behind a mark for the start of a document too, such a token comes next. -/
theorem exists_prefix_of_run_documentStart {marks : List Cell}
    (hmarks : nextToken false true false start = (marks, isKeyAllowed'))
    (hmark : isThreefold '-' marks = true)
    (hnext : nextToken false false false (marks.drop 3) = (cell :: behind, isKeyAllowed))
    (hclear : Clear cell.mark.line (cell :: behind))
    (hboundary : isBoundary (cell :: behind) = false)
    (hcell : OpensFieldless cell.char)
    (hrun : run fuel { rest := start, stop } = some tokens) :
    ∃ token : Token, token.IsFieldless ∧ [.documentStart, token] <+: tokens := by
  cases fuel with
  | zero => cases hrun
  | succ fuel =>
      cases marks with
      | nil => cases hmark
      | cons first more =>
          rw [run, advance_initial, hmarks] at hrun
          have htaken : takeToken { rest := first :: more, stop, isKeyAllowed := isKeyAllowed' }
              first more =
                some { rest := more.drop 2
                       stop
                       tokens := [.documentStart]
                       isKeyAllowed := false } :=
            takeToken_of_isThreefold hmark rfl
          simp only [Option.bind_eq_bind, Option.bind_some, htaken] at hrun
          exact exists_prefix_of_run hnext hclear hboundary hcell hrun

end Scan

theorem exists_run_of_tokens? {text : List Char} {tokens : List Token}
    (htokens : tokens? text = some tokens) :
    ∃ fuel stop, Scan.run (fuel + 1) { rest := cellsFrom {} text, stop } = some tokens := by
  rw [tokens?] at htokens
  split at htokens
  · exact ⟨_, _, htokens⟩
  · cases htokens

theorem document?_of_no_token {text : List Char} (htokens : tokens? text = some []) :
    document? text = some none := by
  rw [document?, htokens]
  rfl

/-- The root of a document has no fields if its first token begins no record. -/
theorem fields?_of_document? {text : List Char} {before tokens : List Token} {token : Token}
    {root? : Option Node} (hbefore : before = [] ∨ before = [.documentStart])
    (htoken : token.IsFieldless) (htokens : tokens? text = some tokens)
    (htokensBegin : before ++ [token] <+: tokens) (hdocument : document? text = some root?) :
    ∃ root, root? = some root ∧ root.fields? root = none := by
  obtain ⟨later, rfl⟩ := htokensBegin
  simp only [document?, htokens, Option.bind_eq_bind, Option.bind_some,
    Option.bind_eq_some_iff] at hdocument
  obtain ⟨⟨root?', left⟩, hread, hleft⟩ := hdocument
  rw [List.append_assoc, List.singleton_append] at hread
  dsimp only at hleft
  split at hleft
  · obtain rfl := Option.some.inj hleft
    exact Reader.fields?_of_document hbefore htoken hread
  · cases hleft

end Untested.Yaml
