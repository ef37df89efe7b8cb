/-
# The beginning of a document stays in place

A reader of YAML puts a token in before earlier ones when a colon turns out to mark a key.  The key
has to begin on the line of the colon.  So once some tokens have been taken in, nothing is put in
before them as long as no colon with blank space behind it follows on their line, even if they begin
with what could be a key.
-/

import Untested.Proofs.Yaml.Forward

namespace Untested.Yaml

/-- Every colon with blank space behind it lies on a later line. -/
def Clear (line : Nat) (cells : List Cell) : Prop :=
  ∀ cell rest, cell :: rest <:+ cells → cell.char = ':' → isBlankEnd rest = true →
    line < cell.mark.line

theorem Clear.of_suffix {line : Nat} {cells rest : List Cell} (hclear : Clear line cells)
    (hrest : rest <:+ cells) : Clear line rest :=
  fun cell behind hcell => hclear cell behind (hcell.trans hrest)

namespace Scan

/-- Candidates, the inner ones first, that all have a number of tokens before them, apart from an
outermost one that lies on a line. -/
def Guarded (count line : Nat) : List (Option Candidate) → Prop
  | [] => True
  | candidate? :: outer =>
    (∀ candidate ∈ candidate?,
      count ≤ candidate.position ∨ outer = [] ∧ candidate.mark.line = line) ∧
    Guarded count line outer

/-- A scan has taken in some tokens, the latest first, that began on a line, and it will put
nothing in before them. -/
structure Begins (opening : List Token) (line : Nat) (scan : Scan) : Prop where
  tokens : opening <:+ scan.tokens
  guarded : Guarded opening.length line (scan.candidate :: scan.suspended)
  clear : Clear line scan.rest

variable {opening : List Token} {line : Nat} {scan : Scan}

theorem Guarded.none {count : Nat} {outer : List (Option Candidate)}
    (houter : Guarded count line outer) : Guarded count line (.none :: outer) :=
  ⟨fun candidate hcandidate => absurd hcandidate (Option.not_mem_none candidate), houter⟩

/-- The outcome of a step, if there is one, still begins with the tokens. -/
def Keeps (opening : List Token) (line : Nat) (result : Option Scan) : Prop :=
  ∀ scan ∈ result, scan.Begins opening line

namespace Keeps

variable {α : Type} {result : Option Scan}

theorem none : Keeps opening line .none :=
  nofun

theorem some (hscan : scan.Begins opening line) : Keeps opening line (.some scan) := by
  intro other hother
  obtain rfl := Option.some.inj hother
  exact hscan

theorem bind {next : Scan → Option Scan} (hresult : Keeps opening line result)
    (hnext : ∀ scan, scan.Begins opening line → Keeps opening line (next scan)) :
    Keeps opening line (result >>= next) := by
  cases result with
  | none => exact .none
  | some scan => exact hnext scan (hresult scan rfl)

theorem ite {condition : Prop} [Decidable condition] {other : Option Scan}
    (hresult : condition → Keeps opening line result)
    (hother : ¬ condition → Keeps opening line other) :
    Keeps opening line (if condition then result else other) := by
  split
  · exact hresult ‹_›
  · exact hother ‹_›

/-- A step that reads something goes on with what is left. -/
theorem bind_leaves {rest : α → List Cell} {cells : List Cell} {reading? : Option α}
    {next : α → Option Scan} (hreading : Leaves rest cells reading?)
    (hnext : ∀ reading, rest reading <:+ cells → Keeps opening line (next reading)) :
    Keeps opening line (reading? >>= next) := by
  cases reading? with
  | none => exact .none
  | some reading => exact hnext reading (hreading reading rfl)

end Keeps

namespace Begins

variable (h : scan.Begins opening line)
include h

theorem length_le : opening.length ≤ scan.tokens.length :=
  h.tokens.length_le

theorem push (token : Token) : (scan.push token).Begins opening line :=
  ⟨h.tokens.trans (List.suffix_cons token scan.tokens), h.guarded, h.clear⟩

theorem skip (count : Nat) : (scan.skip count).Begins opening line :=
  ⟨h.tokens, h.guarded, h.clear.of_suffix (List.drop_suffix count scan.rest)⟩

theorem leave {rest : List Cell} (hrest : rest <:+ scan.rest) (isKeyAllowed : Bool) :
    ({ scan with rest, isKeyAllowed } : Scan).Begins opening line :=
  ⟨h.tokens, h.guarded, h.clear.of_suffix hrest⟩

/-- A token may be put in behind the opening. -/
theorem insert {position : Nat} (hposition : opening.length ≤ position) (token : Token) :
    (scan.insert position token).Begins opening line := by
  refine ⟨?_, h.guarded, h.clear⟩
  obtain ⟨later, hlater⟩ := h.tokens
  have hbehind : opening <:+ scan.tokens.drop (scan.tokens.length - position) := by
    rw [← hlater, List.drop_append_of_le_length (by rw [List.length_append]; omega)]
    exact List.suffix_append _ opening
  show opening <:+ scan.tokens.take _ ++ token :: scan.tokens.drop _
  exact (hbehind.trans (List.suffix_cons token _)).trans (List.suffix_append _ _)

theorem openAt {position : Nat} (hposition : opening.length ≤ position) (column : Nat)
    (token : Token) : (scan.openAt column position token).Begins opening line := by
  rw [Scan.openAt]
  split
  · have hinsert := h.insert hposition token
    exact ⟨hinsert.tokens, hinsert.guarded, hinsert.clear⟩
  · exact h

theorem dropCandidate : Keeps opening line scan.dropCandidate := by
  rw [Scan.dropCandidate]
  split
  · exact .none
  · exact .some ⟨h.tokens, h.guarded.2.none, h.clear⟩

theorem markCandidate : Keeps opening line scan.markCandidate := by
  rw [Scan.markCandidate]
  split
  · apply h.dropCandidate.bind
    intro dropped hdropped
    refine .some ⟨hdropped.tokens, ⟨?_, hdropped.guarded.2⟩, hdropped.clear⟩
    intro candidate hcandidate
    obtain rfl := Option.some.inj hcandidate
    exact .inl hdropped.length_le
  · exact .some h

end Begins

/-! ## Between tokens -/

theorem closeTo_go_eq (column : Option Nat) (outer : List (Option Nat)) (scan : Scan) :
    ∃ ends indent outer', closeTo.go column outer scan =
      { scan with tokens := ends ++ scan.tokens, indent, outer := outer' } := by
  induction outer generalizing scan with
  | nil => exact ⟨[], scan.indent, scan.outer, rfl⟩
  | cons around outer ih =>
      have hclosed : ∃ ends indent outer', closeTo.go column outer
          { scan.push .blockEnd with indent := around, outer } =
            { scan with tokens := ends ++ scan.tokens, indent, outer := outer' } := by
        obtain ⟨ends, indent, outer', heq⟩ :=
          ih { scan.push .blockEnd with indent := around, outer }
        refine ⟨ends ++ [.blockEnd], indent, outer', ?_⟩
        rw [heq, List.append_assoc]
        rfl
      have hkept : ∃ ends indent outer', scan =
          { scan with tokens := ends ++ scan.tokens, indent, outer := outer' } :=
        ⟨[], scan.indent, scan.outer, rfl⟩
      cases hindent : scan.indent with
      | none => cases column <;> simpa only [closeTo.go, hindent] using hkept
      | some indent =>
          cases column with
          | none => simpa only [closeTo.go, hindent] using hclosed
          | some column =>
              simp only [closeTo.go, hindent]
              split
              · exact hclosed
              · exact hkept

/-- To close collections in block style adds tokens and changes nothing but indentation. -/
theorem closeTo_eq (column : Option Nat) (scan : Scan) :
    ∃ ends indent outer, scan.closeTo column =
      { scan with tokens := ends ++ scan.tokens, indent, outer } := by
  rw [closeTo]
  split
  · exact ⟨[], scan.indent, scan.outer, rfl⟩
  · exact closeTo_go_eq column scan.outer scan

theorem Begins.closeTo (h : scan.Begins opening line) (column : Option Nat) :
    (scan.closeTo column).Begins opening line := by
  obtain ⟨ends, indent, outer, heq⟩ := closeTo_eq column scan
  rw [heq]
  exact ⟨h.tokens.trans (List.suffix_append ends scan.tokens), h.guarded, h.clear⟩

theorem Begins.endBlocks (h : scan.Begins opening line) : Keeps opening line scan.endBlocks := by
  rw [Scan.endBlocks]
  apply (h.closeTo none).dropCandidate.bind
  intro ended hended
  exact .some ⟨hended.tokens, hended.guarded, hended.clear⟩

/-- What is left of candidates are those among them that do not lie too far behind. -/
theorem mem_of_refresh {now : Mark} {candidate? refreshed : Option Candidate}
    (hrefresh : refresh now candidate? = some refreshed) {candidate : Candidate}
    (hcandidate : candidate ∈ refreshed) :
    candidate ∈ candidate? ∧ isStale now candidate = false := by
  cases candidate? with
  | none =>
      obtain rfl := Option.some.inj hrefresh
      cases hcandidate
  | some other =>
      rw [refresh] at hrefresh
      split at hrefresh
      · split at hrefresh
        · cases hrefresh
        · obtain rfl := Option.some.inj hrefresh
          cases hcandidate
      · rename_i hfresh
        obtain rfl := Option.some.inj hrefresh
        obtain rfl := Option.some.inj hcandidate
        exact ⟨rfl, Bool.not_eq_true _ ▸ hfresh⟩

theorem Guarded.mapM_refresh {count : Nat} {now : Mark}
    {candidates refreshed : List (Option Candidate)} (hguarded : Guarded count line candidates)
    (hrefresh : candidates.mapM (refresh now) = some refreshed) :
    Guarded count line refreshed := by
  induction candidates generalizing refreshed with
  | nil =>
      obtain rfl := Option.some.inj hrefresh
      exact trivial
  | cons candidate? outer ih =>
      simp only [List.mapM_cons, Option.bind_eq_bind, Option.bind_eq_some_iff, Option.pure_def,
        Option.some.injEq] at hrefresh
      obtain ⟨first, hfirst, rest, hrest, rfl⟩ := hrefresh
      refine ⟨?_, ih hguarded.2 hrest⟩
      intro candidate hcandidate
      have houter : outer = [] → rest = [] := by
        rintro rfl
        exact (Option.some.inj hrest).symm
      exact (hguarded.1 candidate (mem_of_refresh hfirst hcandidate).1).imp_right
        (And.imp_left houter)

theorem Begins.refreshAll (h : scan.Begins opening line) {refreshed : Scan}
    (hrefresh : scan.refreshAll = some refreshed) :
    refreshed.Begins opening line ∧
      ∀ candidate ∈ refreshed.candidate, isStale refreshed.mark candidate = false := by
  simp only [Scan.refreshAll, Option.bind_eq_bind, Option.bind_eq_some_iff, Option.pure_def,
    Option.some.injEq] at hrefresh
  obtain ⟨candidate?, hcandidate, suspended, hsuspended, rfl⟩ := hrefresh
  have hall : (scan.candidate :: scan.suspended).mapM (refresh scan.mark) =
      some (candidate? :: suspended) := by
    rw [List.mapM_cons, hcandidate, hsuspended]
    rfl
  exact ⟨⟨h.tokens, h.guarded.mapM_refresh hall, h.clear⟩,
    fun candidate hmem => (mem_of_refresh hcandidate hmem).2⟩

/-- Where a token begins, the candidate does not lie too far behind. -/
theorem Begins.advance (h : scan.Begins opening line) {ahead : Scan}
    (hadvance : scan.advance = some ahead) :
    ahead.Begins opening line ∧
      ∀ candidate ∈ ahead.candidate, isStale ahead.mark candidate = false := by
  have hleave := h.leave (nextToken_suffix scan.inFlow scan.isKeyAllowed false scan.rest)
    (nextToken scan.inFlow scan.isKeyAllowed false scan.rest).2
  simp only [Scan.advance, Option.bind_eq_bind, Option.bind_eq_some_iff, Option.pure_def,
    Option.some.injEq] at hadvance
  obtain ⟨refreshed, hrefresh, rfl⟩ := hadvance
  obtain ⟨hbegins, hfresh⟩ := hleave.refreshAll hrefresh
  refine ⟨hbegins.closeTo _, ?_⟩
  obtain ⟨ends, indent, outer, heq⟩ := closeTo_eq (some refreshed.mark.column) refreshed
  rw [heq]
  exact hfresh

/-! ## Tokens -/

namespace Begins

variable (h : scan.Begins opening line)
include h

theorem takeNode {read : List Cell → Option (Token × List Cell)}
    (hread : ∀ cells, Leaves Prod.snd cells (read cells)) :
    Keeps opening line (scan.takeNode read) := by
  rw [Scan.takeNode]
  apply h.markCandidate.bind
  intro marked hmarked
  apply Keeps.bind_leaves (hread marked.rest)
  rintro ⟨token, rest⟩ hrest
  exact .some ((hmarked.push token).leave hrest false)

theorem takePlain : Keeps opening line scan.takePlain := by
  rw [Scan.takePlain]
  apply h.markCandidate.bind
  intro marked hmarked
  apply Keeps.bind_leaves (leaves_plain _ _ _ marked.rest)
  intro reading hreading
  exact .some ((hmarked.push _).leave hreading _)

theorem takeQuoted (isSingle : Bool) : Keeps opening line (scan.takeQuoted isSingle) := by
  apply h.takeNode
  intro cells
  have hquoted := (leaves_quoted isSingle .ordinary .none (cells.drop 1)).of_suffix
    (List.drop_suffix 1 cells)
  exact hquoted.map fun _ => rfl

theorem takeBlock (isLiteral : Bool) : Keeps opening line (scan.takeBlock isLiteral) := by
  rw [Scan.takeBlock]
  apply h.dropCandidate.bind
  intro dropped hdropped
  apply Keeps.bind_leaves ((leaves_block isLiteral _ (dropped.rest.drop 1)).of_suffix
    (List.drop_suffix 1 dropped.rest))
  intro reading hreading
  exact .some ((hdropped.push _).leave hreading true)

theorem openFlow (token : Token) : Keeps opening line (scan.openFlow token) := by
  rw [Scan.openFlow]
  apply h.markCandidate.bind
  intro marked hmarked
  have hpush := (hmarked.push token).skip 1
  exact .some ⟨hpush.tokens, hmarked.guarded.none, hpush.clear⟩

theorem closeFlow (token : Token) : Keeps opening line (scan.closeFlow token) := by
  rw [Scan.closeFlow]
  apply h.dropCandidate.bind
  intro dropped hdropped
  have hpush := (hdropped.push token).skip 1
  refine .some ⟨hpush.tokens, ?_, hpush.clear⟩
  have hsuspended := hdropped.guarded.2
  show Guarded _ _ (dropped.suspended.head?.join :: dropped.suspended.tail)
  generalize dropped.suspended = suspended at hsuspended ⊢
  cases suspended with
  | nil => exact Guarded.none trivial
  | cons candidate? outer => exact hsuspended

theorem takeIndicator (collection token : Token) (isKeyAllowedAfter : Bool) :
    Keeps opening line (scan.takeIndicator collection token isKeyAllowedAfter) := by
  have hopen := h.openAt h.length_le scan.mark.column collection
  have hdrop : Keeps opening line
      ((scan.openAt scan.mark.column scan.tokens.length collection).dropCandidate >>= fun dropped =>
        some { (dropped.push token).skip 1 with isKeyAllowed := isKeyAllowedAfter }) := by
    apply hopen.dropCandidate.bind
    intro dropped hdropped
    have hpush := (hdropped.push token).skip 1
    exact .some ⟨hpush.tokens, hpush.guarded, hpush.clear⟩
  rw [Scan.takeIndicator]
  split
  · exact .none
  · exact hdrop

/-- A colon makes no key of the opening: it would have to lie on the line of the opening, with
blank space behind it. -/
theorem takeValue {cell : Cell} {rest : List Cell} (hrest : scan.rest = cell :: rest)
    (hcell : cell.char = ':') (hends : scan.inFlow = true ∨ isBlankEnd rest = true)
    (hfresh : ∀ candidate ∈ scan.candidate, isStale scan.mark candidate = false) :
    Keeps opening line scan.takeValue := by
  rw [Scan.takeValue]
  split
  · rename_i candidate hcandidate
    have hposition : opening.length ≤ candidate.position := by
      rcases h.guarded.1 candidate hcandidate with hposition | ⟨hsuspended, hline⟩
      · exact hposition
      · -- The candidate is the outermost one, so the colon stands outside of brackets and braces.
        have hflow : scan.inFlow = false := by rw [inFlow, hsuspended]; rfl
        have hblank : isBlankEnd rest = true := by simpa [hflow] using hends
        have hlater : line < cell.mark.line :=
          h.clear cell rest (hrest ▸ List.suffix_rfl) hcell hblank
        have hmark : scan.mark = cell.mark := by rw [mark, hrest]; rfl
        have hstale := hfresh candidate hcandidate
        rw [isStale, hmark, hline, decide_eq_true hlater, Bool.true_or] at hstale
        cases hstale
    have hopened := (h.insert hposition .key).openAt hposition candidate.mark.column .blockMapping
    have hpush := (hopened.push .value).skip 1
    exact .some ⟨hpush.tokens, hpush.guarded.2.none, hpush.clear⟩
  · have hpush := ((h.openAt h.length_le scan.mark.column .blockMapping).push .value).skip 1
    split
    · exact .none
    · exact .some ⟨hpush.tokens, hpush.guarded, hpush.clear⟩

/-- No token comes before the opening. -/
theorem takeToken {cell : Cell} {rest : List Cell} (hrest : scan.rest = cell :: rest)
    (hfresh : ∀ candidate ∈ scan.candidate, isStale scan.mark candidate = false) :
    Keeps opening line (scan.takeToken cell rest) := by
  have hbehind : rest <:+ scan.rest := hrest ▸ List.suffix_cons cell rest
  have hanchor (token : List Char → Token) (cells : List Cell) :
      Leaves Prod.snd cells ((anchorName? (cells.drop 1)).map fun found =>
        (token found.1, found.2)) :=
    ((leaves_anchorName? _).of_suffix (List.drop_suffix 1 cells)).map fun _ => rfl
  have hboundary (token : Token) : Keeps opening line
      (scan.endBlocks >>= fun ended => some ((ended.push token).skip 3)) := by
    apply h.endBlocks.bind
    intro ended hended
    exact .some ((hended.push token).skip 3)
  have hdeclaration : Keeps opening line (scan.endBlocks >>= fun ended =>
      declaration? rest >>= fun found =>
        some { ended.push found.1 with rest := found.2 }) := by
    apply h.endBlocks.bind
    intro ended hended
    apply Keeps.bind_leaves ((leaves_declaration? rest).of_suffix hbehind)
    intro found hleft
    have hpush := hended.push found.1
    exact .some ⟨hpush.tokens, hpush.guarded, h.clear.of_suffix hleft⟩
  have hcomma : Keeps opening line (scan.dropCandidate >>= fun dropped =>
      some { (dropped.push .comma).skip 1 with isKeyAllowed := true }) := by
    apply h.dropCandidate.bind
    intro dropped hdropped
    have hpush := (hdropped.push .comma).skip 1
    exact .some ⟨hpush.tokens, hpush.guarded, hpush.clear⟩
  rw [Scan.takeToken]
  refine .ite (fun _ => hdeclaration) fun _ => ?_
  refine .ite (fun _ => hboundary _) fun _ => ?_
  refine .ite (fun _ => hboundary _) fun _ => ?_
  refine .ite (fun _ => h.openFlow _) fun _ => ?_
  refine .ite (fun _ => h.openFlow _) fun _ => ?_
  refine .ite (fun _ => h.closeFlow _) fun _ => ?_
  refine .ite (fun _ => h.closeFlow _) fun _ => ?_
  refine .ite (fun _ => hcomma) fun _ => ?_
  refine .ite (fun _ => h.takeIndicator _ _ _) fun _ => ?_
  refine .ite (fun _ => h.takeIndicator _ _ _) fun _ => ?_
  refine .ite (fun hvalue => ?_) fun _ => ?_
  · rw [Bool.and_eq_true, decide_eq_true_eq, Bool.or_eq_true] at hvalue
    exact h.takeValue hrest hvalue.1 hvalue.2 hfresh
  refine .ite (fun _ => h.takeNode (hanchor _)) fun _ => ?_
  refine .ite (fun _ => h.takeNode (hanchor _)) fun _ => ?_
  refine .ite (fun _ => h.takeNode (leaves_tag? _)) fun _ => ?_
  refine .ite (fun _ => h.takeBlock _) fun _ => ?_
  refine .ite (fun _ => h.takeBlock _) fun _ => ?_
  refine .ite (fun _ => h.takeQuoted _) fun _ => ?_
  refine .ite (fun _ => h.takeQuoted _) fun _ => ?_
  exact .ite (fun _ => h.takePlain) fun _ => .none

end Begins

/-- The tokens of a source begin with the opening. -/
theorem Begins.prefix_of_run (h : scan.Begins opening line) {fuel : Nat} {tokens : List Token}
    (hrun : run fuel scan = some tokens) : opening.reverse <+: tokens := by
  induction fuel generalizing scan with
  | zero => cases hrun
  | succ fuel ih =>
      rw [run, Option.bind_eq_bind, Option.bind_eq_some_iff] at hrun
      obtain ⟨ahead, hadvance, hrun⟩ := hrun
      obtain ⟨hahead, hfresh⟩ := h.advance hadvance
      cases hrest : ahead.rest with
      | nil =>
          simp only [hrest, Option.bind_eq_some_iff, Option.pure_def,
            Option.some.injEq] at hrun
          obtain ⟨ended, hended, rfl⟩ := hrun
          exact List.reverse_prefix.2 (hahead.endBlocks ended hended).tokens
      | cons cell rest =>
          simp only [hrest, Option.bind_eq_some_iff] at hrun
          obtain ⟨taken, htaken, hrun⟩ := hrun
          exact ih (hahead.takeToken hrest hfresh taken htaken) hrun

end Scan

end Untested.Yaml
