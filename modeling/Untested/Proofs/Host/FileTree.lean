/-
# What changes in a file tree

Opening a file for writing, adding to it and making directories change little: every directory and
every other file stays where it is, and every other file keeps its content.  So a path that led
somewhere before leads to the same place afterwards, and what is read there is the same, unless it
is the file that was written.
-/

import Mathlib.Data.List.Infix
import Untested.Host.FileTree
import Untested.Proofs.Text.Fields

namespace Untested.FileTree

/-! ## Names -/

theorem lookup_setEntry (name other : String) (tree : FileTree)
    (entries : List (String × FileTree)) :
    (setEntry name tree entries).lookup other =
      if other = name then some tree else entries.lookup other := by
  induction entries with
  | nil => grind [setEntry]
  | cons entry entries ih => grind [setEntry]

theorem at?_append (tree : FileTree) (names more : List String) :
    tree.at? (names ++ more) = (tree.at? names).bind (·.at? more) := by
  induction names generalizing tree with
  | nil => rfl
  | cons name names ih =>
      rw [List.cons_append, at?, at?]
      cases tree.child? name with
      | none => rfl
      | some child => exact ih child

/-- What lies inside a directory. -/
theorem at?_append_singleton {tree : FileTree} {names : List String}
    {entries : List (String × FileTree)} (htree : tree.at? names = some (directory entries))
    (name : String) : tree.at? (names ++ [name]) = entries.lookup name := by
  rw [at?_append, htree, Option.bind_some, at?, child?]
  cases entries.lookup name <;> rfl

/-- What lies inside something lies inside directories. -/
theorem exists_directory_of_prefix {tree child : FileTree} {above names : List String}
    (hchild : tree.at? names = some child) (habove : above <+: names) (hne : above ≠ names) :
    ∃ entries, tree.at? above = some (directory entries) := by
  obtain ⟨more, rfl⟩ := habove
  rw [at?_append, Option.bind_eq_some_iff] at hchild
  obtain ⟨place, hplace, hmore⟩ := hchild
  cases place with
  | directory entries => exact ⟨entries, hplace⟩
  | file content isExecutable =>
      cases more with
      | nil => exact absurd (List.append_nil above).symm hne
      | cons name more => cases hmore

/-- What lies above a directory, or is that directory, is a directory. -/
theorem exists_directory_above {tree : FileTree} {above names : List String}
    {entries : List (String × FileTree)} (hentries : tree.at? names = some (directory entries))
    (habove : above <+: names) : ∃ entries', tree.at? above = some (directory entries') := by
  by_cases heq : above = names
  · exact ⟨entries, heq ▸ hentries⟩
  · exact exists_directory_of_prefix hentries habove heq

/-- Only directories lie above an entry of a directory. -/
theorem not_file_above_entry {tree : FileTree} {above names : List String} {name : String}
    {entries : List (String × FileTree)} (hentries : tree.at? names = some (directory entries))
    (habove : above <+: names ++ [name]) (hne : above ≠ names ++ [name]) (content : List UInt8)
    (isExecutable : Bool) : tree.at? above ≠ some (file content isExecutable) := by
  have hnames : above <+: names := (List.prefix_concat_iff.1 habove).resolve_left hne
  obtain ⟨entries', hentries'⟩ := exists_directory_above hentries hnames
  rw [hentries']
  simp

theorem child?_put_cons (tree new : FileTree) (name other : String) (names : List String) :
    (tree.put new (name :: names)).child? other =
      if other = name then some (((tree.child? name).getD empty).put new names)
      else tree.child? other := by
  cases tree <;> rw [put, child?, lookup_setEntry] <;> rfl

theorem at?_put_self (tree new : FileTree) (names : List String) :
    (tree.put new names).at? names = some new := by
  induction names generalizing tree with
  | nil => rfl
  | cons name names ih =>
      rw [at?, child?_put_cons, if_pos rfl]
      exact ih _

/-- Elsewhere in the tree there is what was there before, and directories on the way. -/
theorem at?_put_of_not_prefix (tree new : FileTree) {names others : List String}
    (hothers : ¬ names <+: others) :
    (tree.put new names).at? others = tree.at? others ∨
      others <+: names ∧ ∃ entries, (tree.put new names).at? others = some (directory entries) := by
  induction names generalizing tree others with
  | nil => exact absurd List.nil_prefix hothers
  | cons name names ih =>
      cases others with
      | nil => exact .inr ⟨List.nil_prefix, _, rfl⟩
      | cons other others =>
          rw [at?, at?, child?_put_cons]
          by_cases hother : other = name
          · subst hother
            rw [List.prefix_cons_inj] at hothers
            rw [if_pos rfl, Option.bind_some, List.prefix_cons_inj]
            rcases ih ((tree.child? other).getD empty) hothers with hsame | hdirectory
            · rw [hsame]
              cases tree.child? other with
              | some child => exact .inl rfl
              | none =>
                  cases others with
                  | nil => exact .inr ⟨List.nil_prefix, [], rfl⟩
                  | cons => exact .inl rfl
            · exact .inr hdirectory
          · rw [if_neg hother]
            exact .inl rfl

/-! ## Trees that extend others -/

/-- A tree has the directories and files of another one, and of its files all but the one behind
the given names have the same content.  The root is left out, which is no file in practice. -/
structure Extends (target : List String) (old new : FileTree) : Prop where
  directory {names : List String} {entries : List (String × FileTree)} :
    old.at? names = some (.directory entries) →
      ∃ entries', new.at? names = some (.directory entries')
  file {names : List String} {content : List UInt8} {isExecutable : Bool} :
    names ≠ [] → names ≠ target → old.at? names = some (.file content isExecutable) →
      new.at? names = some (.file content isExecutable)
  target : (old.at? target).isSome → (new.at? target).isSome

namespace Extends

variable {target : List String} {old new : FileTree}

theorem refl (target : List String) (tree : FileTree) : Extends target tree tree where
  directory h := ⟨_, h⟩
  file _ _ h := h
  target h := h

theorem trans {newer : FileTree} (hold : Extends target old new)
    (hnew : Extends target new newer) : Extends target old newer where
  directory h := by
    obtain ⟨_, h'⟩ := hold.directory h
    exact hnew.directory h'
  file hnames htarget h := hnew.file hnames htarget (hold.file hnames htarget h)
  target h := hnew.target (hold.target h)

/-- Where there was something, there is something. -/
theorem isSome_at? (h : Extends target old new) {names : List String} (hnames : names ≠ [])
    (hold : (old.at? names).isSome) : (new.at? names).isSome := by
  by_cases htarget : names = target
  · subst htarget
    exact h.target hold
  · obtain ⟨place, hplace⟩ := Option.isSome_iff_exists.1 hold
    cases place with
    | directory entries =>
        obtain ⟨entries', hnew⟩ := h.directory hplace
        rw [hnew]
        rfl
    | file content isExecutable =>
        rw [h.file hnames htarget hplace]
        rfl

/-- Nothing is lost by putting something where there was nothing, or in place of the file that may
change, so long as it lies inside directories. -/
theorem put {names : List String} (added : FileTree)
    (habove : ∀ above, above <+: names → above ≠ names → above ≠ [] →
      ∀ content isExecutable, old.at? above ≠ some (.file content isExecutable))
    (hplace : old.at? names = none ∨
      names = target ∧ ∃ content isExecutable, old.at? names = some (.file content isExecutable)) :
    Extends target old (old.put added names) := by
  have hbehind {more : List String} (hmore : (old.at? (names ++ more)).isSome) :
      more = [] ∧ names = target ∧
        ∃ content isExecutable, old.at? names = some (.file content isExecutable) := by
    rw [at?_append] at hmore
    rcases hplace with hnone | ⟨htarget, content, isExecutable, hfile⟩
    · rw [hnone] at hmore
      cases hmore
    · rw [hfile] at hmore
      cases more with
      | nil => exact ⟨rfl, htarget, content, isExecutable, hfile⟩
      | cons name more => cases hmore
  constructor
  · intro others entries hentries
    by_cases hothers : names <+: others
    · obtain ⟨more, rfl⟩ := hothers
      obtain ⟨rfl, _, content, isExecutable, hfile⟩ := hbehind (by rw [hentries]; rfl)
      rw [List.append_nil, hfile] at hentries
      cases hentries
    · rcases old.at?_put_of_not_prefix added hothers with hsame | ⟨_, hdirectory⟩
      · exact ⟨entries, hsame.trans hentries⟩
      · exact hdirectory
  · intro others content isExecutable hne htarget hfile
    by_cases hothers : names <+: others
    · obtain ⟨more, rfl⟩ := hothers
      obtain ⟨rfl, heq, _⟩ := hbehind (by rw [hfile]; rfl)
      exact absurd ((List.append_nil names).trans heq) htarget
    · rcases old.at?_put_of_not_prefix added hothers with hsame | ⟨hinside, _⟩
      · exact hsame.trans hfile
      · refine absurd hfile (habove others hinside ?_ hne content isExecutable)
        rintro rfl
        exact hothers List.prefix_rfl
  · intro hsome
    by_cases hothers : names <+: target
    · obtain ⟨more, rfl⟩ := hothers
      obtain ⟨rfl, _⟩ := hbehind hsome
      rw [List.append_nil, at?_put_self]
      rfl
    · rcases old.at?_put_of_not_prefix added hothers with hsame | ⟨_, entries, hdirectory⟩
      · rwa [hsame]
      · rw [hdirectory]
        rfl

end Extends

/-! ## Paths -/

/-- The names to which a path leads, whether or not there is something. -/
def Place.names? : Place → Option (List String)
  | existing names _ => some names
  | free names => some names
  | nowhere _ => none

/-- The components of a path lead from some names to others.  What comes before the last component
exists, and what the last one names may be missing. -/
inductive Leads (tree : FileTree) : List String → List String → List String → Prop
  | here {names : List String} : (tree.at? names).isSome → Leads tree names [] names
  | idle {names rest found : List String} {component : String}
      {entries : List (String × FileTree)} :
      tree.at? names = some (directory entries) → Path.isIdle component = true →
        Leads tree names rest found → Leads tree names (component :: rest) found
  | up {names rest found : List String} {component : String}
      {entries : List (String × FileTree)} :
      tree.at? names = some (directory entries) → Path.isIdle component = false →
        component = ".." → Leads tree names.dropLast rest found →
          Leads tree names (component :: rest) found
  | down {names rest found : List String} {component : String}
      {entries : List (String × FileTree)} :
      tree.at? names = some (directory entries) → Path.isIdle component = false →
        component ≠ ".." → component.utf8ByteSize ≤ maxNameLength →
          (tree.at? (names ++ [component])).isSome →
            Leads tree (names ++ [component]) rest found →
              Leads tree names (component :: rest) found
  | free {names : List String} {component : String} {entries : List (String × FileTree)} :
      tree.at? names = some (directory entries) → Path.isIdle component = false →
        component ≠ ".." → component.utf8ByteSize ≤ maxNameLength →
          tree.at? (names ++ [component]) = none →
            Leads tree names [component] (names ++ [component])

theorem leads_of_follow {tree : FileTree} {names components found : List String}
    (hfollow : (tree.follow names components).names? = some found) :
    Leads tree names components found := by
  induction components generalizing names with
  | nil =>
      rw [follow] at hfollow
      split at hfollow
      · rename_i hplace
        obtain rfl := Option.some.inj hfollow
        exact .here (by rw [hplace]; rfl)
      · cases hfollow
  | cons component rest ih =>
      rw [follow] at hfollow
      split at hfollow
      · cases hfollow
      · cases hfollow
      · rename_i entries hentries
        split at hfollow
        · exact .idle hentries ‹_› (ih hfollow)
        · rename_i hidle
          rw [Bool.not_eq_true] at hidle
          split at hfollow
          · exact .up hentries hidle ‹_› (ih hfollow)
          · split at hfollow
            · cases hfollow
            · rename_i hlength
              rw [← at?_append_singleton hentries] at hfollow
              split at hfollow
              · exact .down hentries hidle ‹_› (Nat.not_lt.1 hlength) ‹_› (ih hfollow)
              · split at hfollow
                · rename_i hnone hrest
                  obtain rfl := List.isEmpty_iff.1 hrest
                  obtain rfl := Option.some.inj hfollow
                  exact .free hentries hidle ‹_› (Nat.not_lt.1 hlength)
                    (Option.not_isSome_iff_eq_none.1 hnone)
                · cases hfollow

namespace Leads

variable {tree : FileTree} {names components found : List String}

/-- Following a path that leads to something finds it, and otherwise there is a free name. -/
theorem follow_eq (h : Leads tree names components found) :
    tree.follow names components =
      match tree.at? found with
      | some place => .existing found place
      | none => .free found := by
  induction h with
  | here hsome =>
      obtain ⟨place, hplace⟩ := Option.isSome_iff_exists.1 hsome
      rw [follow, hplace]
  | idle hentries hidle _ ih =>
      rw [follow, hentries]
      dsimp only
      rw [if_pos hidle, ih]
  | up hentries hidle hup _ ih =>
      rw [follow, hentries]
      dsimp only
      rw [if_neg (by simp [hidle]), if_pos hup, ih]
  | down hentries hidle hup hlength hsome _ ih =>
      rw [at?_append_singleton hentries] at hsome
      rw [follow, hentries]
      dsimp only
      rw [if_neg (by simp [hidle]), if_neg hup, if_neg (Nat.not_lt.2 hlength), if_pos hsome, ih]
  | free hentries hidle hup hlength hnone =>
      have hlookup := hnone
      rw [at?_append_singleton hentries] at hlookup
      rw [follow, hentries]
      dsimp only
      rw [if_neg (by simp [hidle]), if_neg hup, if_neg (Nat.not_lt.2 hlength), hlookup, hnone]
      rfl

/-- A free name lies in a directory. -/
theorem exists_above (h : Leads tree names components found) (hnone : tree.at? found = none) :
    ∃ above name entries, found = above ++ [name] ∧
      tree.at? above = some (directory entries) := by
  induction h with
  | here hsome =>
      rw [hnone] at hsome
      cases hsome
  | idle _ _ _ ih => exact ih hnone
  | up _ _ _ _ ih => exact ih hnone
  | down _ _ _ _ _ _ ih => exact ih hnone
  | free hentries => exact ⟨_, _, _, rfl, hentries⟩

/-- A path goes on to lead to the same names, provided that something is there by then. -/
theorem extend {target : List String} {new : FileTree} (h : Leads tree names components found)
    (hextends : Extends target tree new) (hfound : (new.at? found).isSome) :
    Leads new names components found := by
  induction h with
  | here => exact .here hfound
  | idle hentries hidle _ ih =>
      obtain ⟨_, hentries'⟩ := hextends.directory hentries
      exact .idle hentries' hidle (ih hfound)
  | up hentries hidle hup _ ih =>
      obtain ⟨_, hentries'⟩ := hextends.directory hentries
      exact .up hentries' hidle hup (ih hfound)
  | down hentries hidle hup hlength hsome _ ih =>
      obtain ⟨_, hentries'⟩ := hextends.directory hentries
      exact .down hentries' hidle hup hlength (hextends.isSome_at? (by simp) hsome) (ih hfound)
  | free hentries hidle hup hlength =>
      obtain ⟨_, hentries'⟩ := hextends.directory hentries
      exact .down hentries' hidle hup hlength hfound (.here hfound)

end Leads

theorem leads_of_resolve {tree : FileTree} {path : String} {found : List String}
    (hresolve : (tree.resolve path).names? = some found) :
    path ≠ "" ∧ Leads tree [] (Path.components path) found := by
  rw [resolve] at hresolve
  split at hresolve
  · cases hresolve
  · exact ⟨‹_›, leads_of_follow hresolve⟩

theorem Leads.resolve_eq {tree : FileTree} {path : String} {found : List String}
    (h : Leads tree [] (Path.components path) found) (hpath : path ≠ "") :
    tree.resolve path =
      match tree.at? found with
      | some place => .existing found place
      | none => .free found := by
  rw [resolve, if_neg hpath, h.follow_eq]

/-- What a path leads to lies behind its names. -/
theorem at?_of_resolve {tree place : FileTree} {path : String} {found : List String}
    (hresolve : tree.resolve path = .existing found place) : tree.at? found = some place := by
  have hnames : (tree.resolve path).names? = some found := by rw [hresolve]; rfl
  obtain ⟨hpath, hleads⟩ := leads_of_resolve hnames
  rw [hleads.resolve_eq hpath] at hresolve
  split at hresolve
  · rename_i hplace
    cases hresolve
    exact hplace
  · cases hresolve

theorem at?_of_resolve_free {tree : FileTree} {path : String} {found : List String}
    (hresolve : tree.resolve path = .free found) : tree.at? found = none := by
  have hnames : (tree.resolve path).names? = some found := by rw [hresolve]; rfl
  obtain ⟨hpath, hleads⟩ := leads_of_resolve hnames
  rw [hleads.resolve_eq hpath] at hresolve
  split at hresolve
  · cases hresolve
  · rename_i hnone
    cases hresolve
    exact hnone

/-- A path that led to some names leads to what is there afterwards. -/
theorem Extends.resolve_eq {target found : List String} {old new place : FileTree}
    (h : Extends target old new) (hplace : new.at? found = some place) {path : String}
    (hfound : (old.resolve path).names? = some found) :
    new.resolve path = .existing found place := by
  obtain ⟨hpath, hleads⟩ := leads_of_resolve hfound
  rw [(hleads.extend h (by rw [hplace]; rfl)).resolve_eq hpath, hplace]

/-- A place that can hold a file: a free name, or a file. -/
def IsWritable (tree : FileTree) (names : List String) : Prop :=
  tree.at? names = none ∨ ∃ content isExecutable, tree.at? names = some (file content isExecutable)

/-- Only directories lie above what a path leads to. -/
theorem not_file_above {tree : FileTree} {path : String} {found above : List String}
    (hfound : (tree.resolve path).names? = some found) (habove : above <+: found)
    (hne : above ≠ found) (content : List UInt8) (isExecutable : Bool) :
    tree.at? above ≠ some (file content isExecutable) := by
  obtain ⟨_, hleads⟩ := leads_of_resolve hfound
  cases hplace : tree.at? found with
  | some place =>
      obtain ⟨entries, hentries⟩ := exists_directory_of_prefix hplace habove hne
      rw [hentries]
      simp
  | none =>
      obtain ⟨parent, name, entries, rfl, hentries⟩ := hleads.exists_above hplace
      exact not_file_above_entry hentries habove hne content isExecutable

/-- Putting a file where a path leads changes nothing else, and the path leads to that file. -/
theorem put_file {tree : FileTree} {path : String} {names : List String}
    (hnames : (tree.resolve path).names? = some names) (hwritable : tree.IsWritable names)
    (content : List UInt8) (isExecutable : Bool) :
    Extends names tree (tree.put (file content isExecutable) names) ∧
      (tree.put (file content isExecutable) names).resolve path =
        .existing names (file content isExecutable) := by
  have hextends : Extends names tree (tree.put (file content isExecutable) names) :=
    .put _ (fun above habove hne _ => not_file_above hnames habove hne)
      (hwritable.imp_right fun hfile => ⟨rfl, hfile⟩)
  exact ⟨hextends, hextends.resolve_eq (at?_put_self ..) hnames⟩

/-! ## Operations -/

/-- A file that has been opened for writing is empty. -/
theorem exists_of_create {old new : FileTree} {path : String}
    (hcreate : old.create path = .ok new) :
    ∃ names isExecutable, Extends names old new ∧
      new.resolve path = .existing names (file [] isExecutable) := by
  rw [create] at hcreate
  split at hcreate
  · rename_i names content isExecutable hresolve
    obtain rfl := Except.ok.inj hcreate
    exact ⟨names, isExecutable, put_file (by rw [hresolve]; rfl)
      (.inr ⟨content, isExecutable, at?_of_resolve hresolve⟩) [] isExecutable⟩
  · cases hcreate
  · rename_i names hresolve
    obtain rfl := Except.ok.inj hcreate
    exact ⟨names, false, put_file (by rw [hresolve]; rfl) (.inl (at?_of_resolve_free hresolve))
      [] false⟩
  · split at hcreate <;> cases hcreate

/-- Bytes go to the end of a file that exists. -/
theorem exists_append {tree : FileTree} {path : String} {names : List String}
    {content : List UInt8} {isExecutable : Bool}
    (hresolve : tree.resolve path = .existing names (file content isExecutable))
    (bytes : List UInt8) :
    ∃ new, tree.append path bytes = .ok new ∧ Extends names tree new ∧
      new.resolve path = .existing names (file (content ++ bytes) isExecutable) := by
  refine ⟨tree.put (file (content ++ bytes) isExecutable) names, ?_,
    put_file (by rw [hresolve]; rfl) (.inr ⟨content, isExecutable, at?_of_resolve hresolve⟩)
      (content ++ bytes) isExecutable⟩
  rw [append, hresolve]

theorem extends_of_makeDirectoriesFrom (target : List String) {old new : FileTree}
    {names components : List String} {entries : List (String × FileTree)}
    (hentries : old.at? names = some (directory entries))
    (hmade : old.makeDirectoriesFrom names components = .ok new) : Extends target old new := by
  induction components generalizing old names entries with
  | nil =>
      obtain rfl := Except.ok.inj hmade
      exact .refl target old
  | cons component rest ih =>
      rw [makeDirectoriesFrom] at hmade
      split at hmade
      · exact ih hentries hmade
      · split at hmade
        · obtain ⟨entries', hentries'⟩ :=
            exists_directory_above hentries (List.dropLast_prefix names)
          exact ih hentries' hmade
        · split at hmade
          · cases hmade
          · split at hmade
            · rename_i hnone
              refine .trans (.put _ ?_ (.inl hnone)) (ih (at?_put_self ..) hmade)
              exact fun above habove hne _ => not_file_above_entry hentries habove hne
            · exact ih ‹_› hmade
            · split at hmade <;> cases hmade

/-- Where the root is a file, there is nothing that could change. -/
theorem extends_of_file (target : List String) (content : List UInt8) (isExecutable : Bool)
    (new : FileTree) : Extends target (file content isExecutable) new where
  directory {names} _ h := by cases names <;> cases h
  file {names} _ _ hnames _ h := by
    cases names with
    | nil => exact absurd rfl hnames
    | cons => cases h
  target h := by
    cases target with
    | nil => rfl
    | cons => cases h

/-- Making directories changes no file. -/
theorem extends_of_makeDirectories (target : List String) {old new : FileTree} {path : String}
    (hmade : old.makeDirectories path = .ok new) : Extends target old new := by
  cases old with
  | file content isExecutable => exact extends_of_file target content isExecutable new
  | directory entries =>
      have hroot : (FileTree.directory entries).at? [] = some (.directory entries) := rfl
      exact extends_of_makeDirectoriesFrom target hroot hmade

/-! ## Reading -/

theorem read_of_resolve {tree : FileTree} {path : String} {names : List String}
    {content : List UInt8} {isExecutable : Bool}
    (hresolve : tree.resolve path = .existing names (file content isExecutable)) :
    tree.read path = .ok (.bytes content) := by
  rw [read, hresolve]

theorem exists?_iff {tree : FileTree} {path : String} :
    tree.exists? path = true ↔ ∃ names place, tree.resolve path = .existing names place := by
  rw [exists?]
  cases tree.resolve path <;> simp

/-- Nothing is found by going along components from a file. -/
theorem Leads.eq_nil_of_file {tree : FileTree} {names components found : List String}
    (h : Leads tree names components found) {content : List UInt8} {isExecutable : Bool}
    (hfile : tree.at? names = some (file content isExecutable)) : components = [] := by
  cases h with
  | here => rfl
  | idle hentries => exact absurd (hfile.symm.trans hentries) (by simp)
  | up hentries => exact absurd (hfile.symm.trans hentries) (by simp)
  | down hentries => exact absurd (hfile.symm.trans hentries) (by simp)
  | free hentries => exact absurd (hfile.symm.trans hentries) (by simp)

/-- No path leads to a root that is a file. -/
theorem resolve_ne_root_file {tree : FileTree} {path : String} {content : List UInt8}
    {isExecutable : Bool} : tree.resolve path ≠ .existing [] (file content isExecutable) := by
  intro hresolve
  have hnames : (tree.resolve path).names? = some [] := by rw [hresolve]; rfl
  obtain ⟨_, hleads⟩ := leads_of_resolve hnames
  have hcomponents := hleads.eq_nil_of_file (at?_of_resolve hresolve)
  rw [Path.components, List.map_eq_nil_iff] at hcomponents
  exact Text.splitAt_ne_nil '/' path.toList hcomponents

namespace Extends

variable {target : List String} {old new : FileTree} {path : String}

/-- A path that led to something still leads to the same names. -/
theorem exists_resolve (h : Extends target old new) {names : List String} {place : FileTree}
    (hresolve : old.resolve path = .existing names place) :
    ∃ place', new.resolve path = .existing names place' := by
  have hsome : (new.at? names).isSome := by
    cases names with
    | nil => rfl
    | cons name names =>
        exact h.isSome_at? (List.cons_ne_nil name names) (by rw [at?_of_resolve hresolve]; rfl)
  obtain ⟨place', hplace'⟩ := Option.isSome_iff_exists.1 hsome
  exact ⟨place', h.resolve_eq hplace' (by rw [hresolve]; rfl)⟩

/-- A path that led to something still does. -/
theorem exists? (h : Extends target old new) (hexists : old.exists? path = true) :
    new.exists? path = true := by
  obtain ⟨names, place, hresolve⟩ := exists?_iff.1 hexists
  obtain ⟨place', hresolve'⟩ := h.exists_resolve hresolve
  exact exists?_iff.2 ⟨names, place', hresolve'⟩

/-- What is read at a path that led to something is the same, unless the path leads to the file
that may have changed. -/
theorem read_eq (h : Extends target old new) (hexists : old.exists? path = true)
    (hother : ∀ place, new.resolve path ≠ .existing target place) :
    new.read path = old.read path := by
  obtain ⟨names, place, hresolve⟩ := exists?_iff.1 hexists
  obtain ⟨place', hresolve'⟩ := h.exists_resolve hresolve
  have htarget : names ≠ target := by
    rintro rfl
    exact hother place' hresolve'
  have hplace' := at?_of_resolve hresolve'
  cases place with
  | directory entries =>
      obtain ⟨entries', hentries'⟩ := h.directory (at?_of_resolve hresolve)
      obtain rfl := Option.some.inj (hplace'.symm.trans hentries')
      rw [read, read, hresolve, hresolve']
  | file content isExecutable =>
      have hnames : names ≠ [] := by
        rintro rfl
        exact resolve_ne_root_file hresolve
      have hfile := h.file hnames htarget (at?_of_resolve hresolve)
      obtain rfl := Option.some.inj (hplace'.symm.trans hfile)
      rw [read, read, hresolve, hresolve']

end Extends

end Untested.FileTree
