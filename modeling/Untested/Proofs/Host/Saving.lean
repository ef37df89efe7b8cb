/-
# What is saved is there

A file is saved by making the directories on the way to it, making it empty and handing pieces of
it on by way of a buffer.  The pieces arrive one after the other as far as there is room for them,
and nothing else changes.  A refusal is heeded when the buffer is handed on to make place for the
next piece.  Nobody learns what becomes of the bytes that are in the buffer at the end.
-/

import Untested.Host.Buffer
import Untested.Host.Machine
import Untested.Proofs.Host.FileTree
import Untested.Proofs.Program.Step

namespace Untested

namespace Host

/-! ## What is heeded -/

/-- The bytes that are handed on while further pieces follow, so that their refusal is heeded.  The
buffer holds the given pieces in reverse, `size` bytes in all. -/
def heeded (held : List (List UInt8)) (size : Nat) : List (List UInt8) → List UInt8
  | [] => []
  | piece :: pieces =>
    if size + piece.length ≤ bufferCapacity ∧ piece.length < bufferCapacity then
      heeded (piece :: held) (size + piece.length) pieces
    else if piece.length < bufferCapacity then
      held.reverse.flatten ++ heeded [piece] piece.length pieces
    else held.reverse.flatten ++ (piece ++ heeded [] 0 pieces)

/-- All bytes are heeded but for those that the buffer holds at the end. -/
theorem exists_heeded_append (held pieces : List (List UInt8)) (size : Nat)
    (hsize : held.reverse.flatten.length = size) (hcapacity : size ≤ bufferCapacity) :
    ∃ rest, heeded held size pieces ++ rest = held.reverse.flatten ++ pieces.flatten ∧
      rest.length ≤ bufferCapacity := by
  induction pieces generalizing held size with
  | nil => exact ⟨held.reverse.flatten, by simp [heeded], hsize ▸ hcapacity⟩
  | cons piece pieces ih =>
      rw [heeded]
      split
      · rename_i hfits
        obtain ⟨rest, happend, hrest⟩ := ih (piece :: held) (size + piece.length)
          (by simp [← hsize]) hfits.1
        exact ⟨rest, by simpa using happend, hrest⟩
      · split
        · rename_i hsmall
          obtain ⟨rest, happend, hrest⟩ := ih [piece] piece.length (by simp) hsmall.le
          exact ⟨rest, by simpa using happend, hrest⟩
        · obtain ⟨rest, happend, hrest⟩ := ih [] 0 rfl (Nat.zero_le _)
          exact ⟨rest, by simpa using happend, hrest⟩

/-- As long as everything fits into the buffer, nothing is heeded. -/
theorem heeded_eq_nil (held pieces : List (List UInt8)) {size : Nat} (hsize : 0 < size)
    (hfits : size + pieces.flatten.length ≤ bufferCapacity) : heeded held size pieces = [] := by
  induction pieces generalizing held size with
  | nil => rfl
  | cons piece pieces ih =>
      rw [List.flatten_cons, List.length_append, ← Nat.add_assoc] at hfits
      rw [heeded, if_pos (by omega)]
      exact ih (piece :: held) (by omega) hfits

end Host

namespace Machine

open Program (Yields yields_bind_iff yields_pure_iff)
open FileTree (Extends)

/-- A computer on which nothing but the files and the outputs has changed, and of the files only
the one behind the given names, apart from directories and files that are new. -/
structure Changes (target : List String) (old new : Machine) : Prop where
  files : Extends target old.files new.files
  directory : new.directory = old.directory
  input : new.input = old.input

/-- Whether files can take in a number of bytes. -/
def HasRoom (machine : Machine) (count : Nat) : Prop :=
  ∀ room, machine.room = some room → count ≤ room

instance (machine : Machine) (count : Nat) : Decidable (machine.HasRoom count) :=
  decidable_of_iff (machine.room.all (count ≤ ·)) <| by
    rw [HasRoom]
    cases machine.room <;> simp

/-- What the files take in of some bytes. -/
def fitting (machine : Machine) (bytes : List UInt8) : List UInt8 :=
  bytes.take (machine.room.getD bytes.length)

/-- A path leads to a file with the given content, which has the given names. -/
def Holds (machine : Machine) (path : String) (names : List String) (content : List UInt8) :
    Prop :=
  ∃ isExecutable,
    machine.files.resolve (machine.absolute path) = .existing names (.file content isExecutable)

/-- The directory part of a path, which is empty if no directory has to be made. -/
def directoryOf (path : String) : String :=
  (Path.parent? path).getD ""

/-- The files with the directories that a path needs. -/
def prepared (machine : Machine) (path : String) : Except AccessError FileTree :=
  if directoryOf path = "" then .ok machine.files
  else machine.files.makeDirectories (machine.absolute (directoryOf path))

/-- The files once a path has been opened to save something there. -/
def opened (machine : Machine) (path : String) : Except AccessError FileTree :=
  match machine.prepared path with
  | .error cause => .error cause
  | .ok files => files.create (machine.absolute path)

/-- Whether a path can be opened to save something there. -/
def canSave (machine : Machine) (path : String) : Bool :=
  (machine.opened path).isOk

theorem canSave_iff {machine : Machine} {path : String} :
    machine.canSave path = true ↔ ∃ files, machine.opened path = .ok files := by
  rw [canSave]
  cases machine.opened path with
  | error cause => simp [Except.isOk, Except.toBool]
  | ok files => exact ⟨fun _ => ⟨files, rfl⟩, fun _ => rfl⟩

theorem Changes.trans {target : List String} {old new newer : Machine}
    (hold : Changes target old new) (hnew : Changes target new newer) :
    Changes target old newer where
  files := hold.files.trans hnew.files
  directory := hnew.directory.trans hold.directory
  input := hnew.input.trans hold.input

theorem Holds.yields_read {machine : Machine} {path : String} {names : List String}
    {content : List UInt8} (hholds : machine.Holds path names content) :
    Yields (host.read path) machine (.ok (.bytes content)) machine := by
  obtain ⟨isExecutable, hresolve⟩ := hholds
  exact yields_pure_iff.2 ⟨FileTree.read_of_resolve hresolve, rfl⟩

/-! ## Pieces -/

section Pieces

variable {machine after : Machine} {path : String} {names : List String} {content : List UInt8}
  {first second : List UInt8} {count more : Nat}

theorem HasRoom.mono (hroom : machine.HasRoom count) (hless : more ≤ count) :
    machine.HasRoom more :=
  fun room hmachine => hless.trans (hroom room hmachine)

theorem hasRoom_add_iff (hroom : after.room = machine.room.map (· - count)) :
    machine.HasRoom (count + more) ↔ machine.HasRoom count ∧ after.HasRoom more := by
  rw [HasRoom, HasRoom, HasRoom, hroom]
  cases machine.room with
  | none => simp
  | some room =>
      simp only [Option.some.injEq, forall_eq', Option.map_some]
      omega

/-- All the bytes are taken in just where there is room for them. -/
theorem fitting_eq_self_iff : machine.fitting first = first ↔ machine.HasRoom first.length := by
  rw [fitting, List.take_eq_self_iff, HasRoom]
  cases machine.room <;> simp

/-- Where there is room for the first bytes, others follow. -/
theorem fitting_append (hroom : after.room = machine.room.map (· - first.length)) :
    machine.fitting (first ++ second) = machine.fitting first ++ after.fitting second := by
  rw [fitting, fitting, fitting, hroom]
  cases machine.room with
  | none => simp
  | some room => exact List.take_append

/-- Where there is no room for the first bytes, none follow. -/
theorem fitting_append_of_not_hasRoom (hfull : ¬ machine.HasRoom first.length) :
    machine.fitting (first ++ second) = machine.fitting first := by
  rw [HasRoom] at hfull
  rw [fitting, fitting]
  cases hmachine : machine.room with
  | none => simp [hmachine] at hfull
  | some room =>
      simp only [hmachine, Option.some.injEq, forall_eq'] at hfull
      exact List.take_append_of_le_length (by simp; omega)

/-- As many bytes arrive at the end of a file as there is room for. -/
theorem yields_append (hholds : machine.Holds path names content) (bytes : List UInt8) :
    ∃ after, Yields (append path bytes) machine
        (if machine.HasRoom bytes.length then .ok () else .error .noSpace) after ∧
      Changes names machine after ∧ after.Holds path names (content ++ machine.fitting bytes) ∧
      after.room = machine.room.map (· - bytes.length) := by
  obtain ⟨isExecutable, hresolve⟩ := hholds
  obtain ⟨files, happend, hextends, hresolve'⟩ :=
    FileTree.exists_append hresolve (machine.fitting bytes)
  have hroom : bytes.length ≤ machine.room.getD bytes.length ↔ machine.HasRoom bytes.length := by
    rw [HasRoom]
    cases machine.room <;> simp
  refine ⟨{ machine with files, room := machine.room.map (· - bytes.length) }, ?_,
    ⟨hextends, rfl, rfl⟩, ⟨isExecutable, hresolve'⟩, rfl⟩
  rw [Yields]
  show append path bytes machine = _
  rw [fitting] at happend
  rw [append, happend]
  simp only [hroom]

/-- An action that adds bytes at the end of a file, as many as there is room for, and that reports
a refusal where there is no room for those that are heeded. -/
def Adds (path : String) (names : List String) (action : StateM Machine (Except AccessError Unit))
    (heeded : Nat) (bytes : List UInt8) : Prop :=
  ∀ (machine : Machine) (content : List UInt8), machine.Holds path names content →
    ∃ after, Yields action machine
        (if machine.HasRoom heeded then .ok () else .error .noSpace) after ∧
      Changes names machine after ∧ after.Holds path names (content ++ machine.fitting bytes)

/-- Bytes are added that are heeded, and then others unless there was no room for the first. -/
theorem Adds.append_bind {next : StateM Machine (Except AccessError Unit)}
    (hnext : Adds path names next count second) :
    Adds path names
      (append path first >>= fun
        | .error cause => pure (.error cause)
        | .ok () => next)
      (first.length + count) (first ++ second) := by
  intro machine content hholds
  obtain ⟨between, happend, hchanges, hbetween, hspent⟩ := yields_append hholds first
  by_cases hroom : machine.HasRoom first.length
  · obtain ⟨after, hyields, hchanges', hafter⟩ := hnext between _ hbetween
    refine ⟨after, yields_bind_iff.2 ⟨_, between, happend, ?_⟩, hchanges.trans hchanges', ?_⟩
    · simp only [hasRoom_add_iff hspent, hroom, true_and, if_true]
      exact hyields
    · rwa [fitting_append hspent, ← List.append_assoc]
  · refine ⟨between, yields_bind_iff.2 ⟨_, between, happend, ?_⟩, hchanges, ?_⟩
    · simp only [hasRoom_add_iff hspent, hroom, false_and, if_false]
      exact yields_pure_iff.2 ⟨rfl, rfl⟩
    · rwa [fitting_append_of_not_hasRoom hroom]

/-- Pieces arrive at the end of a file as far as there is room for them, the buffered ones
first. -/
theorem adds_writePieces (held pieces : List (List UInt8)) (size : Nat) :
    Adds path names (Host.writePieces (append path) held size pieces)
      (Host.heeded held size pieces).length (held.reverse.flatten ++ pieces.flatten) := by
  -- Either the next piece goes to the buffer, or the buffer goes to the file before that.
  induction pieces generalizing held size with
  | nil =>
      intro machine content hholds
      obtain ⟨after, happend, hchanges, hafter, _⟩ := yields_append hholds held.reverse.flatten
      refine ⟨after, ?_, hchanges, by simpa using hafter⟩
      rw [Host.writePieces, yields_bind_iff]
      exact ⟨_, after, happend, yields_pure_iff.2 ⟨by simp [Host.heeded, HasRoom], rfl⟩⟩
  | cons piece pieces ih =>
      rw [Host.writePieces, Host.heeded, List.flatten_cons]
      by_cases hfits : size + piece.length ≤ Host.bufferCapacity ∧
          piece.length < Host.bufferCapacity
      · rw [if_pos hfits, if_pos hfits]
        have hheld := ih (piece :: held) (size + piece.length)
        rwa [List.reverse_cons, List.flatten_append, List.flatten_singleton,
          List.append_assoc] at hheld
      · rw [if_neg hfits, if_neg hfits]
        by_cases hsmall : piece.length < Host.bufferCapacity
        · rw [if_pos hsmall, if_pos hsmall, List.length_append]
          have hheld := ih [piece] piece.length
          rw [List.reverse_singleton, List.flatten_singleton] at hheld
          exact hheld.append_bind
        · rw [if_neg hsmall, if_neg hsmall, List.length_append, List.length_append]
          exact (ih [] 0).append_bind.append_bind

end Pieces

/-! ## Saving -/

theorem yields_update_iff (change : FileTree → Except AccessError FileTree)
    {machine after : Machine} :
    Yields (update change) machine (.ok ()) after ↔
      ∃ files, change machine.files = .ok files ∧ { machine with files } = after := by
  have hupdate : Yields (update change) machine (.ok ()) after ↔
      update change machine = (.ok (), after) := .rfl
  rw [hupdate, update]
  cases change machine.files with
  | error cause => exact ⟨fun h => absurd (congrArg Prod.fst h) (by simp), by simp⟩
  | ok files =>
      constructor
      · intro h
        exact ⟨files, rfl, congrArg Prod.snd h⟩
      · rintro ⟨_, hfiles, rfl⟩
        obtain rfl := Except.ok.inj hfiles
        rfl

/-- A change at a path goes to its absolute form. -/
theorem yields_updateAt_iff (change : FileTree → String → Except AccessError FileTree)
    {machine after : Machine} {path : String} :
    Yields (do let path := (← get).absolute path; update (change · path)) machine (.ok ()) after ↔
      ∃ files, change machine.files (machine.absolute path) = .ok files ∧
        { machine with files } = after := by
  rw [← yields_update_iff (change · (machine.absolute path)), yields_bind_iff]
  constructor
  · rintro ⟨_, _, hget, hupdate⟩
    obtain ⟨rfl, rfl⟩ := Prod.mk.inj hget
    exact hupdate
  · intro hupdate
    exact ⟨machine, machine, rfl, hupdate⟩

theorem yields_makeDirectories_iff {machine after : Machine} {path : String} :
    Yields (host.makeDirectories path) machine (.ok ()) after ↔
      ∃ files, machine.files.makeDirectories (machine.absolute path) = .ok files ∧
        { machine with files } = after :=
  yields_updateAt_iff FileTree.makeDirectories

theorem yields_create_iff {machine after : Machine} {path : String} :
    Yields (host.create path) machine (.ok ()) after ↔
      ∃ files, machine.files.create (machine.absolute path) = .ok files ∧
        { machine with files } = after :=
  yields_updateAt_iff FileTree.create

/-- The directories that a path needs are made where that is possible. -/
theorem yields_prepare_iff {machine after : Machine} {path : String} :
    Yields (if directoryOf path = "" then pure (.ok ())
        else host.makeDirectories (directoryOf path)) machine (.ok ()) after ↔
      ∃ files, machine.prepared path = .ok files ∧ { machine with files } = after := by
  rw [prepared]
  split
  · rw [yields_pure_iff]
    constructor
    · rintro ⟨_, rfl⟩
      exact ⟨machine.files, rfl, rfl⟩
    · rintro ⟨_, hfiles, rfl⟩
      obtain rfl := Except.ok.inj hfiles
      exact ⟨rfl, rfl⟩
  · exact yields_makeDirectories_iff

/-- A path that has been opened leads to a file that is empty, and nothing else has changed. -/
theorem exists_of_opened {machine : Machine} {path : String} {files : FileTree}
    (hopened : machine.opened path = .ok files) :
    ∃ names, Changes names machine { machine with files } ∧
      ({ machine with files } : Machine).Holds path names [] := by
  rw [opened] at hopened
  split at hopened
  · cases hopened
  · rename_i made hmade
    obtain ⟨names, isExecutable, hextends, hresolve⟩ := FileTree.exists_of_create hopened
    have hprepared : Extends names machine.files made := by
      rw [prepared] at hmade
      split at hmade
      · obtain rfl := Except.ok.inj hmade
        exact .refl names machine.files
      · exact FileTree.extends_of_makeDirectories names hmade
    exact ⟨names, ⟨hprepared.trans hextends, rfl, rfl⟩, isExecutable, hresolve⟩

/-- Where a path can be opened, pieces are written there by way of a buffer. -/
theorem yields_writeBuffered (pieces : List (List UInt8)) {machine : Machine} {path : String}
    {names : List String} {files : FileTree}
    (hcreate : machine.files.create (machine.absolute path) = .ok files)
    (hholds : ({ machine with files } : Machine).Holds path names []) :
    ∃ after, Yields (host.writeBuffered path pieces) machine
        (.ok (if machine.HasRoom (Host.heeded [] 0 pieces).length then .ok ()
          else .error .noSpace)) after ∧
      Changes names { machine with files } after ∧
      after.Holds path names (machine.fitting pieces.flatten) := by
  obtain ⟨after, hwrite, hchanges, hafter⟩ := adds_writePieces [] pieces 0 _ _ hholds
  refine ⟨after, ?_, hchanges, hafter⟩
  rw [Host.writeBuffered, yields_bind_iff]
  refine ⟨.ok (), { machine with files }, yields_create_iff.2 ⟨files, hcreate, rfl⟩, ?_⟩
  exact yields_bind_iff.2 ⟨_, after, hwrite, yields_pure_iff.2 ⟨rfl, rfl⟩⟩

/-- Pieces are written only where the path can be opened. -/
theorem create_of_yields_writeBuffered {machine after : Machine} {path : String}
    {pieces : List (List UInt8)}
    (hwrite : Yields (host.writeBuffered path pieces) machine (.ok (.ok ())) after) :
    ∃ files, machine.files.create (machine.absolute path) = .ok files := by
  rw [Host.writeBuffered, yields_bind_iff] at hwrite
  obtain ⟨created?, created, hcreated, hwrite⟩ := hwrite
  cases created? with
  | error cause => cases (yields_pure_iff.1 hwrite).1
  | ok _ =>
      obtain ⟨files, hfiles, _⟩ := yields_create_iff.1 hcreated
      exact ⟨files, hfiles⟩

end Machine

end Untested
