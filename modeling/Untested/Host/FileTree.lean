/-
# File trees

The files and directories of a computer as a value.  A path is followed component by component
from the root of the tree.  Going up from a directory is possible only where that directory
exists, and nothing lies inside a file.
-/

import Untested.Host.Access
import Untested.Path

namespace Untested

/-- A file or a directory. -/
inductive FileTree where
  /-- A file with its bytes, and whether it may be executed. -/
  | file (content : List UInt8) (isExecutable : Bool)
  | directory (entries : List (String × FileTree))
deriving Inhabited

namespace FileTree

/-- The tree that has nothing in it. -/
def empty : FileTree := directory []

def isDirectory : FileTree → Bool
  | directory _ => true
  | file .. => false

/-- The entry of a directory with the given name. -/
def child? (name : String) : FileTree → Option FileTree
  | directory entries => entries.lookup name
  | file .. => none

/-- What lies behind the given names. -/
def at? (tree : FileTree) : List String → Option FileTree
  | [] => some tree
  | name :: names => (tree.child? name).bind fun child => child.at? names

/-- The entries with one of them replaced, or added at the end. -/
def setEntry (name : String) (tree : FileTree) : List (String × FileTree) → List (String × FileTree)
  | [] => [(name, tree)]
  | entry :: entries =>
    if entry.1 = name then (name, tree) :: entries else entry :: setEntry name tree entries

/-- The tree with something put behind the given names.  Directories on the way are made. -/
def put (tree : FileTree) (new : FileTree) : List String → FileTree
  | [] => new
  | name :: names =>
    let entries :=
      match tree with
      | directory entries => entries
      | file .. => []
    directory (setEntry name ((((tree.child? name).getD empty)).put new names) entries)

/-- Where a path leads. -/
inductive Place where
  /-- To something that exists. -/
  | existing (names : List String) (tree : FileTree)
  /-- To a free name in a directory that exists. -/
  | free (names : List String)
  | nowhere (cause : AccessError)

/-- The greatest number of bytes in a component. -/
def maxNameLength : Nat := 255

/-- Follows the components of a path from the names gone so far. -/
def follow (tree : FileTree) (names : List String) : List String → Place
  | [] =>
    match tree.at? names with
    | some place => .existing names place
    | none => .nowhere .notFound
  | component :: rest =>
    match tree.at? names with
    | none => .nowhere .notFound
    | some (file ..) => .nowhere .notDirectory
    | some (directory entries) =>
      if Path.isIdle component then tree.follow names rest
      else if component = ".." then tree.follow names.dropLast rest
      else if maxNameLength < component.utf8ByteSize then .nowhere .nameTooLong
      else if (entries.lookup component).isSome then tree.follow (names ++ [component]) rest
      else if rest.isEmpty then .free (names ++ [component])
      else .nowhere .notFound

/-- Where an absolute path leads. -/
def resolve (tree : FileTree) (path : String) : Place :=
  if path = "" then .nowhere .notFound else tree.follow [] (Path.components path)

/-- What a reader gets from a file that could be opened. -/
inductive Contents where
  | bytes (content : List UInt8)
  /-- Nothing, for the given cause. -/
  | unreadable (cause : AccessError)
deriving DecidableEq, Repr

/-- Opens what an absolute path leads to.  A directory can be opened but not read. -/
def read (tree : FileTree) (path : String) : Except AccessError Contents :=
  match tree.resolve path with
  | .existing _ (file content _) => .ok (.bytes content)
  | .existing _ (directory _) => .ok (.unreadable .isDirectory)
  | .free _ => .error .notFound
  | .nowhere cause => .error cause

/-- Whether an absolute path leads to something that exists. -/
def exists? (tree : FileTree) (path : String) : Bool :=
  match tree.resolve path with
  | .existing .. => true
  | _ => false

/-- Makes the file at an absolute path empty, or makes an empty file there. -/
def create (tree : FileTree) (path : String) : Except AccessError FileTree :=
  match tree.resolve path with
  | .existing names (file _ isExecutable) => .ok (tree.put (file [] isExecutable) names)
  | .existing _ (directory _) => .error .isDirectory
  | .free names => .ok (tree.put (file [] false) names)
  | .nowhere cause =>
    if cause = .notFound && path.toList.getLast? = some '/' then .error .isDirectory
    else .error cause

/-- Adds bytes at the end of the file at an absolute path. -/
def append (tree : FileTree) (path : String) (bytes : List UInt8) : Except AccessError FileTree :=
  match tree.resolve path with
  | .existing names (file content isExecutable) =>
    .ok (tree.put (file (content ++ bytes) isExecutable) names)
  | .existing _ (directory _) => .error .isDirectory
  | .free names => .ok (tree.put (file bytes false) names)
  | .nowhere cause => .error cause

/-- Makes the missing directories on the way along the components of a path.  A file in the way is
told apart by whether the path ends there. -/
def makeDirectoriesFrom (tree : FileTree) (names : List String) :
    List String → Except AccessError FileTree
  | [] => .ok tree
  | component :: rest =>
    let deeper := names ++ [component]
    if Path.isIdle component then tree.makeDirectoriesFrom names rest
    else if component = ".." then tree.makeDirectoriesFrom names.dropLast rest
    else if maxNameLength < component.utf8ByteSize then .error .nameTooLong
    else
      match tree.at? deeper with
      | none => (tree.put empty deeper).makeDirectoriesFrom deeper rest
      | some (directory _) => tree.makeDirectoriesFrom deeper rest
      | some (file ..) =>
        if rest.all Path.isIdle then .error .alreadyExists else .error .notDirectory

/-- Makes a directory at an absolute path, and those on the way to it. -/
def makeDirectories (tree : FileTree) (path : String) : Except AccessError FileTree :=
  tree.makeDirectoriesFrom [] (Path.components path)

end FileTree

end Untested
