/-
# Paths

A path is a text whose components are separated by slashes.  Nothing is normalised: paths are
joined, shown and compared as they are spelt.
-/

import Untested.Text.Blank

namespace Untested.Path

open Text

/-- Whether a path starts at the root of the file system. -/
def isAbsolute (path : String) : Bool :=
  path.toList.head? = some '/'

/-- A path as seen from a directory.  An absolute path stays what it is. -/
def join (directory path : String) : String :=
  if isAbsolute path || directory = "" then path
  else if directory.toList.getLast? = some '/' then directory ++ path
  else directory ++ "/" ++ path

/-- The components between the slashes of a path, empty ones included. -/
def components (path : String) : List String :=
  (splitAt '/' path.toList).map String.ofList

/-- Whether a component names the directory that it stands in. -/
def isIdle (component : String) : Bool :=
  component = "" || component = "."

/-- The components of a path up to the last one that names something. -/
def namingComponents (path : String) : List String :=
  ((components path).reverse.dropWhile isIdle).reverse

/-- The directory part of a path: the path without its last component.  There is none when the
path has no component. -/
def parent? (path : String) : Option String :=
  match (namingComponents path).reverse with
  | [] => none
  | _ :: above =>
    match above.dropWhile isIdle with
    | [] => some (if isAbsolute path then "/" else "")
    | rest => some ("/".intercalate rest.reverse)

/-- The name of the file that a path leads to, unless the path ends by going up. -/
def fileName? (path : String) : Option String :=
  match (namingComponents path).getLast? with
  | some name => if name = ".." then none else some name
  | none => none

/-- The extension of a file name: what follows its last point, unless that point comes first. -/
def extensionOf? (name : List Char) : Option (List Char) :=
  let reversed := name.reverse
  let extension := reversed.takeWhile (· ≠ '.')
  let stem := reversed.drop (extension.length + 1)
  if stem.isEmpty then none else some extension.reverse

/-- The extension of the file that a path leads to. -/
def extension? (path : String) : Option String :=
  (fileName? path).bind fun name => (extensionOf? name.toList).map String.ofList

/-- A path with the separators of another system turned into slashes. -/
def withSlashes (path : List Char) : List Char :=
  path.map fun c => if c = '\\' then '/' else c

end Untested.Path
