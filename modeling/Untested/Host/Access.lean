/-
# Refused requests

The causes for which a file system refuses a request, with the wording that the operating system
gives them.
-/

namespace Untested

/-- Why a request to the file system, or to start a program, is refused. -/
inductive AccessError where
  | notFound
  | notExecutable
  | denied
  | alreadyExists
  | notDirectory
  | isDirectory
  | noSpace
  | nameTooLong
  /-- Any other cause, in the words of the operating system. -/
  | other (message : String)
deriving DecidableEq, Repr

/-- The words of the operating system. -/
def AccessError.message : AccessError → String
  | notFound => "No such file or directory (os error 2)"
  | notExecutable => "Exec format error (os error 8)"
  | denied => "Permission denied (os error 13)"
  | alreadyExists => "File exists (os error 17)"
  | notDirectory => "Not a directory (os error 20)"
  | isDirectory => "Is a directory (os error 21)"
  | noSpace => "No space left on device (os error 28)"
  | nameTooLong => "File name too long (os error 36)"
  | other message => message

end Untested
