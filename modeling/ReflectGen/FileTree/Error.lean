import ReflectGen.Text.Basic

/-!
# Errors of file operations

An operation on a path fails for one of a few reasons.  The message names the operation, the path
as it was given, and the reason.
-/

namespace ReflectGen

/-- Why a path cannot be used. -/
inductive FileError where
  | notExist
  | notDirectory
  | isDirectory
  | exists
  | tooManyLinks
  | nameTooLong
  | invalidName
  deriving DecidableEq, Repr

/-- The words for a reason. -/
def FileError.text : FileError → Text
  | .notExist => lit "no such file or directory"
  | .notDirectory => lit "not a directory"
  | .isDirectory => lit "is a directory"
  | .exists => lit "file exists"
  | .tooManyLinks => lit "too many levels of symbolic links"
  | .nameTooLong => lit "file name too long"
  | .invalidName => lit "invalid argument"

/-- The operations that can fail on a path. -/
inductive FileAction where
  | open
  | read
  | stat
  | lstat
  | mkdir
  deriving DecidableEq, Repr

/-- The word for an operation. -/
def FileAction.text : FileAction → Text
  | .open => lit "open"
  | .read => lit "read"
  | .stat => lit "stat"
  | .lstat => lit "lstat"
  | .mkdir => lit "mkdir"

/-- A failed operation on a path. -/
structure AccessError where
  action : FileAction
  path : Text
  reason : FileError
  deriving DecidableEq, Repr

/-- The message for a failed operation. -/
def AccessError.message (e : AccessError) : Text :=
  e.action.text ++ lit " " ++ e.path ++ lit ": " ++ e.reason.text

end ReflectGen
