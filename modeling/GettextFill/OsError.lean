import GettextFill.Text.Quoted

/-!
# Errors of the operating system

An operation on files fails with a code of the system and a note of what was attempted. A path with
a null character is refused before the system is asked.
-/

namespace GettextFill

/-- Why the system refuses an operation. -/
inductive Errno
  | noEntry
  | notDirectory
  | isDirectory
  | occupied
  | nameTooLong
  | busy
  /-- A path has a null character. -/
  | nullByte
  /-- A directory was to be taken away as a file. -/
  | notFile
  /-- Any other reason, with its code and its words. -/
  | other (code words : Text)
  deriving DecidableEq

namespace Errno

def code : Errno → Text
  | noEntry => "ENOENT"
  | notDirectory => "ENOTDIR"
  | isDirectory => "EISDIR"
  | occupied => "EEXIST"
  | nameTooLong => "ENAMETOOLONG"
  | busy => "EBUSY"
  | nullByte => "ERR_INVALID_ARG_VALUE"
  | notFile => "ERR_FS_EISDIR"
  | other code _ => code

def words : Errno → Text
  | noEntry => "no such file or directory"
  | notDirectory => "not a directory"
  | isDirectory => "illegal operation on a directory"
  | occupied => "file already exists"
  | nameTooLong => "name too long"
  | busy => "resource busy or locked"
  | nullByte => "The argument 'path' must be a string, Uint8Array, or URL without null bytes"
  | notFile => "Path is a directory: rm returned EISDIR (is a directory)"
  | other _ words => words

end Errno

/-- What was attempted: an operation on no path, on one or from one to another. -/
inductive Attempt
  | alone (verb : Text)
  | on (verb path : Text)
  | between (verb source target : Text)
  deriving DecidableEq

namespace Attempt

/-- An attempt in words, for instance `open 'p'`. -/
def text : Attempt → Text
  | alone verb => verb
  | on verb path => verb ++ " '" ++ path ++ "'"
  | between verb source target => verb ++ " '" ++ source ++ "' -> '" ++ target ++ "'"

/-- The path of an attempt, the first if there are two. -/
def path : Attempt → Text
  | alone _ => []
  | on _ path => path
  | between _ source _ => source

end Attempt

/-- A text in quotes as it is quoted in a refusal: at most 128 units of it. -/
def received (quoted : Text) : Text :=
  if 128 < Text.unitLength quoted then quoted.take 128 ++ ['.', '.', '.'] else quoted

/-- An operation that the system has refused. -/
structure OsError where
  errno : Errno
  attempt : Attempt
  deriving DecidableEq

namespace OsError

def code (e : OsError) : Text := e.errno.code

def message (e : OsError) : Text :=
  match e.errno with
  | .nullByte =>
    e.errno.words ++ (". Received " : Text) ++ received (Text.quoted e.attempt.path)
  | .notFile => e.errno.words ++ ' ' :: e.attempt.path
  | errno => errno.code ++ (": " : Text) ++ errno.words ++ (", " : Text) ++ e.attempt.text

end OsError

end GettextFill
