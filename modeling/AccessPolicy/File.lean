/-! Files as the library sees them: a path leads to nothing, to a text, or to something that cannot
be read as one, and reading it gives the text or says why there is none. -/

namespace AccessPolicy

/-- Why a file gives no text. -/
inductive FileError where
  | notFound
  | notDirectory
  | isDirectory
  | nameTooLong
  | nulInName
  | notText
  | other (text : String)
deriving DecidableEq, Repr

/-- What the user is told about a file that gives no text. -/
def FileError.message : FileError → String
  | notFound => "No such file or directory (os error 2)"
  | notDirectory => "Not a directory (os error 20)"
  | isDirectory => "Is a directory (os error 21)"
  | nameTooLong => "File name too long (os error 36)"
  | nulInName => "file name contained an unexpected NUL byte"
  | notText => "stream did not contain valid UTF-8"
  | other text => text

/-- What a path leads to. It is absent too where it goes through a file as if that were a directory,
or through a name that no file can have, but then the errors differ. -/
inductive FileState where
  | absent
  | unreadable (error : FileError)
  | text (content : String)
deriving DecidableEq, Repr

namespace FileState

/-- Whether the path leads to anything. -/
def isPresent : FileState → Bool
  | absent | unreadable .notDirectory | unreadable .nameTooLong | unreadable .nulInName => false
  | _ => true

/-- The text, or why there is none. -/
def read : FileState → Except FileError String
  | absent => .error .notFound
  | unreadable error => .error error
  | text content => .ok content

end FileState

/-- What each path leads to. -/
abbrev Files : Type := String → FileState

/-- The last component of a path, where dots that stand for the directory itself do not count. -/
def fileName? (path : String) : Option (List Char) :=
  let parts := (path.toList.splitOn '/').filter fun part => part ≠ [] ∧ part ≠ ['.']
  parts.getLast?.filter (· ≠ ['.', '.'])

/-- The extension of a path: what follows the last dot of its last component, unless that dot is the
component's first character. -/
def extension? (path : String) : Option String :=
  match fileName? path with
  | none => none
  | some name =>
    match (name.splitOn '.').reverse with
    | last :: before@(_ :: _) => if before = [[]] then none else some (String.ofList last)
    | _ => none

end AccessPolicy
