import X86Length.Text.Numeral

/-! # Files

The program reads at most one file, by its path.  `ReadError` is what may go wrong; `Folder` is a
set of files held in memory, in which a path is looked up as it would be on a disk. -/

namespace X86Length.CommandLine

/-- Why a file cannot be read. -/
structure ReadError where
  code : Nat
  reason : String
  deriving DecidableEq, Repr

namespace ReadError

/-- The text of an error. -/
def message (error : ReadError) : String :=
  error.reason ++ " (os error " ++ Text.decimal error.code ++ ")"

/-- There is no such file. -/
def notFound : ReadError := ⟨2, "No such file or directory"⟩

/-- The file may not be read. -/
def permissionDenied : ReadError := ⟨13, "Permission denied"⟩

/-- The path goes through a file. -/
def notADirectory : ReadError := ⟨20, "Not a directory"⟩

/-- The path ends at a directory. -/
def isADirectory : ReadError := ⟨21, "Is a directory"⟩

/-- A name is longer than a file system allows. -/
def nameTooLong : ReadError := ⟨36, "File name too long"⟩

/-- The path goes around in a circle. -/
def tooManyLinks : ReadError := ⟨40, "Too many levels of symbolic links"⟩

/-- The error of a number, with its usual reason where that is known. -/
def ofCode (code : Nat) (reason : String) : ReadError :=
  ([notFound, permissionDenied, notADirectory, isADirectory, nameTooLong, tooManyLinks].find?
    (·.code == code)).getD { code, reason }

end ReadError

/-- A folder of files, by their names. -/
structure Folder where
  files : List (String × List UInt8)
  deriving DecidableEq, Repr

namespace Folder

/-- Where a path has led so far. -/
inductive Position where
  | inside
  -- At a directory around the folder, in which nothing else is known.
  | outside
  | file (contents : List UInt8)
  deriving DecidableEq, Repr

/-- One more part of a path. -/
def step (folder : Folder) (position : Position) (part : String) : Except ReadError Position :=
  match position with
  | .file _ => .error .notADirectory
  | .inside =>
    if part == "" || part == "." then .ok .inside
    else if part == ".." then .ok .outside
    else if 255 < part.utf8ByteSize then .error .nameTooLong
    else
      match folder.files.lookup part with
      | some contents => .ok (.file contents)
      | none => .error .notFound
  | .outside =>
    if part == "" || part == "." || part == ".." then .ok .outside
    else if 255 < part.utf8ByteSize then .error .nameTooLong
    else .error .notFound

/-- Where the parts of a path lead. -/
def walk (folder : Folder) : Position → List String → Except ReadError Position
  | position, [] => .ok position
  | position, part :: rest =>
    match folder.step position part with
    | .error error => .error error
    | .ok next => walk folder next rest

/-- The contents of the file at a path. -/
def read (folder : Folder) (path : String) : Except ReadError (List UInt8) :=
  if 4096 ≤ path.utf8ByteSize then .error .nameTooLong
  else
    let start := if path.toList.head? == some '/' then Position.outside else .inside
    match folder.walk start ((path.toList.splitOn '/').map String.ofList) with
    | .error error => .error error
    | .ok (.file contents) => .ok contents
    | .ok _ => .error .isADirectory

end Folder

end X86Length.CommandLine
