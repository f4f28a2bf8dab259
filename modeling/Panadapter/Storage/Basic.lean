import Panadapter.Text.Utf8

/-! # Files and directories

A storage is a tree of directories with files in it, as far as the scope looks at them. A path leads along its names from
the root or from the directory where the scope was started; what it leads to can be read, or the attempt fails with a
cause.

* `Storage.locate`: where a path leads.
* `Storage.readBytes`, `Storage.readText`: the content of a file.
* `Storage.write`: a storage with one file more.
-/

namespace Panadapter

/-- Why a file operation fails. -/
inductive StorageError where
  | notFound
  | permissionDenied
  | notExecutable
  | notADirectory
  | isADirectory
  | nameTooLong
  | tooManyLinks
  | holdsNul
  | nulInArgument
  | notText
  deriving DecidableEq, Repr

/-- The wording of a file error. -/
def StorageError.message : StorageError → String
  | notFound => "No such file or directory (os error 2)"
  | permissionDenied => "Permission denied (os error 13)"
  | notExecutable => "Exec format error (os error 8)"
  | notADirectory => "Not a directory (os error 20)"
  | isADirectory => "Is a directory (os error 21)"
  | nameTooLong => "File name too long (os error 36)"
  | tooManyLinks => "Too many levels of symbolic links (os error 40)"
  | holdsNul => "file name contained an unexpected NUL byte"
  | nulInArgument => "nul byte found in provided data"
  | notText => "stream did not contain valid UTF-8"

/-- A file: its bytes, whether it may be run, and whether it holds instructions of the machine, so that it runs without
an interpreter. -/
structure File where
  bytes : List UInt8
  executable : Bool := false
  native : Bool := false
  deriving DecidableEq, Repr

/-- Files, each with the names that lead to it from the root; the directory in which paths begin that do not begin at the
root; and the directories in which programs are looked for, in order. -/
structure Storage where
  files : List (List String × File)
  home : List String
  searched : List String
  deriving Repr

/-- What a path leads to. -/
inductive Entry where
  | file (f : File)
  | directory
  deriving Repr

namespace Storage

/-- A root with nothing in it. -/
def empty : Storage := ⟨[], [], []⟩

/-- The most bytes that a name may have. -/
def longestName : Nat := 255

/-- The most bytes that a path may have. -/
def longestPath : Nat := 4095

/-- The names along a path, without those that stay where they are. -/
def names (path : String) : List String :=
  ((path.toList.splitOn '/').map String.ofList).filter fun n => n != "" && n != "."

/-- The directory in which a path begins. -/
def origin (s : Storage) (path : String) : List String :=
  if path.toList.head? = some '/' then [] else s.home

/-- Whether there is a directory at a place: on the way to where paths begin, or with a file below. -/
def isDirectory (s : Storage) (place : List String) : Bool :=
  place.isPrefixOf s.home || s.files.any fun (other, _) => place.length < other.length && place.isPrefixOf other

/-- Where names lead from a place that is a directory. Two dots lead to the directory above, at the root to the root. -/
def walk (s : Storage) (place : List String) : List String → Except StorageError Entry
  | [] => .ok .directory
  | name :: rest =>
    if longestName < name.utf8ByteSize then .error .nameTooLong
    else if name = ".." then s.walk place.dropLast rest
    else
      let next := place ++ [name]
      match s.files.lookup next with
      | some f => if rest.isEmpty then .ok (.file f) else .error .notADirectory
      | none => if s.isDirectory next then s.walk next rest else .error .notFound

/-- Where a path leads. One that ends in a slash or a dot asks for a directory. -/
def locate (s : Storage) (path : String) : Except StorageError Entry := do
  let cs := path.toList
  if cs.contains '\x00' then throw .holdsNul
  if cs.isEmpty then throw .notFound
  if longestPath < path.utf8ByteSize then throw .nameTooLong
  let found ← s.walk (s.origin path) (names path)
  let asksDirectory := cs.getLast? = some '/' || (cs.length ≥ 2 && cs.drop (cs.length - 2) = ['/', '.'])
  match found with
  | .file f => if asksDirectory then throw .notADirectory else return .file f
  | .directory => return .directory

/-- The storage with a file at a path, in place of what was there. -/
def write (s : Storage) (path : String) (f : File) : Storage :=
  let place := (names path).foldl (fun at_ n => if n = ".." then at_.dropLast else at_ ++ [n]) (s.origin path)
  { s with files := (place, f) :: s.files }

end Storage

namespace Entry

/-- The bytes behind an entry; a directory can be opened, but not read. -/
def bytes : Entry → Except StorageError (List UInt8)
  | file f => .ok f.bytes
  | directory => .error .isADirectory

end Entry

namespace Storage

/-- The bytes of the file at a path. -/
def readBytes (s : Storage) (path : String) : Except StorageError (List UInt8) :=
  s.locate path >>= Entry.bytes

/-- The text of the file at a path. -/
def readText (s : Storage) (path : String) : Except StorageError String := do
  let bytes ← s.readBytes path
  match Text.ofBytes? bytes with
  | some text => return text
  | none => throw .notText

end Storage

end Panadapter
