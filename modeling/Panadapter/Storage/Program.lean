import Panadapter.Storage.Basic

/-! # Programs among the files

A program is a file that may be run. Either it holds instructions of the machine, or it is a script: its first line names
a program that interprets it, which may be a script in turn.

* `Script.interpreter?`: the path that a script names.
* `Storage.runnable`: whether the file at a path can be run.
* `Storage.program`: whether a program can be started by its name.
-/

namespace Panadapter

namespace Script

/-- How many bytes of a file are looked at to tell how it is run. -/
def headLength : Nat := 256

/-- The blanks around the path of an interpreter. -/
def isGap (b : UInt8) : Bool := b == 32 || b == 9

/-- The bytes that end the path of an interpreter: a blank, the end of the line, and the zeros behind a short file. -/
def endsPath (b : UInt8) : Bool := isGap b || b == 10 || b == 0

/-- The path of the interpreter, behind a number sign and an exclamation mark. A file without them is no script. Neither
is one whose line is blank, or whose path does not end in the bytes that are looked at; a file that ends before the path
begins names the directory in which it is run. -/
def interpreter? (bytes : List UInt8) : Option (List UInt8) :=
  match (bytes.take headLength).rightpad headLength 0 with
  | 35 :: 33 :: line =>
    let fromPath := line.dropWhile isGap
    let path := fromPath.takeWhile (!endsPath ·)
    match path, fromPath.drop path.length with
    | [], 0 :: _ => some [46]
    | [], _ => none
    | _, [] => none
    | _, _ => some path
  | _ => none

/-- How many files may stand in a row of scripts, each the interpreter of the one before. -/
def longestRow : Nat := 6

end Script

namespace Storage

/-- The file at a path, if it may be run. -/
def executable (s : Storage) (path : String) : Except StorageError File := do
  match ← s.locate path with
  | .directory => throw .permissionDenied
  | .file f => if f.executable then return f else throw .permissionDenied

/-- Whether the file at a path can be run, as the first of a row of so many files. -/
def runnable (s : Storage) : Nat → String → Except StorageError Unit
  | 0, path => do
    let _ ← s.executable path
    throw .tooManyLinks
  | row + 1, path => do
    let f ← s.executable path
    if f.native then return ()
    match Script.interpreter? f.bytes with
    | none => throw .notExecutable
    | some bytes =>
      match Text.ofBytes? bytes with
      | none => throw .notFound
      | some next => s.runnable row next

/-- Whether one of the directories has a program of a name. One that may not be run is passed over, and reported if there
is no other. -/
def search (s : Storage) (name : String) (denied : Bool) : List String → Except StorageError Unit
  | [] => .error (if denied then .permissionDenied else .notFound)
  | place :: rest =>
    match s.runnable Script.longestRow (place ++ "/" ++ name) with
    | .error .notFound => s.search name denied rest
    | .error .notADirectory => s.search name denied rest
    | .error .permissionDenied => s.search name true rest
    | found => found

/-- Whether the program of a name can be started. A name with a slash is a path. -/
def program (s : Storage) (name : String) : Except StorageError Unit :=
  if name.toList.contains '\x00' then .error .nulInArgument
  else if name.isEmpty then .error .notFound
  else if name.toList.contains '/' then s.runnable Script.longestRow name
  else if longestName < name.utf8ByteSize then .error .nameTooLong
  else s.search name false s.searched

end Storage

end Panadapter
