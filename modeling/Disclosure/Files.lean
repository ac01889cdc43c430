import Disclosure.Path

/-!
# Disclosure.Files — where file contents come from

`Files` says for each path what reading it gives: the bytes of the file, or why there are none.  A `Folder` is a
finite tree of files and directories below one place; `Folder.files` reads from it.  A directory is there as soon as
something is in it.
-/

namespace Disclosure

/-- Why a path cannot be read. -/
inductive ReadFault where
  | missing
  | isDirectory
  | notADirectory
  /-- The file is there, but may not be read. -/
  | notAllowed
  /-- The file is there and may be read, but reading it fails.  The system says why. -/
  | failed (why : String)
  /-- The path holds a character that no name has. -/
  | noName
deriving Repr, DecidableEq

/-- The wording of each fault that has one. -/
def ReadFault.message? : ReadFault → Option String
  | .missing => some "No such file or directory"
  | .isDirectory => some "Is a directory"
  | .notADirectory => some "Not a directory"
  | .notAllowed => some "Permission denied"
  | .failed why => some why
  | .noName => none

/-- What reading a path gives. -/
abbrev Files := Path → Except ReadFault ByteArray

/-- Whether the path names a file, be it one that cannot be read. -/
def Files.isFile (files : Files) (path : Path) : Bool :=
  match files path with
  | .ok _ | .error .notAllowed | .error (.failed _) => true
  | .error _ => false

/-- A file with its bytes, or a directory. -/
inductive Entry where
  | file (content : ByteArray)
  | directory

/-- The files and directories below one place, by their names from there. -/
structure Folder where
  place : Path
  entries : List (List String × Entry)

/-- Where a walk through a folder has come: to what some names from its place lead to, or out of the folder. -/
inductive Position where
  | inside (names : List String)
  | outside
deriving Repr, DecidableEq

/-- One step from a directory: a single point stays, two points lead up. -/
def Position.step (name : String) : Position → Position
  | .inside names =>
    if name = "." then .inside names
    else if name ≠ ".." then .inside (names ++ [name])
    else if names.isEmpty then .outside
    else .inside names.dropLast
  | .outside => .outside

namespace Folder

/-- Whether something is in the directory of the given names. -/
def isOccupied (folder : Folder) (names : List String) : Bool :=
  folder.entries.any (fun e => names.isPrefixOf e.1 && names.length < e.1.length)

/-- What stands at a position; outside the folder there are directories only. -/
def entry? (folder : Folder) : Position → Option Entry
  | .inside [] => some .directory
  | .inside names =>
    match folder.entries.lookup names with
    | some entry => some entry
    | none => if folder.isOccupied names then some .directory else none
  | .outside => some .directory

/-- Goes on from a position by the given names.  No name leads anywhere outside the folder. -/
def walk (folder : Folder) (here : Position) : List String → Except ReadFault Entry
  | [] =>
    match folder.entry? here with
    | none => .error .missing
    | some entry => .ok entry
  | name :: rest =>
    match folder.entry? here with
    | none => .error .missing
    | some (.file _) => .error .notADirectory
    | some .directory =>
      if here = .outside ∧ name ≠ "." ∧ name ≠ ".." then .error .missing else folder.walk (here.step name) rest

/-- Where a path starts, and its names from there. -/
def startOf (folder : Folder) (path : Path) : Position × List String :=
  if path.root = "" then (.inside [], path.parts)
  else if path.root = folder.place.root ∧ folder.place.parts.isPrefixOf path.parts then
    (.inside [], path.parts.drop folder.place.parts.length)
  else (.outside, path.parts)

/-- Reads from the folder. -/
def files (folder : Folder) : Files := fun path =>
  if path.hasNul then .error .noName
  else
    let (start, names) := folder.startOf path
    match folder.walk start names with
    | .error fault => .error fault
    | .ok .directory => .error .isDirectory
    | .ok (.file content) => .ok content

end Folder

end Disclosure
