import Dialogue.Files.Path

/-!
# File trees

A file system of files and directories as a value, and the operations on it. Paths are followed name
by name, and all but the last have to be directories.
-/

namespace Dialogue

inductive FileFault where
  | notFound
  | notDirectory
  | isDirectory
  | alreadyExists
  | invalidPath
  | nameTooLong
  | other (text : String)
  deriving DecidableEq

def FileFault.message : FileFault → String
  | notFound => "no such file or directory"
  | notDirectory => "not a directory"
  | isDirectory => "is a directory"
  | alreadyExists => "file exists"
  | invalidPath => "invalid argument"
  | nameTooLong => "file name too long"
  | other text => text

inductive FileError where
  | opening (path : Bytes) (fault : FileFault)
  | reading (path : Bytes) (fault : FileFault)
  | moving (old new : Bytes) (fault : FileFault)
  deriving DecidableEq

def FileError.message : FileError → Bytes
  | opening path fault => Text.utf8 "open " ++ path ++ Text.utf8 (": " ++ fault.message)
  | reading path fault => Text.utf8 "read " ++ path ++ Text.utf8 (": " ++ fault.message)
  | moving old new fault =>
    Text.utf8 "rename " ++ old ++ Text.utf8 " " ++ new ++ Text.utf8 (": " ++ fault.message)

inductive FileEntry where
  | file (contents : Bytes)
  | directory
  deriving DecidableEq

/-- A tree of files and directories: the entries by the names that lead to them from the root. -/
structure FileTree where
  entries : List (List Bytes × FileEntry) := []

namespace FileTree

/-- The entry at the end of a row of names. The root is a directory. -/
def get? (t : FileTree) (at' : List Bytes) : Option FileEntry :=
  if at'.isEmpty then some .directory
  else (t.entries.find? fun e => e.1 == at').map Prod.snd

def erase (t : FileTree) (at' : List Bytes) : FileTree :=
  { entries := t.entries.filter fun e => e.1 != at' }

def put (t : FileTree) (at' : List Bytes) (entry : FileEntry) : FileTree :=
  { entries := (t.erase at').entries ++ [(at', entry)] }

def isEmptyAt (t : FileTree) (at' : List Bytes) : Bool :=
  !t.entries.any fun e => at'.isPrefixOf e.1 && at'.length < e.1.length

/-- The greatest number of bytes in a name. -/
def nameLimit : Nat := 255

/-- The number of bytes that a path has to stay below. -/
def pathLimit : Nat := 4096

def child (dir : List Bytes) (name : Bytes) : Except FileFault (List Bytes) :=
  if nameLimit < name.length then .error .nameTooLong else .ok (dir ++ [name])

def descend (t : FileTree) (dir : List Bytes) : List Bytes → Except FileFault (List Bytes)
  | [] => .ok dir
  | name :: names =>
    if name.isEmpty ∨ name = Path.here then t.descend dir names
    else if name = Path.above then t.descend dir.dropLast names
    else do
      let place ← child dir name
      match t.get? place with
      | none => .error .notFound
      | some (.file _) => .error .notDirectory
      | some .directory => t.descend place names

/-- The place that a path means, seen from the directory `dir`. There need not be an entry at it,
but all on the way have to be directories. -/
def locate (t : FileTree) (dir : List Bytes) (path : Bytes) : Except FileFault (List Bytes) :=
  let start := if Path.isAbsolute path then [] else dir
  let last := Path.base path
  if 0 ∈ path then .error .invalidPath
  else if pathLimit ≤ path.length then .error .nameTooLong
  else if path.isEmpty then .error .notFound
  else if last.isEmpty ∨ last = Path.here ∨ last = Path.above then
    t.descend start (Path.names path)
  else do child (← t.descend start (Path.names path).dropLast) last

def read (t : FileTree) (dir : List Bytes) (path : Bytes) : Except FileError Bytes :=
  match t.locate dir path with
  | .error fault => .error (.opening path fault)
  | .ok place =>
    match t.get? place with
    | none => .error (.opening path .notFound)
    | some .directory => .error (.reading path .isDirectory)
    | some (.file contents) => .ok contents

/-- The tree with a file of the given contents at a path, over the file that was there. -/
def write (t : FileTree) (dir : List Bytes) (path contents : Bytes) :
    Except FileError FileTree :=
  match t.locate dir path with
  | .error fault => .error (.opening path fault)
  | .ok place =>
    match t.get? place with
    | some .directory => .error (.opening path .isDirectory)
    | _ => .ok (t.put place (.file contents))

/-- The tree with a file under another name, over the file that was there. -/
def rename (t : FileTree) (dir : List Bytes) (old new : Bytes) : Except FileError FileTree :=
  match t.locate dir old, t.locate dir new with
  | .ok source, .ok target =>
    match t.get? source, t.get? target with
    | none, _ => .error (.moving old new .notFound)
    | _, some .directory => .error (.moving old new .alreadyExists)
    | some entry, _ => .ok ((t.erase source).put target entry)
  | .error fault, _ | _, .error fault => .error (.moving old new fault)

/-- The tree without a file or an empty directory. Nothing else is removed. -/
def remove (t : FileTree) (dir : List Bytes) (path : Bytes) : FileTree :=
  match t.locate dir path with
  | .error _ => t
  | .ok place =>
    match t.get? place with
    | some (.file _) => t.erase place
    | some .directory => if t.isEmptyAt place ∧ !place.isEmpty then t.erase place else t
    | none => t

end FileTree

end Dialogue
