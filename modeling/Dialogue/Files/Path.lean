import Dialogue.Text.Utf8

/-!
# Paths

Paths are texts with slashes between names. All operations here look at the text only and at no
file.
-/

namespace Dialogue.Path

def slash : UInt8 := 0x2F

def here : Bytes := [0x2E]

def above : Bytes := [0x2E, 0x2E]

def isAbsolute (p : Bytes) : Bool :=
  p.head? == some slash

/-- The names of a path, with empty ones where slashes meet. -/
def names (p : Bytes) : List Bytes :=
  p.splitOn slash

/-- Takes one name in: an upward step takes the name before it away, unless there is none left. The
names are kept in reverse. -/
def cleanStep (rooted : Bool) (kept : List Bytes) (name : Bytes) : List Bytes :=
  if name.isEmpty ∨ name = here then kept
  else if name = above then
    match kept with
    | [] => if rooted then [] else [above]
    | last :: before => if last = above then above :: kept else before
  else name :: kept

/-- The shortest path with the same meaning, as far as the text tells. -/
def clean (p : Bytes) : Bytes :=
  let kept := (names p).foldl (cleanStep (isAbsolute p)) []
  let joined := [slash].intercalate kept.reverse
  if isAbsolute p then slash :: joined else if joined.isEmpty then here else joined

/-- Two paths put together and cleaned. An empty one counts for nothing. -/
def join (p q : Bytes) : Bytes :=
  if p.isEmpty ∧ q.isEmpty then []
  else if p.isEmpty then clean q
  else if q.isEmpty then clean p
  else clean (p ++ slash :: q)

def base (p : Bytes) : Bytes :=
  (names p).getLast?.getD []

/-- The path up to and including its last slash. -/
def directory (p : Bytes) : Bytes :=
  p.take (p.length - (base p).length)

/-- The extension of the last name: its last dot and what follows, if it has one. -/
def extension (p : Bytes) : Bytes :=
  match (base p).splitOn 0x2E with
  | [_] => []
  | parts => 0x2E :: parts.getLast?.getD []

def withExtension (p ext : Bytes) : Bytes :=
  p.take (p.length - (extension p).length) ++ ext

/-- The hidden file next to a path that its new contents are put in first. -/
def temporary (p : Bytes) : Bytes :=
  join (directory p) (0x2E :: base p ++ Text.utf8 ".tmp")

/-- The cleaned path from the root, for a path seen from the given directory. -/
def absolute (workingDirectory p : Bytes) : Bytes :=
  if isAbsolute p then clean p else join workingDirectory p

def parent (p : Bytes) : Bytes :=
  clean (directory p)

end Dialogue.Path
