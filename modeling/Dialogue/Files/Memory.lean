import Dialogue.Files.Host

/-!
# Hosts in memory

A host whose files are a value and whose output is kept.
-/

namespace Dialogue

structure MemoryHost where
  tree : FileTree := {}
  /-- The names that lead to the working directory. -/
  directory : List Bytes := []
  home : Option Bytes := none
  output : List (Channel × Bytes) := []

namespace MemoryHost

/-- Changes the tree, unless that fails. -/
def update (f : MemoryHost → Except FileError FileTree) :
    StateM MemoryHost (Except FileError Unit) :=
  fun w =>
    match f w with
    | .ok tree => (.ok (), { w with tree := tree })
    | .error e => (.error e, w)

instance : Host (StateM MemoryHost) where
  readFile path := fun w => (w.tree.read w.directory path, w)
  writeFile path contents := update fun w => w.tree.write w.directory path contents
  rename old new := update fun w => w.tree.rename w.directory old new
  remove path := fun w => ((), { w with tree := w.tree.remove w.directory path })
  workingDirectory := fun w => (Path.slash :: [Path.slash].intercalate w.directory, w)
  home := fun w => (w.home, w)
  write channel text := fun w => ((), { w with output := w.output ++ [(channel, text)] })

end MemoryHost

end Dialogue
