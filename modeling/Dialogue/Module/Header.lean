/-!
# Module headers

A module starts with ten words: the size of the header, two versions, the flags, and the place of
the three sections that follow.
-/

namespace Dialogue

structure Section where
  start : UInt64
  size : UInt64
  deriving DecidableEq

/-- The offset right after a section, modulo the word size. -/
def Section.stop (s : Section) : UInt64 :=
  s.start + s.size

structure Header where
  headerSize : UInt64
  version : UInt64
  minVersion : UInt64
  flags : UInt64
  data : Section
  jumps : Section
  code : Section
  deriving DecidableEq

namespace Header

def size : Nat := 80

/-- The words of a header in the order in which they are stored. -/
def words (h : Header) : List UInt64 :=
  [h.headerSize, h.version, h.minVersion, h.flags, h.data.start, h.data.size,
    h.jumps.start, h.jumps.size, h.code.start, h.code.size]

end Header

end Dialogue
