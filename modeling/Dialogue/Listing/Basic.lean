import Dialogue.Module.Disassembly

/-!
# Listings

The contents of a module for a human reader: header, texts, jumps and disassembled code.
-/

namespace Dialogue

structure Listing where
  header : Header
  data : List Bytes
  jumps : WordMap UInt64
  code : List CodeEntry
  deriving DecidableEq

namespace Listing

def ofModule (m : Module) : Except DecodeError Listing :=
  m.disassemble.map fun code =>
    { header := m.header, data := m.data, jumps := m.jumps, code := code }

/-- The listing with the source lines of its entries, zero where the map has none. -/
def attachSource (l : Listing) (sourceMap : WordMap Int) : Listing :=
  let place (e : CodeEntry) : CodeEntry :=
    { e with line := (sourceMap.get? (.ofNat e.offset)).getD 0 }
  { l with code := l.code.map place }

end Listing

end Dialogue
