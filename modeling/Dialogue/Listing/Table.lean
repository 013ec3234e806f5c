import Dialogue.Listing.Basic
import Dialogue.Text.Grid

/-!
# Listings as tables

One grid for the header, the texts, the jumps, if there are any, and the code.
-/

namespace Dialogue

def Section.display (s : Section) : String :=
  let word (w : UInt64) := Numeral.decimal w.toNat
  "[" ++ word s.start ++ ", " ++ word s.stop ++ ") size " ++ word s.size

namespace Listing

def headerGrid (h : Header) : Grid where
  title := "Header"
  columns := [("Field", .left), ("Value", .left)]
  rows := [["header size", Numeral.decimal h.headerSize.toNat],
    ["version", Numeral.decimal h.version.toNat],
    ["min version", Numeral.decimal h.minVersion.toNat],
    ["flags", "0x" ++ Numeral.upperHex 1 h.flags.toNat],
    ["data", h.data.display], ["jumps", h.jumps.display], ["code", h.code.display]]

def dataGrid (data : List Bytes) : Grid where
  title := "Data"
  columns := [("Ref", .right), ("Text", .left)]
  rows := data.mapIdx fun i text => [Numeral.decimal (i + 1), Quoted.text text]

def jumpGrid (jumps : WordMap UInt64) : Grid where
  title := "Jumps"
  columns := [("Label", .right), ("Target", .right)]
  rows := jumps.entries.map fun e => [Numeral.decimal e.1.toNat, Numeral.decimal e.2.toNat]

def codeRow (e : CodeEntry) : List String :=
  [Numeral.upperHex 4 e.offset, if 0 < e.line then Numeral.signed e.line else "", e.op.name,
    Numeral.decimal e.mode.toNat,
    " ".intercalate (e.operands.map fun v => "0x" ++ Numeral.upperHex 16 v.toNat), e.comment]

def codeGrid (code : List CodeEntry) : Grid where
  title := "Code"
  columns := [("Offset", .left), ("Line", .left), ("Op", .left), ("Mode", .right),
    ("Operands", .left), ("Comment", .left)]
  rows := code.map codeRow

def table (l : Listing) : String :=
  (headerGrid l.header).render ++ "\n" ++ (dataGrid l.data).render ++ "\n"
    ++ (if l.jumps.entries.isEmpty then "" else (jumpGrid l.jumps).render ++ "\n")
    ++ (codeGrid l.code).render ++ "\n"

end Listing

end Dialogue
