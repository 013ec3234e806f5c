import Dialogue.Instruction.Operation
import Dialogue.Module.Header
import Dialogue.WordMap
import Dialogue.ByteOrder

/-!
# Decoding modules

A module is read back from its bytes. It is refused unless the sections that its header declares lie
inside of it.
-/

namespace Dialogue

inductive DecodeError where
  | noByteOrder
  | tooSmall (size : Nat)
  | badHeaderSize (declared : UInt64) (size : Nat)
  | raggedJumps (size : UInt64)
  | badCodeSize (size : UInt64)
  | sectionsExceed (size : UInt64)
  | sectionOutside (name : String) (place : Section) (size : UInt64)
  | truncatedOpcode (offset : Nat)
  | unknownOperation (op : UInt16) (offset : Nat)
  | truncatedOperand (op : Operation) (offset : Nat)
  deriving DecidableEq

def DecodeError.message (e : DecodeError) : String :=
  let word (w : UInt64) := Numeral.decimal w.toNat
  "decode error: " ++ match e with
    | noByteOrder => "no byte order given"
    | tooSmall size =>
      "module is " ++ Numeral.decimal size ++ " bytes, too small for a header"
    | badHeaderSize declared size =>
      "bad header size " ++ word declared ++ " for a " ++ Numeral.decimal size ++ " byte module"
    | raggedJumps size => "jump section size " ++ word size ++ " is not a multiple of 16"
    | badCodeSize size => "malformed code section size " ++ word size
    | sectionsExceed size => "sections exceed the " ++ word size ++ " byte module"
    | sectionOutside name s size =>
      name ++ " section [" ++ word s.start ++ ", " ++ word s.stop ++ ") outside the " ++ word size
        ++ " byte module"
    | truncatedOpcode offset => "truncated opcode at offset " ++ Numeral.decimal offset
    | unknownOperation op offset =>
      "unknown operation " ++ Operation.nameOfCode op ++ " at offset " ++ Numeral.decimal offset
    | truncatedOperand op offset =>
      "truncated " ++ op.name ++ " operand at offset " ++ Numeral.decimal offset

structure DecodeOptions where
  order : Option ByteOrder
  /-- The declared size of the data section leaves out the zero bytes, so that the sections are
  found from the end of the module. -/
  legacyDataSize : Bool := false
  deriving DecidableEq

structure Module where
  header : Header
  data : List Bytes
  jumps : WordMap UInt64
  code : Bytes
  order : ByteOrder
  deriving DecidableEq

def Header.read (order : ByteOrder) (blob : Bytes) : Header :=
  let word (i : Nat) := order.read64 (blob.drop (8 * i))
  { headerSize := word 0, version := word 1, minVersion := word 2, flags := word 3,
    data := ⟨word 4, word 5⟩, jumps := ⟨word 6, word 7⟩, code := ⟨word 8, word 9⟩ }

structure Sections where
  data : Section
  jumps : Section
  code : Section
  deriving DecidableEq

namespace Section

/-- Whether a section lies between the header and the end of a module. -/
def isInside (s : Section) (headerSize size : UInt64) : Bool :=
  headerSize ≤ s.start && s.start ≤ s.stop && s.stop ≤ size

def slice (s : Section) (blob : Bytes) : Bytes :=
  (blob.drop s.start.toNat).take s.size.toNat

end Section

namespace Header

/-- The sections of a module of `size` bytes, found from its end: jumps and code are the last ones,
and the texts take all that is left behind the header. -/
def sectionsFromEnd (h : Header) (size : UInt64) : Sections :=
  let code : Section := ⟨size - h.code.size, h.code.size⟩
  let jumps : Section := ⟨code.start - h.jumps.size, h.jumps.size⟩
  { data := ⟨h.headerSize, jumps.start - h.headerSize⟩, jumps := jumps, code := code }

/-- The sections of a module of `size` bytes, whose declared sizes have to be possible ones. -/
def sections (h : Header) (size : UInt64) (legacyDataSize : Bool) :
    Except DecodeError Sections := do
  if h.jumps.size % 16 ≠ 0 then throw (.raggedJumps h.jumps.size)
  if h.code.size = 0 ∨ h.code.size % 2 ≠ 0 then throw (.badCodeSize h.code.size)
  if legacyDataSize then
    if size < h.headerSize + h.jumps.size + h.code.size then throw (.sectionsExceed size)
    return h.sectionsFromEnd size
  else return { data := h.data, jumps := h.jumps, code := h.code }

end Header

def Section.check (s : Section) (name : String) (headerSize size : UInt64) :
    Except DecodeError Unit :=
  if s.isInside headerSize size then .ok () else .error (.sectionOutside name s size)

/-- The texts of a data section, each ended by a zero byte, which may be missing after the last. -/
def splitData (bs : Bytes) : List Bytes :=
  let parts := bs.splitOn 0
  if parts.getLast? = some [] then parts.dropLast else parts

def readPairs (order : ByteOrder) (bs : Bytes) : List (UInt64 × UInt64) :=
  if 16 ≤ bs.length then
    (order.read64 bs, order.read64 (bs.drop 8)) :: readPairs order (bs.drop 16)
  else []
termination_by bs.length
decreasing_by
  simp only [List.length_drop]
  omega

namespace Module

def decode (blob : Bytes) (opts : DecodeOptions) : Except DecodeError Module := do
  let some order := opts.order | throw .noByteOrder
  if blob.length < 8 then throw (.tooSmall blob.length)
  let size := UInt64.ofNat blob.length
  let header := Header.read order blob
  if header.headerSize < .ofNat Header.size ∨ size < header.headerSize then
    throw (.badHeaderSize header.headerSize blob.length)
  let places ← header.sections size opts.legacyDataSize
  places.data.check "data" header.headerSize size
  places.jumps.check "jumps" header.headerSize size
  places.code.check "code" header.headerSize size
  return {
    header := header
    data := splitData (places.data.slice blob)
    jumps := .ofList (readPairs order (places.jumps.slice blob))
    code := places.code.slice blob
    order := order }

end Module

end Dialogue
