import Dialogue.Module.Header
import Dialogue.Program.Basic

/-!
# The layout of modules

A module is a header, the texts with a zero byte after each, the jumps as pairs of words by
ascending label, and the code. The header says where each of them lies.
-/

namespace Dialogue

/-- What the header of a module says beside the places of the sections. -/
structure ModuleOptions where
  version : UInt64 := 0
  minVersion : UInt64 := 0
  flags : UInt64 := 0
  /-- Leave the zero bytes after the texts out of the declared size of the data section. -/
  legacyDataSize : Bool := false
  deriving DecidableEq

namespace Program

def textsSize (legacyDataSize : Bool) : List Bytes → Nat
  | [] => 0
  | text :: texts =>
    (if legacyDataSize then text.length else text.length + 1) + textsSize legacyDataSize texts

def dataSection (p : Program) (opts : ModuleOptions) : Section where
  start := .ofNat Header.size
  size := .ofNat (textsSize opts.legacyDataSize p.data)

def jumpSection (p : Program) (opts : ModuleOptions) : Section where
  start := (p.dataSection opts).stop
  size := .ofNat (p.jumps.size * 16)

def codeSection (p : Program) (opts : ModuleOptions) : Section where
  start := (p.jumpSection opts).stop
  size := .ofNat p.code.length

def header (p : Program) (opts : ModuleOptions) : Header where
  headerSize := .ofNat Header.size
  version := opts.version
  minVersion := opts.minVersion
  flags := opts.flags
  data := p.dataSection opts
  jumps := p.jumpSection opts
  code := p.codeSection opts

def dataBytes (data : List Bytes) : Bytes :=
  data.flatMap (· ++ [0])

def jumpBytes (order : ByteOrder) (jumps : WordMap UInt64) : Bytes :=
  jumps.entries.flatMap fun e => order.write64 e.1 ++ order.write64 e.2

/-- The module of a program, in the byte order of its code. -/
def package (p : Program) (opts : ModuleOptions) : Bytes :=
  (p.header opts).words.flatMap p.order.write64
    ++ dataBytes p.data ++ jumpBytes p.order p.jumps ++ p.code

end Program

end Dialogue
