import Dialogue.Compile
import Dialogue.Module.Decode

/-!
# Configurations

What a compiler can be told about the modules it writes and reads.
-/

namespace Dialogue

structure UnknownByteOrder where
  name : Bytes
  deriving DecidableEq

def UnknownByteOrder.message (e : UnknownByteOrder) : String :=
  "unknown byte order " ++ Quoted.text e.name

namespace ByteOrder

/-- The small form of a character, as far as it is an ASCII letter. Beside the ASCII capitals these
are the dotted I and the Kelvin sign. -/
def small (c : Char) : Char :=
  if c = '\u0130' then 'i' else if c = '\u212a' then 'k' else c.toLower

/-- The byte order with the given name. Case does not matter, and no name means little-endian. -/
def ofName (name : Bytes) : Except UnknownByteOrder ByteOrder :=
  match String.ofList ((Text.decode name).map small) with
  | "" | "little" | "le" => .ok .little
  | "big" | "be" => .ok .big
  | _ => .error ⟨name⟩

end ByteOrder

/-- A configuration. The byte order is kept by its name. -/
structure Config where
  version : UInt64 := 0
  minVersion : UInt64 := 0
  flags : UInt64 := 0
  byteOrder : Bytes := Text.utf8 "little"
  legacyDataSize : Bool := false
  deriving DecidableEq

namespace Config

def compileOptions (c : Config) : Except UnknownByteOrder CompileOptions :=
  (ByteOrder.ofName c.byteOrder).map fun order =>
    { version := c.version, minVersion := c.minVersion, flags := c.flags,
      legacyDataSize := c.legacyDataSize, order := some order }

/-- How modules written with the same configuration are read. -/
def decodeOptions (c : Config) : Except UnknownByteOrder DecodeOptions :=
  (ByteOrder.ofName c.byteOrder).map fun order =>
    { order := some order, legacyDataSize := c.legacyDataSize }

def toToml (c : Config) : String :=
  let word (w : UInt64) := Numeral.decimal w.toNat
  "[Module]\n"
    ++ "Version = " ++ word c.version ++ "\n"
    ++ "MinVersion = " ++ word c.minVersion ++ "\n"
    ++ "Flags = " ++ word c.flags ++ "\n"
    ++ "ByteOrder = " ++ Quoted.text c.byteOrder ++ "\n"
    ++ "LegacyDataSize = " ++ (if c.legacyDataSize then "true" else "false") ++ "\n"

end Config

end Dialogue
