import Dialogue.Text.Utf8

/-!
# Words in bytes

Numbers of fixed width as bytes, in either byte order. `ByteOrder.write` and `ByteOrder.read` undo
each other on numbers that fit and on byte lists of the given width.
-/

namespace Dialogue

inductive ByteOrder where
  | little
  | big
  deriving DecidableEq

/-- The `width` lowest bytes of `n`, the least significant one first. -/
def lowBytes : (width n : Nat) → Bytes
  | 0, _ => []
  | width + 1, n => UInt8.ofNat n :: lowBytes width (n / 256)

def ofLowBytes : Bytes → Nat
  | [] => 0
  | b :: bs => b.toNat + 256 * ofLowBytes bs

namespace ByteOrder

/-- Puts bytes given in little-endian order into this order, and back. -/
def arrange : ByteOrder → Bytes → Bytes
  | little, bs => bs
  | big, bs => bs.reverse

def write (order : ByteOrder) (width n : Nat) : Bytes :=
  order.arrange (lowBytes width n)

def read (order : ByteOrder) (bs : Bytes) : Nat :=
  ofLowBytes (order.arrange bs)

def write16 (order : ByteOrder) (w : UInt16) : Bytes :=
  order.write 2 w.toNat

def write64 (order : ByteOrder) (w : UInt64) : Bytes :=
  order.write 8 w.toNat

def read16 (order : ByteOrder) (bs : Bytes) : UInt16 :=
  .ofNat (order.read (bs.take 2))

def read64 (order : ByteOrder) (bs : Bytes) : UInt64 :=
  .ofNat (order.read (bs.take 8))

end ByteOrder

end Dialogue
