import Dialogue.ByteOrder

/-!
# Hashes of names

Names of actors, emotions and colours are addressed by a 64-bit hash of their bytes. The bytes are
taken in blocks of eight, each block is mixed and folded into the state, and what is left over is
folded in as one short word. Every step is a bijection of the state.
-/

namespace Dialogue.NameHash

/-- The odd factor of every mixing step. -/
def factor : UInt64 := 0xc6a4a7935bd1e995

def shiftXor (w : UInt64) : UInt64 :=
  w ^^^ (w >>> 47)

def mixBlock (k : UInt64) : UInt64 :=
  shiftXor (k * factor) * factor

def absorb (h k : UInt64) : UInt64 :=
  (h ^^^ k) * factor

def finish (h : UInt64) : UInt64 :=
  shiftXor (shiftXor h * factor)

/-- Folds all bytes into the state: blocks of eight, then the bytes left over, if any. -/
def absorbAll (h : UInt64) (bs : Bytes) : UInt64 :=
  if bs.isEmpty then h
  else if (bs.drop 7).isEmpty then absorb h (.ofNat (ofLowBytes bs))
  else absorbAll (absorb h (mixBlock (.ofNat (ofLowBytes (bs.take 8))))) (bs.drop 8)
termination_by bs.length
decreasing_by
  rename_i hlong
  simp only [List.isEmpty_iff, List.drop_eq_nil_iff] at hlong
  simp only [List.length_drop]
  omega

/-- The hash of a name. Its length is the start of the state. -/
def ofBytes (bs : Bytes) : UInt64 :=
  let n := UInt64.ofNat bs.length
  finish (absorbAll (n ^^^ (n * factor)) bs)

end Dialogue.NameHash
