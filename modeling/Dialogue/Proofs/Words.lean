import Dialogue.ByteOrder
import Mathlib.Algebra.Group.Nat.Defs

/-!
# Reading back words

A word that was written in a byte order is read back in the same order, whatever follows it. The
statement for a row of words gives the word at any place of the row. In the same way the bytes that
a word was read from are written again.
-/

namespace Dialogue

@[simp] theorem length_lowBytes (width n : Nat) : (lowBytes width n).length = width := by
  induction width generalizing n with
  | zero => rfl
  | succ width ih => simp [lowBytes, ih]

/-- The lowest bytes of a number that fits give the number back. -/
theorem ofLowBytes_lowBytes {width n : Nat} (h : n < 256 ^ width) :
    ofLowBytes (lowBytes width n) = n := by
  induction width generalizing n with
  | zero =>
    have hn : n = 0 := Nat.lt_one_iff.mp h
    rw [hn]
    rfl
  | succ width ih =>
    have hrest : n / 256 < 256 ^ width := by
      rw [Nat.pow_succ] at h
      exact Nat.div_lt_of_lt_mul (by rwa [Nat.mul_comm] at h)
    have hbyte : (UInt8.ofNat n).toNat = n % 256 := UInt8.toNat_ofNat'
    rw [lowBytes, ofLowBytes, ih hrest, hbyte]
    exact Nat.mod_add_div n 256

theorem ofLowBytes_lt (bs : Bytes) : ofLowBytes bs < 256 ^ bs.length := by
  induction bs with
  | nil => exact Nat.one_pos
  | cons b bs ih =>
    have hb := b.toNat_lt
    rw [ofLowBytes, List.length_cons, Nat.pow_succ]
    omega

theorem lowBytes_ofLowBytes (bs : Bytes) : lowBytes bs.length (ofLowBytes bs) = bs := by
  induction bs with
  | nil => rfl
  | cons b bs ih =>
    have hb := b.toNat_lt
    have hfirst : UInt8.ofNat (b.toNat + 256 * ofLowBytes bs) = b := by
      apply UInt8.toNat_inj.mp
      rw [UInt8.toNat_ofNat']
      omega
    have hrest : (b.toNat + 256 * ofLowBytes bs) / 256 = ofLowBytes bs := by omega
    rw [List.length_cons, ofLowBytes, lowBytes, hfirst, hrest, ih]

namespace ByteOrder

variable (order : ByteOrder)

@[simp] theorem length_arrange (bs : Bytes) : (order.arrange bs).length = bs.length := by
  cases order with
  | little => rfl
  | big => exact List.length_reverse

@[simp] theorem arrange_arrange (bs : Bytes) : order.arrange (order.arrange bs) = bs := by
  cases order with
  | little => rfl
  | big => exact List.reverse_reverse bs

@[simp] theorem length_write (width n : Nat) : (order.write width n).length = width := by
  rw [write, length_arrange, length_lowBytes]

theorem read_write {width n : Nat} (h : n < 256 ^ width) :
    order.read (order.write width n) = n := by
  rw [read, write, arrange_arrange, ofLowBytes_lowBytes h]

@[simp] theorem length_write16 (w : UInt16) : (order.write16 w).length = 2 :=
  order.length_write 2 w.toNat

@[simp] theorem length_write64 (w : UInt64) : (order.write64 w).length = 8 :=
  order.length_write 8 w.toNat

@[simp] theorem read16_write16_append (w : UInt16) (rest : Bytes) :
    order.read16 (order.write16 w ++ rest) = w := by
  have hfit : w.toNat < 256 ^ 2 := w.toNat_lt
  rw [read16, List.take_left' (order.length_write16 w), write16, read_write order hfit]
  exact UInt16.ofNat_toNat

@[simp] theorem read64_write64_append (w : UInt64) (rest : Bytes) :
    order.read64 (order.write64 w ++ rest) = w := by
  have hfit : w.toNat < 256 ^ 8 := w.toNat_lt
  rw [read64, List.take_left' (order.length_write64 w), write64, read_write order hfit]
  exact UInt64.ofNat_toNat

theorem write64_injective : Function.Injective order.write64 := by
  intro v w h
  have hread := congrArg (fun bs => order.read64 (bs ++ [])) h
  simpa only [read64_write64_append] using hread

@[simp] theorem length_flatMap_write64 (ws : List UInt64) :
    (ws.flatMap order.write64).length = 8 * ws.length := by
  induction ws with
  | nil => rfl
  | cons w ws ih =>
    rw [List.flatMap_cons, List.length_append, ih, length_write64, List.length_cons]
    omega

theorem read_take_lt {width : Nat} {bs : Bytes} (h : width ≤ bs.length) :
    order.read (bs.take width) < 256 ^ width := by
  have hlt := ofLowBytes_lt (order.arrange (bs.take width))
  rwa [length_arrange, List.length_take_of_le h] at hlt

theorem write_read_take {width : Nat} {bs : Bytes} (h : width ≤ bs.length) :
    order.write width (order.read (bs.take width)) = bs.take width := by
  have hlength : (order.arrange (bs.take width)).length = width := by
    rw [length_arrange, List.length_take_of_le h]
  have hbytes := lowBytes_ofLowBytes (order.arrange (bs.take width))
  rw [hlength] at hbytes
  rw [write, read, hbytes, arrange_arrange]

theorem write16_read16 {bs : Bytes} (h : 2 ≤ bs.length) :
    order.write16 (order.read16 bs) = bs.take 2 := by
  have hfit : order.read (bs.take 2) < 2 ^ 16 := order.read_take_lt h
  rw [write16, read16, UInt16.toNat_ofNat_of_lt' hfit, order.write_read_take h]

theorem write64_read64 {bs : Bytes} (h : 8 ≤ bs.length) :
    order.write64 (order.read64 bs) = bs.take 8 := by
  have hfit : order.read (bs.take 8) < 2 ^ 64 := order.read_take_lt h
  rw [write64, read64, UInt64.toNat_ofNat_of_lt' hfit, order.write_read_take h]

/-- The word at place `i` of a row of words. -/
theorem read64_drop_flatMap {ws : List UInt64} {i : Nat} {w : UInt64} (h : ws[i]? = some w)
    (rest : Bytes) : order.read64 ((ws.flatMap order.write64 ++ rest).drop (8 * i)) = w := by
  induction ws generalizing i with
  | nil => simp at h
  | cons v ws ih =>
    rw [List.flatMap_cons, List.append_assoc]
    cases i with
    | zero =>
      have hv : v = w := by simpa using h
      rw [Nat.mul_zero, List.drop_zero, read64_write64_append, hv]
    | succ i =>
      have hskip : 8 * (i + 1) = (order.write64 v).length + 8 * i := by
        rw [length_write64]
        omega
      rw [hskip, List.drop_length_add_append]
      exact ih (by simpa using h)

end ByteOrder

end Dialogue
