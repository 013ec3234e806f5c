import Dialogue.Proofs.ModuleRoundTrip

/-!
# Modules in the wrong byte order

A module has no mark of its byte order. What keeps it from being read in the other order is the
first word of its header, which has to lie between the least size of a header and the size of the
module: a word that is small in both orders is zero.
-/

namespace Dialogue

theorem ofLowBytes_append (xs ys : Bytes) :
    ofLowBytes (xs ++ ys) = ofLowBytes xs + 256 ^ xs.length * ofLowBytes ys := by
  induction xs with
  | nil => simp [ofLowBytes]
  | cons x xs ih =>
    rw [List.cons_append, ofLowBytes, ofLowBytes, ih, List.length_cons, Nat.pow_succ, Nat.mul_add,
      Nat.mul_comm (256 ^ xs.length) 256, Nat.mul_assoc, Nat.add_assoc]

theorem ofLowBytes_eq_zero_iff (bs : Bytes) : ofLowBytes bs = 0 ↔ ∀ b ∈ bs, b = 0 := by
  induction bs with
  | nil => simp [ofLowBytes]
  | cons b bs ih =>
    have hb : b.toNat = 0 ↔ b = 0 := by rw [← UInt8.toNat_inj, UInt8.toNat_zero]
    rw [ofLowBytes, List.forall_mem_cons, ← ih, ← hb]
    omega

/-- Each half of the bytes holds the upper digits in one of the two orders. -/
theorem ofLowBytes_eq_zero_of_reverse {bs : Bytes} {k : Nat} (hlen : bs.length = k + k)
    (hlow : ofLowBytes bs < 256 ^ k) (hhigh : ofLowBytes bs.reverse < 256 ^ k) :
    ofLowBytes bs = 0 := by
  have hzero {low high : Nat} (h : low + 256 ^ k * high < 256 ^ k) : high = 0 := by
    by_contra hpos
    have hle := Nat.le_mul_of_pos_right (256 ^ k) (Nat.pos_of_ne_zero hpos)
    omega
  obtain ⟨xs, ys, rfl, hxs, hys⟩ : ∃ xs ys, bs = xs ++ ys ∧ xs.length = k ∧ ys.length = k := by
    refine ⟨bs.take k, bs.drop k, (List.take_append_drop k bs).symm, ?_, ?_⟩
    · rw [List.length_take]
      omega
    · rw [List.length_drop]
      omega
  rw [ofLowBytes_append, hxs] at hlow ⊢
  rw [List.reverse_append, ofLowBytes_append, List.length_reverse, hys] at hhigh
  have hfirst : ∀ x ∈ xs, x = 0 := by
    have hreverse := (ofLowBytes_eq_zero_iff xs.reverse).mp (hzero hhigh)
    simpa only [List.mem_reverse] using hreverse
  rw [hzero hlow, (ofLowBytes_eq_zero_iff xs).mpr hfirst, Nat.mul_zero]

namespace ByteOrder

variable {order other : ByteOrder} (hne : other ≠ order)

include hne

theorem arrange_of_ne (bs : Bytes) : other.arrange bs = (order.arrange bs).reverse := by
  cases order with
  | little =>
    cases other with
    | little => exact absurd rfl hne
    | big => rfl
  | big =>
    cases other with
    | little => exact (List.reverse_reverse bs).symm
    | big => exact absurd rfl hne

/-- A word of at most four bytes in both orders is zero. -/
theorem read64_eq_zero {bs : Bytes} (hlen : 8 ≤ bs.length)
    (horder : (order.read64 bs).toNat < 2 ^ 32) (hother : (other.read64 bs).toNat < 2 ^ 32) :
    order.read64 bs = 0 := by
  have hword (o : ByteOrder) : (o.read64 bs).toNat = o.read (bs.take 8) :=
    UInt64.toNat_ofNat_of_lt' (o.read_take_lt hlen)
  rw [hword, read] at horder hother
  rw [arrange_of_ne hne] at hother
  have hbytes : (order.arrange (bs.take 8)).length = 4 + 4 := by
    rw [length_arrange, List.length_take_of_le hlen]
  rw [← UInt64.toNat_inj, hword, read, ofLowBytes_eq_zero_of_reverse hbytes horder hother]
  rfl

end ByteOrder

namespace Module

/-- The first test that a module has to pass. -/
theorem decode_of_badHeaderSize {blob : Bytes} {order : ByteOrder} (hlen : 8 ≤ blob.length)
    (hbad : order.read64 blob < .ofNat Header.size ∨
      UInt64.ofNat blob.length < order.read64 blob) (legacyDataSize : Bool) :
    decode blob ⟨some order, legacyDataSize⟩ =
      .error (.badHeaderSize (order.read64 blob) blob.length) := by
  have hword : (Header.read order blob).headerSize = order.read64 blob := rfl
  unfold decode
  simp only [hword]
  rw [if_neg (Nat.not_lt.mpr hlen), if_pos hbad]
  rfl

/-- The header of what is read in one order is larger than the module in the other. -/
theorem decode_other_order {blob : Bytes} (hlen : blob.length < 2 ^ 32) {order other : ByteOrder}
    (hne : other ≠ order) {legacyDataSize : Bool} {m : Module}
    (hm : decode blob ⟨some order, legacyDataSize⟩ = .ok m) (legacyDataSize' : Bool) :
    decode blob ⟨some other, legacyDataSize'⟩ =
      .error (.badHeaderSize (other.read64 blob) blob.length) := by
  have hword : (Header.read order blob).headerSize = order.read64 blob := rfl
  obtain ⟨hlong, ⟨hcovered, hinside, -, -, -⟩, -, -⟩ :=
    (decode_eq_ok_iff (Nat.lt_trans hlen (by decide))).mp hm
  refine decode_of_badHeaderSize hlong (.inr ?_) legacyDataSize'
  rw [UInt64.lt_iff_toNat_lt, UInt64.toNat_ofNat_of_lt' (Nat.lt_trans hlen (by decide))]
  -- were it small in both orders, it would be zero and cover no header
  by_contra hsmall
  rw [hword] at hcovered hinside
  have hzero := ByteOrder.read64_eq_zero hne hlong (by omega) (by omega)
  rw [hzero] at hcovered
  exact absurd hcovered (by decide)

end Module

theorem Program.exists_package_eq (p : Program) (opts : ModuleOptions) :
    ∃ rest, p.package opts = p.order.write64 (.ofNat Header.size) ++ rest := by
  rw [package, Header.words, List.flatMap_cons, List.append_assoc, List.append_assoc,
    List.append_assoc]
  exact ⟨_, rfl⟩

/-- The size of a header with its bytes in the wrong order. -/
theorem ByteOrder.read64_swapped {order other : ByteOrder} (hne : other ≠ order) (rest : Bytes) :
    other.read64 (order.write64 (.ofNat Header.size) ++ rest) = .ofNat (80 * 2 ^ 56) := by
  rw [read64, List.take_left' (order.length_write64 _), read, arrange_of_ne hne, write64, write,
    arrange_arrange]
  decide

/-- A module shorter than 2^32 bytes that is read in one byte order is refused in the other, in
whichever way its sections are found: its header would be larger than the module. A module that was
written in one order is refused in the other even if it is longer, as long as the size of a header
with its bytes in the wrong order is. -/
theorem readable_in_one_order :
    (∀ (blob : Bytes) (order other : ByteOrder) (legacy legacy' : Bool) (m : Module),
      blob.length < 2 ^ 32 → other ≠ order → Module.decode blob ⟨some order, legacy⟩ = .ok m →
      Module.decode blob ⟨some other, legacy'⟩ =
        .error (.badHeaderSize (other.read64 blob) blob.length)) ∧
    ∀ (p : Program) (opts : ModuleOptions) (other : ByteOrder) (legacy : Bool),
      (p.package opts).length < 80 * 2 ^ 56 → other ≠ p.order →
      Module.decode (p.package opts) ⟨some other, legacy⟩ =
        .error (.badHeaderSize (.ofNat (80 * 2 ^ 56)) (p.package opts).length) := by
  constructor
  · intro blob order other legacy legacy' m hlen hne hm
    exact Module.decode_other_order hlen hne hm legacy'
  · intro p opts other legacy hlen hne
    obtain ⟨rest, hrest⟩ := p.exists_package_eq opts
    have hword : other.read64 (p.package opts) = .ofNat (80 * 2 ^ 56) := by
      rw [hrest, ByteOrder.read64_swapped hne]
    have hlong : 8 ≤ (p.package opts).length := by
      rw [hrest, List.length_append, ByteOrder.length_write64]
      omega
    have hsize : (UInt64.ofNat (p.package opts).length).toNat = (p.package opts).length :=
      UInt64.toNat_ofNat_of_lt' (Nat.lt_trans hlen (by decide))
    rw [← hword]
    refine Module.decode_of_badHeaderSize hlong (.inr ?_) legacy
    rwa [hword, UInt64.lt_iff_toNat_lt, hsize]

/-- The first module has four bytes between its header and its texts. -/
theorem readable_in_one_order_padded :
    let header : Header := ⟨84, 1, 0, 7, ⟨84, 3⟩, ⟨87, 0⟩, ⟨87, 2⟩⟩
    let blob := header.words.flatMap ByteOrder.big.write64 ++ [1, 2, 3, 4, 104, 105, 0, 0, 1]
    (∃ m, Module.decode blob ⟨some .big, false⟩ = .ok m) ∧
      Module.decode blob ⟨some .little, true⟩ =
        .error (.badHeaderSize 0x5400000000000000 89) ∧
      Module.decode (Program.twoJumps.package {}) ⟨some .little, false⟩ =
        .error (.badHeaderSize 0x5000000000000000 121) := by
  intro header blob
  obtain ⟨m, hm⟩ : ∃ m, Module.decode blob ⟨some .big, false⟩ = .ok m :=
    Result.exists_eq_ok (by decide +kernel)
  have hlen : blob.length = 89 := by decide +kernel
  have hword : ByteOrder.little.read64 blob = 0x5400000000000000 := by decide +kernel
  have hpadded := readable_in_one_order.1 blob .big .little false true m (by rw [hlen]; decide)
    (by decide) hm
  have hlen' : (Program.twoJumps.package {}).length = 121 := by decide +kernel
  have hwritten := readable_in_one_order.2 Program.twoJumps {} .little false
    (by rw [hlen']; decide) (by decide)
  rw [hword, hlen] at hpadded
  rw [hlen'] at hwritten
  exact ⟨⟨m, hm⟩, hpadded, hwritten⟩

end Dialogue
