import Dialogue.Module.Decode
import Dialogue.Proofs.Results
import Dialogue.Proofs.Words

/-!
# The bounds of a module

The words of a header are arbitrary, and sums and differences of them wrap around. All the same a
module is read if and only if its sections fit in numbers without bound, and they are read from
there. `Module.decode_eq_ok_iff` says so for both ways of finding the sections.
-/

namespace Dialogue

namespace Section

theorem toNat_stop {s : Section} (h : s.start.toNat + s.size.toNat < 2 ^ 64) :
    s.stop.toNat = s.start.toNat + s.size.toNat := by
  rw [stop, UInt64.toNat_add]
  exact Nat.mod_eq_of_lt h

/-- A section that would end behind the largest word is never inside: its end wraps around to a
place before its start. -/
theorem isInside_iff (s : Section) (headerSize size : UInt64) :
    s.isInside headerSize size = true ↔
      headerSize.toNat ≤ s.start.toNat ∧ s.start.toNat + s.size.toNat ≤ size.toNat := by
  have hstop : s.stop.toNat = (s.start.toNat + s.size.toNat) % 2 ^ 64 := UInt64.toNat_add _ _
  have hstart := s.start.toNat_lt
  have hsize := s.size.toNat_lt
  have hlimit := size.toNat_lt
  simp only [isInside, Bool.and_eq_true, decide_eq_true_eq, UInt64.le_iff_toNat_le, hstop]
  omega

/-- A section found from its end is inside if and only if it fits between the header and that
end. -/
theorem isInside_of_stop_iff {stop limit : UInt64} (hstop : stop ≤ limit)
    (size headerSize : UInt64) :
    (Section.mk (stop - size) size).isInside headerSize limit = true ↔
      headerSize.toNat + size.toNat ≤ stop.toNat := by
  have hstart : (stop - size).toNat = (2 ^ 64 - size.toNat + stop.toNat) % 2 ^ 64 :=
    UInt64.toNat_sub _ _
  have hle : stop.toNat ≤ limit.toNat := UInt64.le_iff_toNat_le.mp hstop
  have hsize := size.toNat_lt
  have hlimit := limit.toNat_lt
  rw [isInside_iff]
  simp only [hstart]
  omega

theorem check_eq_ok_iff {s : Section} {name : String} {headerSize size : UInt64} {u : Unit} :
    s.check name headerSize size = .ok u ↔ s.isInside headerSize size = true := by
  rw [check]
  split
  · simp_all
  · simp_all

end Section

namespace Header

/-- The sections as a reader of modules of the given kind takes them. -/
def places (h : Header) (size : UInt64) (legacyDataSize : Bool) : Sections :=
  if legacyDataSize then h.sectionsFromEnd size
  else { data := h.data, jumps := h.jumps, code := h.code }

theorem sections_eq_ok_iff {h : Header} {size : UInt64} {legacyDataSize : Bool} {p : Sections} :
    h.sections size legacyDataSize = .ok p ↔
      h.jumps.size % 16 = 0 ∧ h.code.size ≠ 0 ∧ h.code.size % 2 = 0 ∧
        (legacyDataSize = true → h.headerSize + h.jumps.size + h.code.size ≤ size) ∧
          h.places size legacyDataSize = p := by
  unfold sections places
  rw [Result.ite_throw_eq_ok_iff, Result.ite_throw_eq_ok_iff, not_not, not_or, not_not, and_assoc]
  cases legacyDataSize with
  | false => simp [Result.pure_eq_ok_iff]
  | true =>
    simp only [if_true, Result.ite_throw_eq_ok_iff, Result.pure_eq_ok_iff, UInt64.not_lt,
      forall_const]

/-- What a header has to say in a module of the given length, however the sections are found. -/
structure Sound (h : Header) (length : Nat) : Prop where
  covered : size ≤ h.headerSize.toNat
  inside : h.headerSize.toNat ≤ length
  wholeJumps : 16 ∣ h.jumps.size.toNat
  someCode : 0 < h.code.size.toNat
  evenCode : 2 ∣ h.code.size.toNat

/-- Whether the sections fit in a module of the given length, in numbers without bound: either where
they are declared to be, or one after the other at the end. -/
def Fits (h : Header) (length : Nat) : (legacyDataSize : Bool) → Prop
  | false => ∀ s ∈ [h.data, h.jumps, h.code],
      h.headerSize.toNat ≤ s.start.toNat ∧ s.start.toNat + s.size.toNat ≤ length
  | true => h.headerSize.toNat + h.jumps.size.toNat + h.code.size.toNat ≤ length

/-- Sections that fit at the end of a module start where numbers without bound say. -/
theorem sectionsFromEnd_toNat {h : Header} {length : Nat} {size : UInt64}
    (hsize : size.toNat = length) (hfits : h.Fits length true) :
    (h.sectionsFromEnd size).code.start.toNat = length - h.code.size.toNat ∧
      (h.sectionsFromEnd size).jumps.start.toNat =
        length - h.code.size.toNat - h.jumps.size.toNat ∧
      (h.sectionsFromEnd size).data.size.toNat =
        length - h.code.size.toNat - h.jumps.size.toNat - h.headerSize.toNat := by
  subst hsize
  simp only [Fits] at hfits
  have hcode : (size - h.code.size).toNat = size.toNat - h.code.size.toNat :=
    UInt64.toNat_sub_of_le _ _ (UInt64.le_iff_toNat_le.mpr (by omega))
  have hjumps : (size - h.code.size - h.jumps.size).toNat =
      size.toNat - h.code.size.toNat - h.jumps.size.toNat := by
    rw [UInt64.toNat_sub_of_le _ _ (UInt64.le_iff_toNat_le.mpr (by omega)), hcode]
  refine ⟨hcode, hjumps, ?_⟩
  change (size - h.code.size - h.jumps.size - h.headerSize).toNat = _
  rw [UInt64.toNat_sub_of_le _ _ (UInt64.le_iff_toNat_le.mpr (by omega)), hjumps]

/-- The tests of the three sections catch every sum of sizes that wraps around, also where the test
of the sum itself does not. -/
theorem fromEnd_isInside_iff (h : Header) (size : UInt64) :
    (h.headerSize + h.jumps.size + h.code.size ≤ size ∧
      (h.sectionsFromEnd size).data.isInside h.headerSize size = true ∧
      (h.sectionsFromEnd size).jumps.isInside h.headerSize size = true ∧
      (h.sectionsFromEnd size).code.isInside h.headerSize size = true) ↔
        h.Fits size.toNat true := by
  constructor
  · rintro ⟨-, -, hjumps, hcode⟩
    have hcode := (Section.isInside_of_stop_iff (UInt64.le_refl size) _ _).mp hcode
    have hstart : (size - h.code.size).toNat = size.toNat - h.code.size.toNat :=
      UInt64.toNat_sub_of_le _ _ (UInt64.le_iff_toNat_le.mpr (by omega))
    have hle : size - h.code.size ≤ size := UInt64.le_iff_toNat_le.mpr (by omega)
    have hjumps := (Section.isInside_of_stop_iff hle _ _).mp hjumps
    simp only [Fits]
    omega
  · intro hfits
    obtain ⟨hcode, hjumps, hdata⟩ := sectionsFromEnd_toNat rfl hfits
    have hsizes : (h.sectionsFromEnd size).code.size = h.code.size ∧
        (h.sectionsFromEnd size).jumps.size = h.jumps.size ∧
        (h.sectionsFromEnd size).data.start = h.headerSize := ⟨rfl, rfl, rfl⟩
    simp only [Fits] at hfits
    have hlimit := size.toNat_lt
    refine ⟨?_, ?_, ?_, ?_⟩
    · rw [UInt64.le_iff_toNat_le, UInt64.toNat_add, UInt64.toNat_add]
      omega
    · rw [Section.isInside_iff, hdata, hsizes.2.2]
      omega
    · rw [Section.isInside_iff, hjumps, hsizes.2.1]
      omega
    · rw [Section.isInside_iff, hcode, hsizes.1]
      omega

theorem sound_iff {h : Header} {length : Nat} {size : UInt64} (hsize : size.toNat = length) :
    h.Sound length ↔
      (¬ h.headerSize < .ofNat Header.size ∧ ¬ size < h.headerSize) ∧
        h.jumps.size % 16 = 0 ∧ h.code.size ≠ 0 ∧ h.code.size % 2 = 0 := by
  have hleast : (UInt64.ofNat Header.size).toNat = Header.size := rfl
  simp only [UInt64.not_lt, UInt64.le_iff_toNat_le, hleast, hsize, ne_eq, ← UInt64.toNat_inj,
    UInt64.toNat_mod]
  constructor
  · rintro ⟨hcovered, hinside, hjumps, hsome, heven⟩
    exact ⟨⟨hcovered, hinside⟩, Nat.mod_eq_zero_of_dvd hjumps, Nat.ne_of_gt hsome,
      Nat.mod_eq_zero_of_dvd heven⟩
  · rintro ⟨⟨hcovered, hinside⟩, hjumps, hsome, heven⟩
    exact ⟨hcovered, hinside, Nat.dvd_of_mod_eq_zero hjumps, Nat.pos_of_ne_zero hsome,
      Nat.dvd_of_mod_eq_zero heven⟩

/-- The tests of a reader, made on words that wrap around, against numbers without bound. -/
theorem fits_iff {h : Header} {length : Nat} {size : UInt64} {legacyDataSize : Bool}
    (hsize : size.toNat = length) :
    h.Fits length legacyDataSize ↔
      (legacyDataSize = true → h.headerSize + h.jumps.size + h.code.size ≤ size) ∧
        (h.places size legacyDataSize).data.isInside h.headerSize size = true ∧
        (h.places size legacyDataSize).jumps.isInside h.headerSize size = true ∧
        (h.places size legacyDataSize).code.isInside h.headerSize size = true := by
  subst hsize
  cases legacyDataSize with
  | false => simp [Fits, places, Section.isInside_iff]
  | true =>
    rw [← h.fromEnd_isInside_iff]
    simp only [places, if_true, forall_const]

end Header

namespace Module

/-- The contents of a module whose sections lie at the given places. -/
def readAt (order : ByteOrder) (blob : Bytes) (p : Sections) : Module where
  header := Header.read order blob
  data := splitData (p.data.slice blob)
  jumps := .ofList (readPairs order (p.jumps.slice blob))
  code := p.code.slice blob
  order := order

/-- A module is read if and only if it has a sound header and its sections fit. -/
theorem decode_eq_ok_iff {blob : Bytes} {order : ByteOrder} {legacyDataSize : Bool} {m : Module}
    (hlen : blob.length < 2 ^ 64) :
    decode blob ⟨some order, legacyDataSize⟩ = .ok m ↔
      8 ≤ blob.length ∧ (Header.read order blob).Sound blob.length ∧
        (Header.read order blob).Fits blob.length legacyDataSize ∧
          readAt order blob
            ((Header.read order blob).places (.ofNat blob.length) legacyDataSize) = m := by
  have hsize : (UInt64.ofNat blob.length).toNat = blob.length := UInt64.toNat_ofNat_of_lt' hlen
  unfold decode
  simp only [Result.ite_throw_eq_ok_iff, Result.bind_eq_ok_iff, Result.pure_eq_ok_iff,
    Header.sections_eq_ok_iff, Section.check_eq_ok_iff, not_or, Nat.not_lt]
  constructor
  · rintro ⟨hword, hheader, places, ⟨hjumps, hsome, heven, hsum, rfl⟩, -, hdata, -, hjump, -,
      hcode, rfl⟩
    refine ⟨hword, (Header.sound_iff hsize).mpr ⟨hheader, hjumps, hsome, heven⟩, ?_, rfl⟩
    exact (Header.fits_iff hsize).mpr ⟨hsum, hdata, hjump, hcode⟩
  · rintro ⟨hword, hsound, hfits, rfl⟩
    obtain ⟨hheader, hjumps, hsome, heven⟩ := (Header.sound_iff hsize).mp hsound
    obtain ⟨hsum, hdata, hjump, hcode⟩ := (Header.fits_iff hsize).mp hfits
    exact ⟨hword, hheader, _, ⟨hjumps, hsome, heven, hsum, rfl⟩, (), hdata, (), hjump, (),
      hcode, rfl⟩

end Module

end Dialogue
