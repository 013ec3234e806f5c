import Dialogue.Proofs.ModuleBounds
import Dialogue.Proofs.WordMaps

/-!
# Reading a module within its bounds

A second reader of modules takes bytes out of a module only after a look at its length, and goes
through the jumps by an offset that wraps around. It agrees with `Module.decode`, so that the tests
which `Module.decode` makes are all that is needed.
-/

namespace Dialogue

namespace ByteOrder

variable (order : ByteOrder)

theorem read64_take {n : Nat} (h : 8 ≤ n) (bs : Bytes) :
    order.read64 (bs.take n) = order.read64 bs := by
  rw [read64, read64, List.take_take, Nat.min_eq_left h]

end ByteOrder

/-- The pairs of words that start at an offset of a text. -/
def pairsAt (order : ByteOrder) (blob : Bytes) (start count : Nat) : List (UInt64 × UInt64) :=
  (List.range count).map fun j =>
    (order.read64 (blob.drop (start + 16 * j)), order.read64 (blob.drop (start + 16 * j + 8)))

theorem pairsAt_succ (order : ByteOrder) (blob : Bytes) (start count : Nat) :
    pairsAt order blob start (count + 1) =
      (order.read64 (blob.drop start), order.read64 (blob.drop (start + 8))) ::
        pairsAt order blob (start + 16) count := by
  have hshift : ∀ j, start + 16 * (j + 1) = start + 16 + 16 * j := fun j => by omega
  simp only [pairsAt, List.range_succ_eq_map, List.map_cons, List.map_map, Nat.mul_zero,
    Nat.add_zero]
  congr 1
  apply List.map_congr_left
  intro j _
  simp only [Function.comp_apply, Nat.succ_eq_add_one, hshift]

/-- The pairs of a section that lies inside a text. -/
theorem readPairs_take_drop (order : ByteOrder) {blob : Bytes} {start count : Nat}
    (h : start + 16 * count ≤ blob.length) :
    readPairs order ((blob.drop start).take (16 * count)) = pairsAt order blob start count := by
  induction count generalizing start with
  | zero =>
    rw [readPairs]
    rfl
  | succ count ih =>
    have hlen : 16 ≤ ((blob.drop start).take (16 * (count + 1))).length := by
      rw [List.length_take, List.length_drop]
      omega
    have htarget : ((blob.drop start).take (16 * (count + 1))).drop 8 =
        (blob.drop (start + 8)).take (16 * count + 8) := by
      rw [List.drop_take, List.drop_drop]
      congr 1
    have hrest : ((blob.drop start).take (16 * (count + 1))).drop 16 =
        (blob.drop (start + 16)).take (16 * count) := by
      rw [List.drop_take, List.drop_drop]
      congr 1
    rw [readPairs, if_pos hlen, htarget, hrest, ih (by omega), pairsAt_succ,
      order.read64_take (by omega), order.read64_take (by omega)]

theorem Header.sixteen_dvd_of_sections {h : Header} {size : UInt64} {legacyDataSize : Bool}
    {p : Sections} (hp : h.sections size legacyDataSize = .ok p) : 16 ∣ p.jumps.size.toNat := by
  obtain ⟨hjumps, -, -, -, rfl⟩ := sections_eq_ok_iff.mp hp
  have hsize : (h.places size legacyDataSize).jumps.size = h.jumps.size := by
    cases legacyDataSize <;> rfl
  rw [hsize]
  apply Nat.dvd_of_mod_eq_zero
  simpa [← UInt64.toNat_inj] using hjumps

namespace Guarded

/-- The word at an offset, none where the text ends before the word does. -/
def wordAt? (order : ByteOrder) (blob : Bytes) (offset : UInt64) : Option UInt64 :=
  if offset.toNat + 8 ≤ blob.length then some (order.read64 (blob.drop offset.toNat)) else none

/-- The bytes between two offsets, none unless these are bounds of a part of the text. -/
def bytesBetween? (blob : Bytes) (start stop : UInt64) : Option Bytes :=
  if start ≤ stop ∧ stop.toNat ≤ blob.length then
    some ((blob.drop start.toNat).take (stop.toNat - start.toNat))
  else none

/-- Puts the jumps from `offset` up to `stop` into a map. There is no result where a word is
missing, and none where `stop` is not reached in the given number of rounds. -/
def jumpsFrom? (order : ByteOrder) (blob : Bytes) (stop : UInt64) :
    (rounds : Nat) → (offset : UInt64) → WordMap UInt64 → Option (WordMap UInt64)
  | 0, offset, m => if offset < stop then none else some m
  | rounds + 1, offset, m =>
    if offset < stop then do
      let label ← wordAt? order blob offset
      let target ← wordAt? order blob (offset + 8)
      jumpsFrom? order blob stop rounds (offset + 16) (m.insert label target)
    else some m

/-- The header at the start of a module, none where one of its ten words is missing. -/
def header? (order : ByteOrder) (blob : Bytes) : Option Header := do
  let word (i : Nat) := wordAt? order blob (.ofNat (8 * i))
  return {
    headerSize := ← word 0, version := ← word 1, minVersion := ← word 2, flags := ← word 3,
    data := ⟨← word 4, ← word 5⟩, jumps := ⟨← word 6, ← word 7⟩, code := ⟨← word 8, ← word 9⟩ }

/-- The module in the given bytes, read by the guarded readers alone. No more pairs of words are
read than the bytes can hold. -/
def decode (blob : Bytes) (opts : DecodeOptions) : ExceptT DecodeError Option Module := do
  let some order := opts.order | throw .noByteOrder
  if blob.length < 8 then throw (.tooSmall blob.length)
  let size := UInt64.ofNat blob.length
  let declared ← ExceptT.lift (wordAt? order blob 0)
  if declared < .ofNat Header.size ∨ size < declared then
    throw (.badHeaderSize declared blob.length)
  let header ← ExceptT.lift (header? order blob)
  let places ← ExceptT.mk (some (header.sections size opts.legacyDataSize))
  ExceptT.mk (some (places.data.check "data" header.headerSize size))
  ExceptT.mk (some (places.jumps.check "jumps" header.headerSize size))
  ExceptT.mk (some (places.code.check "code" header.headerSize size))
  let texts ← ExceptT.lift (bytesBetween? blob places.data.start places.data.stop)
  let jumps ← ExceptT.lift
    (jumpsFrom? order blob places.jumps.stop (blob.length / 16) places.jumps.start .empty)
  let code ← ExceptT.lift (bytesBetween? blob places.code.start places.code.stop)
  return { header := header, data := splitData texts, jumps := jumps, code := code, order := order }

section

variable {order : ByteOrder} {blob : Bytes}

theorem wordAt?_eq {offset : UInt64} (h : offset.toNat + 8 ≤ blob.length) :
    wordAt? order blob offset = some (order.read64 (blob.drop offset.toNat)) :=
  if_pos h

theorem header?_eq (h : Header.size ≤ blob.length) :
    header? order blob = some (Header.read order blob) := by
  have h80 : 80 ≤ blob.length := h
  have hword : ∀ i < 10, wordAt? order blob (.ofNat (8 * i)) =
      some (order.read64 (blob.drop (8 * i))) := by
    intro i hi
    have hoffset : (UInt64.ofNat (8 * i)).toNat = 8 * i :=
      UInt64.toNat_ofNat_of_lt' (Nat.lt_trans (by omega : 8 * i < 80) (by decide))
    rw [wordAt?_eq (by omega), hoffset]
  simp (disch := decide) only [header?, hword, Option.pure_def, Option.bind_eq_bind,
    Option.bind_some]
  rfl

/-- The end of a section that is inside does not wrap around. -/
theorem toNat_stop {s : Section} {headerSize size : UInt64}
    (h : s.isInside headerSize size = true) :
    s.stop.toNat = s.start.toNat + s.size.toNat := by
  have hfits := ((s.isInside_iff headerSize size).mp h).2
  have hlimit := size.toNat_lt
  exact Section.toNat_stop (by omega)

theorem bytesBetween?_eq {s : Section} {headerSize size : UInt64}
    (hsize : size.toNat = blob.length) (h : s.isInside headerSize size = true) :
    bytesBetween? blob s.start s.stop = some (s.slice blob) := by
  have hfits := ((s.isInside_iff headerSize size).mp h).2
  have hstop := toNat_stop h
  have hbounds : s.start ≤ s.stop ∧ s.stop.toNat ≤ blob.length :=
    ⟨UInt64.le_iff_toNat_le.mpr (by omega), by omega⟩
  rw [bytesBetween?, if_pos hbounds, hstop, Nat.add_sub_cancel_left]
  rfl

/-- The walk through `count` pairs, by induction on their number. -/
theorem jumpsFrom?_eq {stop : UInt64} (hstop : stop.toNat ≤ blob.length) {count rounds : Nat}
    (hrounds : count ≤ rounds) {offset : UInt64} (h : offset.toNat + 16 * count = stop.toNat)
    (m : WordMap UInt64) :
    jumpsFrom? order blob stop rounds offset m =
      some ((pairsAt order blob offset.toNat count).foldl (fun m e => m.insert e.1 e.2) m) := by
  induction count generalizing rounds offset m with
  | zero =>
    have hend : ¬ offset < stop := by
      rw [UInt64.lt_iff_toNat_lt]
      omega
    cases rounds with
    | zero => exact if_neg hend
    | succ rounds => exact if_neg hend
  | succ count ih =>
    obtain ⟨rounds, rfl⟩ := Nat.exists_eq_add_of_le' (Nat.lt_of_lt_of_le count.succ_pos hrounds)
    have hlimit := stop.toNat_lt
    have hmore : offset < stop := by
      rw [UInt64.lt_iff_toNat_lt]
      omega
    have h8 : (offset + 8).toNat = offset.toNat + 8 := by
      rw [UInt64.toNat_add]
      exact Nat.mod_eq_of_lt (by simp; omega)
    have h16 : (offset + 16).toNat = offset.toNat + 16 := by
      rw [UInt64.toNat_add]
      exact Nat.mod_eq_of_lt (by simp; omega)
    rw [jumpsFrom?, if_pos hmore, wordAt?_eq (by omega), wordAt?_eq (by omega)]
    simp only [Option.bind_eq_bind, Option.bind_some]
    rw [ih (Nat.le_of_succ_le_succ hrounds) (by omega), h16, h8, pairsAt_succ, List.foldl_cons]

/-- The jumps of a section that is inside and holds whole pairs. -/
theorem jumpsFrom?_section {s : Section} {headerSize size : UInt64}
    (hsize : size.toNat = blob.length) (h : s.isInside headerSize size = true)
    (hwhole : 16 ∣ s.size.toNat) :
    jumpsFrom? order blob s.stop (blob.length / 16) s.start .empty =
      some (.ofList (readPairs order (s.slice blob))) := by
  obtain ⟨count, hcount⟩ := hwhole
  have hfits := ((s.isInside_iff headerSize size).mp h).2
  have hstop := toNat_stop h
  have hrounds : count ≤ blob.length / 16 := by omega
  rw [jumpsFrom?_eq (by omega) hrounds (by omega), Section.slice, hcount,
    readPairs_take_drop order (by omega)]
  rfl

theorem lift_some_bind {ε α β : Type} (a : α) (f : α → ExceptT ε Option β) :
    ExceptT.lift (some a) >>= f = f a := rfl

/-- A test that both readers make, where they agree on what follows it. -/
theorem run_mk_bind {ε α β : Type} {x : Except ε α} {f : α → ExceptT ε Option β}
    {g : α → Except ε β} (h : ∀ a, x = .ok a → (f a).run = some (g a)) :
    (ExceptT.mk (some x) >>= f).run = some (x >>= g) := by
  cases x with
  | error e => rfl
  | ok a => exact h a rfl

/-- The guarded reader finds every byte it looks for and comes to an end. -/
theorem run_decode (hlen : blob.length < 2 ^ 64) (legacyDataSize : Bool) :
    (decode blob ⟨some order, legacyDataSize⟩).run =
      some (Module.decode blob ⟨some order, legacyDataSize⟩) := by
  have hsize : (UInt64.ofNat blob.length).toNat = blob.length := UInt64.toNat_ofNat_of_lt' hlen
  unfold decode Module.decode
  by_cases hshort : blob.length < 8
  · simp only [if_pos hshort]
    rfl
  have hdeclared : wordAt? order blob 0 = some (Header.read order blob).headerSize :=
    wordAt?_eq (Nat.not_lt.mp hshort)
  simp only [if_neg hshort, hdeclared, lift_some_bind]
  by_cases hbad : (Header.read order blob).headerSize < .ofNat Header.size ∨
      UInt64.ofNat blob.length < (Header.read order blob).headerSize
  · simp only [if_pos hbad]
    rfl
  have hheader : Header.size ≤ blob.length := by
    obtain ⟨hcovered, hinside⟩ := not_or.mp hbad
    rw [UInt64.not_lt, UInt64.le_iff_toNat_le] at hcovered hinside
    rw [hsize] at hinside
    exact Nat.le_trans hcovered hinside
  simp only [if_neg hbad, header?_eq hheader, lift_some_bind]
  apply run_mk_bind
  intro places hplaces
  apply run_mk_bind
  intro _ hdata
  apply run_mk_bind
  intro _ hjumps
  apply run_mk_bind
  intro _ hcode
  rw [Section.check_eq_ok_iff] at hdata hjumps hcode
  have hwhole : 16 ∣ places.jumps.size.toNat := Header.sixteen_dvd_of_sections hplaces
  rw [bytesBetween?_eq hsize hdata, bytesBetween?_eq hsize hcode,
    jumpsFrom?_section hsize hjumps hwhole]
  rfl

end

end Guarded

/-! ## Which modules are read -/

/-- The number that word `i` of a module stands for. -/
def headerWord (order : ByteOrder) (blob : Bytes) (i : Nat) : Nat :=
  (order.read64 (blob.drop (8 * i))).toNat

/-- What is asked of the first ten words of a module, however the sections are found. -/
def SoundWords (order : ByteOrder) (blob : Bytes) : Prop :=
  8 ≤ blob.length ∧ 80 ≤ headerWord order blob 0 ∧ headerWord order blob 0 ≤ blob.length ∧
    16 ∣ headerWord order blob 7 ∧ 0 < headerWord order blob 9 ∧ 2 ∣ headerWord order blob 9

/-- Whether the contents of a module are those at the given places of a text, each given by its
start and its size. Of several jumps with one label the last one counts. -/
structure Module.IsReadFrom (m : Module) (order : ByteOrder) (blob : Bytes)
    (data jumps code : Nat × Nat) : Prop where
  header_eq : m.header = Header.read order blob
  order_eq : m.order = order
  data_eq : m.data = splitData ((blob.drop data.1).take data.2)
  get?_jumps : ∀ label, m.jumps.get? label =
    ((pairsAt order blob jumps.1 (jumps.2 / 16)).findRev? fun e => e.1 == label).map Prod.snd
  code_eq : m.code = (blob.drop code.1).take code.2

theorem soundWords_iff {order : ByteOrder} {blob : Bytes} :
    SoundWords order blob ↔ 8 ≤ blob.length ∧ (Header.read order blob).Sound blob.length := by
  constructor
  · rintro ⟨hword, hcovered, hinside, hjumps, hsome, heven⟩
    exact ⟨hword, hcovered, hinside, hjumps, hsome, heven⟩
  · rintro ⟨hword, hcovered, hinside, hjumps, hsome, heven⟩
    exact ⟨hword, hcovered, hinside, hjumps, hsome, heven⟩

/-- What is read from three places is read from the numbers these stand for. -/
theorem Module.isReadFrom_readAt (order : ByteOrder) (blob : Bytes) (p : Sections)
    (hwhole : 16 ∣ p.jumps.size.toNat)
    (hjumps : p.jumps.start.toNat + p.jumps.size.toNat ≤ blob.length) :
    (readAt order blob p).IsReadFrom order blob (p.data.start.toNat, p.data.size.toNat)
      (p.jumps.start.toNat, p.jumps.size.toNat) (p.code.start.toNat, p.code.size.toNat) where
  header_eq := rfl
  order_eq := rfl
  data_eq := rfl
  get?_jumps := by
    intro label
    obtain ⟨count, hcount⟩ := hwhole
    have hpairs : readPairs order (p.jumps.slice blob) =
        pairsAt order blob p.jumps.start.toNat (p.jumps.size.toNat / 16) := by
      rw [Section.slice, hcount, readPairs_take_drop order (by omega),
        Nat.mul_div_cancel_left count (by decide)]
    rw [← hpairs]
    exact WordMap.get?_ofList _ label
  code_eq := rfl

theorem fits_declared_iff {order : ByteOrder} {blob : Bytes} :
    (Header.read order blob).Fits blob.length false ↔
      ∀ s ∈ [(headerWord order blob 4, headerWord order blob 5),
        (headerWord order blob 6, headerWord order blob 7),
        (headerWord order blob 8, headerWord order blob 9)],
          headerWord order blob 0 ≤ s.1 ∧ s.1 + s.2 ≤ blob.length := by
  simp only [Header.Fits, List.forall_mem_cons, List.not_mem_nil, false_implies, implies_true,
    and_true]
  rfl

/-- A module is read exactly if its sections fit, in numbers without bound, where its header
declares them or one after the other at its end. They are read from there, and no byte outside is
looked at. -/
theorem decode_iff_sections_fit (blob : Bytes) (order : ByteOrder) (hlen : blob.length < 2 ^ 63) :
    let n := blob.length
    let w := headerWord order blob
    (∀ legacyDataSize, (Guarded.decode blob ⟨some order, legacyDataSize⟩).run =
      some (Module.decode blob ⟨some order, legacyDataSize⟩)) ∧
    ((∃ m, Module.decode blob ⟨some order, false⟩ = .ok m) ↔
      SoundWords order blob ∧
        ∀ s ∈ [(w 4, w 5), (w 6, w 7), (w 8, w 9)], w 0 ≤ s.1 ∧ s.1 + s.2 ≤ n) ∧
    ((∃ m, Module.decode blob ⟨some order, true⟩ = .ok m) ↔
      SoundWords order blob ∧ w 0 + w 7 + w 9 ≤ n) ∧
    (∀ m, Module.decode blob ⟨some order, false⟩ = .ok m →
      m.IsReadFrom order blob (w 4, w 5) (w 6, w 7) (w 8, w 9)) ∧
    (∀ m, Module.decode blob ⟨some order, true⟩ = .ok m →
      m.IsReadFrom order blob (w 0, n - w 9 - w 7 - w 0) (n - w 9 - w 7, w 7) (n - w 9, w 9)) := by
  have hlen' : blob.length < 2 ^ 64 := Nat.lt_trans hlen (by decide)
  have hsize : (UInt64.ofNat blob.length).toNat = blob.length := UInt64.toNat_ofNat_of_lt' hlen'
  refine ⟨Guarded.run_decode hlen', ?_, ?_, ?_, ?_⟩
  · simp only [Module.decode_eq_ok_iff hlen', exists_and_left, exists_eq', and_true,
      soundWords_iff, ← fits_declared_iff, and_assoc]
  · simp only [Module.decode_eq_ok_iff hlen', exists_and_left, exists_eq', and_true,
      soundWords_iff, and_assoc]
    rfl
  · intro m hm
    obtain ⟨-, hsound, hfits, rfl⟩ := (Module.decode_eq_ok_iff hlen').mp hm
    have hjumps := hfits (Header.read order blob).jumps (by simp)
    exact Module.isReadFrom_readAt order blob _ hsound.wholeJumps hjumps.2
  · intro m hm
    obtain ⟨-, hsound, hfits, rfl⟩ := (Module.decode_eq_ok_iff hlen').mp hm
    obtain ⟨hcode, hjumps, hdata⟩ := Header.sectionsFromEnd_toNat hsize hfits
    have hinside : ((Header.read order blob).sectionsFromEnd (.ofNat blob.length)).jumps.start.toNat
        + (Header.read order blob).jumps.size.toNat ≤ blob.length := by
      rw [hjumps]
      simp only [Header.Fits] at hfits
      omega
    have hread := Module.isReadFrom_readAt order blob
      ((Header.read order blob).sectionsFromEnd (.ofNat blob.length)) hsound.wholeJumps hinside
    rw [hcode, hjumps, hdata] at hread
    exact hread

theorem decode_iff_sections_fit_small :
    let header : Header := ⟨80, 1, 0, 7, ⟨80, 3⟩, ⟨83, 16⟩, ⟨99, 2⟩⟩
    let blob := header.words.flatMap ByteOrder.big.write64 ++ [104, 105, 0] ++
      ByteOrder.big.write64 4 ++ ByteOrder.big.write64 9 ++ [0, 1]
    blob.length < 2 ^ 63 ∧ (∃ m, Module.decode blob ⟨some .big, false⟩ = .ok m) ∧
      ∃ m, Module.decode blob ⟨some .big, true⟩ = .ok m := by
  intro header blob
  have hlen : blob.length < 2 ^ 63 := by decide
  have hwords : SoundWords .big blob := by
    unfold SoundWords
    decide
  obtain ⟨-, hdeclared, hfromEnd, -⟩ := decode_iff_sections_fit blob .big hlen
  exact ⟨hlen, hdeclared.mpr ⟨hwords, by decide⟩, hfromEnd.mpr ⟨hwords, by decide⟩⟩

/-- Sizes whose sum wraps around to nothing are refused. -/
example :
    let header : Header := ⟨80, 0, 0, 0, ⟨80, 0⟩, ⟨80, 0xFFFFFFFFFFFFFFA0⟩, ⟨80, 16⟩⟩
    let blob := header.words.flatMap ByteOrder.little.write64 ++ List.replicate 16 0
    header.headerSize + header.jumps.size + header.code.size = 0 ∧
      (Module.decode blob ⟨some .little, true⟩).isOk = false := by
  decide +kernel

end Dialogue
