import Dialogue.Module.Layout
import Dialogue.Proofs.CodePoints
import Dialogue.Proofs.ModuleBounds
import Dialogue.Proofs.WordMaps

/-!
# Reading back a packaged program

The module of a program is its header, its texts, its jumps and its code, one behind the other. A
reader finds each of them again, by the declared places as well as from the end of the module.
-/

namespace Dialogue

namespace Program

/-! ## Texts and jumps -/

theorem splitOn_dataBytes {data : List Bytes} (h : ∀ text ∈ data, 0 ∉ text) :
    (dataBytes data).splitOn 0 = data ++ [[]] := by
  induction data with
  | nil => rfl
  | cons text data ih =>
    have htext : 0 ∉ text := h text List.mem_cons_self
    have hdata : ∀ t ∈ data, 0 ∉ t := fun t ht => h t (List.mem_cons_of_mem text ht)
    have hbytes : dataBytes (text :: data) = text ++ 0 :: dataBytes data := by simp [dataBytes]
    rw [hbytes, List.splitOn_append_cons_self_of_not_mem htext, ih hdata, List.cons_append]

/-- A table of texts without zero bytes is read back from its bytes. -/
theorem splitData_dataBytes {data : List Bytes} (h : ∀ text ∈ data, 0 ∉ text) :
    splitData (dataBytes data) = data := by
  rw [splitData, splitOn_dataBytes h]
  simp

theorem length_data_le (data : List Bytes) : data.length ≤ (dataBytes data).length := by
  induction data with
  | nil => exact Nat.le_refl 0
  | cons text data ih =>
    have hbytes : dataBytes (text :: data) = text ++ [0] ++ dataBytes data := rfl
    rw [hbytes, List.length_append, List.length_append, List.length_cons, List.length_singleton]
    omega

theorem textsSize_false (data : List Bytes) : textsSize false data = (dataBytes data).length := by
  induction data with
  | nil => rfl
  | cons text data ih =>
    have hbytes : dataBytes (text :: data) = text ++ [0] ++ dataBytes data := rfl
    rw [textsSize, ih, hbytes, List.length_append, List.length_append]
    rfl

theorem length_jumpBytes (order : ByteOrder) (jumps : WordMap UInt64) :
    (jumpBytes order jumps).length = 16 * jumps.size := by
  unfold jumpBytes WordMap.size
  induction jumps.entries with
  | nil => rfl
  | cons e es ih =>
    rw [List.flatMap_cons, List.length_append, ih, List.length_append, ByteOrder.length_write64,
      ByteOrder.length_write64, List.length_cons]
    omega

theorem readPairs_append (order : ByteOrder) (label target : UInt64) (rest : Bytes) :
    readPairs order (order.write64 label ++ order.write64 target ++ rest) =
      (label, target) :: readPairs order rest := by
  have hlong : 16 ≤ (order.write64 label ++ order.write64 target ++ rest).length := by
    rw [List.length_append, List.length_append, order.length_write64, order.length_write64]
    omega
  have hsecond : (order.write64 label ++ order.write64 target ++ rest).drop 8 =
      order.write64 target ++ rest := by
    rw [List.append_assoc, List.drop_left' (order.length_write64 label)]
  have hrest : (order.write64 label ++ order.write64 target ++ rest).drop 16 = rest :=
    List.drop_left' (by simp)
  rw [readPairs, if_pos hlong, hsecond, hrest, List.append_assoc, order.read64_write64_append,
    order.read64_write64_append]

/-- A table of jumps is read back from its bytes. -/
theorem readPairs_jumpBytes (order : ByteOrder) (jumps : WordMap UInt64) :
    readPairs order (jumpBytes order jumps) = jumps.entries := by
  unfold jumpBytes
  induction jumps.entries with
  | nil =>
    rw [readPairs]
    rfl
  | cons e es ih => rw [List.flatMap_cons, readPairs_append, ih]

end Program

/-- A header is read back from its words. -/
theorem Header.read_words (order : ByteOrder) (h : Header) (rest : Bytes) :
    Header.read order (h.words.flatMap order.write64 ++ rest) = h := by
  have hword : ∀ {i : Nat} {w : UInt64}, h.words[i]? = some w →
      order.read64 ((h.words.flatMap order.write64 ++ rest).drop (8 * i)) = w :=
    fun hw => order.read64_drop_flatMap hw rest
  unfold Header.read
  simp only [hword (show h.words[0]? = some h.headerSize from rfl),
    hword (show h.words[1]? = some h.version from rfl),
    hword (show h.words[2]? = some h.minVersion from rfl),
    hword (show h.words[3]? = some h.flags from rfl),
    hword (show h.words[4]? = some h.data.start from rfl),
    hword (show h.words[5]? = some h.data.size from rfl),
    hword (show h.words[6]? = some h.jumps.start from rfl),
    hword (show h.words[7]? = some h.jumps.size from rfl),
    hword (show h.words[8]? = some h.code.start from rfl),
    hword (show h.words[9]? = some h.code.size from rfl)]

/-! ## Places -/

namespace Program

theorem length_package (p : Program) (opts : ModuleOptions) :
    (p.package opts).length =
      80 + (dataBytes p.data).length + 16 * p.jumps.size + p.code.length := by
  have hwords : (p.header opts).words.length = 10 := rfl
  rw [package, List.length_append, List.length_append, List.length_append,
    ByteOrder.length_flatMap_write64, hwords, length_jumpBytes]

/-- Whether sections lie where the module of a program has its texts, its jumps and its code. -/
structure LiesAt (p : Program) (s : Sections) : Prop where
  data_start : s.data.start.toNat = 80
  data_size : s.data.size.toNat = (dataBytes p.data).length
  jumps_start : s.jumps.start.toNat = 80 + (dataBytes p.data).length
  jumps_size : s.jumps.size.toNat = 16 * p.jumps.size
  code_start : s.code.start.toNat = 80 + (dataBytes p.data).length + 16 * p.jumps.size
  code_size : s.code.size.toNat = p.code.length

/-- The contents of the module of a program. -/
def packaged (p : Program) (opts : ModuleOptions) : Module where
  header := p.header opts
  data := p.data
  jumps := p.jumps
  code := p.code
  order := p.order

theorem read_package (p : Program) (opts : ModuleOptions) :
    Header.read p.order (p.package opts) = p.header opts := by
  rw [package, List.append_assoc, List.append_assoc]
  exact Header.read_words p.order (p.header opts) _

theorem take_drop_append {before part after : Bytes} {start size : Nat}
    (hstart : before.length = start) (hsize : part.length = size) :
    ((before ++ part ++ after).drop start).take size = part := by
  rw [List.append_assoc, List.drop_left' hstart, List.take_left' hsize]

namespace LiesAt

variable {p : Program} {s : Sections} (hs : p.LiesAt s) (opts : ModuleOptions)

include hs

theorem slice_data : s.data.slice (p.package opts) = dataBytes p.data := by
  have hheader : ((p.header opts).words.flatMap p.order.write64).length = 80 :=
    p.order.length_flatMap_write64 _
  rw [Section.slice, hs.data_start, hs.data_size, package, List.append_assoc _ _ p.code]
  exact take_drop_append hheader rfl

theorem slice_jumps : s.jumps.slice (p.package opts) = jumpBytes p.order p.jumps := by
  have hheader : ((p.header opts).words.flatMap p.order.write64).length = 80 :=
    p.order.length_flatMap_write64 _
  rw [Section.slice, hs.jumps_start, hs.jumps_size, package]
  exact take_drop_append (by rw [List.length_append, hheader]) (length_jumpBytes _ _)

theorem slice_code : s.code.slice (p.package opts) = p.code := by
  have hheader : ((p.header opts).words.flatMap p.order.write64).length = 80 :=
    p.order.length_flatMap_write64 _
  rw [Section.slice, hs.code_start, hs.code_size, package]
  rw [List.drop_left' (by rw [List.length_append, List.length_append, hheader, length_jumpBytes])]
  exact List.take_length

end LiesAt

/-- What is read at the places of a program is the program. -/
theorem readAt_package {p : Program} {opts : ModuleOptions} {s : Sections} (hs : p.LiesAt s)
    (hdata : ∀ text ∈ p.data, 0 ∉ text) :
    Module.readAt p.order (p.package opts) s = p.packaged opts := by
  simp only [Module.readAt, packaged, hs.slice_data opts, hs.slice_jumps opts, hs.slice_code opts,
    read_package, splitData_dataBytes hdata, readPairs_jumpBytes, WordMap.ofList_entries]

section

variable {p : Program} {opts : ModuleOptions} (hlen : (p.package opts).length < 2 ^ 64)

include hlen

theorem toNat_jumps_size : (p.header opts).jumps.size.toNat = 16 * p.jumps.size := by
  rw [length_package] at hlen
  have hfit : p.jumps.size * 16 < 2 ^ 64 := by omega
  exact (UInt64.toNat_ofNat_of_lt' hfit).trans (Nat.mul_comm _ _)

theorem toNat_code_size : (p.header opts).code.size.toNat = p.code.length := by
  rw [length_package] at hlen
  exact UInt64.toNat_ofNat_of_lt' (by omega : p.code.length < 2 ^ 64)

/-- The header of a module asks for nothing impossible. -/
theorem sound_header (hcode : p.code ≠ []) (heven : 2 ∣ p.code.length) :
    (p.header opts).Sound (p.package opts).length where
  covered := Nat.le_refl 80
  inside := by
    have hleast : (p.header opts).headerSize.toNat = 80 := rfl
    rw [length_package, hleast]
    omega
  wholeJumps := by
    rw [toNat_jumps_size hlen]
    exact Nat.dvd_mul_right 16 _
  someCode := by
    rw [toNat_code_size hlen]
    exact List.length_pos_iff.mpr hcode
  evenCode := by
    rw [toNat_code_size hlen]
    exact heven

/-- Declared places are the real ones if the zero bytes are counted. -/
theorem liesAt_declared (hopts : opts.legacyDataSize = false) :
    p.LiesAt ((p.header opts).places (.ofNat (p.package opts).length) false) := by
  have hjumps := toNat_jumps_size hlen
  have hcode := toNat_code_size hlen
  rw [length_package] at hlen
  have hstart : (p.dataSection opts).start.toNat = 80 := rfl
  have hsize : (p.dataSection opts).size.toNat = (dataBytes p.data).length := by
    rw [dataSection, hopts, textsSize_false]
    exact UInt64.toNat_ofNat_of_lt' (by omega : (dataBytes p.data).length < 2 ^ 64)
  have hstop : (p.dataSection opts).stop.toNat = 80 + (dataBytes p.data).length := by
    rw [Section.toNat_stop (by omega), hstart, hsize]
  have hstop' : (p.jumpSection opts).stop.toNat =
      80 + (dataBytes p.data).length + 16 * p.jumps.size := by
    have hstart' : (p.jumpSection opts).start.toNat = 80 + (dataBytes p.data).length := hstop
    have hsize' : (p.jumpSection opts).size.toNat = 16 * p.jumps.size := hjumps
    rw [Section.toNat_stop (by omega), hstart', hsize']
  exact ⟨hstart, hsize, hstop, hjumps, hstop', hcode⟩

theorem fits_declared (hopts : opts.legacyDataSize = false) :
    (p.header opts).Fits (p.package opts).length false := by
  obtain ⟨hd, hd', hj, hj', hc, hc'⟩ := liesAt_declared hlen hopts
  simp only [Header.places, Bool.false_eq_true, if_false] at hd hd' hj hj' hc hc'
  have hleast : (p.header opts).headerSize.toNat = 80 := rfl
  intro s hs
  rw [length_package, hleast]
  simp only [List.mem_cons, List.not_mem_nil, or_false] at hs
  rcases hs with rfl | rfl | rfl
  · omega
  · omega
  · omega

/-- The sizes of jumps and code are enough to find all sections from the end. -/
theorem fits_fromEnd : (p.header opts).Fits (p.package opts).length true := by
  have hleast : (p.header opts).headerSize.toNat = 80 := rfl
  rw [Header.Fits, toNat_jumps_size hlen, toNat_code_size hlen, length_package, hleast]
  omega

theorem liesAt_fromEnd :
    p.LiesAt ((p.header opts).places (.ofNat (p.package opts).length) true) := by
  have hleast : (p.header opts).headerSize.toNat = 80 := rfl
  obtain ⟨hcode, hjumps, hdata⟩ :=
    Header.sectionsFromEnd_toNat (UInt64.toNat_ofNat_of_lt' hlen) (fits_fromEnd hlen)
  rw [toNat_code_size hlen] at hcode hjumps hdata
  rw [toNat_jumps_size hlen] at hjumps hdata
  rw [hleast] at hdata
  have hlength := length_package p opts
  refine ⟨hleast, hdata.trans ?_, hjumps.trans ?_, toNat_jumps_size hlen, hcode.trans ?_,
    toNat_code_size hlen⟩
  · omega
  · omega
  · omega

end

section

variable {p : Program} {opts : ModuleOptions} (hlen : (p.package opts).length < 2 ^ 64)
  (hdata : ∀ text ∈ p.data, 0 ∉ text) (hcode : p.code ≠ []) (heven : 2 ∣ p.code.length)

include hlen hdata hcode heven

/-- A module is read back by a reader that finds its sections where they are. -/
theorem decode_package_of_liesAt {legacyDataSize : Bool}
    (hfits : (p.header opts).Fits (p.package opts).length legacyDataSize)
    (hplaces : p.LiesAt ((p.header opts).places (.ofNat (p.package opts).length) legacyDataSize)) :
    Module.decode (p.package opts) ⟨some p.order, legacyDataSize⟩ = .ok (p.packaged opts) := by
  have hlong : 8 ≤ (p.package opts).length := by
    rw [length_package]
    omega
  rw [Module.decode_eq_ok_iff hlen, read_package]
  exact ⟨hlong, sound_header hlen hcode heven, hfits, readAt_package hplaces hdata⟩

theorem decode_package_declared (hopts : opts.legacyDataSize = false) :
    Module.decode (p.package opts) ⟨some p.order, false⟩ = .ok (p.packaged opts) :=
  decode_package_of_liesAt hlen hdata hcode heven (fits_declared hlen hopts)
    (liesAt_declared hlen hopts)

theorem decode_package_fromEnd :
    Module.decode (p.package opts) ⟨some p.order, true⟩ = .ok (p.packaged opts) :=
  decode_package_of_liesAt hlen hdata hcode heven (fits_fromEnd hlen) (liesAt_fromEnd hlen)

end

/-- The module of a program is read back, by a reader for modules of its own kind and by one that
finds the sections from the end. -/
theorem decode_package (p : Program) (opts : ModuleOptions) (legacyDataSize : Bool)
    (hdata : ∀ text ∈ p.data, 0 ∉ text) (hcode : p.code ≠ []) (heven : 2 ∣ p.code.length)
    (hlen : (p.package opts).length < 2 ^ 63)
    (hkind : legacyDataSize = opts.legacyDataSize ∨ legacyDataSize = true) :
    Module.decode (p.package opts) ⟨some p.order, legacyDataSize⟩ =
      .ok { header := p.header opts, data := p.data, jumps := p.jumps, code := p.code,
            order := p.order } := by
  have hlen' : (p.package opts).length < 2 ^ 64 := Nat.lt_trans hlen (by decide)
  cases legacyDataSize with
  | true => exact decode_package_fromEnd hlen' hdata hcode heven
  | false =>
    have hopts : opts.legacyDataSize = false := by simpa using hkind.symm
    exact decode_package_declared hlen' hdata hcode heven hopts

/-- A program with empty texts, two jumps and words with their high byte first. -/
def twoJumps : Program where
  data := [[], Text.utf8 "hi", []]
  jumps := .ofList [(7, 1), (2, 9)]
  code := [0x00, 0x01, 0x10, 0x00]
  sourceMap := .empty
  order := .big

theorem decode_package_twoJumps :
    (∀ text ∈ twoJumps.data, 0 ∉ text) ∧ twoJumps.code ≠ [] ∧ 2 ∣ twoJumps.code.length ∧
      (twoJumps.package { flags := 5, legacyDataSize := true }).length < 2 ^ 63 ∧
      Module.decode (twoJumps.package { flags := 5, legacyDataSize := true }) ⟨some .big, true⟩ =
        .ok { header := twoJumps.header { flags := 5, legacyDataSize := true },
              data := twoJumps.data, jumps := twoJumps.jumps, code := twoJumps.code,
              order := .big } := by
  have hdata : ∀ text ∈ twoJumps.data, 0 ∉ text := by decide +kernel
  have hcode : twoJumps.code ≠ [] := by decide
  have heven : 2 ∣ twoJumps.code.length := by decide
  have hlen : (twoJumps.package { flags := 5, legacyDataSize := true }).length < 2 ^ 63 := by
    decide +kernel
  exact ⟨hdata, hcode, heven, hlen,
    decode_package twoJumps { flags := 5, legacyDataSize := true } true hdata hcode heven hlen
      (.inl rfl)⟩

end Program

end Dialogue
