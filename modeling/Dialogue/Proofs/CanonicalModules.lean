import Dialogue.Proofs.CodeFrames
import Dialogue.Proofs.ModuleRoundTrip

/-!
# Canonical modules

Many modules can be read, but only some are ever written: those with a header of the usual size, the
three sections right behind each other up to the end, a zero byte behind every text, and jumps by
ascending label. From such a module the same bytes are written again.
-/

namespace Dialogue

/-! ## Bytes of sections -/

/-- Bytes are texts with a zero byte behind each, and a last text without one. -/
theorem exists_dataBytes_append (bs : Bytes) :
    ∃ texts last, (∀ text ∈ texts, 0 ∉ text) ∧ 0 ∉ last ∧ Program.dataBytes texts ++ last = bs := by
  induction bs with
  | nil => exact ⟨[], [], by simp, by simp, rfl⟩
  | cons b bs ih =>
    obtain ⟨texts, last, htexts, hlast, rfl⟩ := ih
    by_cases hb : b = 0
    · refine ⟨[] :: texts, last, ?_, hlast, ?_⟩
      · simpa using htexts
      · rw [hb]
        rfl
    · -- The byte belongs to the first text, which is the last one if there is no other.
      cases texts with
      | nil =>
        refine ⟨[], b :: last, by simp, ?_, rfl⟩
        simpa [Ne.symm hb] using hlast
      | cons text texts =>
        obtain ⟨htext, htexts⟩ := List.forall_mem_cons.mp htexts
        refine ⟨(b :: text) :: texts, last, ?_, hlast, rfl⟩
        refine List.forall_mem_cons.mpr ⟨?_, htexts⟩
        simpa [Ne.symm hb] using htext

/-- Bytes that are empty or end in a zero byte are those of the texts in them. -/
theorem dataBytes_splitData {bs : Bytes} (h : bs = [] ∨ bs.getLast? = some 0) :
    (∀ text ∈ splitData bs, 0 ∉ text) ∧ Program.dataBytes (splitData bs) = bs := by
  obtain ⟨texts, last, htexts, hlast, rfl⟩ := exists_dataBytes_append bs
  have hnone : last = [] := by
    rcases h with h | h
    · exact (List.append_eq_nil_iff.mp h).2
    · by_contra hne
      rw [List.getLast?_append_of_ne_nil _ hne] at h
      exact hlast (List.mem_of_getLast? h)
  rw [hnone, List.append_nil, Program.splitData_dataBytes htexts]
  exact ⟨htexts, rfl⟩

theorem dataBytes_ends (texts : List Bytes) :
    Program.dataBytes texts = [] ∨ (Program.dataBytes texts).getLast? = some 0 := by
  rcases List.eq_nil_or_concat' texts with rfl | ⟨texts, text, rfl⟩
  · exact .inl rfl
  · refine .inr ?_
    rw [Program.dataBytes, List.flatMap_append, List.flatMap_singleton, ← List.append_assoc]
    exact List.getLast?_concat

theorem flatMap_readPairs (order : ByteOrder) {bs : Bytes} (h : 16 ∣ bs.length) :
    ((readPairs order bs).flatMap fun e => order.write64 e.1 ++ order.write64 e.2) = bs := by
  fun_induction readPairs order bs with
  | case1 bs hlong ih =>
    have hrest : 16 ∣ (bs.drop 16).length := by
      rw [List.length_drop]
      omega
    have hsecond : 8 ≤ (bs.drop 8).length := by
      rw [List.length_drop]
      omega
    rw [List.flatMap_cons, ih hrest, order.write64_read64 (by omega),
      order.write64_read64 hsecond, ← List.take_add]
    exact List.take_append_drop 16 bs
  | case2 bs hshort =>
    have hnone : bs.length = 0 := by omega
    exact (List.eq_nil_of_length_eq_zero hnone).symm

theorem entries_ofList {α : Type} {pairs : List (UInt64 × α)}
    (h : pairs.Pairwise fun a b => a.1 < b.1) : (WordMap.ofList pairs).entries = pairs :=
  congrArg WordMap.entries (WordMap.ofList_entries ⟨pairs, h⟩)

theorem Header.words_read (order : ByteOrder) (blob : Bytes) :
    (Header.read order blob).words = readWords order 10 blob := by
  simp only [Header.words, Header.read, readWords, List.drop_drop]
  rfl

theorem Section.slice_append_drop (s : Section) (blob : Bytes) :
    s.slice blob ++ blob.drop (s.start.toNat + s.size.toNat) = blob.drop s.start.toNat := by
  rw [slice, ← List.drop_drop, List.take_append_drop]

theorem Section.length_slice {s : Section} {blob : Bytes}
    (h : s.start.toNat + s.size.toNat ≤ blob.length) : (s.slice blob).length = s.size.toNat := by
  rw [slice, List.length_take, List.length_drop]
  omega

/-! ## Writing a module again -/

namespace Module

/-- Whether a module lies in its bytes as a writer puts it there. -/
structure IsCanonical (m : Module) (blob : Bytes) : Prop where
  headerSize : m.header.headerSize = 80
  data_start : m.header.data.start = 80
  jumps_start : m.header.jumps.start = m.header.data.stop
  code_start : m.header.code.start = m.header.jumps.stop
  code_stop : m.header.code.stop.toNat = blob.length
  data_ends : m.header.data.slice blob = [] ∨ (m.header.data.slice blob).getLast? = some 0
  ascending : (readPairs m.order (m.header.jumps.slice blob)).Pairwise fun a b => a.1 < b.1

/-- The program in a module, with lines that the module does not tell. -/
def program (m : Module) (lines : WordMap Int) : Program where
  data := m.data
  jumps := m.jumps
  code := m.code
  sourceMap := lines
  order := m.order

def options (m : Module) : ModuleOptions where
  version := m.header.version
  minVersion := m.header.minVersion
  flags := m.header.flags

/-- Whether a module has been read from bytes at the declared places. -/
structure DecodedFrom (m : Module) (blob : Bytes) : Prop where
  sound : m.header.Sound blob.length
  fits : m.header.Fits blob.length false
  eq_readAt : m = readAt m.order blob ⟨m.header.data, m.header.jumps, m.header.code⟩

theorem decodedFrom_of_decode {order : ByteOrder} {blob : Bytes} {m : Module}
    (hlen : blob.length < 2 ^ 64) (h : decode blob ⟨some order, false⟩ = .ok m) :
    m.DecodedFrom blob ∧ m.order = order := by
  obtain ⟨-, hsound, hfits, rfl⟩ := (decode_eq_ok_iff hlen).mp h
  exact ⟨⟨hsound, hfits, rfl⟩, rfl⟩

namespace DecodedFrom

variable {m : Module} {blob : Bytes} (hm : m.DecodedFrom blob)

include hm

theorem header_eq : m.header = Header.read m.order blob :=
  congrArg Module.header hm.eq_readAt

theorem data_inside : m.header.data.start.toNat + m.header.data.size.toNat ≤ blob.length :=
  (hm.fits m.header.data (by simp)).2

theorem jumps_inside : m.header.jumps.start.toNat + m.header.jumps.size.toNat ≤ blob.length :=
  (hm.fits m.header.jumps (by simp)).2

theorem code_inside : m.header.code.start.toNat + m.header.code.size.toNat ≤ blob.length :=
  (hm.fits m.header.code (by simp)).2

theorem data_eq : m.data = splitData (m.header.data.slice blob) :=
  congrArg Module.data hm.eq_readAt

theorem jumps_eq : m.jumps = .ofList (readPairs m.order (m.header.jumps.slice blob)) :=
  congrArg Module.jumps hm.eq_readAt

theorem code_eq : m.code = m.header.code.slice blob :=
  congrArg Module.code hm.eq_readAt

theorem length_code : m.code.length = m.header.code.size.toNat := by
  rw [hm.code_eq, Section.length_slice hm.code_inside]

theorem words_header : m.header.words.flatMap m.order.write64 = blob.take 80 := by
  have hlong : 8 * 10 ≤ blob.length := hm.sound.covered.trans hm.sound.inside
  rw [hm.header_eq, Header.words_read, flatMap_readWords m.order hlong]

variable (hc : m.IsCanonical blob)

include hc

theorem dataBytes_data : Program.dataBytes m.data = m.header.data.slice blob := by
  rw [hm.data_eq]
  exact (dataBytes_splitData hc.data_ends).2

theorem jumpBytes_jumps : Program.jumpBytes m.order m.jumps = m.header.jumps.slice blob := by
  have hwhole : 16 ∣ (m.header.jumps.slice blob).length := by
    rw [Section.length_slice hm.jumps_inside]
    exact hm.sound.wholeJumps
  rw [Program.jumpBytes, hm.jumps_eq, entries_ofList hc.ascending,
    flatMap_readPairs m.order hwhole]

/-- All words of the header follow from the contents. -/
theorem header_program (lines : WordMap Int) :
    (m.program lines).header m.options = m.header := by
  have hdata : (m.program lines).dataSection m.options = m.header.data := by
    have hsize : Program.textsSize false m.data = m.header.data.size.toNat := by
      rw [Program.textsSize_false, hm.dataBytes_data hc, Section.length_slice hm.data_inside]
    change Section.mk 80 (.ofNat (Program.textsSize false m.data)) = _
    rw [hsize, UInt64.ofNat_toNat, ← hc.data_start]
  have hjumps : (m.program lines).jumpSection m.options = m.header.jumps := by
    have hsize : m.jumps.size * 16 = m.header.jumps.size.toNat := by
      rw [Nat.mul_comm, ← Program.length_jumpBytes m.order, hm.jumpBytes_jumps hc,
        Section.length_slice hm.jumps_inside]
    change Section.mk ((m.program lines).dataSection m.options).stop
      (.ofNat (m.jumps.size * 16)) = _
    rw [hdata, hsize, UInt64.ofNat_toNat, ← hc.jumps_start]
  have hcode : (m.program lines).codeSection m.options = m.header.code := by
    change Section.mk ((m.program lines).jumpSection m.options).stop (.ofNat m.code.length) = _
    rw [hjumps, hm.length_code, UInt64.ofNat_toNat, ← hc.code_start]
  have hleast : UInt64.ofNat Header.size = m.header.headerSize := hc.headerSize.symm
  rw [Program.header, hdata, hjumps, hcode, hleast]
  rfl

/-- The module of the program in a canonical module is that module. -/
theorem package_program (hlen : blob.length < 2 ^ 64) (lines : WordMap Int) :
    (m.program lines).package m.options = blob := by
  have hdata : m.header.data.start.toNat = 80 := congrArg UInt64.toNat hc.data_start
  have hjumps : m.header.jumps.start.toNat =
      m.header.data.start.toNat + m.header.data.size.toNat := by
    rw [hc.jumps_start, Section.toNat_stop (hm.data_inside.trans_lt hlen)]
  have hcode : m.header.code.start.toNat =
      m.header.jumps.start.toNat + m.header.jumps.size.toNat := by
    rw [hc.code_start, Section.toNat_stop (hm.jumps_inside.trans_lt hlen)]
  have hend : m.header.code.start.toNat + m.header.code.size.toNat = blob.length := by
    rw [← Section.toNat_stop (hm.code_inside.trans_lt hlen), hc.code_stop]
  calc (m.program lines).package m.options
      = blob.take 80 ++ m.header.data.slice blob ++ m.header.jumps.slice blob ++
          m.header.code.slice blob := by
        rw [Program.package, hm.header_program hc, ← hm.words_header, ← hm.dataBytes_data hc,
          ← hm.jumpBytes_jumps hc, ← hm.code_eq]
        rfl
    _ = blob.take 80 ++ (m.header.data.slice blob ++ (m.header.jumps.slice blob ++
          (m.header.code.slice blob ++ blob.drop blob.length))) := by
        simp only [List.append_assoc, List.drop_length, List.append_nil]
    -- From the end: each section with what follows it is the rest of the bytes from its start on.
    _ = blob.take 80 ++ blob.drop 80 := by
        rw [← hend, Section.slice_append_drop, hcode, Section.slice_append_drop, hjumps,
          Section.slice_append_drop, hdata]
    _ = blob := List.take_append_drop 80 blob

theorem zero_notMem_data : ∀ text ∈ m.data, 0 ∉ text := by
  rw [hm.data_eq]
  exact (dataBytes_splitData hc.data_ends).1

end DecodedFrom

end Module

theorem Program.isCanonical_packaged {p : Program} {opts : ModuleOptions}
    (hlen : (p.package opts).length < 2 ^ 64) (hopts : opts.legacyDataSize = false) :
    (p.packaged opts).IsCanonical (p.package opts) := by
  have hs := liesAt_declared hlen hopts
  have hlength := length_package p opts
  refine ⟨rfl, rfl, rfl, rfl, ?_, ?_, ?_⟩
  · have hstart : (p.header opts).code.start.toNat = _ := hs.code_start
    have hsize : (p.header opts).code.size.toNat = p.code.length := hs.code_size
    change (p.header opts).code.stop.toNat = _
    rw [Section.toNat_stop (by omega), hstart, hsize, hlength]
  · have hslice : (p.header opts).data.slice (p.package opts) = dataBytes p.data :=
      hs.slice_data opts
    change (p.header opts).data.slice (p.package opts) = [] ∨ _
    rw [packaged, hslice]
    exact dataBytes_ends p.data
  · have hslice : (p.header opts).jumps.slice (p.package opts) = jumpBytes p.order p.jumps :=
      hs.slice_jumps opts
    change (readPairs p.order ((p.header opts).jumps.slice (p.package opts))).Pairwise _
    rw [hslice, readPairs_jumpBytes]
    exact p.jumps.ascending

/-- Bytes are the module of a program if and only if they can be read and what is read is canonical.
Such a module is written again from what is read, whatever the lines of the program. -/
theorem package_iff_isCanonical (order : ByteOrder) (blob : Bytes) (hlen : blob.length < 2 ^ 63) :
    ((∃ (p : Program) (opts : ModuleOptions),
        p.order = order ∧ (∀ text ∈ p.data, 0 ∉ text) ∧ p.code ≠ [] ∧ 2 ∣ p.code.length ∧
          opts.legacyDataSize = false ∧ p.package opts = blob) ↔
      ∃ m, Module.decode blob ⟨some order, false⟩ = .ok m ∧ m.IsCanonical blob) ∧
    ∀ m, Module.decode blob ⟨some order, false⟩ = .ok m → m.IsCanonical blob →
      ∀ lines : WordMap Int,
        Program.package
          { data := m.data, jumps := m.jumps, code := m.code, sourceMap := lines, order := order }
          { version := m.header.version, minVersion := m.header.minVersion,
            flags := m.header.flags, legacyDataSize := false } = blob := by
  have hlen' : blob.length < 2 ^ 64 := Nat.lt_trans hlen (by decide)
  have hagain : ∀ m, Module.decode blob ⟨some order, false⟩ = .ok m → m.IsCanonical blob →
      ∀ lines, m.order = order ∧ m.DecodedFrom blob ∧
        (m.program lines).package m.options = blob := by
    intro m hm hc lines
    obtain ⟨hfrom, horder⟩ := Module.decodedFrom_of_decode hlen' hm
    exact ⟨horder, hfrom, hfrom.package_program hc hlen' lines⟩
  refine ⟨⟨?_, ?_⟩, ?_⟩
  · rintro ⟨p, opts, rfl, hdata, hcode, heven, hopts, rfl⟩
    exact ⟨p.packaged opts, Program.decode_package_declared hlen' hdata hcode heven hopts,
      Program.isCanonical_packaged hlen' hopts⟩
  · rintro ⟨m, hm, hc⟩
    obtain ⟨horder, hfrom, hblob⟩ := hagain m hm hc .empty
    refine ⟨m.program .empty, m.options, horder, hfrom.zero_notMem_data hc, ?_, ?_, rfl, hblob⟩
    · apply List.length_pos_iff.mp
      rw [Module.program, hfrom.length_code]
      exact hfrom.sound.someCode
    · rw [Module.program, hfrom.length_code]
      exact hfrom.sound.evenCode
  · intro m hm hc lines
    obtain ⟨rfl, -, hblob⟩ := hagain m hm hc lines
    exact hblob

theorem package_iff_isCanonical_twoJumps :
    (Program.twoJumps.package { flags := 5 }).length < 2 ^ 63 ∧
      ∃ m, Module.decode (Program.twoJumps.package { flags := 5 }) ⟨some .big, false⟩ = .ok m ∧
        m.IsCanonical (Program.twoJumps.package { flags := 5 }) ∧
        Program.package ⟨m.data, m.jumps, m.code, .empty, .big⟩
          ⟨m.header.version, m.header.minVersion, m.header.flags, false⟩ =
            Program.twoJumps.package { flags := 5 } := by
  have hlen : (Program.twoJumps.package { flags := 5 }).length < 2 ^ 63 := by decide +kernel
  have hdata : ∀ text ∈ Program.twoJumps.data, 0 ∉ text := by decide +kernel
  have hcode : Program.twoJumps.code ≠ [] := by decide
  have heven : 2 ∣ Program.twoJumps.code.length := by decide
  obtain ⟨hiff, hagain⟩ := package_iff_isCanonical .big _ hlen
  obtain ⟨m, hm, hc⟩ := hiff.mp ⟨Program.twoJumps, _, rfl, hdata, hcode, heven, rfl, rfl⟩
  exact ⟨hlen, m, hm, hc, hagain m hm hc .empty⟩

end Dialogue
