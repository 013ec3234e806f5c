import Dialogue.Proofs.CodeEntries
import Dialogue.Proofs.GuardedDisassembly
import Mathlib.Data.List.Chain

/-!
# Code as a row of frames

A frame is an opcode of a known operation with exactly the operands that its operation and mode ask
for. Code can be disassembled if and only if it is a row of frames, and then it is so in one way:
`entriesFrom_eq_ok_iff` gives the entries from the frames and the frames from the entries.
-/

namespace Dialogue

namespace Opcode

theorem mode_ofWord_lt (w : UInt16) : (ofWord w).mode < 0x10 := by
  have hw := w.toNat_lt
  rw [UInt16.lt_iff_toNat_lt, ofWord, UInt16.toNat_div]
  change w.toNat / 4096 < 16
  omega

theorem toWord_ofWord (w : UInt16) : toWord (ofWord w) = w := by
  have hw := w.toNat_lt
  have hmode : (w / 0x1000).toNat = w.toNat / 4096 := UInt16.toNat_div w 0x1000
  have hoperation : (w % 0x1000).toNat = w.toNat % 4096 := UInt16.toNat_mod w 0x1000
  apply UInt16.toNat_inj.mp
  simp only [toWord, ofWord, UInt16.toNat_add, UInt16.toNat_mul, UInt16.toNat_mod, hmode,
    hoperation]
  change (w.toNat % 4096 % 4096 + w.toNat / 4096 % 16 * 4096 % 65536) % 65536 = w.toNat
  omega

end Opcode

theorem flatMap_readWords (order : ByteOrder) {n : Nat} {bs : Bytes} (h : 8 * n ≤ bs.length) :
    (readWords order n bs).flatMap order.write64 = bs.take (8 * n) := by
  induction n generalizing bs with
  | zero => rfl
  | succ n ih =>
    have hrest : 8 * n ≤ (bs.drop 8).length := by
      rw [List.length_drop]
      omega
    have hsplit : 8 * (n + 1) = 8 + 8 * n := by omega
    rw [readWords, List.flatMap_cons, order.write64_read64 (by omega), ih hrest, hsplit,
      List.take_add]

/-- An opcode with the operands that it asks for. -/
structure Frame where
  op : Operation
  mode : UInt16
  operands : List UInt64
  mode_lt : mode < 0x10
  length_operands : operands.length = (op.operands mode).length
  deriving DecidableEq

namespace Frame

def bytes (order : ByteOrder) (f : Frame) : Bytes :=
  order.write16 (Opcode.toWord ⟨f.op.code, f.mode⟩) ++ f.operands.flatMap order.write64

def size (f : Frame) : Nat :=
  2 + 8 * f.operands.length

def entry (data : List Bytes) (offset : Nat) (f : Frame) : CodeEntry where
  offset := offset
  op := f.op
  mode := f.mode
  operands := f.operands
  comment := annotate data (f.op.operands f.mode) f.operands

/-- The entries of frames that stand one behind the other from an offset on. -/
def entries (data : List Bytes) : (offset : Nat) → List Frame → List CodeEntry
  | _, [] => []
  | offset, f :: fs => f.entry data offset :: entries data (offset + f.size) fs

@[simp] theorem length_bytes (order : ByteOrder) (f : Frame) : (f.bytes order).length = f.size := by
  rw [bytes, List.length_append, order.length_write16, order.length_flatMap_write64, size]

variable {order : ByteOrder} {data : List Bytes} {offset : Nat}

/-- A frame at the start of the code is its first entry. -/
theorem entriesFrom_bytes_append (f : Frame) (rest : Bytes) :
    entriesFrom order data offset (f.bytes order ++ rest) =
      (entriesFrom order data (offset + f.size) rest).map (f.entry data offset :: ·) := by
  have hmode : f.mode % 0x10 = f.mode := by
    have hlt := UInt16.lt_iff_toNat_lt.mp f.mode_lt
    apply UInt16.toNat_inj.mp
    rw [UInt16.toNat_mod]
    exact Nat.mod_eq_of_lt hlt
  have hcount : f.operands.length = (f.op.operands (f.mode % 0x10)).length := by
    rw [hmode]
    exact f.length_operands
  have hone := entriesFrom_append order data offset f.op f.mode hcount rest
  rw [hmode, Nat.add_assoc] at hone
  exact hone

theorem entriesFrom_flatMap_append (fs : List Frame) (rest : Bytes) :
    entriesFrom order data offset (fs.flatMap (bytes order) ++ rest) =
      (entriesFrom order data (offset + (fs.flatMap (bytes order)).length) rest).map
        (entries data offset fs ++ ·) := by
  induction fs generalizing offset with
  | nil =>
    cases h : entriesFrom order data offset rest <;> simp [entries, Except.map, h]
  | cons f fs ih =>
    rw [List.flatMap_cons, List.append_assoc, entriesFrom_bytes_append, ih, List.length_append,
      length_bytes, Nat.add_assoc]
    cases entriesFrom order data (offset + (f.size + (fs.flatMap (bytes order)).length)) rest with
    | error e => rfl
    | ok es => rfl

theorem entriesFrom_flatMap (fs : List Frame) :
    entriesFrom order data offset (fs.flatMap (bytes order)) = .ok (entries data offset fs) := by
  rw [← List.append_nil (fs.flatMap (bytes order)), entriesFrom_flatMap_append, entriesFrom]
  simp [Except.map]

/-- An opcode word of a known operation, with as many operands as it asks for. -/
def read (order : ByteOrder) (word : UInt16) (op : Operation) (rest : Bytes) : Frame where
  op := op
  mode := (Opcode.ofWord word).mode
  operands := readWords order (op.operands (Opcode.ofWord word).mode).length rest
  mode_lt := Opcode.mode_ofWord_lt word
  length_operands := length_readWords _ _ _

theorem size_read (word : UInt16) (op : Operation) (rest : Bytes) :
    (read order word op rest).size = 2 + 8 * (op.operands (Opcode.ofWord word).mode).length := by
  rw [size, read, length_readWords]

/-- A frame that is read from code gives the bytes back that it was read from. -/
theorem bytes_read {b₀ b₁ : UInt8} {rest : Bytes} {op : Operation}
    (hop : Operation.ofCode? (Opcode.ofWord (order.read16 [b₀, b₁])).operation = some op)
    (hlong : 8 * (op.operands (Opcode.ofWord (order.read16 [b₀, b₁])).mode).length ≤ rest.length) :
    (read order (order.read16 [b₀, b₁]) op rest).bytes order =
      b₀ :: b₁ :: rest.take (8 * (op.operands (Opcode.ofWord (order.read16 [b₀, b₁])).mode).length)
    := by
  have hword : Opcode.toWord ⟨op.code, (Opcode.ofWord (order.read16 [b₀, b₁])).mode⟩ =
      order.read16 [b₀, b₁] := by
    rw [Operation.code_of_ofCode? hop]
    exact Opcode.toWord_ofWord _
  have htwo : order.write16 (order.read16 [b₀, b₁]) = [b₀, b₁] :=
    order.write16_read16 (by simp)
  simp only [bytes, read]
  rw [hword, htwo, flatMap_readWords order hlong]
  rfl

end Frame

/-- Code is disassembled if and only if it is a row of frames. -/
theorem entriesFrom_eq_ok_iff {order : ByteOrder} {data : List Bytes} {offset : Nat} {code : Bytes}
    {es : List CodeEntry} :
    entriesFrom order data offset code = .ok es ↔
      ∃ fs : List Frame, fs.flatMap (Frame.bytes order) = code ∧
        Frame.entries data offset fs = es := by
  constructor
  · intro h
    fun_induction entriesFrom order data offset code generalizing es with
    | case1 offset =>
      cases h
      exact ⟨[], rfl, rfl⟩
    | case2 => cases h
    | case3 => cases h
    | case4 => cases h
    | case5 offset b₀ b₁ rest opcode op hop kinds width hlong operands entry =>
      rename_i ih
      obtain ⟨later, hlater, rfl⟩ := Result.map_eq_ok_iff.mp h
      obtain ⟨fs, hfs, rfl⟩ := ih hlater
      have hwidth : width ≤ rest.length := by
        rw [List.length_take] at hlong
        omega
      refine ⟨Frame.read order (order.read16 [b₀, b₁]) op rest :: fs, ?_, ?_⟩
      · rw [List.flatMap_cons, Frame.bytes_read hop hwidth, hfs, List.cons_append, List.cons_append,
          List.take_append_drop]
      · rw [Frame.entries, Frame.size_read, ← Nat.add_assoc]
        rfl
  · rintro ⟨fs, rfl, rfl⟩
    exact Frame.entriesFrom_flatMap fs

namespace Frame

theorem entry_injective (data : List Bytes) (offset : Nat) :
    Function.Injective (entry data offset) := by
  intro f g h
  have hop : f.op = g.op := congrArg CodeEntry.op h
  have hmode : f.mode = g.mode := congrArg CodeEntry.mode h
  have hoperands : f.operands = g.operands := congrArg CodeEntry.operands h
  cases f
  cases g
  cases hop
  cases hmode
  cases hoperands
  rfl

theorem entries_injective (data : List Bytes) (offset : Nat) :
    Function.Injective (entries data offset) := by
  intro fs gs h
  induction fs generalizing offset gs with
  | nil =>
    cases gs with
    | nil => rfl
    | cons g gs => cases h
  | cons f fs ih =>
    cases gs with
    | nil => cases h
    | cons g gs =>
      obtain ⟨hfirst, hlater⟩ := List.cons.inj h
      have hfg : f = g := entry_injective data offset hfirst
      subst hfg
      rw [ih _ hlater]

/-- Code is a row of frames in one way only. -/
theorem flatMap_bytes_injective (order : ByteOrder) :
    Function.Injective fun fs : List Frame => fs.flatMap (bytes order) := by
  intro fs gs h
  have hentries : entriesFrom order [] 0 (fs.flatMap (bytes order)) =
      entriesFrom order [] 0 (gs.flatMap (bytes order)) := congrArg _ h
  rw [entriesFrom_flatMap, entriesFrom_flatMap] at hentries
  exact entries_injective [] 0 (Except.ok.inj hentries)

end Frame

/-! ## Offsets -/

namespace Frame

variable {data : List Bytes} {offset : Nat}

theorem offset_of_mem_head? {fs : List Frame} {e : CodeEntry}
    (h : e ∈ (entries data offset fs).head?) : e.offset = offset := by
  cases fs with
  | nil => cases h
  | cons f fs =>
    cases h
    rfl

theorem isChain_entries (fs : List Frame) :
    (entries data offset fs).IsChain fun e e' => e'.offset = e.offset + 2 + 8 * e.operands.length
    := by
  induction fs generalizing offset with
  | nil => exact .nil
  | cons f fs ih =>
    refine List.isChain_cons.mpr ⟨?_, ih⟩
    intro e he
    rw [offset_of_mem_head? he, size, ← Nat.add_assoc]
    rfl

theorem stop_of_mem_getLast? (order : ByteOrder) {fs : List Frame} {e : CodeEntry}
    (h : e ∈ (entries data offset fs).getLast?) :
    e.offset + 2 + 8 * e.operands.length = offset + (fs.flatMap (bytes order)).length := by
  induction fs generalizing offset with
  | nil => cases h
  | cons f fs ih =>
    rw [List.flatMap_cons, List.length_append, length_bytes, ← Nat.add_assoc]
    cases fs with
    | nil =>
      cases h
      rw [List.flatMap_nil, List.length_nil, size, ← Nat.add_assoc]
      rfl
    | cons g fs => exact ih h

/-- An offset of an entry is the length of the frames in front of it. -/
theorem exists_append_of_mem_offsets (order : ByteOrder) {fs : List Frame} {n : Nat}
    (h : n ∈ (entries data offset fs).map CodeEntry.offset) :
    ∃ before after, before ++ after = fs ∧
      n = offset + (before.flatMap (bytes order)).length := by
  induction fs generalizing offset with
  | nil => cases h
  | cons f fs ih =>
    rcases List.mem_cons.mp h with rfl | h
    · exact ⟨[], f :: fs, rfl, rfl⟩
    · obtain ⟨before, after, rfl, rfl⟩ := ih h
      refine ⟨f :: before, after, rfl, ?_⟩
      rw [List.flatMap_cons, List.length_append, length_bytes, Nat.add_assoc]

end Frame

def CodeEntry.bytes (order : ByteOrder) (e : CodeEntry) : Bytes :=
  order.write16 (Opcode.toWord ⟨e.op.code, e.mode⟩) ++ e.operands.flatMap order.write64

/-- Whether entries stand one behind the other from the start of code to its end, and give its bytes
back. -/
structure Covers (order : ByteOrder) (es : List CodeEntry) (code : Bytes) : Prop where
  offset_head : ∀ e ∈ es.head?, e.offset = 0
  offset_next : es.IsChain fun e e' => e'.offset = e.offset + 2 + 8 * e.operands.length
  stop_last : ∀ e ∈ es.getLast?, e.offset + 2 + 8 * e.operands.length = code.length
  bytes_eq : es.flatMap (CodeEntry.bytes order) = code

theorem Frame.flatMap_bytes_entries (order : ByteOrder) (data : List Bytes) (offset : Nat)
    (fs : List Frame) :
    (entries data offset fs).flatMap (CodeEntry.bytes order) = fs.flatMap (bytes order) := by
  induction fs generalizing offset with
  | nil => rfl
  | cons f fs ih =>
    rw [entries, List.flatMap_cons, List.flatMap_cons, ih]
    rfl

theorem Frame.covers_entries (order : ByteOrder) (data : List Bytes) (fs : List Frame) :
    Covers order (entries data 0 fs) (fs.flatMap (bytes order)) where
  offset_head := fun _ he => offset_of_mem_head? he
  offset_next := isChain_entries fs
  stop_last := by
    intro e he
    rw [stop_of_mem_getLast? order he, Nat.zero_add]
  bytes_eq := flatMap_bytes_entries order data 0 fs

theorem exists_entriesFrom_take_iff {order : ByteOrder} {data : List Bytes} {code : Bytes}
    {es : List CodeEntry} (hes : entriesFrom order data 0 code = .ok es) {n : Nat}
    (hn : n < code.length) :
    (∃ es', entriesFrom order data 0 (code.take n) = .ok es') ↔ n ∈ es.map CodeEntry.offset := by
  constructor
  · rintro ⟨es', hes'⟩
    -- Behind the frames of the cut code the rest is disassembled from the offset `n` on, and its
    -- first entry stands there.
    obtain ⟨gs, hgs, -⟩ := entriesFrom_eq_ok_iff.mp hes'
    have hlength : (gs.flatMap (Frame.bytes order)).length = n := by
      rw [hgs, List.length_take_of_le (Nat.le_of_lt hn)]
    rw [← List.take_append_drop n code, ← hgs, Frame.entriesFrom_flatMap_append,
      Result.map_eq_ok_iff, hlength, Nat.zero_add] at hes
    obtain ⟨later, hlater, rfl⟩ := hes
    obtain ⟨hs, hhs, rfl⟩ := entriesFrom_eq_ok_iff.mp hlater
    cases hs with
    | nil =>
      have hempty := congrArg List.length hhs
      rw [List.flatMap_nil, List.length_nil, List.length_drop] at hempty
      omega
    | cons f hs => simp [Frame.entries, Frame.entry]
  · intro hmem
    obtain ⟨fs, rfl, rfl⟩ := entriesFrom_eq_ok_iff.mp hes
    obtain ⟨before, after, rfl, rfl⟩ := Frame.exists_append_of_mem_offsets order hmem
    rw [Nat.zero_add, List.flatMap_append, List.take_left]
    exact ⟨_, Frame.entriesFrom_flatMap before⟩

/-- Code is disassembled, without a look outside of it, if and only if it is a row of frames. The
entries cover it, and of its proper beginnings those that end at an offset of an entry can be
disassembled as well. -/
theorem disassemble_iff_frames (m : Module) :
    (Guarded.disassemble m).run = some m.disassemble ∧
    ((∃ es, m.disassemble = .ok es) ↔
      ∃ fs : List Frame, fs.flatMap (Frame.bytes m.order) = m.code) ∧
    ∀ es, m.disassemble = .ok es →
      Covers m.order es m.code ∧
      ∀ n < m.code.length, (∃ es', { m with code := m.code.take n }.disassemble = .ok es') ↔
        n ∈ es.map CodeEntry.offset := by
  refine ⟨Guarded.run_disassemble m, ?_, ?_⟩
  · simp only [Module.disassemble, entriesFrom_eq_ok_iff]
    constructor
    · rintro ⟨es, fs, hfs, -⟩
      exact ⟨fs, hfs⟩
    · rintro ⟨fs, hfs⟩
      exact ⟨_, fs, hfs, rfl⟩
  · intro es hes
    refine ⟨?_, fun n hn => exists_entriesFrom_take_iff hes hn⟩
    obtain ⟨fs, hfs, rfl⟩ := entriesFrom_eq_ok_iff.mp hes
    rw [← hfs]
    exact Frame.covers_entries m.order m.data fs

/-- A line, the opcode of the wildcard, and a call with a pack. -/
def threeFrames : List Frame :=
  [⟨.line, 0, [3], by decide, rfl⟩, ⟨.actor, 2, [], by decide, rfl⟩,
   ⟨.namedCall, 1, [4, 2], by decide, rfl⟩]

/-- A module with the code of `threeFrames`, cut off at the given length. -/
def threeFramesCut (n : Nat) : Module where
  header := (Program.start none).header {}
  data := []
  jumps := .empty
  code := (threeFrames.flatMap (Frame.bytes .big)).take n
  order := .big

theorem disassemble_iff_frames_three :
    ∃ es, (threeFramesCut 30).disassemble = .ok es ∧
      Covers .big es (threeFrames.flatMap (Frame.bytes .big)) ∧
      (∃ es', (threeFramesCut 12).disassemble = .ok es') ∧
      ¬ ∃ es', (threeFramesCut 20).disassemble = .ok es' := by
  have hes : (threeFramesCut 30).disassemble = .ok (Frame.entries [] 0 threeFrames) :=
    Frame.entriesFrom_flatMap threeFrames
  obtain ⟨-, -, hall⟩ := disassemble_iff_frames (threeFramesCut 30)
  obtain ⟨hcovers, hcut⟩ := hall _ hes
  refine ⟨_, hes, hcovers, ?_, ?_⟩
  · exact (hcut 12 (by decide)).mpr (by decide)
  · exact mt (hcut 20 (by decide)).mp (by decide)

end Dialogue
