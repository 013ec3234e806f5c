import Dialogue.Module.Disassembly
import Dialogue.Proofs.GuardedDecode
import Mathlib.Data.List.Basic

/-!
# Disassembling within bounds

A second disassembler walks through the code by a position, and looks at bytes, operands and texts
only by look-ups that may fail. Each of its loops has a number of rounds, and no result if these are
used up. It agrees with `Module.disassemble`: no look-up fails and no loop runs out of rounds.
-/

namespace Dialogue

theorem Operation.operands_cases (op : Operation) (mode : UInt16) :
    op.operands mode = [] ∨ op.operands mode = [.literal] ∨ op.operands mode = [.hashed] ∨
      op.operands mode = [.dataRef] ∨ op.operands mode = [.maybeRef] ∨
        op.operands mode = [.packRef, .literal] := by
  cases op with
  | noOp | halt | sync | userInput | line | emotion | color | wait | jump => simp [operands]
  | actor | action | namedCall =>
    rw [operands]
    split <;> simp

@[simp] theorem length_readWords (order : ByteOrder) (n : Nat) (bs : Bytes) :
    (readWords order n bs).length = n := by
  induction n generalizing bs with
  | zero => rfl
  | succ n ih => rw [readWords, List.length_cons, ih]

theorem toNat_pos {w : UInt64} (h : w ≠ 0) : 0 < w.toNat :=
  Nat.pos_of_ne_zero fun hzero => h (UInt64.toNat_inj.mp hzero)

theorem ref?_within {data : List Bytes} {v : UInt64} {text : Bytes}
    (h : ref? data v = some text) : v ≠ 0 ∧ v.toNat ≤ data.length := by
  rw [ref?] at h
  split at h
  · cases h
  · rename_i hne
    obtain ⟨hlt, -⟩ := List.getElem?_eq_some_iff.mp h
    have hpos := toNat_pos hne
    exact ⟨hne, by omega⟩

theorem toNat_add_one {w : UInt64} (h : w + 1 ≠ 0) : (w + 1).toNat = w.toNat + 1 := by
  have hw := w.toNat_lt
  have hsum : (w + 1).toNat = (w.toNat + 1) % 2 ^ 64 := UInt64.toNat_add w 1
  have hpos := toNat_pos h
  omega

theorem toNat_add_one_of_lt {j n : UInt64} (h : j < n) : (j + 1).toNat = j.toNat + 1 := by
  have hn := n.toNat_lt
  have hlt := UInt64.lt_iff_toNat_lt.mp h
  rw [UInt64.toNat_add]
  exact Nat.mod_eq_of_lt (by change j.toNat + 1 < 2 ^ 64; omega)

section

-- The texts of a pack from its place `j` on.

variable {data : List Bytes} {v n j : UInt64}

theorem refs_of_not_lt (hj : j ≤ n) (h : ¬ j < n) : refs data (v + j) (n - j) = [] := by
  have hend : j = n := UInt64.le_antisymm hj (UInt64.not_lt.mp h)
  rw [refs, if_pos (by rw [hend, UInt64.sub_self])]

theorem word_sub_ne_zero (h : j < n) : n - j ≠ 0 :=
  fun hzero => UInt64.ne_of_lt h (by grind)

theorem refs_of_none (hlt : j < n) (h : ref? data (v + j) = none) :
    refs data (v + j) (n - j) = [] := by
  rw [refs, if_neg (word_sub_ne_zero hlt), h]

theorem refs_of_some (hlt : j < n) {text : Bytes} (h : ref? data (v + j) = some text) :
    refs data (v + j) (n - j) = text :: refs data (v + (j + 1)) (n - (j + 1)) := by
  have hleft : n - (j + 1) = n - j - 1 := by grind
  rw [refs, if_neg (word_sub_ne_zero hlt), h, ← UInt64.add_assoc, hleft]

end

namespace Guarded

def word16? (order : ByteOrder) (code : Bytes) (pos : Nat) : Option UInt16 :=
  if pos + 2 ≤ code.length then some (order.read16 (code.drop pos)) else none

def word64? (order : ByteOrder) (code : Bytes) (pos : Nat) : Option UInt64 :=
  if pos + 8 ≤ code.length then some (order.read64 (code.drop pos)) else none

/-- The text with the given number, if there is one. The outer option is that of the look-up. -/
def text? (data : List Bytes) (v : UInt64) : Option (Option Bytes) :=
  if v = 0 ∨ data.length < v.toNat then some none else (data[(v - 1).toNat]?).map some

/-- The texts with the numbers from `v + j` to `v + n`, up to the first one that is missing. -/
def textsFrom (data : List Bytes) (v n : UInt64) : (rounds : Nat) → (j : UInt64) →
    Option (List Bytes)
  | 0, j => if j < n then none else some []
  | rounds + 1, j =>
    if j < n then do
      match ← text? data (v + j) with
      | none => return []
      | some text => return text :: (← textsFrom data v n rounds (j + 1))
    else some []

/-- The parts of a comment, for the operands from place `i` on. -/
def parts (data : List Bytes) (operands : List UInt64) : (i : Nat) → List OperandKind →
    Option (List String)
  | _, [] => some []
  | i, kind :: kinds => do
    let v ← operands[i]?
    match kind with
    | .literal | .hashed => parts data operands (i + 1) kinds
    | .dataRef | .maybeRef =>
      match ← text? data v with
      | none => parts data operands (i + 1) kinds
      | some text => return Quoted.text text :: (← parts data operands (i + 1) kinds)
    | .packRef =>
      let n ← operands[i + 1]?
      let texts ← textsFrom data v n (data.length + 1) 0
      return ["(" ++ ", ".intercalate (texts.map Quoted.text) ++ ")"]

/-- The operands of an opcode, one after the other. -/
def operandsFrom (order : ByteOrder) (op : Operation) (code : Bytes) : (count pos : Nat) →
    ExceptT DecodeError Option (List UInt64)
  | 0, _ => return []
  | count + 1, pos => do
    if code.length < pos + 8 then throw (.truncatedOperand op pos)
    let value ← ExceptT.lift (word64? order code pos)
    return value :: (← operandsFrom order op code count (pos + 8))

/-- The entries of the code from a position on. -/
def entriesFrom (order : ByteOrder) (data : List Bytes) (code : Bytes) : (rounds pos : Nat) →
    ExceptT DecodeError Option (List CodeEntry)
  | 0, pos => if pos < code.length then ExceptT.lift none else return []
  | rounds + 1, pos =>
    if pos < code.length then do
      if code.length < pos + 2 then throw (.truncatedOpcode pos)
      let opcode := Opcode.ofWord (← ExceptT.lift (word16? order code pos))
      let some op := Operation.ofCode? opcode.operation
        | throw (.unknownOperation opcode.operation pos)
      let kinds := op.operands opcode.mode
      let operands ← operandsFrom order op code kinds.length (pos + 2)
      let comment ← ExceptT.lift (parts data operands 0 kinds)
      let later ← entriesFrom order data code rounds (pos + 2 + 8 * kinds.length)
      return { offset := pos, op := op, mode := opcode.mode, operands := operands,
               comment := " ".intercalate comment } :: later
    else return []

/-- The code of a module as entries. Every round but the last reads an opcode. -/
def disassemble (m : Module) : ExceptT DecodeError Option (List CodeEntry) :=
  entriesFrom m.order m.data m.code m.code.length 0

section

variable {ε α β : Type} {x : ExceptT ε Option α}

theorem bind_of_run_ok {a : α} (h : x.run = some (.ok a)) (f : α → ExceptT ε Option β) :
    x >>= f = f a := by
  have hx : x = pure a := h
  rw [hx]
  rfl

theorem run_bind_of_run_error {e : ε} (h : x.run = some (.error e))
    (f : α → ExceptT ε Option β) : (x >>= f).run = some (.error e) := by
  have hx : x = throw e := h
  rw [hx]
  rfl

theorem run_bind_pure {r : Except ε α} (h : x.run = some r) (f : α → β) :
    (x >>= fun a => pure (f a)).run = some (r.map f) := by
  cases r with
  | error e => exact run_bind_of_run_error h _
  | ok a =>
    rw [bind_of_run_ok h]
    rfl

end

section

variable (order : ByteOrder) (data : List Bytes) (code : Bytes)

theorem text?_eq (v : UInt64) : text? data v = some (ref? data v) := by
  by_cases hzero : v = 0
  · rw [text?, ref?, if_pos (.inl hzero), if_pos hzero]
  have hpos := toNat_pos hzero
  have hbefore : (v - 1).toNat = v.toNat - 1 :=
    UInt64.toNat_sub_of_le _ _ (UInt64.le_iff_toNat_le.mpr hpos)
  rw [text?, ref?, if_neg hzero, hbefore]
  by_cases hlarge : data.length < v.toNat
  · rw [if_pos (.inr hlarge), List.getElem?_eq_none (by omega)]
  · have hlt : v.toNat - 1 < data.length := by omega
    rw [if_neg (not_or.mpr ⟨hzero, hlarge⟩), List.getElem?_eq_getElem hlt]
    rfl

/-- The loop over the texts of a pack. A text that is found has a number within the table, so that
the number after it is either one more or wraps around to zero, where there is no text. -/
theorem textsFrom_eq {v n : UInt64} {rounds : Nat} {j : UInt64} (hj : j ≤ n) (hpos : 0 < rounds)
    (hrounds : v + j ≠ 0 → data.length + 2 ≤ rounds + (v + j).toNat) :
    textsFrom data v n rounds j = some (refs data (v + j) (n - j)) := by
  induction rounds generalizing j with
  | zero => exact absurd hpos (Nat.lt_irrefl 0)
  | succ rounds ih =>
    rw [textsFrom]
    by_cases hlt : j < n
    · rw [if_pos hlt, text?_eq]
      cases htext : ref? data (v + j) with
      | none =>
        rw [refs_of_none hlt htext]
        rfl
      | some text =>
        obtain ⟨hne, hwithin⟩ := ref?_within htext
        have hbound := hrounds hne
        have hsucc := toNat_add_one_of_lt hlt
        have hlater : textsFrom data v n rounds (j + 1) = some (refs data (v + (j + 1))
            (n - (j + 1))) := by
          apply ih
          · have hlt := UInt64.lt_iff_toNat_lt.mp hlt
            rw [UInt64.le_iff_toNat_le, hsucc]
            exact hlt
          · omega
          · intro hne'
            rw [← UInt64.add_assoc] at hne' ⊢
            rw [toNat_add_one hne']
            omega
        rw [refs_of_some hlt htext]
        simp [hlater]
    · rw [if_neg hlt, refs_of_not_lt hj hlt]

theorem textsFrom_zero_eq (v n : UInt64) :
    textsFrom data v n (data.length + 1) 0 = some (refs data v n) := by
  have hleast : (0 : UInt64) ≤ n := UInt64.le_iff_toNat_le.mpr (Nat.zero_le _)
  have hrounds : v + 0 ≠ 0 → data.length + 2 ≤ data.length + 1 + (v + 0).toNat := by
    intro hne
    have hpos := toNat_pos hne
    omega
  rw [textsFrom_eq data hleast (Nat.succ_pos _) hrounds, UInt64.add_zero, UInt64.sub_zero]

/-- Operands and texts are found for every comment. -/
theorem parts_eq {op : Operation} {mode : UInt16} {operands : List UInt64}
    (h : operands.length = (op.operands mode).length) :
    (parts data operands 0 (op.operands mode)).map (" ".intercalate ·) =
      some (annotate data (op.operands mode) operands) := by
  rcases op.operands_cases mode with hkinds | hkinds | hkinds | hkinds | hkinds | hkinds
  all_goals rw [hkinds] at h ⊢
  · rfl
  · obtain ⟨v, rfl⟩ := List.length_eq_one_iff.mp h
    rfl
  · obtain ⟨v, rfl⟩ := List.length_eq_one_iff.mp h
    rfl
  · obtain ⟨v, rfl⟩ := List.length_eq_one_iff.mp h
    cases htext : ref? data v <;> simp [parts, annotate, text?_eq, htext]
  · obtain ⟨v, rfl⟩ := List.length_eq_one_iff.mp h
    cases htext : ref? data v <;> simp [parts, annotate, text?_eq, htext]
  · obtain ⟨v, n, rfl⟩ := List.length_eq_two.mp h
    simp [parts, annotate, textsFrom_zero_eq]

/-- The operands are all there, or the first that is not whole stands behind the whole ones. -/
theorem run_operandsFrom (op : Operation) (count : Nat) {pos : Nat} (hpos : pos ≤ code.length) :
    (operandsFrom order op code count pos).run =
      some (if code.length < pos + 8 * count then
          .error (.truncatedOperand op (pos + (code.length - pos) / 8 * 8))
        else .ok (readWords order count (code.drop pos))) := by
  induction count generalizing pos with
  | zero =>
    rw [if_neg (by omega)]
    rfl
  | succ count ih =>
    rw [operandsFrom]
    by_cases hshort : code.length < pos + 8
    · have hlast : (code.length - pos) / 8 * 8 = 0 := by omega
      rw [if_pos hshort, if_pos (by omega), hlast]
      rfl
    · have hword : word64? order code pos = some (order.read64 (code.drop pos)) :=
        if_pos (by omega)
      simp only [if_neg hshort, hword, lift_some_bind]
      rw [run_bind_pure (ih (by omega)) (order.read64 (code.drop pos) :: ·)]
      by_cases hlong : code.length < pos + 8 + 8 * count
      · have hlast : pos + 8 + (code.length - (pos + 8)) / 8 * 8 =
            pos + (code.length - pos) / 8 * 8 := by omega
        rw [if_pos hlong, if_pos (by omega), hlast]
        rfl
      · rw [if_neg hlong, if_neg (by omega), readWords, List.drop_drop]
        rfl

/-- The walk through the code, by induction on the number of rounds. -/
theorem run_entriesFrom {rounds pos : Nat} (hrounds : code.length ≤ pos + rounds) :
    (entriesFrom order data code rounds pos).run =
      some (Dialogue.entriesFrom order data pos (code.drop pos)) := by
  induction rounds generalizing pos with
  | zero =>
    rw [entriesFrom, if_neg (by omega), List.drop_eq_nil_of_le (by omega), Dialogue.entriesFrom]
    rfl
  | succ rounds ih =>
    rw [entriesFrom]
    by_cases hend : pos < code.length
    swap
    · rw [if_neg hend, List.drop_eq_nil_of_le (by omega), Dialogue.entriesFrom]
      rfl
    rw [if_pos hend]
    by_cases hshort : code.length < pos + 2
    · obtain ⟨b, hb⟩ : ∃ b, code.drop pos = [b] :=
        List.length_eq_one_iff.mp (by rw [List.length_drop]; omega)
      rw [if_pos hshort, hb, Dialogue.entriesFrom]
      rfl
    obtain ⟨b₀, b₁, hcode⟩ : ∃ b₀ b₁, code.drop pos = b₀ :: b₁ :: code.drop (pos + 2) := by
      refine ⟨code[pos], code[pos + 1], ?_⟩
      rw [List.drop_eq_getElem_cons hend, List.drop_eq_getElem_cons (by omega)]
    have hword : word16? order code pos = some (order.read16 [b₀, b₁]) := by
      rw [word16?, if_pos (by omega), hcode]
      rfl
    rw [hcode, Dialogue.entriesFrom]
    simp only [if_neg hshort, hword, lift_some_bind]
    cases hop : Operation.ofCode? (Opcode.ofWord (order.read16 [b₀, b₁])).operation with
    | none => rfl
    | some op =>
      let kinds := op.operands (Opcode.ofWord (order.read16 [b₀, b₁])).mode
      have hoperands := run_operandsFrom order code op kinds.length (by omega : pos + 2 ≤ _)
      have htake : ((code.drop (pos + 2)).take (8 * kinds.length)).length < 8 * kinds.length ↔
          code.length < pos + 2 + 8 * kinds.length := by
        rw [List.length_take, List.length_drop]
        omega
      by_cases hlong : code.length < pos + 2 + 8 * kinds.length
      · rw [if_pos hlong] at hoperands
        dsimp only
        rw [if_pos (htake.mpr hlong), run_bind_of_run_error hoperands, List.length_drop]
      · rw [if_neg hlong] at hoperands
        have hcount : (readWords order kinds.length (code.drop (pos + 2))).length = kinds.length :=
          length_readWords _ _ _
        obtain ⟨ps, hps, hcomment⟩ := Option.map_eq_some_iff.mp (parts_eq data hcount)
        dsimp only
        rw [if_neg (mt htake.mp hlong), bind_of_run_ok hoperands, hps, lift_some_bind,
          run_bind_pure (ih (by omega)), hcomment, List.drop_drop]

theorem run_disassemble (m : Module) : (disassemble m).run = some m.disassemble := by
  have henough : m.code.length ≤ 0 + m.code.length := by omega
  exact run_entriesFrom m.order m.data m.code henough

end

end Guarded

end Dialogue
