import Dialogue.Proofs.CodeEntries
import Dialogue.Script.Reader
import Mathlib.Logic.Function.Basic

/-!
# Names told apart by their hashes

Every step of the hash loses nothing: a block can be found again from what is folded into the
state, and a state from what the next step makes of it. Two texts that differ in one block only are
therefore still apart after that block, and every later block keeps them apart.
-/

namespace Dialogue

theorem ofLowBytes_inj {bs cs : Bytes} (hlen : bs.length = cs.length) :
    ofLowBytes bs = ofLowBytes cs ↔ bs = cs := by
  constructor
  · intro h
    rw [← lowBytes_ofLowBytes bs, ← lowBytes_ofLowBytes cs, hlen, h]
  · exact congrArg ofLowBytes

namespace NameHash

open Function

/-! ## Mixing -/

/-- The factor is odd, so a power of it is its inverse. -/
theorem factor_mul_inverse : factor * 0x5f7a0ea7e59b19bd = 1 := by decide

theorem mul_factor_injective : Injective (· * factor) := by
  intro v w h
  have hcancel := congrArg (· * 0x5f7a0ea7e59b19bd) h
  simpa only [UInt64.mul_assoc, factor_mul_inverse, UInt64.mul_one] using hcancel

/-- Two shifts by 47 leave nothing of a word, so the second fold takes back what the first put
in. -/
theorem shiftXor_shiftXor (w : UInt64) : shiftXor (shiftXor w) = w := by
  have hnothing : w >>> 47 >>> 47 = 0 := by
    apply UInt64.toNat_inj.mp
    have hlt := w.toNat_lt
    simp
    omega
  rw [shiftXor, shiftXor, UInt64.shiftRight_xor, hnothing, UInt64.xor_zero, UInt64.xor_assoc,
    UInt64.xor_self, UInt64.xor_zero]

theorem shiftXor_injective : Injective shiftXor :=
  LeftInverse.injective shiftXor_shiftXor

theorem mixBlock_injective : Injective mixBlock :=
  mul_factor_injective.comp (shiftXor_injective.comp mul_factor_injective)

theorem finish_injective : Injective finish :=
  shiftXor_injective.comp (mul_factor_injective.comp shiftXor_injective)

theorem absorb_left_injective (k : UInt64) : Injective (absorb · k) := by
  intro g h heq
  exact (UInt64.xor_left_inj k).mp (mul_factor_injective heq)

theorem absorb_right_injective (h : UInt64) : Injective (absorb h) := by
  intro j k heq
  exact (UInt64.xor_right_inj h).mp (mul_factor_injective heq)

/-! ## Blocks -/

theorem absorbAll_short {bs : Bytes} (hne : bs ≠ []) (hshort : bs.length < 8) (h : UInt64) :
    absorbAll h bs = absorb h (.ofNat (ofLowBytes bs)) := by
  have hrest : (bs.drop 7).isEmpty = true := by
    rw [List.isEmpty_iff, List.drop_eq_nil_iff]
    omega
  rw [absorbAll, if_neg (by rwa [List.isEmpty_iff]), if_pos hrest]

theorem absorbAll_long {bs : Bytes} (hlong : 8 ≤ bs.length) (h : UInt64) :
    absorbAll h bs =
      absorbAll (absorb h (mixBlock (.ofNat (ofLowBytes (bs.take 8))))) (bs.drop 8) := by
  have hsome : ¬ bs.isEmpty = true := by
    rw [List.isEmpty_iff_length_eq_zero]
    omega
  have hrest : ¬ (bs.drop 7).isEmpty = true := by
    rw [List.isEmpty_iff, List.drop_eq_nil_iff]
    omega
  rw [absorbAll, if_neg hsome, if_neg hrest]

/-- States that are apart stay apart, whatever is folded into both. -/
theorem absorbAll_injective (bs : Bytes) : Injective (absorbAll · bs) := by
  intro g h heq
  by_cases hlong : 8 ≤ bs.length
  · simp only [absorbAll_long hlong] at heq
    exact absorb_left_injective _ (absorbAll_injective (bs.drop 8) heq)
  · by_cases hbs : bs = []
    · simpa [hbs, absorbAll] using heq
    · simp only [absorbAll_short hbs (Nat.lt_of_not_le hlong)] at heq
      exact absorb_left_injective _ heq
termination_by bs.length
decreasing_by
  simp only [List.length_drop]
  omega

theorem ofNat_ofLowBytes_inj {bs cs : Bytes} (hlen : bs.length = cs.length) (hle : bs.length ≤ 8) :
    UInt64.ofNat (ofLowBytes bs) = UInt64.ofNat (ofLowBytes cs) ↔ bs = cs := by
  have hword {ds : Bytes} (hds : ds.length ≤ 8) : ofLowBytes ds < 2 ^ 64 :=
    Nat.lt_of_lt_of_le (ofLowBytes_lt ds) (Nat.pow_le_pow_right (n := 256) (by decide) hds)
  rw [← UInt64.toNat_inj, UInt64.toNat_ofNat_of_lt' (hword hle),
    UInt64.toNat_ofNat_of_lt' (hword (hlen ▸ hle)), ofLowBytes_inj hlen]

/-- Texts that differ in their first block only, which may be the last one and shorter. -/
theorem absorbAll_ne_of_first {bs cs : Bytes} (hlen : bs.length = cs.length) (hne : bs ≠ cs)
    (hbehind : bs.drop 8 = cs.drop 8) (h : UInt64) : absorbAll h bs ≠ absorbAll h cs := by
  by_cases hlong : 8 ≤ bs.length
  · have hblock : bs.take 8 ≠ cs.take 8 := by
      intro htake
      apply hne
      rw [← List.take_append_drop 8 bs, ← List.take_append_drop 8 cs, htake, hbehind]
    have hlong' : 8 ≤ cs.length := hlen ▸ hlong
    rw [absorbAll_long hlong, absorbAll_long hlong', ← hbehind]
    intro heq
    -- what is behind the block keeps the difference, so the equation can be undone from its end
    have hword := mixBlock_injective (absorb_right_injective h (absorbAll_injective _ heq))
    have hlen' : (bs.take 8).length = (cs.take 8).length := by
      rw [List.length_take, List.length_take, hlen]
    exact hblock ((ofNat_ofLowBytes_inj hlen' (List.length_take_le 8 bs)).mp hword)
  · have hshort : bs.length < 8 := Nat.lt_of_not_le hlong
    have hbs : bs ≠ [] := by
      rintro rfl
      exact hne (List.length_eq_zero_iff.mp hlen.symm).symm
    have hcs : cs ≠ [] := by
      rintro rfl
      exact hbs (List.length_eq_zero_iff.mp hlen)
    rw [absorbAll_short hbs hshort, absorbAll_short hcs (hlen ▸ hshort)]
    intro heq
    have hword := absorb_right_injective h heq
    exact hne ((ofNat_ofLowBytes_inj hlen (Nat.le_of_lt hshort)).mp hword)

/-- Texts that differ in block `k` only, by induction on the blocks before it. -/
theorem absorbAll_ne {bs cs : Bytes} {k : Nat} (hlen : bs.length = cs.length) (hne : bs ≠ cs)
    (hbefore : bs.take (8 * k) = cs.take (8 * k))
    (hbehind : bs.drop (8 * (k + 1)) = cs.drop (8 * (k + 1))) (h : UInt64) :
    absorbAll h bs ≠ absorbAll h cs := by
  induction k generalizing bs cs h with
  | zero => exact absorbAll_ne_of_first hlen hne hbehind h
  | succ k ih =>
    have hlong : 8 ≤ bs.length := by
      by_contra hshort
      rw [List.take_of_length_le (by omega), List.take_of_length_le (by omega)] at hbefore
      exact hne hbefore
    have hblock : bs.take 8 = cs.take 8 := by
      have htake := congrArg (List.take 8) hbefore
      rwa [List.take_take, List.take_take, Nat.min_eq_left (by omega)] at htake
    have hlong' : 8 ≤ cs.length := hlen ▸ hlong
    rw [absorbAll_long hlong, absorbAll_long hlong', hblock]
    apply ih
    · rw [List.length_drop, List.length_drop, hlen]
    · intro hdrop
      apply hne
      rw [← List.take_append_drop 8 bs, ← List.take_append_drop 8 cs, hblock, hdrop]
    · rw [List.take_drop, List.take_drop, Nat.add_comm 8, ← Nat.mul_succ, hbefore]
    · rw [List.drop_drop, List.drop_drop, Nat.add_comm 8, ← Nat.mul_succ]
      exact hbehind

theorem ofBytes_ne {bs cs : Bytes} {k : Nat} (hlen : bs.length = cs.length) (hne : bs ≠ cs)
    (hagree : ∀ i, i / 8 ≠ k → bs[i]? = cs[i]?) : ofBytes bs ≠ ofBytes cs := by
  have hbefore : bs.take (8 * k) = cs.take (8 * k) := by
    apply List.ext_getElem?
    intro i
    rw [List.getElem?_take, List.getElem?_take]
    split
    · exact hagree i (by omega)
    · rfl
  have hbehind : bs.drop (8 * (k + 1)) = cs.drop (8 * (k + 1)) := by
    apply List.ext_getElem?
    intro i
    rw [List.getElem?_drop, List.getElem?_drop]
    exact hagree _ (by omega)
  rw [ofBytes, ofBytes, hlen]
  exact finish_injective.ne (absorbAll_ne hlen hne hbefore hbehind _)

end NameHash

/-! ## Names in scripts -/

open Script

/-- The units that speak of one name: a group of one actor, an emotion and a colour. -/
inductive Script.LexUnit.Names (u : LexUnit) (name : Bytes) : Prop
  | actor (hsigil : u.text.head? = some 0x5B) (hgroup : u.group = .ok [name])
      (hname : name ≠ wildcard)
  | emotion (htext : u.text = 0x21 :: name)
  | color (htext : u.text = 0x23 :: 0x23 :: name)

/-- The instruction of such a unit, apart from its place. -/
theorem Script.LexUnit.Names.read_eq {u : LexUnit} {name : Bytes} (h : u.Names name)
    {next? : Option LexUnit} {i : Instruction} (hi : u.read next? = .ok (.alone i)) :
    (name ≠ wildcard ∧ i = { op := Operation.actor.code, params := [.text name] }) ∨
      i = { op := Operation.emotion.code, name := name } ∨
      i = { op := Operation.color.code, params := [.int (NameHash.ofBytes name)] } := by
  cases h with
  | actor hsigil hgroup hname =>
    obtain ⟨rest, htext⟩ := List.head?_eq_some_iff.mp hsigil
    have hread : u.read next? = u.readActors := by
      rw [read, htext]
      rfl
    rw [hread, readActors, hgroup] at hi
    obtain ⟨names, hnames, hi⟩ := Result.bind_eq_ok_iff.mp hi
    cases hnames
    split at hi
    · cases hi
    · cases hi
      exact .inl ⟨hname, rfl⟩
  | emotion htext =>
    have hread : u.read next? =
        u.sigilName >>= fun n => pure (.alone { op := Operation.emotion.code, name := n }) := by
      rw [read, htext]
      rfl
    rw [hread, sigilName, htext] at hi
    obtain ⟨n, hn, hi⟩ := Result.bind_eq_ok_iff.mp hi
    split at hn
    · cases hn
    · cases hn
      cases hi
      exact .inr (.inl rfl)
  | color htext =>
    have hread : u.read next? = u.readColor := by
      rw [read, htext]
      rfl
    rw [hread, readColor, htext] at hi
    split at hi
    · cases hi
    · cases hi
      exact .inr (.inr rfl)

theorem Script.LexUnit.Names.steps_eq {u : LexUnit} {name : Bytes} (h : u.Names name)
    {next? : Option LexUnit} {i : Instruction} (hi : u.read next? = .ok (.alone i))
    {ss : List Step} (hss : i.steps = .ok ss) :
    ∃ word s, ss = [.opcode word, s] ∧
      (s = .named name ∨ s = .operand (NameHash.ofBytes name)) := by
  obtain ⟨-, op, hop, hss⟩ := Instruction.steps_eq_ok_iff.mp hss
  rcases h.read_eq hi with ⟨hname, rfl⟩ | rfl | rfl
  · rw [Operation.ofCode?_code] at hop
    cases hop
    have hplain : ¬ (Param.text name).toText = Text.utf8 "..." := hname
    rw [Instruction.stepsOf, if_neg (by simp), Instruction.actorSteps, if_neg hplain] at hss
    cases hss
    exact ⟨_, _, rfl, .inl rfl⟩
  · rw [Operation.ofCode?_code] at hop
    cases hop
    cases hss
    exact ⟨_, _, rfl, .inl rfl⟩
  · rw [Operation.ofCode?_code] at hop
    cases hop
    cases hss
    exact ⟨_, _, rfl, .inr rfl⟩

/-- The word behind the opcode of such a unit is the hash of its name. -/
theorem Script.LexUnit.Names.operand_eq {u : LexUnit} {name : Bytes} (h : u.Names name)
    {next? : Option LexUnit} {i : Instruction} (hi : u.read next? = .ok (.alone i))
    {order : Option ByteOrder} {p : Program} (hp : Program.assemble order [i] = .ok p) :
    p.order.read64 (p.code.drop 2) = NameHash.ofBytes name := by
  obtain ⟨ss, hss, hrun⟩ := Program.foldlM_add_cons_eq_ok_iff.mp hp
  obtain ⟨word, s, rfl, hs⟩ := h.steps_eq hi hss
  have hrun := Result.pure_eq_ok_iff.mp hrun
  have hcode : p.code = p.order.write16 word ++ p.order.write64 (NameHash.ofBytes name) := by
    rw [← hrun, Program.order_run, Program.run_cons, Program.run_cons]
    rcases hs with rfl | rfl <;>
      simp [Program.run, Program.apply, Program.addOperand, Program.start]
  rw [hcode, List.drop_left' (p.order.length_write16 word)]
  simpa using p.order.read64_write64_append (NameHash.ofBytes name) []

/-- Two texts of one length that agree outside of one block of eight bytes, or of the bytes left
over behind the last one, have different hashes. So two names of one length of at most eight bytes
give different operands: each actor of a group is put into the code by a step for its name, and the
word behind the opcode of an emotion, a colour or a lone actor is the hash of the name. -/
theorem names_told_apart :
    (∀ (bs cs : Bytes) (k : Nat), bs.length = cs.length → bs ≠ cs →
      (∀ i, i / 8 ≠ k → bs[i]? = cs[i]?) → NameHash.ofBytes bs ≠ NameHash.ofBytes cs) ∧
    ∀ a b : Bytes, a.length = b.length → a.length ≤ 8 → a ≠ b →
      (∀ p : Program, (p.apply (.named a)).code ≠ (p.apply (.named b)).code) ∧
      ∀ (u v : LexUnit) (next? next?' : Option LexUnit) (i j : Instruction)
        (order order' : Option ByteOrder) (p q : Program), u.Names a → v.Names b →
        u.read next? = .ok (.alone i) → v.read next?' = .ok (.alone j) →
        Program.assemble order [i] = .ok p → Program.assemble order' [j] = .ok q →
        p.order.read64 (p.code.drop 2) ≠ q.order.read64 (q.code.drop 2) := by
  refine ⟨fun bs cs k hlen hne hagree => NameHash.ofBytes_ne hlen hne hagree, ?_⟩
  intro a b hlen hle hne
  have hhash : NameHash.ofBytes a ≠ NameHash.ofBytes b := by
    refine NameHash.ofBytes_ne (k := 0) hlen hne ?_
    intro i hi
    rw [List.getElem?_eq_none (by omega), List.getElem?_eq_none (by omega)]
  constructor
  · intro p hcode
    exact hhash (p.order.write64_injective (List.append_cancel_left hcode))
  · intro u v next? next?' i j order order' p q hu hv hi hj hp hq
    rwa [hu.operand_eq hi hp, hv.operand_eq hj hq]

theorem names_told_apart_watch :
    NameHash.ofBytes (Text.utf8 "captain of watch 1") ≠
      NameHash.ofBytes (Text.utf8 "captain of watch 2") ∧
    ∃ i j p q, LexUnit.read { text := Text.utf8 "!glad" } none = .ok (.alone i) ∧
      LexUnit.read { text := Text.utf8 "##blue" } none = .ok (.alone j) ∧
      Program.assemble none [i] = .ok p ∧ Program.assemble (some .big) [j] = .ok q ∧
      p.order.read64 (p.code.drop 2) ≠ q.order.read64 (q.code.drop 2) := by
  constructor
  · refine names_told_apart.1 _ _ 2 (by decide) (by decide) ?_
    intro i hi
    by_cases hbefore : i < 16
    · have hagree : ∀ i < 16, (Text.utf8 "captain of watch 1")[i]? =
          (Text.utf8 "captain of watch 2")[i]? := by decide
      exact hagree i hbefore
    · rw [List.getElem?_eq_none (Nat.le_trans (by decide) (by omega : 24 ≤ i)),
        List.getElem?_eq_none (Nat.le_trans (by decide) (by omega : 24 ≤ i))]
  · let a := Text.utf8 "glad"
    let b := Text.utf8 "blue"
    refine ⟨_, _, _, _, rfl, rfl, rfl, rfl, ?_⟩
    exact (names_told_apart.2 a b (by decide) (by decide) (by decide)).2
      { text := Text.utf8 "!glad" } { text := Text.utf8 "##blue" } none none _ _ none (some .big)
      _ _ (.emotion rfl) (.color rfl) rfl rfl rfl rfl

end Dialogue
