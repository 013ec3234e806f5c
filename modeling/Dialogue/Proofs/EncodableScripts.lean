import Dialogue.Proofs.GivenTexts
import Dialogue.Proofs.JoinedUnits
import Dialogue.Proofs.ParamGroups
import Dialogue.Proofs.Relocation

/-!
# Which scripts can be encoded

The instructions that units are read as can be encoded, with one exception: a parameter that a group
holds without quotes may hold a zero byte. Strings are looked through for zero bytes when they are
read, such parameters only when they are encoded.
-/

namespace Dialogue

namespace Instruction

theorem nulParam?_eq_none_iff {i : Instruction} :
    i.nulParam? = none ↔ ∀ text, .text text ∈ i.params → 0 ∉ text := by
  rw [nulParam?, List.findSome?_eq_none_iff]
  constructor
  · intro h text htext hzero
    have hnone := h _ htext
    simp [hzero] at hnone
  · intro h p hp
    cases p with
    | text text => simp [h text hp]
    | int | bool => rfl

theorem of_nulParam?_eq_some {i : Instruction} {text : Bytes} (h : i.nulParam? = some text) :
    .text text ∈ i.params ∧ 0 ∈ text := by
  obtain ⟨p, hp, hsome⟩ := List.exists_of_findSome?_eq_some h
  cases p with
  | text s =>
    dsimp only at hsome
    split at hsome
    · rename_i hzero
      cases hsome
      exact ⟨hp, hzero⟩
    · cases hsome
  | int | bool => cases hsome

end Instruction

namespace Script

/-! ## Instructions without zero bytes -/

theorem exists_actorSteps (i : Instruction) {n : Nat} {names : List Bytes}
    (h : actorFault? (n == 0) names = none) :
    ∃ ss, i.actorSteps n (textParams names) = .ok ss := by
  induction names generalizing n with
  | nil => exact ⟨[], rfl⟩
  | cons name names ih =>
    have hlater (hnames : actorFault? false names = none) :
        ∃ ss, i.actorSteps (n + 1) (textParams names) = .ok ss := ih hnames
    rw [actorFault?] at h
    rw [textParams, List.map_cons, Instruction.actorSteps]
    by_cases hname : name = wildcard
    · have htext : (Param.text name).toText = Text.utf8 "..." := hname
      rw [if_pos hname] at h
      split at h
      · rename_i hfirst
        obtain ⟨ss, hss⟩ := hlater h
        rw [if_pos htext, if_pos (beq_iff_eq.mp hfirst)]
        exact ⟨_, Result.map_eq_ok_iff.mpr ⟨ss, hss, rfl⟩⟩
      · cases h
    · have htext : ¬ (Param.text name).toText = Text.utf8 "..." := hname
      rw [if_neg hname] at h
      split at h
      · cases h
      · obtain ⟨ss, hss⟩ := hlater h
        rw [if_neg htext]
        exact ⟨_, Result.map_eq_ok_iff.mpr ⟨ss, hss, rfl⟩⟩

/-- An instruction of one of the forms has steps unless a parameter holds a zero byte. -/
theorem Form.exists_steps {i : Instruction} (hi : Form i) (hnul : i.nulParam? = none) :
    ∃ ss, i.steps = .ok ss := by
  have hsteps (op : Operation) (hop : Operation.ofCode? i.op = some op)
      (h : ∃ ss, i.stepsOf op = .ok ss) : ∃ ss, i.steps = .ok ss := by
    obtain ⟨ss, hss⟩ := h
    exact ⟨ss, Instruction.steps_eq_ok_iff.mpr ⟨hnul, op, hop, hss⟩⟩
  cases hi with
  | line text => exact hsteps .line rfl ⟨_, rfl⟩
  | action name texts => exact hsteps .action rfl ⟨_, rfl⟩
  | call name texts =>
    refine hsteps .namedCall rfl ?_
    rcases texts with _ | ⟨text, _ | ⟨next, texts⟩⟩
    · exact ⟨_, rfl⟩
    · exact ⟨_, rfl⟩
    · exact ⟨_, rfl⟩
  | switch name on => exact hsteps .namedCall rfl ⟨_, rfl⟩
  | emotion name => exact hsteps .emotion rfl ⟨_, rfl⟩
  | wait duration => exact hsteps .wait rfl ⟨_, rfl⟩
  | color hash => exact hsteps .color rfl ⟨_, rfl⟩
  | actors names hnames =>
    refine hsteps .actor rfl ?_
    cases names with
    | nil => exact ⟨_, rfl⟩
    | cons name names => exact exists_actorSteps _ hnames
  | marker => exact hsteps .noOp rfl ⟨_, rfl⟩
  | sync => exact hsteps .sync rfl ⟨_, rfl⟩
  | userInput => exact hsteps .userInput rfl ⟨_, rfl⟩

theorem StandsIn.exists_steps {us : List LexUnit} {i : Instruction} (hi : StandsIn us i)
    (hnul : i.nulParam? = none) : ∃ ss, i.steps = .ok ss := by
  obtain ⟨u, -, j, hj, rfl⟩ := hi
  obtain ⟨ss, hss⟩ := hj.exists_steps hnul
  exact ⟨ss, (Instruction.steps_moved (fun _ => (u.line, u.col)) j).trans hss⟩

theorem StandsIn.of_steps_eq_error {us : List LexUnit} {i : Instruction} (hi : StandsIn us i)
    {fault : EncodeFault} (h : i.steps = .error fault) :
    ∃ text, fault = .nulInParam text ∧ .text text ∈ i.params ∧ 0 ∈ text := by
  cases hnul : i.nulParam? with
  | none =>
    obtain ⟨ss, hss⟩ := hi.exists_steps hnul
    rw [hss] at h
    cases h
  | some text =>
    rw [Instruction.steps, hnul] at h
    cases h
    exact ⟨text, rfl, Instruction.of_nulParam?_eq_some hnul⟩

/-! ## Where zero bytes come from -/

theorem zero_notMem_of_isIdentifier {bs : Bytes} (h : isIdentifier bs = true) : 0 ∉ bs := by
  cases bs with
  | nil => exact List.not_mem_nil
  | cons b bs =>
    rw [isIdentifier, Bool.and_eq_true, List.all_eq_true] at h
    intro hmem
    rcases List.mem_cons.mp hmem with rfl | hmem
    · exact absurd h.1 (by decide)
    · exact absurd (h.2 0 hmem) (by decide)

namespace LexUnit

variable {u : LexUnit} {text : Bytes}

/-- Whether a text stands in a unit that is a group. -/
def GroupHolds (u : LexUnit) (text : Bytes) : Prop :=
  (u.startsWith 0x28 = true ∨ u.startsWith 0x5B = true) ∧ text <:+: u.text

/-- A text with a zero byte comes from a group. -/
theorem Gives.groupHolds (h : u.Gives text) (hzero : 0 ∈ text) : u.GroupHolds text := by
  cases h with
  | literal text hread =>
    exact absurd hzero (Literal.zero_notMem_read (Result.mapError_eq_ok_iff.mp hread))
  | group texts text hstarts hread hmem =>
    exact ⟨hstarts,
      ParamGroup.infix_of_mem_read (Result.mapError_eq_ok_iff.mp hread) text hmem hzero⟩
  | identifier hidentifier => exact absurd hzero (zero_notMem_of_isIdentifier hidentifier)

end LexUnit

theorem groupHolds_of_readUnits {us : List LexUnit} {is : List Instruction}
    (h : readUnits us = .ok is) {i : Instruction} (hi : i ∈ is) {text : Bytes}
    (hmem : .text text ∈ i.params) (hzero : 0 ∈ text) : ∃ u ∈ us, u.trimmed.GroupHolds text := by
  obtain ⟨u, hu, hgives⟩ := gives_of_readUnits h hi hmem
  exact ⟨u, hu, hgives.groupHolds hzero⟩

theorem zero_mem_of_groupHolds {source : Bytes} {us : List LexUnit}
    (hus : LexUnit.ofSource source = .ok us) {u : LexUnit} (hu : u ∈ us) {text : Bytes}
    (hholds : u.trimmed.GroupHolds text) (hzero : 0 ∈ text) : 0 ∈ source := by
  have hlow : (0 : UInt8).toNat < 0x80 := by decide
  obtain ⟨rfl, -⟩ := LexUnit.ofSource_eq_ok_iff.mp hus
  obtain ⟨before, cs, rest, last, hsource, -, rfl⟩ := LexUnit.exists_of_mem_scan _ _ _ u hu
  have hpart : text <:+: Text.encode cs := hholds.2.trans (Text.isInfix_trim _)
  have hcs := (Text.mem_encode_iff hlow cs).mp (hpart.subset hzero)
  rw [← Text.mem_decode_iff hlow, hsource]
  exact List.mem_append_right before (List.mem_append_left rest hcs)

end Script

open Script

/-- A script is compiled if it can be read and no text of its instructions holds a zero byte. -/
theorem exists_compile {source : Bytes} {us : List LexUnit} {is : List Instruction}
    (hus : LexUnit.ofSource source = .ok us) (his : instructions us = .ok is)
    (opts : CompileOptions) (hnul : ∀ i ∈ is, ∀ text, .text text ∈ i.params → 0 ∉ text) :
    ∃ c, compile source opts = .ok c ∧ c.units = us ∧ c.instructions = is := by
  have hsteps : ∀ i ∈ is, ∃ ss, i.steps = .ok ss := fun i hi =>
    ((standsIn_of_mem_instructions his).2 i hi).exists_steps
      (Instruction.nulParam?_eq_none_iff.mpr (hnul i hi))
  obtain ⟨p, hp⟩ : ∃ p, Program.assemble opts.order is = .ok p :=
    Program.exists_foldlM_add_iff.mpr hsteps
  refine ⟨⟨us, is, p, p.package opts.toModuleOptions⟩, ?_, rfl, rfl⟩
  rw [compile_of_units hus, his]
  exact Result.map_eq_ok_iff.mpr ⟨p, Result.mapError_eq_ok_iff.mpr hp, rfl⟩

/-- Instructions that were read can be encoded if no text in them holds a zero byte. An error comes
from such a text, which stands in a group, so a script without zero bytes that can be read is
compiled. -/
theorem read_instructions_encodable (us : List LexUnit) (is : List Instruction)
    (order : Option ByteOrder) (h : instructions us = .ok is) :
    ((∃ p, Program.assemble order is = .ok p) ↔
      ∀ i ∈ is, ∀ text, .text text ∈ i.params → 0 ∉ text) ∧
    (∀ e, Program.assemble order is = .error e →
      ∃ i ∈ is, ∃ text, e = ⟨i.op, i.line, .nulInParam text⟩ ∧ .text text ∈ i.params ∧
        0 ∈ text ∧ ∃ u ∈ us, u.trimmed.GroupHolds text) ∧
    ∀ source opts, LexUnit.ofSource source = .ok us → 0 ∉ source →
      ∃ c, compile source opts = .ok c := by
  obtain ⟨-, hstands⟩ := standsIn_of_mem_instructions h
  obtain ⟨hunits, -⟩ := instructions_eq_ok_iff.mp h
  have hencodable (order : Option ByteOrder) : (∃ p, Program.assemble order is = .ok p) ↔
      ∀ i ∈ is, ∀ text, .text text ∈ i.params → 0 ∉ text := by
    refine Program.exists_foldlM_add_iff.trans (forall₂_congr fun i hi => ?_)
    rw [← Instruction.nulParam?_eq_none_iff]
    constructor
    · rintro ⟨ss, hss⟩
      exact (Instruction.steps_eq_ok_iff.mp hss).1
    · exact (hstands i hi).exists_steps
  refine ⟨hencodable order, ?_, ?_⟩
  · intro e he
    obtain ⟨before, i, after, rfl, -, fault, hfault, rfl⟩ := Program.foldlM_add_eq_error_iff.mp he
    have hi : i ∈ before ++ i :: after := List.mem_append_right before List.mem_cons_self
    obtain ⟨text, rfl, hmem, hzero⟩ := (hstands i hi).of_steps_eq_error hfault
    exact ⟨i, hi, text, rfl, hmem, hzero, groupHolds_of_readUnits hunits hi hmem hzero⟩
  · intro source opts hsource hnone
    obtain ⟨p, hp⟩ := (hencodable opts.order).mpr fun i hi text hmem hzero => by
      obtain ⟨u, hu, hholds⟩ := groupHolds_of_readUnits hunits hi hmem hzero
      exact hnone (zero_mem_of_groupHolds hsource hu hholds hzero)
    rw [compile_of_units hsource, h]
    exact ⟨_, Result.map_eq_ok_iff.mpr ⟨p, Result.mapError_eq_ok_iff.mpr hp, rfl⟩⟩

/-- An action with a parameter that is a zero byte. -/
def zeroed : List LexUnit :=
  [{ text := Text.utf8 "@a", line := 1, col := 1 },
    { text := [0x28, 0, 0x29], line := 1, col := 3 }]

theorem read_instructions_encodable_zeroed :
    ∃ is e, instructions zeroed = .ok is ∧ Program.assemble none is = .error e ∧
      ∃ i ∈ is, ∃ text, e = ⟨i.op, i.line, .nulInParam text⟩ ∧ .text text ∈ i.params ∧
        0 ∈ text ∧ ∃ u ∈ zeroed, u.trimmed.GroupHolds text := by
  let i : Instruction :=
    { op := Operation.action.code, name := Text.utf8 "a", params := [.text [0]],
      line := 1, col := 1 }
  have hread : instructions zeroed = .ok [i] := by decide +kernel
  have herror : Program.assemble none [i] = .error ⟨i.op, 1, .nulInParam [0]⟩ := by decide +kernel
  obtain ⟨-, hall, -⟩ := read_instructions_encodable zeroed [i] none hread
  exact ⟨[i], _, hread, herror, hall _ herror⟩

/-- Reading does not refuse the zero byte, and so the script fails when it is encoded. -/
theorem compile_zeroed :
    compile (Text.utf8 "@a(\x00)") {} =
      .error (.encode ⟨Operation.action.code, 1, .nulInParam [0]⟩) := by
  decide +kernel

end Dialogue
