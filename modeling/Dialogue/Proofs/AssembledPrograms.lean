import Dialogue.Proofs.CodeEntries
import Dialogue.Proofs.CodePoints

/-!
# Assembled programs

What every assembled program has in common: its texts are without zero bytes, and its code is a row
of two-byte units, none of them missing, that is empty only if there are no instructions.
-/

namespace Dialogue

/-! ## Zero bytes -/

namespace Text

theorem zero_notMem_decimal (n : Nat) : 0 ∉ utf8 (Numeral.decimal n) := by
  rw [utf8, Numeral.decimal, String.toList_ofList, mem_encode_iff (by decide)]
  intro hzero
  have hdigit := Nat.isDigit_of_mem_toDigits (by decide) (by decide) hzero
  cases hdigit

end Text

namespace Instruction

variable {i : Instruction} {op : Operation} {ss : List Step}

theorem zero_notMem_of_nulParam? (h : i.nulParam? = none) {q : Param} (hq : q ∈ i.params) :
    0 ∉ q.toText := by
  cases q with
  | text s =>
    have hs : 0 ∉ s := by simpa using List.findSome?_eq_none_iff.mp h (.text s) hq
    exact hs
  | int v => exact Text.zero_notMem_decimal v.toNat
  | bool b =>
    cases b with
    | false => decide +kernel
    | true => decide +kernel

theorem texts_actorSteps {n : Nat} {ps : List Param} (h : i.actorSteps n ps = .ok ss) :
    ss.flatMap Step.texts = [] := by
  induction ps generalizing n ss with
  | nil =>
    cases h
    rfl
  | cons q ps ih =>
    obtain ⟨later, hlater, rfl | ⟨mode, -, rfl⟩⟩ := actorSteps_cons h
    · simp [Step.texts, ih hlater]
    · simp [Step.texts, ih hlater]

/-- The rows of steps that an instruction can have. -/
theorem stepsOf_cases (h : i.stepsOf op = .ok ss) :
    ss = [.opcode (i.opcode 0)] ∨
      (∃ s : Step, (∀ text ∈ s.texts, ∃ q ∈ i.params, q.toText = text) ∧
        ss = [.opcode (i.opcode 0), s]) ∨
      ss = i.packSteps ∨
      (i.params ≠ [] ∧ i.actorSteps 0 i.params = .ok ss) := by
  have hplain : ∀ {s : Step}, s.texts = [] →
      ∃ s' : Step, (∀ text ∈ s'.texts, ∃ q ∈ i.params, q.toText = text) ∧
        [Step.opcode (i.opcode 0), s] = [.opcode (i.opcode 0), s'] := by
    intro s hs
    refine ⟨s, ?_, rfl⟩
    rw [hs]
    simp
  cases op with
  | noOp | halt | sync | userInput =>
    cases h
    exact .inl rfl
  | line =>
    rw [stepsOf] at h
    split at h
    · rename_i q hparams
      cases h
      refine .inr (.inl ⟨_, ?_, rfl⟩)
      simp [Step.texts, hparams]
    · cases h
  | actor =>
    rw [stepsOf] at h
    split at h
    · cases h
      exact .inr (.inl (hplain rfl))
    · rename_i hparams
      exact .inr (.inr (.inr ⟨by simpa using hparams, h⟩))
  | emotion =>
    cases h
    exact .inr (.inl (hplain rfl))
  | color | wait | jump =>
    rw [stepsOf] at h
    split at h
    · cases h
      exact .inr (.inl (hplain rfl))
    · cases h
  | action =>
    cases h
    split
    · exact .inl rfl
    · exact .inr (.inr (.inl rfl))
  | namedCall =>
    rw [stepsOf] at h
    split at h
    · rename_i q hparams
      cases h
      refine .inr (.inl ⟨_, ?_, rfl⟩)
      cases q with
      | text s => simp [callOperand, Step.texts, hparams, Param.toText]
      | int v => simp [callOperand, Step.texts]
      | bool b => cases b <;> simp [callOperand, Step.texts]
    · cases h
      exact .inr (.inr (.inl rfl))

/-- The steps of an instruction put only texts of its parameters into the table. -/
theorem exists_param_of_mem_texts (h : i.stepsOf op = .ok ss) {text : Bytes}
    (htext : text ∈ ss.flatMap Step.texts) : ∃ q ∈ i.params, q.toText = text := by
  rcases stepsOf_cases h with rfl | ⟨s, hs, rfl⟩ | rfl | ⟨-, hactors⟩
  · cases htext
  · exact hs text (by simpa [Step.texts] using htext)
  · have hmem : text ∈ i.params.map Param.toText := by simpa [packSteps, Step.texts] using htext
    exact List.mem_map.mp hmem
  · rw [texts_actorSteps hactors] at htext
    cases htext

/-- An instruction starts with an opcode. -/
theorem exists_opcode_of_steps (h : i.steps = .ok ss) :
    ∃ word later, ss = .opcode word :: later := by
  obtain ⟨-, op, -, hss⟩ := steps_eq_ok_iff.mp h
  rcases stepsOf_cases hss with rfl | ⟨s, -, rfl⟩ | rfl | ⟨hparams, hactors⟩
  · exact ⟨_, _, rfl⟩
  · exact ⟨_, _, rfl⟩
  · exact ⟨_, _, rfl⟩
  · obtain ⟨q, ps, hps⟩ := List.exists_cons_of_ne_nil hparams
    rw [hps] at hactors
    obtain ⟨later, -, rfl | ⟨mode, -, rfl⟩⟩ := actorSteps_cons hactors
    · exact ⟨_, _, rfl⟩
    · exact ⟨_, _, rfl⟩

end Instruction

/-! ## Programs -/

theorem Step.two_dvd_length_bytes (s : Step) (p : Program) : 2 ∣ (s.bytes p).length := by
  by_cases h : s.isCall
  · cases s with
    | opcode word => simp [bytes]
    | operand | string | named | pack => cases h
  · rw [bytes_of_not_isCall (by simpa using h), ByteOrder.length_flatMap_write64]
    omega

namespace Program

theorem two_dvd_length_run {p : Program} (hp : 2 ∣ p.code.length) (ss : List Step) :
    2 ∣ (p.run ss).code.length := by
  induction ss generalizing p with
  | nil => exact hp
  | cons s ss ih =>
    apply ih
    rw [code_apply, List.length_append]
    exact Nat.dvd_add hp (s.two_dvd_length_bytes p)

section

variable {order : Option ByteOrder} {is : List Instruction} {p : Program}
  (hp : assemble order is = .ok p)

include hp

/-- The texts of a program are those it starts with and those of the parameters. -/
theorem exists_param_of_mem_data {text : Bytes} (htext : text ∈ p.data) :
    text ∈ (start order).data ∨
      ∃ i ∈ is, i.nulParam? = none ∧ ∃ q ∈ i.params, q.toText = text := by
  refine assemble_induction (P := fun p => ∀ text ∈ p.data, text ∈ (start order).data ∨
    ∃ i ∈ is, i.nulParam? = none ∧ ∃ q ∈ i.params, q.toText = text) hp ?_ ?_ text htext
  · intro text htext
    exact .inl htext
  · intro p i ss hi hss hdata text htext
    obtain ⟨hnul, op, -, hsteps⟩ := Instruction.steps_eq_ok_iff.mp hss
    rw [data_run, data_mark, List.mem_append] at htext
    rcases htext with hold | hnew
    · exact hdata text hold
    · exact .inr ⟨i, hi, hnul, Instruction.exists_param_of_mem_texts hsteps hnew⟩

theorem zero_notMem_data : ∀ text ∈ p.data, 0 ∉ text := by
  have hstart : ∀ text ∈ [Text.utf8 "false", Text.utf8 "true"], 0 ∉ text := by decide +kernel
  intro text htext
  rcases exists_param_of_mem_data hp htext with hold | ⟨i, -, hnul, q, hq, rfl⟩
  · exact hstart text hold
  · exact Instruction.zero_notMem_of_nulParam? hnul hq

theorem two_dvd_length_code : 2 ∣ p.code.length := by
  refine assemble_induction (P := fun q => 2 ∣ q.code.length) hp (Nat.dvd_zero 2) ?_
  intro q i ss _ _ hq
  exact two_dvd_length_run (by rwa [code_mark]) ss

theorem code_ne_nil (his : is ≠ []) : p.code ≠ [] := by
  obtain ⟨i, is, rfl⟩ := List.exists_cons_of_ne_nil his
  obtain ⟨ss, hss, -⟩ := foldlM_add_cons_eq_ok_iff.mp hp
  obtain ⟨word, later, rfl⟩ := Instruction.exists_opcode_of_steps hss
  have hcode := code_foldlM_add hp
  rw [events_cons hss, eventsOf, List.cons_append, List.flatMap_cons, Event.bytes, Step.bytes]
    at hcode
  intro hnil
  have hlength := congrArg List.length (hcode.symm.trans hnil)
  simp only [List.length_append, ByteOrder.length_write16, List.length_nil] at hlength
  omega

end

end Program

end Dialogue
