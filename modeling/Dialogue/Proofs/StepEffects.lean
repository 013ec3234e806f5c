import Dialogue.Program.Assembly
import Dialogue.Proofs.Results
import Dialogue.Proofs.Words

/-!
# What steps leave behind

A step puts bytes at the end of the code and texts at the end of the table, and touches nothing
else. The events of an assembly are its steps together with the programs in front of them: the bytes
of all events, one behind the other, are the code.
-/

namespace Dialogue

namespace Step

/-- Whether a step starts a new entry of the code. -/
def isCall : Step → Bool
  | opcode _ => true
  | _ => false

/-- The operands that a step puts behind the code of a program. -/
def operands (p : Program) : Step → List UInt64
  | opcode _ => []
  | operand value => [value]
  | string _ => [p.nextRef]
  | named name => [NameHash.ofBytes name]
  | pack texts => [p.nextRef, .ofNat texts.length]

/-- The bytes that a step puts behind the code of a program. -/
def bytes (p : Program) : Step → Bytes
  | opcode word => p.order.write16 word
  | s => (s.operands p).flatMap p.order.write64

/-- The texts that a step puts at the end of the table. -/
def texts : Step → List Bytes
  | string text => [text]
  | pack texts => texts
  | opcode _ | operand _ | named _ => []

theorem bytes_of_not_isCall {s : Step} (h : s.isCall = false) (p : Program) :
    s.bytes p = (s.operands p).flatMap p.order.write64 := by
  cases s with
  | opcode word => simp [isCall] at h
  | operand | string | named | pack => rfl

end Step

namespace Program

/-! ## One step -/

theorem code_apply (p : Program) (s : Step) : (p.apply s).code = p.code ++ s.bytes p := by
  cases s with
  | opcode word => rfl
  | operand | string | named | pack =>
    simp [apply, addOperand, addTexts, Step.bytes, Step.operands]

theorem data_apply (p : Program) (s : Step) : (p.apply s).data = p.data ++ s.texts := by
  cases s with
  | opcode | operand | named => simp [apply, addOperand, Step.texts]
  | string | pack => rfl

@[simp] theorem order_apply (p : Program) (s : Step) : (p.apply s).order = p.order := by
  cases s <;> rfl

@[simp] theorem code_mark (p : Program) (line : Int) : (p.mark line).code = p.code := by
  unfold mark
  split <;> rfl

@[simp] theorem data_mark (p : Program) (line : Int) : (p.mark line).data = p.data := by
  unfold mark
  split <;> rfl

@[simp] theorem order_mark (p : Program) (line : Int) : (p.mark line).order = p.order := by
  unfold mark
  split <;> rfl

/-! ## Rows of steps -/

@[simp] theorem run_cons (p : Program) (s : Step) (ss : List Step) :
    p.run (s :: ss) = (p.apply s).run ss := rfl

theorem data_run (p : Program) (ss : List Step) :
    (p.run ss).data = p.data ++ ss.flatMap Step.texts := by
  induction ss generalizing p with
  | nil => simp [run]
  | cons s ss ih => rw [run_cons, ih, data_apply, List.flatMap_cons, List.append_assoc]

@[simp] theorem order_run (p : Program) (ss : List Step) : (p.run ss).order = p.order := by
  induction ss generalizing p with
  | nil => rfl
  | cons s ss ih => rw [run_cons, ih, order_apply]

end Program

/-! ## Instructions -/

theorem Instruction.steps_eq_ok_iff {i : Instruction} {ss : List Step} :
    i.steps = .ok ss ↔
      i.nulParam? = none ∧ ∃ op, Operation.ofCode? i.op = some op ∧ i.stepsOf op = .ok ss := by
  unfold steps
  cases hnul : i.nulParam? with
  | some text => simp
  | none =>
    cases hop : Operation.ofCode? i.op with
    | none => simp
    | some op => simp

/-- An actor adds the opcode of the wildcard, or an opcode with the hash of its name. -/
theorem Instruction.actorSteps_cons {i : Instruction} {n : Nat} {q : Param} {ps : List Param}
    {ss : List Step} (h : i.actorSteps n (q :: ps) = .ok ss) :
    ∃ later, i.actorSteps (n + 1) ps = .ok later ∧
      (ss = .opcode (i.opcode Mode.everyone) :: later ∨
        ∃ mode, (mode = Mode.plain ∨ mode = Mode.extra) ∧
          ss = .opcode (i.opcode mode) :: .named q.toText :: later) := by
  rw [actorSteps] at h
  by_cases hq : q.toText = Text.utf8 "..."
  · rw [if_pos hq] at h
    by_cases hn : n = 0
    · rw [if_pos hn, Result.map_eq_ok_iff] at h
      obtain ⟨later, hlater, rfl⟩ := h
      exact ⟨later, hlater, .inl rfl⟩
    · rw [if_neg hn] at h
      cases h
  · rw [if_neg hq, Result.map_eq_ok_iff] at h
    obtain ⟨later, hlater, rfl⟩ := h
    refine ⟨later, hlater, .inr ⟨_, ?_, rfl⟩⟩
    by_cases hn : n = 0
    · exact .inl (if_pos hn)
    · exact .inr (if_neg hn)

theorem Program.add_eq_ok_iff {p q : Program} {i : Instruction} :
    p.add i = .ok q ↔ ∃ ss, i.steps = .ok ss ∧ (p.mark i.line).run ss = q := by
  unfold add
  cases hss : i.steps with
  | error fault => simp
  | ok ss => simp

/-- A step of an assembly, with the program in front of it and the instruction that asks for it. -/
structure Event where
  program : Program
  instruction : Instruction
  step : Step

namespace Event

def operands (e : Event) : List UInt64 :=
  e.step.operands e.program

def bytes (e : Event) : Bytes :=
  e.step.bytes e.program

end Event

namespace Program

/-- The events of the steps of one instruction. -/
def eventsOf (p : Program) (i : Instruction) : List Step → List Event
  | [] => []
  | s :: ss => ⟨p, i, s⟩ :: (p.apply s).eventsOf i ss

/-- The events of an assembly, up to the first instruction that cannot be encoded. -/
def events (p : Program) : List Instruction → List Event
  | [] => []
  | i :: is =>
    match i.steps with
    | .ok ss => (p.mark i.line).eventsOf i ss ++ ((p.mark i.line).run ss).events is
    | .error _ => []

theorem code_run (p : Program) (i : Instruction) (ss : List Step) :
    (p.run ss).code = p.code ++ (p.eventsOf i ss).flatMap Event.bytes := by
  induction ss generalizing p with
  | nil => simp [run, eventsOf]
  | cons s ss ih =>
    rw [run_cons, ih, code_apply, eventsOf, List.flatMap_cons, List.append_assoc]
    rfl

theorem events_cons {p : Program} {i : Instruction} {ss : List Step} (h : i.steps = .ok ss)
    (is : List Instruction) :
    p.events (i :: is) = (p.mark i.line).eventsOf i ss ++ ((p.mark i.line).run ss).events is := by
  rw [events, h]

theorem foldlM_add_cons_eq_ok_iff {p q : Program} {i : Instruction} {is : List Instruction} :
    (i :: is).foldlM add p = .ok q ↔
      ∃ ss, i.steps = .ok ss ∧ is.foldlM add ((p.mark i.line).run ss) = .ok q := by
  rw [List.foldlM_cons, Result.bind_eq_ok_iff]
  constructor
  · rintro ⟨r, hr, hq⟩
    obtain ⟨ss, hss, rfl⟩ := add_eq_ok_iff.mp hr
    exact ⟨ss, hss, hq⟩
  · rintro ⟨ss, hss, hq⟩
    exact ⟨_, add_eq_ok_iff.mpr ⟨ss, hss, rfl⟩, hq⟩

/-- What more instructions put behind the code are the bytes of their events. -/
theorem code_foldlM_add {p q : Program} {is : List Instruction} (h : is.foldlM add p = .ok q) :
    q.code = p.code ++ (p.events is).flatMap Event.bytes := by
  induction is generalizing p with
  | nil =>
    have hq : p = q := Result.pure_eq_ok_iff.mp h
    simp [events, hq]
  | cons i is ih =>
    obtain ⟨ss, hss, hq⟩ := foldlM_add_cons_eq_ok_iff.mp h
    rw [ih hq, code_run _ i, code_mark, events_cons hss, List.flatMap_append, List.append_assoc]

/-- What holds of the first program and is kept by every instruction holds of an assembled
program. -/
theorem assemble_induction {P : Program → Prop} {order : Option ByteOrder} {is : List Instruction}
    {q : Program} (hq : assemble order is = .ok q) (hstart : P (start order))
    (hstep : ∀ p i ss, i ∈ is → i.steps = .ok ss → P p → P ((p.mark i.line).run ss)) : P q := by
  unfold assemble at hq
  generalize start order = p at hq hstart
  induction is generalizing p with
  | nil =>
    have hpq : p = q := Result.pure_eq_ok_iff.mp hq
    exact hpq ▸ hstart
  | cons i is ih =>
    obtain ⟨ss, hss, hq⟩ := foldlM_add_cons_eq_ok_iff.mp hq
    refine ih ?_ _ hq (hstep p i ss List.mem_cons_self hss hstart)
    intro p' i' ss' hi'
    exact hstep p' i' ss' (List.mem_cons_of_mem i hi')

theorem order_assemble {order : Option ByteOrder} {is : List Instruction} {p : Program}
    (hp : assemble order is = .ok p) : p.order = order.getD .little := by
  refine assemble_induction (P := fun q => q.order = order.getD .little) hp rfl ?_
  intro q i ss _ _ hq
  rw [order_run, order_mark, hq]

end Program

end Dialogue
