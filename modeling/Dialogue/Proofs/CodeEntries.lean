import Dialogue.Module.Disassembly
import Dialogue.Module.Layout
import Dialogue.Proofs.StepEffects
import Mathlib.Data.List.Forall2

/-!
# The entries of assembled code

The code of a program is a row of frames: an opcode and, behind it, as many operands as the
disassembler expects for its operation and mode. So the disassembler finds one entry for each opcode
that the assembler wrote, with the operands that were written before the next one.
-/

namespace Dialogue

/-! ## One entry -/

theorem Operation.ofCode?_code (op : Operation) : ofCode? op.code = some op := by
  cases op <;> decide

theorem Operation.code_of_ofCode? {n : UInt16} {op : Operation} (h : ofCode? n = some op) :
    op.code = n := by
  have hfound := List.find?_some h
  simpa using hfound

theorem Operation.code_lt (op : Operation) : op.code.toNat < 0x1000 := by
  cases op <;> decide

/-- The fields of an opcode word are those it was packed from. -/
theorem Opcode.ofWord_toWord (op : Operation) (mode : UInt16) :
    ofWord (toWord ⟨op.code, mode⟩) = ⟨op.code, mode % 0x10⟩ := by
  have hop := op.code_lt
  have hword : (toWord ⟨op.code, mode⟩).toNat = op.code.toNat + mode.toNat % 16 * 4096 := by
    have hmod : (op.code % 0x1000).toNat = op.code.toNat := by
      rw [UInt16.toNat_mod]
      exact Nat.mod_eq_of_lt hop
    have hmul : (mode % 0x10 * 0x1000).toNat = mode.toNat % 16 * 4096 := by
      rw [UInt16.toNat_mul, UInt16.toNat_mod]
      exact Nat.mod_eq_of_lt (by change mode.toNat % 16 * 4096 < 65536; omega)
    rw [toWord, UInt16.toNat_add, hmod, hmul]
    exact Nat.mod_eq_of_lt (by omega)
  have hoperation : toWord ⟨op.code, mode⟩ % 0x1000 = op.code := by
    apply UInt16.toNat_inj.mp
    rw [UInt16.toNat_mod, hword]
    change (op.code.toNat + mode.toNat % 16 * 4096) % 4096 = op.code.toNat
    omega
  have hmode : toWord ⟨op.code, mode⟩ / 0x1000 = mode % 0x10 := by
    apply UInt16.toNat_inj.mp
    rw [UInt16.toNat_div, hword, UInt16.toNat_mod]
    change (op.code.toNat + mode.toNat % 16 * 4096) / 4096 = mode.toNat % 16
    omega
  rw [ofWord, hoperation, hmode]

theorem readWords_flatMap (order : ByteOrder) (ws : List UInt64) (rest : Bytes) :
    readWords order ws.length (ws.flatMap order.write64 ++ rest) = ws := by
  induction ws with
  | nil => rfl
  | cons w ws ih =>
    rw [List.length_cons, readWords, List.flatMap_cons, List.append_assoc,
      order.read64_write64_append, List.drop_left' (order.length_write64 w), ih]

/-- An opcode with the operands it asks for is read as one entry. -/
theorem entriesFrom_append (order : ByteOrder) (data : List Bytes) (offset : Nat) (op : Operation)
    (mode : UInt16) {ws : List UInt64} (hws : ws.length = (op.operands (mode % 0x10)).length)
    (rest : Bytes) :
    entriesFrom order data offset
        (order.write16 (Opcode.toWord ⟨op.code, mode⟩) ++ ws.flatMap order.write64 ++ rest) =
      (entriesFrom order data (offset + 2 + 8 * ws.length) rest).map
        ({ offset := offset, op := op, mode := mode % 0x10, operands := ws,
           comment := annotate data (op.operands (mode % 0x10)) ws } :: ·) := by
  obtain ⟨b₀, b₁, hword⟩ :=
    List.length_eq_two.mp (order.length_write16 (Opcode.toWord ⟨op.code, mode⟩))
  have hread : order.read16 [b₀, b₁] = Opcode.toWord ⟨op.code, mode⟩ := by
    rw [← hword, ← List.append_nil (order.write16 _), order.read16_write16_append]
  have hlength := order.length_flatMap_write64 ws
  have hlong : ¬ ((ws.flatMap order.write64 ++ rest).take (8 * ws.length)).length <
      8 * ws.length := by
    rw [List.take_left' hlength, hlength]
    exact Nat.lt_irrefl _
  rw [hword, List.append_assoc, List.cons_append, List.cons_append, List.nil_append, entriesFrom]
  simp only [hread, Opcode.ofWord_toWord, Operation.ofCode?_code, ← hws]
  rw [if_neg hlong, readWords_flatMap, List.drop_left' hlength]

/-! ## Calls -/

/-- A call of the assembler that starts an entry: the instruction it is for, the opcode word, the
length of the code in front of it, and the operands that are added before the next such call. -/
structure Call where
  instruction : Instruction
  word : UInt16
  offset : Nat
  operands : List UInt64

/-- The calls among events that start an entry. -/
def calls : List Event → List Call
  | [] => []
  | e :: es =>
    match e.step with
    | .opcode word =>
      { instruction := e.instruction
        word := word
        offset := e.program.code.length
        operands := (es.takeWhile fun e => !e.step.isCall).flatMap Event.operands } :: calls es
    | _ => calls es

theorem calls_append_of_not_isCall {body : List Event} (h : ∀ e ∈ body, e.step.isCall = false)
    (rest : List Event) : calls (body ++ rest) = calls rest := by
  induction body with
  | nil => rfl
  | cons e body ih =>
    have he : e.step.isCall = false := h e List.mem_cons_self
    have hbody := ih fun e' he' => h e' (List.mem_cons_of_mem e he')
    rw [List.cons_append, calls]
    split
    · rename_i word hstep
      simp [hstep, Step.isCall] at he
    · exact hbody

/-- Events in frames: each opcode has behind it the operands that its operation and mode ask for. -/
inductive Framed (order : ByteOrder) : (offset : Nat) → List Event → Prop
  | nil (offset : Nat) : Framed order offset []
  | cons (p : Program) (i : Instruction) (op : Operation) (mode : UInt16) (body rest : List Event)
      (horder : p.order = order) (hop : op.code = i.op)
      (hbody : ∀ e ∈ body, e.step.isCall = false ∧ e.program.order = order)
      (hcount : (body.flatMap Event.operands).length = (op.operands (mode % 0x10)).length)
      (hrest : Framed order (p.code.length + 2 + 8 * (body.flatMap Event.operands).length) rest) :
      Framed order p.code.length (⟨p, i, .opcode (Opcode.toWord ⟨i.op, mode⟩)⟩ :: (body ++ rest))

/-- An entry of the disassembly shows a call of the assembler. -/
structure CodeEntry.Shows (e : CodeEntry) (c : Call) : Prop where
  offset_eq : e.offset = c.offset
  name_eq : e.op.name = Operation.nameOfCode c.instruction.op
  mode_eq : ∃ mode, c.word = Opcode.toWord ⟨c.instruction.op, mode⟩ ∧ e.mode = mode % 0x10
  operands_eq : e.operands = c.operands

namespace Framed

variable {order : ByteOrder}

theorem takeWhile_eq_nil {offset : Nat} {es : List Event} (h : Framed order offset es) :
    es.takeWhile (fun e => !e.step.isCall) = [] := by
  cases h with
  | nil => rfl
  | cons => rfl

theorem flatMap_bytes_body {body : List Event}
    (h : ∀ e ∈ body, e.step.isCall = false ∧ e.program.order = order) :
    body.flatMap Event.bytes = (body.flatMap Event.operands).flatMap order.write64 := by
  induction body with
  | nil => rfl
  | cons e body ih =>
    obtain ⟨hcall, horder⟩ := h e List.mem_cons_self
    have hbytes : e.bytes = e.operands.flatMap order.write64 := by
      rw [Event.bytes, Step.bytes_of_not_isCall hcall, horder]
      rfl
    rw [List.flatMap_cons, List.flatMap_cons, List.flatMap_append, hbytes,
      ih fun e' he' => h e' (List.mem_cons_of_mem e he')]

theorem append {offset : Nat} {es es' : List Event} (h : Framed order offset es)
    (h' : Framed order (offset + (es.flatMap Event.bytes).length) es') :
    Framed order offset (es ++ es') := by
  induction h with
  | nil offset => simpa using h'
  | cons p i op mode body rest horder hop hbody hcount _ ih =>
    rw [List.cons_append, List.append_assoc]
    refine .cons p i op mode body _ horder hop hbody hcount (ih ?_)
    rw [List.flatMap_cons, List.length_append, List.flatMap_append, List.length_append,
      flatMap_bytes_body hbody, order.length_flatMap_write64] at h'
    have hword : (Event.bytes ⟨p, i, .opcode (Opcode.toWord ⟨i.op, mode⟩)⟩).length = 2 :=
      p.order.length_write16 _
    rw [hword] at h'
    convert h' using 1
    omega

/-- The bytes of framed events are read as one entry for each call. -/
theorem exists_entries {offset : Nat} {es : List Event} (h : Framed order offset es)
    (data : List Bytes) :
    ∃ entries, entriesFrom order data offset (es.flatMap Event.bytes) = .ok entries ∧
      List.Forall₂ CodeEntry.Shows entries (calls es) := by
  induction h with
  | nil offset =>
    refine ⟨[], ?_, .nil⟩
    rw [List.flatMap_nil, entriesFrom]
  | cons p i op mode body rest horder hop hbody hcount hrest ih =>
    obtain ⟨entries, hentries, hshows⟩ := ih
    have hone := entriesFrom_append order data p.code.length op mode hcount
      (rest.flatMap Event.bytes)
    have hbytes :
        (⟨p, i, .opcode (Opcode.toWord ⟨i.op, mode⟩)⟩ :: (body ++ rest)).flatMap Event.bytes =
        order.write16 (Opcode.toWord ⟨op.code, mode⟩)
          ++ (body.flatMap Event.operands).flatMap order.write64 ++ rest.flatMap Event.bytes := by
      rw [List.flatMap_cons, List.flatMap_append, flatMap_bytes_body hbody, hop, ← horder,
        List.append_assoc]
      rfl
    have hnot : ∀ e ∈ body, e.step.isCall = false := fun e he => (hbody e he).1
    refine ⟨_, by rw [hbytes, hone, hentries]; rfl, ?_⟩
    rw [calls, calls_append_of_not_isCall hnot,
      List.takeWhile_append_of_pos (fun e he => by rw [hnot e he]; rfl), hrest.takeWhile_eq_nil,
      List.append_nil]
    refine .cons ⟨rfl, ?_, ⟨mode, rfl, rfl⟩, rfl⟩ hshows
    rw [Operation.nameOfCode, ← hop, Operation.ofCode?_code]

end Framed

/-! ## Instructions -/

namespace Instruction

/-- Whether the mode of an instruction does not call for other operands than the instruction has. -/
structure PlainMode (i : Instruction) : Prop where
  actor : i.op = Operation.actor.code → i.mode % 0x10 ≠ Mode.everyone
  action : i.op = Operation.action.code → i.params = [] → i.mode % 0x10 ≠ Mode.extra
  namedCall : i.op = Operation.namedCall.code → i.params.length = 1 → i.mode % 0x10 ≠ Mode.extra

instance (i : Instruction) : Decidable i.PlainMode :=
  decidable_of_iff
    ((i.op = Operation.actor.code → i.mode % 0x10 ≠ Mode.everyone) ∧
      (i.op = Operation.action.code → i.params = [] → i.mode % 0x10 ≠ Mode.extra) ∧
      (i.op = Operation.namedCall.code → i.params.length = 1 → i.mode % 0x10 ≠ Mode.extra))
    ⟨fun h => ⟨h.1, h.2.1, h.2.2⟩, fun h => ⟨h.actor, h.action, h.namedCall⟩⟩

theorem plainMode_of_mode_eq_zero {i : Instruction} (h : i.mode = 0) : i.PlainMode := by
  have heveryone : (0 : UInt16) % 0x10 ≠ Mode.everyone := by decide
  have hextra : (0 : UInt16) % 0x10 ≠ Mode.extra := by decide
  rw [← h] at heveryone hextra
  exact ⟨fun _ => heveryone, fun _ _ => hextra, fun _ _ => hextra⟩

/-- Whether the events of some steps are framed, whatever the program in front of them. -/
def InFrames (i : Instruction) (ss : List Step) : Prop :=
  ∀ p : Program, Framed p.order p.code.length (p.eventsOf i ss)

variable {i : Instruction} {op : Operation} {ss : List Step}

theorem opcode_zero (i : Instruction) : i.opcode 0 = Opcode.toWord ⟨i.op, i.mode⟩ := by
  rw [opcode, if_pos rfl]

theorem inFrames_nil (i : Instruction) : i.InFrames [] := fun p => .nil p.code.length

theorem InFrames.opcode (mode : UInt16) (hss : i.InFrames ss) (hop : op.code = i.op)
    (hnone : op.operands (mode % 0x10) = []) :
    i.InFrames (.opcode (Opcode.toWord ⟨i.op, mode⟩) :: ss) := by
  intro p
  have hlength : (p.apply (.opcode (Opcode.toWord ⟨i.op, mode⟩))).code.length =
      p.code.length + 2 := by
    rw [Program.code_apply, List.length_append, Step.bytes, ByteOrder.length_write16]
  have hrest := hss (p.apply (.opcode (Opcode.toWord ⟨i.op, mode⟩)))
  rw [hlength, Program.order_apply] at hrest
  refine .cons p i op mode [] _ rfl hop ?_ ?_ hrest
  · simp
  · rw [hnone]
    rfl

theorem InFrames.operand (mode : UInt16) {s : Step} (hss : i.InFrames ss)
    (hop : op.code = i.op) (hs : s.isCall = false)
    (hcount : ∀ p, (s.operands p).length = (op.operands (mode % 0x10)).length) :
    i.InFrames (.opcode (Opcode.toWord ⟨i.op, mode⟩) :: s :: ss) := by
  intro p
  let p' := p.apply (.opcode (Opcode.toWord ⟨i.op, mode⟩))
  have hbody : [(⟨p', i, s⟩ : Event)].flatMap Event.operands = s.operands p' := by
    simp [Event.operands]
  have hlength : (p'.apply s).code.length = p.code.length + 2 + 8 * (s.operands p').length := by
    rw [Program.code_apply, Program.code_apply, Step.bytes_of_not_isCall hs, List.length_append,
      List.length_append, ByteOrder.length_flatMap_write64, Step.bytes, ByteOrder.length_write16]
  have hrest := hss (p'.apply s)
  rw [hlength, Program.order_apply, Program.order_apply] at hrest
  refine .cons p i op mode [⟨p', i, s⟩] _ rfl hop ?_ ?_ ?_
  · intro e he
    rw [List.mem_singleton.mp he]
    exact ⟨hs, Program.order_apply p _⟩
  · rw [hbody]
    exact hcount p'
  · rw [hbody]
    exact hrest

theorem inFrames_packSteps (hop : op.code = i.op)
    (hpack : op.operands (Mode.extra % 0x10) = [.packRef, .literal]) : i.InFrames i.packSteps := by
  refine (inFrames_nil i).operand Mode.extra hop rfl ?_
  intro p
  rw [hpack]
  rfl

/-- Every actor behind the first has a mode of its own, and so has the wildcard. -/
theorem inFrames_actorSteps (hop : Operation.actor.code = i.op)
    (hmode : i.mode % 0x10 ≠ Mode.everyone) {n : Nat} {ps : List Param}
    (h : i.actorSteps n ps = .ok ss) : i.InFrames ss := by
  have hone : (Operation.actor.operands (i.mode % 0x10)).length = 1 := by
    rw [Operation.operands, if_neg hmode]
    rfl
  induction ps generalizing n ss with
  | nil =>
    cases h
    exact inFrames_nil i
  | cons q ps ih =>
    obtain ⟨later, hlater, rfl | ⟨mode, rfl | rfl, rfl⟩⟩ := actorSteps_cons h
    · exact (ih hlater).opcode Mode.everyone hop rfl
    · exact (ih hlater).operand i.mode hop rfl fun _ => hone.symm
    · exact (ih hlater).operand Mode.extra hop rfl fun _ => rfl

theorem length_operands_callOperand (q : Param) (p : Program) :
    (callOperand q).isCall = false ∧ ((callOperand q).operands p).length = 1 := by
  cases q with
  | text | int => exact ⟨rfl, rfl⟩
  | bool b => cases b <;> exact ⟨rfl, rfl⟩

theorem inFrames_stepsOf (hop : op.code = i.op) (hmode : i.PlainMode)
    (h : i.stepsOf op = .ok ss) : i.InFrames ss := by
  have hbare : ∀ {op : Operation}, op.code = i.op → op.operands (i.mode % 0x10) = [] →
      i.InFrames [.opcode (i.opcode 0)] := fun hop hnone => by
    rw [opcode_zero]
    exact (inFrames_nil i).opcode i.mode hop hnone
  have hsingle : ∀ {op : Operation} {s : Step}, op.code = i.op → s.isCall = false →
      (∀ p, (s.operands p).length = (op.operands (i.mode % 0x10)).length) →
      i.InFrames [.opcode (i.opcode 0), s] := fun hop hs hcount => by
    rw [opcode_zero]
    exact (inFrames_nil i).operand i.mode hop hs hcount
  cases op with
  | noOp | halt | sync | userInput =>
    cases h
    exact hbare hop rfl
  | line =>
    rw [stepsOf] at h
    split at h
    · cases h
      exact hsingle hop rfl fun _ => rfl
    · cases h
  | actor =>
    have hne := hmode.actor hop.symm
    rw [stepsOf] at h
    split at h
    · cases h
      refine hsingle hop rfl fun p => ?_
      rw [Operation.operands, if_neg hne]
      rfl
    · exact inFrames_actorSteps hop hne h
  | emotion =>
    cases h
    exact hsingle hop rfl fun _ => rfl
  | color | wait | jump =>
    rw [stepsOf] at h
    split at h
    · cases h
      exact hsingle hop rfl fun _ => rfl
    · cases h
  | action =>
    cases h
    by_cases hparams : i.params = []
    · rw [if_pos (List.isEmpty_iff.mpr hparams)]
      refine hbare hop ?_
      rw [Operation.operands, if_neg (hmode.action hop.symm hparams)]
    · rw [if_neg (by simpa using hparams)]
      exact inFrames_packSteps hop rfl
  | namedCall =>
    rw [stepsOf] at h
    split at h
    · rename_i q hparams
      cases h
      have hne := hmode.namedCall hop.symm (by rw [hparams]; rfl)
      refine hsingle hop (length_operands_callOperand q (.start none)).1 fun p => ?_
      rw [Operation.operands, if_neg hne, (length_operands_callOperand q p).2]
      rfl
    · cases h
      exact inFrames_packSteps hop rfl

theorem inFrames_of_steps (hmode : i.PlainMode) (h : i.steps = .ok ss) : i.InFrames ss := by
  obtain ⟨-, op, hop, hss⟩ := steps_eq_ok_iff.mp h
  exact inFrames_stepsOf (Operation.code_of_ofCode? hop) hmode hss

end Instruction

/-! ## Programs -/

namespace Program

/-- The events of an assembly without errors are framed. -/
theorem framed_events {p q : Program} {is : List Instruction} (hmodes : ∀ i ∈ is, i.PlainMode)
    (hq : is.foldlM add p = .ok q) : Framed p.order p.code.length (p.events is) := by
  induction is generalizing p with
  | nil => exact .nil p.code.length
  | cons i is ih =>
    obtain ⟨ss, hss, hq⟩ := foldlM_add_cons_eq_ok_iff.mp hq
    have hfirst := Instruction.inFrames_of_steps (hmodes i List.mem_cons_self) hss (p.mark i.line)
    have hlater := ih (fun i' hi' => hmodes i' (List.mem_cons_of_mem i hi')) hq
    rw [code_run _ i, List.length_append, order_run] at hlater
    rw [events_cons hss, ← order_mark p i.line, ← code_mark p i.line]
    exact hfirst.append hlater

/-- The code of an assembled program is read as one entry for each call of the assembler that starts
one, whatever the texts are. -/
theorem exists_entries {order : Option ByteOrder} {is : List Instruction} {p : Program}
    (hmodes : ∀ i ∈ is, i.PlainMode) (hp : assemble order is = .ok p) (data : List Bytes) :
    ∃ entries, entriesFrom p.order data 0 p.code = .ok entries ∧
      List.Forall₂ CodeEntry.Shows entries (calls ((start order).events is)) := by
  have hcode : p.code = ((start order).events is).flatMap Event.bytes := code_foldlM_add hp
  rw [hcode, order_assemble hp]
  exact (framed_events hmodes hp).exists_entries data

end Program

/-- The disassembly of an assembled program shows the calls of the assembler that start an entry, in
their order, each with the operands added before the next one. -/
theorem disassemble_assemble (order : Option ByteOrder) (is : List Instruction) (p : Program)
    (header : Header) (jumps : WordMap UInt64) (hmodes : ∀ i ∈ is, i.PlainMode)
    (hp : Program.assemble order is = .ok p) :
    ∃ entries, Module.disassemble ⟨header, p.data, jumps, p.code, p.order⟩ = .ok entries ∧
      List.Forall₂ CodeEntry.Shows entries (calls ((Program.start order).events is)) :=
  Program.exists_entries hmodes hp p.data

/-- Two actors behind the wildcard, a line, calls with a pack and with one text, and a mode that
does not fit into four bits. -/
def farewell : List Instruction :=
  [{ op := Operation.actor.code, mode := 0x11,
     params := [.text (Text.utf8 "..."), .text (Text.utf8 "ann"), .text (Text.utf8 "bob")] },
   { op := Operation.line.code, params := [.text (Text.utf8 "bye")], line := 2 },
   { op := Operation.namedCall.code, name := Text.utf8 "go", params := [.int 1, .bool true] },
   { op := Operation.namedCall.code, name := Text.utf8 "say", params := [.text []], mode := 2 },
   { op := Operation.halt.code, mode := 0x23 }]

theorem disassemble_assemble_farewell :
    (∀ i ∈ farewell, i.PlainMode) ∧ ∃ p, Program.assemble (some .big) farewell = .ok p ∧
      ∃ entries, Module.disassemble ⟨p.header {}, p.data, .empty, p.code, p.order⟩ = .ok entries ∧
        List.Forall₂ CodeEntry.Shows entries
          (calls ((Program.start (some .big)).events farewell)) := by
  have hmodes : ∀ i ∈ farewell, i.PlainMode := by decide
  have hok : (Program.assemble (some .big) farewell).isOk = true := by decide +kernel
  refine ⟨hmodes, ?_⟩
  cases hp : Program.assemble (some .big) farewell with
  | error e =>
    rw [hp] at hok
    cases hok
  | ok p =>
    exact ⟨p, rfl, disassemble_assemble (some .big) farewell p (p.header {}) .empty hmodes hp⟩

end Dialogue
