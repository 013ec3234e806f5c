import Dialogue.Proofs.DataReferences
import Dialogue.Proofs.ReadInstructions

/-!
# Units at other places

What units say does not depend on where they stand. If the places of units are changed, then the
places of their instructions and errors are changed in the same way, and nothing else is.
-/

namespace Dialogue

variable (f : Int × Int → Int × Int)

def Instruction.moved (i : Instruction) : Instruction :=
  { i with line := (f (i.line, i.col)).1, col := (f (i.line, i.col)).2 }

namespace Script

def Diagnostic.moved (d : Diagnostic) : Diagnostic :=
  { d with line := (f (d.line, d.col)).1, col := (f (d.line, d.col)).2 }

namespace LexUnit

/-- The unit with the same text at another place. Its offset, which nothing reads, is lost. -/
def moved (u : LexUnit) : LexUnit where
  text := u.text
  line := (f (u.line, u.col)).1
  col := (f (u.line, u.col)).2

@[simp] theorem text_moved (u : LexUnit) : (u.moved f).text = u.text := rfl

theorem trimmed_moved (u : LexUnit) : (u.moved f).trimmed = u.trimmed.moved f := rfl

theorem placed_moved (u : LexUnit) (r : Reading) :
    (u.moved f).placed r = (u.placed r).map (Instruction.moved f) := by
  rw [placed, placed]
  cases r.instruction? with
  | none => rfl
  | some i => rfl

theorem blame_moved {α : Type} (u : LexUnit) (r : Except Fault α) :
    (u.moved f).blame r = (u.blame r).mapError (.moved f) := by
  cases r with
  | error fault => rfl
  | ok a => rfl

theorem sigilName_moved (u : LexUnit) :
    (u.moved f).sigilName = u.sigilName.mapError (.moved f) := by
  rw [sigilName, sigilName, text_moved]
  split
  · rfl
  · rfl

theorem group_moved (u : LexUnit) : (u.moved f).group = u.group.mapError (.moved f) :=
  blame_moved f u _

theorem literal_moved (u : LexUnit) : (u.moved f).literal = u.literal.mapError (.moved f) :=
  blame_moved f u _

theorem readAction_moved (u : LexUnit) (next? : Option LexUnit) :
    (u.moved f).readAction (next?.map (moved f)) = (u.readAction next?).mapError (.moved f) := by
  rw [readAction, readAction, Result.mapError_bind, sigilName_moved]
  congr 1
  funext name
  cases next? with
  | none => rfl
  | some next =>
    simp only [Option.map_some, trimmed_moved]
    rw [apply_ite (Except.mapError _), Result.mapError_bind]
    refine ite_congr rfl (fun _ => ?_) fun _ => rfl
    rw [group_moved]
    rfl

theorem callArguments_moved (u : LexUnit) (name : Bytes) :
    (u.moved f).callArguments name = (u.callArguments name).mapError (.moved f) := by
  rw [callArguments, callArguments]
  simp only [apply_ite (Except.mapError _), Result.mapError_map, ← group_moved, ← literal_moved]
  rfl

theorem readNamedCall_moved (u : LexUnit) (next? : Option LexUnit) :
    (u.moved f).readNamedCall (next?.map (moved f))
      = (u.readNamedCall next?).mapError (.moved f) := by
  rw [readNamedCall, readNamedCall, Result.mapError_bind, sigilName_moved]
  congr 1
  funext name
  cases next? with
  | none => rfl
  | some next =>
    simp only [Option.map_some, trimmed_moved]
    rw [Result.mapError_bind, callArguments_moved]
    rfl

theorem readWait_moved (u : LexUnit) :
    (u.moved f).readWait = u.readWait.mapError (.moved f) := by
  rw [readWait, readWait, apply_ite (Except.mapError _)]
  refine ite_congr rfl (fun _ => rfl) fun _ => ?_
  rw [text_moved]
  split
  · rfl
  · rfl

theorem readColor_moved (u : LexUnit) :
    (u.moved f).readColor = u.readColor.mapError (.moved f) := by
  rw [readColor, readColor]
  simp only [apply_ite (Except.mapError _)]
  rfl

theorem readActors_moved (u : LexUnit) :
    (u.moved f).readActors = u.readActors.mapError (.moved f) := by
  rw [readActors, readActors, Result.mapError_bind, group_moved]
  congr 1
  funext names
  split
  · rfl
  · rfl

theorem readSwitch_moved (u : LexUnit) (on : Bool) :
    (u.moved f).readSwitch on = (u.readSwitch on).mapError (.moved f) := by
  rw [readSwitch, readSwitch, Result.mapError_bind, sigilName_moved]
  rfl

theorem read_moved (u : LexUnit) (next? : Option LexUnit) :
    (u.moved f).read (next?.map (moved f)) = (u.read next?).mapError (.moved f) := by
  rw [read, read]
  simp only [text_moved]
  split
  · rfl
  · split
    · rfl
    · rfl
    · rw [Result.mapError_bind, literal_moved]
      rfl
    · exact readAction_moved f u next?
    · exact readNamedCall_moved f u next?
    · rw [Result.mapError_bind, sigilName_moved]
      rfl
    · exact readWait_moved f u
    · exact readColor_moved f u
    · exact readActors_moved f u
    · rfl
    · rfl
    · rfl
    · exact readSwitch_moved f u true
    · exact readSwitch_moved f u false
    · rfl

end LexUnit

theorem Reading.later_map (r : Reading) (us : List LexUnit) (g : LexUnit → LexUnit) :
    r.later (us.map g) = (r.later us).map g := by
  rw [later, later]
  split
  · exact List.map_tail.symm
  · rfl

theorem readUnits_moved (us : List LexUnit) :
    readUnits (us.map (.moved f))
      = ((readUnits us).map (List.map (.moved f))).mapError (.moved f) := by
  induction us using units_induction with
  | nil => rfl
  | cons u us ih =>
    rw [List.map_cons, readUnits_cons, readUnits_cons, List.head?_map, LexUnit.trimmed_moved,
      LexUnit.read_moved]
    cases hr : u.trimmed.read us.head? with
    | error d => rfl
    | ok r =>
      change (readUnits _).map _ = (((readUnits _).map _).map _).mapError _
      rw [Reading.later_map, ih _ (later_suffix us r), LexUnit.placed_moved]
      cases readUnits (r.later us) with
      | error d => rfl
      | ok is => exact congrArg Except.ok List.map_append.symm

/-- An error without a place has to stay without one. -/
theorem instructions_moved (hnone : f (0, 0) = (0, 0)) (us : List LexUnit) :
    instructions (us.map (.moved f))
      = ((instructions us).map (List.map (.moved f))).mapError (.moved f) := by
  have hnowhere (fault : Fault) : Diagnostic.moved f { fault := fault } = { fault := fault } := by
    rw [Diagnostic.moved, hnone]
  rw [instructions, instructions, List.isEmpty_map, readUnits_moved]
  split
  · exact congrArg Except.error (hnowhere _).symm
  · cases readUnits us with
    | error d => rfl
    | ok is =>
      cases is with
      | nil => exact congrArg Except.error (hnowhere _).symm
      | cons i is => rfl

end Script

/-! ## Assembling -/

namespace Instruction

theorem actorSteps_moved (i : Instruction) (n : Nat) (ps : List Param) :
    (i.moved f).actorSteps n ps = i.actorSteps n ps := by
  induction ps generalizing n with
  | nil => rfl
  | cons p ps ih =>
    rw [actorSteps, actorSteps, ih]
    rfl

theorem steps_moved (i : Instruction) : (i.moved f).steps = i.steps := by
  have hstepsOf (op : Operation) : (i.moved f).stepsOf op = i.stepsOf op := by
    cases op with
    | actor => exact congrArg (ite _ _) (actorSteps_moved f i 0 i.params)
    | noOp | halt | sync | userInput | line | emotion | color | wait | jump | action | namedCall =>
      rfl
  simp only [steps, hstepsOf]
  rfl

end Instruction

/-- The place of what has no place. -/
def nowhere : Int × Int → Int × Int := fun _ => (0, 0)

def EncodeError.unplaced (e : EncodeError) : EncodeError :=
  { e with line := 0 }

namespace Program

def unmarked (p : Program) : Program :=
  p.withLines .empty

theorem unmarked_mark (p : Program) (line : Int) : (p.mark line).unmarked = p.unmarked := by
  obtain ⟨lines, hlines⟩ := p.exists_mark_eq line
  rw [hlines]
  rfl

theorem add_nowhere (p : Program) (i : Instruction) :
    p.unmarked.add (i.moved nowhere) = ((p.add i).map unmarked).mapError .unplaced := by
  rw [add, add, Instruction.steps_moved]
  cases i.steps with
  | error fault => rfl
  | ok ss =>
    refine congrArg Except.ok ?_
    calc p.unmarked.run ss
        = ((p.mark i.line).unmarked).run ss := by rw [unmarked_mark]
      _ = ((p.mark i.line).run ss).unmarked := run_withLines _ _ ss

theorem foldlM_add_nowhere (p : Program) (is : List Instruction) :
    (is.map (.moved nowhere)).foldlM add p.unmarked
      = ((is.foldlM add p).map unmarked).mapError .unplaced := by
  induction is generalizing p with
  | nil => rfl
  | cons i is ih =>
    rw [List.map_cons, List.foldlM_cons, List.foldlM_cons, add_nowhere]
    cases p.add i with
    | error e => rfl
    | ok q => exact ih q

/-- Without the places of its instructions, a program has no source lines. -/
theorem assemble_nowhere (order : Option ByteOrder) (is : List Instruction) :
    assemble order (is.map (.moved nowhere))
      = ((assemble order is).map unmarked).mapError .unplaced :=
  foldlM_add_nowhere (start order) is

end Program

end Dialogue
