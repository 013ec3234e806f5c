import Dialogue.Compile
import Dialogue.Proofs.CodePoints
import Dialogue.Proofs.GuardedReading
import Dialogue.Proofs.UnitScan

/-!
# Compiling within bounds

A second compiler finds the places of units, reads them, assembles their instructions and shows
errors by look-ups that may fail only. It agrees with `compile`, and its excerpts are those of
`Failure.snippet?`.
-/

namespace Dialogue

namespace Script

theorem Position.offset_after (p : Position) (cs : List Char) :
    (p.after cs).offset = p.offset + cs.length := by
  induction cs generalizing p with
  | nil => rfl
  | cons c cs ih =>
    have hstep : (p.advance c).offset = p.offset + 1 := by
      rw [advance]
      split
      · rfl
      · rfl
    rw [after, List.foldl_cons, List.length_cons]
    exact (ih _).trans (by omega)

theorem Position.offset_after_start (cs : List Char) :
    (({} : Position).after cs).offset = cs.length :=
  (offset_after {} cs).trans (Nat.zero_add _)

theorem Position.after_append (p : Position) (cs ds : List Char) :
    p.after (cs ++ ds) = (p.after cs).after ds :=
  List.foldl_append

end Script

namespace Guarded

open Script

/-! ## Places of units -/

/-- The place at the offset `stop`, counted on from an earlier place. -/
def advanceTo (cs : List Char) (stop : Nat) : (rounds : Nat) → Position → Option Position
  | 0, p => if p.offset < stop then none else some p
  | rounds + 1, p =>
    if p.offset < stop then do
      let c ← cs[p.offset]?
      advanceTo cs stop rounds (p.advance c)
    else some p

theorem advanceTo_eq (front back rest : List Char) {rounds : Nat} (h : back.length ≤ rounds) :
    advanceTo (front ++ back ++ rest) (front.length + back.length) rounds
        (({} : Position).after front) =
      some (({} : Position).after (front ++ back)) := by
  induction back generalizing front rounds with
  | nil =>
    have hend : ¬ (({} : Position).after front).offset < front.length + 0 := by
      rw [Position.offset_after_start]
      omega
    cases rounds with
    | zero => rw [advanceTo, List.length_nil, if_neg hend, List.append_nil]
    | succ rounds => rw [advanceTo, List.length_nil, if_neg hend, List.append_nil]
  | cons c back ih =>
    obtain ⟨rounds, rfl⟩ := Nat.exists_eq_add_of_le' (Nat.lt_of_lt_of_le back.length.succ_pos h)
    have hget : (front ++ c :: back ++ rest)[front.length]? = some c := by simp
    have hmore : (({} : Position).after front).offset < front.length + (c :: back).length := by
      rw [Position.offset_after_start, List.length_cons]
      omega
    have hnext := ih (front ++ [c]) (Nat.le_of_succ_le_succ h)
    rw [Position.after_append {} front [c], List.length_append, List.append_assoc front [c] back,
      Nat.add_assoc, Nat.add_comm [c].length] at hnext
    rw [advanceTo, if_pos hmore, Position.offset_after_start, hget]
    exact hnext

/-- The units with the given offsets and texts, which are in the order of the source. -/
def placeUnits (cs : List Char) : Position → List (Nat × Bytes) → Option (List LexUnit)
  | _, [] => some []
  | p, (offset, text) :: found => do
    let q ← advanceTo cs offset offset p
    let later ← placeUnits cs q found
    return { text := text, offset := offset, line := q.line, col := q.col } :: later

/-- The places are counted on from unit to unit: `front` has been passed and `back` has not. -/
theorem placeUnits_scan (prev : Option Char) (pos : Position) (cs front back : List Char)
    (hpos : pos = ({} : Position).after (front ++ back)) :
    placeUnits (front ++ back ++ cs) (({} : Position).after front)
        ((LexUnit.scan 0 prev pos cs).map fun u => (u.offset, u.text)) =
      some (LexUnit.scan 0 prev pos cs) := by
  revert front back
  refine LexUnit.scan_induction (P := fun _ pos cs us => ∀ front back : List Char,
    pos = ({} : Position).after (front ++ back) →
      placeUnits (front ++ back ++ cs) (({} : Position).after front)
        (us.map fun u => (u.offset, u.text)) = some us) ?_ ?_ ?_ prev pos cs
  · intro prev pos front back _
    rfl
  · intro prev pos c cs us _ ih front back hpos
    have hnext : pos.advance c = ({} : Position).after (front ++ (back ++ [c])) := by
      rw [hpos, ← List.append_assoc, Position.after_append {} (front ++ back) [c]]
      rfl
    have hlater := ih front (back ++ [c]) hnext
    rw [← List.append_assoc, List.append_assoc (front ++ back)] at hlater
    exact hlater
  · intro prev pos u rest us _ ih front back hpos
    have hoffset : pos.offset = front.length + back.length := by
      rw [hpos, Position.offset_after_start, List.length_append]
    have hplace := advanceTo_eq front back (u ++ rest) (Nat.le_add_left back.length front.length)
    have hnext : pos.after u = ({} : Position).after (front ++ back ++ u) := by
      rw [hpos, ← Position.after_append]
    have hlater := ih (front ++ back) u hnext
    rw [List.append_assoc (front ++ back) u rest, ← hpos] at hlater
    rw [← hoffset, ← hpos] at hplace
    rw [List.map_cons, placeUnits]
    simp only [LexUnit.ofChars, hplace, hlater, Option.bind_eq_bind, Option.bind_some]
    rfl

def ofSource (source : Bytes) : ExceptT Diagnostic Option (List LexUnit) := do
  let cs := Text.decode source
  let found := (LexUnit.scan 0 none {} cs).map fun u => (u.offset, u.text)
  match ← ExceptT.lift (placeUnits cs {} found) with
  | [] => throw { fault := .noUnits }
  | us => return us

theorem run_ofSource (source : Bytes) : (ofSource source).run = some (LexUnit.ofSource source) := by
  have hplaces : placeUnits (Text.decode source) {}
      ((LexUnit.scan 0 none {} (Text.decode source)).map fun u => (u.offset, u.text)) =
        some (LexUnit.scan 0 none {} (Text.decode source)) :=
    placeUnits_scan none {} (Text.decode source) [] [] rfl
  rw [ofSource, LexUnit.ofSource, hplaces, lift_some_bind]
  cases LexUnit.scan 0 none {} (Text.decode source) with
  | nil => rfl
  | cons u us => rfl

/-! ## Assembling -/

/-- The steps of an instruction. A parameter is looked up only after their number is looked at. -/
def stepsOf (i : Instruction) : Operation → ExceptT EncodeFault Option (List Step)
  | .line => do
    if i.params.length ≠ 1 then throw (.paramCount i.params.length)
    else
      let p ← ExceptT.lift i.params[0]?
      return [.opcode (i.opcode 0), .string p.toText]
  | .color | .wait | .jump => do
    if i.params.length ≠ 1 then throw .notNumeric
    else
      match ← ExceptT.lift i.params[0]? with
      | .int v => return [.opcode (i.opcode 0), .operand v]
      | _ => throw .notNumeric
  | .namedCall => do
    if i.params.length ≠ 1 then return i.packSteps
    else
      let p ← ExceptT.lift i.params[0]?
      return [.opcode (i.opcode 0), Instruction.callOperand p]
  | op => ExceptT.mk (some (i.stepsOf op))

theorem run_stepsOf (i : Instruction) (op : Operation) :
    (stepsOf i op).run = some (i.stepsOf op) := by
  cases op with
  | noOp | halt | sync | userInput | actor | emotion | action => rfl
  | line | namedCall =>
    rw [stepsOf, Instruction.stepsOf]
    rcases i.params with _ | ⟨p, _ | ⟨q, ps⟩⟩
    · rfl
    · rfl
    · rfl
  | color | wait | jump =>
    rw [stepsOf, Instruction.stepsOf]
    rcases i.params with _ | ⟨p, ps⟩
    · rfl
    · cases p with
      | text | int | bool =>
        cases ps with
        | nil | cons => rfl

def steps (i : Instruction) : ExceptT EncodeFault Option (List Step) :=
  match i.nulParam? with
  | some text => throw (.nulInParam text)
  | none =>
    match Operation.ofCode? i.op with
    | some op => stepsOf i op
    | none => throw .unknownOperation

theorem run_steps (i : Instruction) : (steps i).run = some i.steps := by
  rw [steps, Instruction.steps]
  cases i.nulParam? with
  | some text => rfl
  | none =>
    cases Operation.ofCode? i.op with
    | none => rfl
    | some op => exact run_stepsOf i op

/-- The program after one step. -/
def apply (p : Program) : Step → Option Program
  | .named name => return p.addOperand (← hash name)
  | s => some (p.apply s)

theorem apply_eq (p : Program) (s : Step) : apply p s = some (p.apply s) := by
  cases s with
  | opcode | operand | string | pack => rfl
  | named name =>
    rw [apply, hash_eq]
    rfl

theorem foldlM_apply (p : Program) (ss : List Step) : ss.foldlM apply p = some (p.run ss) := by
  induction ss generalizing p with
  | nil => rfl
  | cons s ss ih =>
    rw [List.foldlM_cons, apply_eq]
    exact ih _

def add (p : Program) (i : Instruction) : ExceptT EncodeError Option Program := do
  let ss ← mapError (fun fault => ⟨i.op, i.line, fault⟩) (steps i)
  ExceptT.lift (ss.foldlM apply (p.mark i.line))

theorem run_add (p : Program) (i : Instruction) : (add p i).run = some (p.add i) := by
  have hsteps := run_mapError (fun fault => EncodeError.mk i.op i.line fault) (run_steps i)
  rw [add, Program.add]
  cases hi : i.steps with
  | error fault =>
    rw [hi] at hsteps
    exact run_bind_of_run_error hsteps _
  | ok ss =>
    rw [hi] at hsteps
    rw [bind_of_run_ok hsteps, foldlM_apply]
    rfl

theorem run_foldlM_add (p : Program) (is : List Instruction) :
    (is.foldlM add p).run = some (is.foldlM Program.add p) := by
  induction is generalizing p with
  | nil => rfl
  | cons i is ih =>
    rw [List.foldlM_cons, List.foldlM_cons]
    exact run_bind (run_add p i) fun q _ => ih q

/-! ## Compiling -/

def compile (source : Bytes) (opts : CompileOptions) : ExceptT CompileError Option Compilation := do
  let units ← mapError .script (ofSource source)
  let instructions ← mapError .script (instructions units)
  let program ← mapError .encode (instructions.foldlM add (.start opts.order))
  return {
    units := units
    instructions := instructions
    program := program
    binary := program.package opts.toModuleOptions }

/-- The guarded compiler finds all it looks for, and comes to an end. -/
theorem run_compile (source : Bytes) (opts : CompileOptions) :
    (compile source opts).run = some (Dialogue.compile source opts) := by
  refine run_bind (run_mapError _ (run_ofSource source)) fun us _ => ?_
  refine run_bind (run_mapError _ (run_instructions us)) fun is _ => ?_
  exact run_bind (run_mapError _ (run_foldlM_add _ is)) fun p _ => rfl

/-! ## Excerpts -/

/-- The line with a number, which counts from one, behind its number. -/
def numberedLine (lines : List Bytes) (n : Int) : Option Bytes :=
  if n < 1 then none
  else lines[n.toNat - 1]?.map fun text =>
    Text.utf8 (lineNumber n.toNat ++ " | ") ++ text ++ Text.utf8 "\n"

theorem numberedLine_eq {lines : List Bytes} {i : Nat} (h : i < lines.length) :
    numberedLine lines (i + 1 : Nat) = some (Script.numberedLine lines (i + 1)) := by
  rw [numberedLine, if_neg (by omega), Int.toNat_natCast, Nat.add_sub_cancel, Script.numberedLine,
    List.getElem?_eq_getElem h]
  rfl

/-- A line that is shown under a condition only. -/
def numberedLineIf (shown : Bool) (lines : List Bytes) (n : Int) : Option Bytes :=
  if shown then numberedLine lines n else some []

theorem numberedLineIf_before {lines : List Bytes} {i : Nat} (h : i < lines.length) :
    numberedLineIf (1 < ((i + 1 : Nat) : Int)) lines ((i + 1 : Nat) - 1) =
      some (Script.numberedLine lines i) := by
  cases i with
  | zero => rfl
  | succ i =>
    have hbefore : (((i + 1 + 1 : Nat) : Int) - 1) = (i + 1 : Nat) := by omega
    rw [numberedLineIf, if_pos (decide_eq_true (by omega)), hbefore, numberedLine_eq (by omega)]

theorem numberedLineIf_after (lines : List Bytes) (i : Nat) :
    numberedLineIf (((i + 1 : Nat) : Int) < lines.length) lines ((i + 1 : Nat) + 1) =
      some (Script.numberedLine lines (i + 1 + 1)) := by
  have hafter : (((i + 1 : Nat) : Int) + 1) = (i + 1 + 1 : Nat) := by omega
  by_cases hlast : i + 1 < lines.length
  · rw [numberedLineIf, if_pos (decide_eq_true (by omega)), hafter, numberedLine_eq hlast]
  · rw [numberedLineIf, if_neg (by rw [decide_eq_true_eq]; omega), Script.numberedLine,
      List.getElem?_eq_none (by omega)]

def caret (col : Int) : Option Bytes :=
  if col < 1 then none else some (caretLine col.toNat)

/-- A diagnostic with the line it is about and the lines before and after. -/
def snippet (d : Diagnostic) (source : Bytes) : Option Bytes := do
  if d.line = 0 then return d.message
  else
    let lines := source.splitOn 0x0A
    let line := min d.line lines.length
    let before ← numberedLineIf (1 < line) lines (line - 1)
    let here ← numberedLine lines line
    let caret ← caret (max d.col 1)
    let after ← numberedLineIf (line < lines.length) lines (line + 1)
    return d.message ++ Text.utf8 "\n\n" ++ before ++ here ++ caret ++ after

theorem snippet_eq (d : Diagnostic) (source : Bytes) :
    snippet d source = (Failure.diagnostic d).snippet? source := by
  rw [snippet, Failure.snippet?]
  dsimp only [Failure.diagnostic?]
  by_cases hzero : d.line = 0
  · rw [if_pos hzero, if_pos hzero]
    rfl
  rw [if_neg hzero, if_neg hzero, Diagnostic.excerpt?]
  generalize hlines : source.splitOn 0x0A = lines
  have hpos : 0 < lines.length := List.length_pos_iff.mpr (hlines ▸ List.splitOn_ne_nil 0x0A source)
  by_cases hneg : d.line < 0
  · have hline : min d.line lines.length = d.line := by omega
    have hbefore : numberedLineIf (1 < d.line) lines (d.line - 1) = some [] :=
      if_neg (by rw [decide_eq_true_eq]; omega)
    have hhere : numberedLine lines d.line = none := if_pos (by omega)
    rw [if_pos hneg, hline, hbefore, hhere]
    rfl
  · obtain ⟨i, hi, hline⟩ : ∃ i < lines.length, min d.line lines.length = (i + 1 : Nat) :=
      ⟨(min d.line lines.length).toNat - 1, by omega, by omega⟩
    have hnat : min d.line.toNat lines.length = i + 1 := by omega
    have hcol : (max d.col 1).toNat = max d.col.toNat 1 := by omega
    have hcaret : caret (max d.col 1) = some (caretLine (max d.col.toNat 1)) := by
      rw [caret, if_neg (by omega), hcol]
    rw [if_neg hneg, hline, numberedLineIf_before hi, numberedLine_eq hi, hcaret,
      numberedLineIf_after]
    dsimp only
    rw [hnat]
    rfl

end Guarded

end Dialogue
