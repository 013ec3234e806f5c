import Dialogue.Proofs.GuardedTexts
import Dialogue.Proofs.ReadInstructions

/-!
# Units within bounds

A second reader of units goes through them by a position, and looks at units and at their texts only
by look-ups that may fail. It agrees with `instructions`.
-/

namespace Dialogue.Guarded

open Script

/-- Changes the errors of a computation. -/
def mapError {ε ε' α : Type} (f : ε → ε') (x : ExceptT ε Option α) : ExceptT ε' Option α :=
  ExceptT.mk (x.run.map (Except.mapError f))

theorem run_mapError {ε ε' α : Type} (f : ε → ε') {x : ExceptT ε Option α} {r : Except ε α}
    (h : x.run = some r) : (mapError f x).run = some (r.mapError f) := by
  change x.run.map _ = _
  rw [h]
  rfl

def group (u : LexUnit) : ExceptT Diagnostic Option (List Bytes) :=
  mapError u.diagnostic (readGroup (u.text.length + 1) u.text)

theorem run_group (u : LexUnit) : (group u).run = some u.group :=
  run_mapError u.diagnostic (run_readGroup (Nat.lt_succ_self _))

def literal (u : LexUnit) : ExceptT Diagnostic Option Bytes :=
  mapError u.diagnostic (readLiteral u.text)

theorem run_literal (u : LexUnit) : (literal u).run = some u.literal :=
  run_mapError u.diagnostic (run_readLiteral _)

def sigilName (u : LexUnit) : ExceptT Diagnostic Option Bytes :=
  if u.text.length < 2 then throw (u.diagnostic (.missingName u.text))
  else ExceptT.lift (slice? u.text 1 u.text.length)

theorem run_sigilName (u : LexUnit) : (sigilName u).run = some u.sigilName := by
  rw [sigilName, LexUnit.sigilName]
  split
  · rfl
  · rw [slice?_length 1 (by omega)]
    rfl

def readAction (u : LexUnit) (next? : Option LexUnit) : ExceptT Diagnostic Option Reading := do
  let i : Instruction := { op := Operation.action.code, name := ← sigilName u }
  match next?.map LexUnit.trimmed with
  | some next =>
    if next.startsWith 0x28 then
      return .withNext { i with params := textParams (← group next) }
    else return .alone i
  | none => return .alone i

theorem run_readAction (u : LexUnit) (next? : Option LexUnit) :
    (readAction u next?).run = some (u.readAction next?) := by
  refine run_bind (run_sigilName u) fun name _ => ?_
  cases next? with
  | none => rfl
  | some next =>
    dsimp only [Option.map_some]
    split
    · exact run_bind_pure (run_group _) _
    · rfl

def callArguments (next : LexUnit) (name : Bytes) : ExceptT Diagnostic Option (List Bytes) := do
  if next.startsWith 0x28 then group next
  else if next.startsWith 0x22 then return [← literal next]
  else if isIdentifier next.text then return [next.text]
  else throw (next.diagnostic (.badArgument name))

theorem run_callArguments (next : LexUnit) (name : Bytes) :
    (callArguments next name).run = some (next.callArguments name) := by
  rw [callArguments, LexUnit.callArguments]
  split
  · exact run_group next
  · split
    · exact run_bind_pure (run_literal next) _
    · split
      · rfl
      · rfl

def readNamedCall (u : LexUnit) (next? : Option LexUnit) : ExceptT Diagnostic Option Reading := do
  let name ← sigilName u
  match next?.map LexUnit.trimmed with
  | none => throw (u.diagnostic (.missingArgument name))
  | some next =>
    let arguments ← callArguments next name
    return .withNext
      { op := Operation.namedCall.code, name := name, params := textParams arguments }

theorem run_readNamedCall (u : LexUnit) (next? : Option LexUnit) :
    (readNamedCall u next?).run = some (u.readNamedCall next?) := by
  refine run_bind (run_sigilName u) fun name _ => ?_
  cases next? with
  | none => rfl
  | some next => exact run_bind_pure (run_callArguments _ name) _

def readWait (u : LexUnit) : ExceptT Diagnostic Option Reading := do
  if u.text.length < 2 then throw (u.diagnostic .missingDuration)
  else
    let digits ← ExceptT.lift (slice? u.text 1 u.text.length)
    match Numeral.read? 10 Numeral.maxWord (Text.decode digits) with
    | none => throw (u.diagnostic (.badDuration digits))
    | some n => return .alone { op := Operation.wait.code, params := [.int (.ofNat n)] }

theorem run_readWait (u : LexUnit) : (readWait u).run = some u.readWait := by
  rw [readWait, LexUnit.readWait]
  have hempty : (u.text.drop 1).isEmpty = true ↔ u.text.length < 2 := by
    rw [List.isEmpty_iff, List.drop_eq_nil_iff]
    omega
  by_cases hshort : u.text.length < 2
  · rw [if_pos hshort, if_pos (hempty.mpr hshort)]
    rfl
  · rw [if_neg hshort, if_neg (mt hempty.mp hshort), slice?_length 1 (by omega), lift_some_bind]
    cases Numeral.read? 10 Numeral.maxWord (Text.decode (u.text.drop 1)) with
    | none => rfl
    | some n => rfl

def readColor (u : LexUnit) : ExceptT Diagnostic Option Reading := do
  if u.text.length < 4 then throw (u.diagnostic .shortColor)
  else if (← ExceptT.lift u.text[1]?) = 0x23 then
    let tag ← ExceptT.lift (slice? u.text 2 u.text.length)
    let value ← ExceptT.lift (hash tag)
    return .alone { op := Operation.color.code, params := [.int value] }
  else return .nothing

theorem run_readColor (u : LexUnit) : (readColor u).run = some u.readColor := by
  rw [readColor, LexUnit.readColor]
  by_cases hshort : u.text.length < 4
  · rw [if_pos hshort, if_pos hshort]
    rfl
  · rw [if_neg hshort, if_neg hshort, List.getElem?_eq_getElem (by omega), lift_some_bind,
      slice?_length 2 (by omega), lift_some_bind, hash_eq, lift_some_bind]
    simp only [Option.some.injEq]
    split
    · rfl
    · rfl

def readActors (u : LexUnit) : ExceptT Diagnostic Option Reading := do
  let names ← group u
  match actorFault? true names with
  | some fault => throw (u.diagnostic fault)
  | none => return .alone { op := Operation.actor.code, params := textParams names }

theorem run_readActors (u : LexUnit) : (readActors u).run = some u.readActors := by
  refine run_bind (run_group u) fun names _ => ?_
  cases actorFault? true names with
  | none => rfl
  | some fault => rfl

def readSwitch (u : LexUnit) (on : Bool) : ExceptT Diagnostic Option Reading := do
  let name ← sigilName u
  return .alone { op := Operation.namedCall.code, name := name, params := [.bool on] }

theorem run_readSwitch (u : LexUnit) (on : Bool) :
    (readSwitch u on).run = some (u.readSwitch on) :=
  run_bind (run_sigilName u) fun _ _ => rfl

/-- What a trimmed unit says. -/
def read (u : LexUnit) (next? : Option LexUnit) : ExceptT Diagnostic Option Reading := do
  if u.text.isEmpty then return .nothing
  else
    let sigil ← ExceptT.lift u.text[0]?
    match Char.ofUInt8 sigil with
    | '/' | '(' => return .nothing
    | '"' =>
      let text ← literal u
      return .alone { op := Operation.line.code, params := [.text text] }
    | '@' => readAction u next?
    | '$' => readNamedCall u next?
    | '!' => return .alone { op := Operation.emotion.code, name := ← sigilName u }
    | '\'' => readWait u
    | '#' => readColor u
    | '[' => readActors u
    | '*' => return .alone { op := Operation.noOp.code, mode := Mode.extra }
    | '.' => return .alone { op := Operation.sync.code }
    | ';' => return .alone { op := Operation.userInput.code }
    | '+' => readSwitch u true
    | '-' => readSwitch u false
    | _ => throw (u.diagnostic (.unknownSigil sigil))

theorem run_read (u : LexUnit) (next? : Option LexUnit) :
    (read u next?).run = some (u.read next?) := by
  rw [read, LexUnit.read]
  cases htext : u.text with
  | nil => rfl
  | cons sigil rest =>
    simp only [List.isEmpty_cons, Bool.false_eq_true, if_false, List.getElem?_cons_zero,
      lift_some_bind]
    generalize Char.ofUInt8 sigil = char
    split
    · rfl
    · rfl
    · exact run_bind (run_literal u) fun _ _ => rfl
    · exact run_readAction u next?
    · exact run_readNamedCall u next?
    · exact run_bind (run_sigilName u) fun _ _ => rfl
    · exact run_readWait u
    · exact run_readColor u
    · exact run_readActors u
    · rfl
    · rfl
    · rfl
    · exact run_readSwitch u true
    · exact run_readSwitch u false
    · simp only [ExceptT.run_throw]
      rfl

/-- The unit at a position, if there is one. The outer option is that of the look-up. -/
def peek (us : List LexUnit) (pos : Nat) : Option (Option LexUnit) :=
  if us.length ≤ pos then some none else us[pos]?.map some

theorem peek_eq (us : List LexUnit) (pos : Nat) : peek us pos = some us[pos]? := by
  rw [peek]
  split
  · rename_i h
    rw [List.getElem?_eq_none h]
  · rename_i h
    rw [List.getElem?_eq_getElem (Nat.not_le.mp h)]
    rfl

/-- The instructions of the units from a position on. -/
def readFrom (us : List LexUnit) : (rounds pos : Nat) → ExceptT Diagnostic Option (List Instruction)
  | 0, pos => if pos < us.length then ExceptT.lift none else return []
  | rounds + 1, pos =>
    if pos < us.length then do
      let u ← ExceptT.lift us[pos]?
      let r ← read u.trimmed (← ExceptT.lift (peek us (pos + 1)))
      let later ← readFrom us rounds (if r.takesNext then pos + 2 else pos + 1)
      return u.placed r ++ later
    else return []

theorem run_readFrom {us : List LexUnit} {rounds pos : Nat} (h : us.length ≤ pos + rounds) :
    (readFrom us rounds pos).run = some (readUnits (us.drop pos)) := by
  induction rounds generalizing pos with
  | zero =>
    rw [readFrom, if_neg (by omega), List.drop_eq_nil_of_le (by omega)]
    rfl
  | succ rounds ih =>
    rw [readFrom]
    by_cases hpos : pos < us.length
    swap
    · rw [if_neg hpos, List.drop_eq_nil_of_le (by omega)]
      rfl
    rw [if_pos hpos, List.getElem?_eq_getElem hpos, lift_some_bind, peek_eq, lift_some_bind,
      List.drop_eq_getElem_cons hpos, readUnits_cons, List.head?_drop]
    refine run_bind (run_read _ _) fun r _ => ?_
    have hlater : r.later (us.drop (pos + 1)) =
        us.drop (if r.takesNext then pos + 2 else pos + 1) := by
      rw [Reading.later]
      split
      · exact List.tail_drop
      · rfl
    rw [hlater]
    refine run_bind_pure (ih ?_) _
    split
    · omega
    · omega

def instructions (us : List LexUnit) : ExceptT Diagnostic Option (List Instruction) := do
  if us.isEmpty then throw { fault := .nothingToRead }
  else
    match ← readFrom us us.length 0 with
    | [] => throw { fault := .noInstructions }
    | is => return is

theorem run_instructions (us : List LexUnit) :
    (instructions us).run = some (Script.instructions us) := by
  rw [instructions, Script.instructions]
  split
  · rfl
  · refine run_bind (run_readFrom (Nat.le_of_eq (Nat.zero_add _).symm)) fun is _ => ?_
    cases is with
    | nil => rfl
    | cons i is => rfl

end Dialogue.Guarded
