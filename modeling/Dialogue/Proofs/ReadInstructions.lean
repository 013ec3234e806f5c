import Dialogue.Script.Reader
import Dialogue.Proofs.Results

/-!
# What scripts can say

The instructions that units stand for are of eleven forms. Every fact on the instructions of a
script follows from these forms alone.
-/

namespace Dialogue.Script

/-- The forms of the instructions that a unit can stand for, without their places. -/
inductive Form : Instruction → Prop
  | line (text : Bytes) : Form { op := Operation.line.code, params := [.text text] }
  | action (name : Bytes) (texts : List Bytes) :
    Form { op := Operation.action.code, name := name, params := textParams texts }
  | call (name : Bytes) (texts : List Bytes) :
    Form { op := Operation.namedCall.code, name := name, params := textParams texts }
  | switch (name : Bytes) (on : Bool) :
    Form { op := Operation.namedCall.code, name := name, params := [.bool on] }
  | emotion (name : Bytes) : Form { op := Operation.emotion.code, name := name }
  | wait (duration : UInt64) : Form { op := Operation.wait.code, params := [.int duration] }
  | color (hash : UInt64) : Form { op := Operation.color.code, params := [.int hash] }
  | actors (names : List Bytes) (h : actorFault? true names = none) :
    Form { op := Operation.actor.code, params := textParams names }
  | marker : Form { op := Operation.noOp.code, mode := Mode.extra }
  | sync : Form { op := Operation.sync.code }
  | userInput : Form { op := Operation.userInput.code }

/-- Whether a reading has an instruction of one of the forms, if it has any. -/
def Reading.IsForm (r : Reading) : Prop :=
  ∀ i ∈ r.instruction?, Form i

theorem Reading.isForm_nothing : Reading.nothing.IsForm := by
  intro i hi
  cases hi

theorem Reading.isForm_alone {i : Instruction} (h : Form i) : (Reading.alone i).IsForm := by
  intro i' hi'
  cases hi'
  exact h

theorem Reading.isForm_withNext {i : Instruction} (h : Form i) : (Reading.withNext i).IsForm := by
  intro i' hi'
  cases hi'
  exact h

namespace LexUnit

variable {u : LexUnit} {next? : Option LexUnit} {r : Reading}

theorem isForm_readAction (h : u.readAction next? = .ok r) : r.IsForm := by
  obtain ⟨name, -, h⟩ := Result.bind_eq_ok_iff.mp h
  split at h
  · split at h
    · obtain ⟨texts, -, h⟩ := Result.bind_eq_ok_iff.mp h
      cases h
      exact Reading.isForm_withNext (.action name texts)
    · cases h
      exact Reading.isForm_alone (.action name [])
  · cases h
    exact Reading.isForm_alone (.action name [])

theorem isForm_readNamedCall (h : u.readNamedCall next? = .ok r) : r.IsForm := by
  obtain ⟨name, -, h⟩ := Result.bind_eq_ok_iff.mp h
  split at h
  · cases h
  · obtain ⟨texts, -, h⟩ := Result.bind_eq_ok_iff.mp h
    cases h
    exact Reading.isForm_withNext (.call name texts)

theorem isForm_readWait (h : u.readWait = .ok r) : r.IsForm := by
  simp only [readWait] at h
  split at h
  · cases h
  · split at h
    · cases h
    · cases h
      exact Reading.isForm_alone (.wait _)

theorem isForm_readColor (h : u.readColor = .ok r) : r.IsForm := by
  unfold readColor at h
  split at h
  · cases h
  · split at h
    · cases h
      exact Reading.isForm_alone (.color _)
    · cases h
      exact Reading.isForm_nothing

theorem isForm_readActors (h : u.readActors = .ok r) : r.IsForm := by
  obtain ⟨names, -, h⟩ := Result.bind_eq_ok_iff.mp h
  split at h
  · cases h
  · rename_i hnames
    cases h
    exact Reading.isForm_alone (.actors names hnames)

theorem isForm_readSwitch {on : Bool} (h : u.readSwitch on = .ok r) : r.IsForm := by
  obtain ⟨name, -, h⟩ := Result.bind_eq_ok_iff.mp h
  cases h
  exact Reading.isForm_alone (.switch name on)

theorem isForm_read (h : u.read next? = .ok r) : r.IsForm := by
  unfold read at h
  split at h
  · cases h
    exact Reading.isForm_nothing
  · -- One case for each sigil, in the order of `read`.
    split at h
    case h_3 =>
      obtain ⟨text, -, h⟩ := Result.bind_eq_ok_iff.mp h
      cases h
      exact Reading.isForm_alone (.line text)
    case h_4 => exact isForm_readAction h
    case h_5 => exact isForm_readNamedCall h
    case h_6 =>
      obtain ⟨name, -, h⟩ := Result.bind_eq_ok_iff.mp h
      cases h
      exact Reading.isForm_alone (.emotion name)
    case h_7 => exact isForm_readWait h
    case h_8 => exact isForm_readColor h
    case h_9 => exact isForm_readActors h
    case h_13 | h_14 => exact isForm_readSwitch h
    all_goals cases h
    case h_1 | h_2 => exact Reading.isForm_nothing
    case h_10 => exact Reading.isForm_alone .marker
    case h_11 => exact Reading.isForm_alone .sync
    case h_12 => exact Reading.isForm_alone .userInput

end LexUnit

/-! ## Rows of units -/

/-- Whether an instruction is of one of the forms and stands at the place of one of the units. -/
def StandsIn (us : List LexUnit) (i : Instruction) : Prop :=
  ∃ u ∈ us, ∃ j, Form j ∧ i = { j with line := u.line, col := u.col }

theorem standsIn_of_mem_placed {u : LexUnit} {us : List LexUnit} (hu : u ∈ us) {r : Reading}
    (hr : r.IsForm) {i : Instruction} (hi : i ∈ u.placed r) : StandsIn us i := by
  rw [LexUnit.placed, Option.mem_toList, Option.map_eq_some_iff] at hi
  obtain ⟨j, hj, rfl⟩ := hi
  exact ⟨u, hu, j, hr j hj, rfl⟩

theorem StandsIn.mono {us vs : List LexUnit} (h : us ⊆ vs) {i : Instruction} (hi : StandsIn us i) :
    StandsIn vs i := by
  obtain ⟨u, hu, hrest⟩ := hi
  exact ⟨u, h hu, hrest⟩

/-- The units behind the first one, without those that its reading takes. -/
def Reading.later (r : Reading) (us : List LexUnit) : List LexUnit :=
  if r.takesNext then us.tail else us

/-- The first unit is read in front of the next one, and then the units that are left. -/
theorem readUnits_cons (u : LexUnit) (us : List LexUnit) :
    readUnits (u :: us) =
      u.trimmed.read us.head? >>= fun r => (readUnits (r.later us)).map (u.placed r ++ ·) := by
  rw [readUnits]
  congr 1
  funext r
  cases us with
  | nil =>
    have hlater : r.later [] = [] := ite_self []
    rw [hlater, readUnits]
    exact congrArg Except.ok (List.append_nil _).symm
  | cons v vs =>
    rw [Reading.later]
    cases r.takesNext with
    | true => cases readUnits vs <;> rfl
    | false => cases readUnits (v :: vs) <;> rfl

theorem readUnits_cons_eq_ok_iff {u : LexUnit} {us : List LexUnit} {is : List Instruction} :
    readUnits (u :: us) = .ok is ↔
      ∃ r, u.trimmed.read us.head? = .ok r ∧
        ∃ js, readUnits (r.later us) = .ok js ∧ u.placed r ++ js = is := by
  simp only [readUnits_cons, Result.bind_eq_ok_iff, Result.map_eq_ok_iff]

theorem later_suffix (us : List LexUnit) (r : Reading) : r.later us <:+ us := by
  unfold Reading.later
  split
  · exact List.tail_suffix us
  · exact List.suffix_refl us

/-- What holds of units if it holds of all rows of units behind the first holds of all rows. -/
theorem units_induction {P : List LexUnit → Prop} (nil : P [])
    (cons : ∀ u us, (∀ vs, vs <:+ us → P vs) → P (u :: us)) (us : List LexUnit) : P us := by
  induction hn : us.length using Nat.strongRecOn generalizing us with
  | ind n ih =>
    cases us with
    | nil => exact nil
    | cons u us =>
      refine cons u us fun vs hvs => ih vs.length ?_ vs rfl
      rw [← hn, List.length_cons]
      exact Nat.lt_succ_of_le hvs.length_le

theorem standsIn_of_mem_readUnits {us : List LexUnit} {is : List Instruction}
    (h : readUnits us = .ok is) : ∀ i ∈ is, StandsIn us i := by
  induction us using units_induction generalizing is with
  | nil =>
    cases h
    simp
  | cons u us ih =>
    obtain ⟨r, hr, js, hjs, rfl⟩ := readUnits_cons_eq_ok_iff.mp h
    have hsuffix := later_suffix us r
    intro i hi
    rcases List.mem_append.mp hi with hi | hi
    · exact standsIn_of_mem_placed List.mem_cons_self (LexUnit.isForm_read hr) hi
    · have hlater := ih _ hsuffix hjs i hi
      exact hlater.mono fun v hv => List.mem_cons_of_mem u (hsuffix.subset hv)

/-- The instructions of a script are of the given forms, and there is at least one. -/
theorem instructions_eq_ok_iff {us : List LexUnit} {is : List Instruction} :
    instructions us = .ok is ↔ readUnits us = .ok is ∧ is ≠ [] := by
  cases us with
  | nil =>
    refine iff_of_false nofun ?_
    rintro ⟨hnil, hne⟩
    exact hne (Except.ok.inj hnil).symm
  | cons u us =>
    rw [instructions, if_neg (by simp)]
    cases readUnits (u :: us) with
    | error d => exact iff_of_false nofun nofun
    | ok js =>
      cases js with
      | nil =>
        refine iff_of_false nofun ?_
        rintro ⟨hnil, hne⟩
        exact hne (Except.ok.inj hnil).symm
      | cons j js =>
        constructor
        · intro h
          cases h
          exact ⟨rfl, List.cons_ne_nil j js⟩
        · rintro ⟨h, -⟩
          exact h

theorem standsIn_of_mem_instructions {us : List LexUnit} {is : List Instruction}
    (h : instructions us = .ok is) : is ≠ [] ∧ ∀ i ∈ is, StandsIn us i := by
  obtain ⟨his, hne⟩ := instructions_eq_ok_iff.mp h
  exact ⟨hne, standsIn_of_mem_readUnits his⟩

end Dialogue.Script
