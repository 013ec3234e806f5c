import Dialogue.Proofs.InstructionFrames

/-!
# What assembling keeps of instructions

Two scripts are assembled to the same texts and the same code if and only if their instructions
agree but for their places, for the names of actions and calls, and for names with the same hash.
One direction holds because steps depend on nothing else. For the other one `Frame.recover` reads
what is kept back from the code and the texts.
-/

namespace Dialogue

inductive KeptName where
  | text (name : Bytes)
  | hash (value : UInt64)
  | erased
  deriving DecidableEq

/-- Parameters as far as they are kept. Of actors these are whether the wildcard comes first, and
the hashes of the others. -/
inductive KeptParams where
  | all (params : List Param)
  | actors (everyone : Bool) (hashes : List UInt64)
  deriving DecidableEq

structure Kept where
  op : UInt16
  mode : UInt16
  name : KeptName
  params : KeptParams
  deriving DecidableEq

namespace Instruction

def keptName (i : Instruction) : KeptName :=
  if i.op = Operation.action.code ∨ i.op = Operation.namedCall.code then .erased
  else if i.op = Operation.emotion.code then .hash (NameHash.ofBytes i.name)
  else .text i.name

def keptParams (i : Instruction) : KeptParams :=
  if i.op = Operation.actor.code then .actors (actorView i.params).1 (actorView i.params).2
  else .all i.params

def kept (i : Instruction) : Kept where
  op := i.op
  mode := i.mode
  name := i.keptName
  params := i.keptParams

end Instruction

/-! ## Steps by what is kept -/

namespace Instruction

variable {i j : Instruction} {ss ss' : List Step}

theorem opcode_congr (hop : i.op = j.op) (hmode : i.mode = j.mode) : i.opcode = j.opcode := by
  funext mode
  rw [opcode, opcode, hop, hmode]

/-- Apart from those of actors and emotions, the steps of an instruction depend on its operation,
its mode and its parameters only. -/
theorem stepsOf_congr {op : Operation} (hop : i.op = j.op) (hmode : i.mode = j.mode)
    (hparams : i.params = j.params) (hactor : op ≠ .actor) (hemotion : op ≠ .emotion) :
    i.stepsOf op = j.stepsOf op := by
  have hopcode := opcode_congr hop hmode
  have hpack : i.packSteps = j.packSteps := by
    rw [packSteps, packSteps, hopcode, hparams]
  cases op with
  | actor => exact absurd rfl hactor
  | emotion => exact absurd rfl hemotion
  | noOp | halt | sync | userInput | line | color | wait | jump | action | namedCall =>
    simp only [stepsOf, hopcode, hpack, hparams]

theorem actorRow_congr (h : i.opcode = j.opcode) : i.actorRow = j.actorRow := by
  have hfurther : i.furtherActor = j.furtherActor := by
    funext hash
    rw [furtherActor, furtherActor, h]
  funext view
  rcases view with ⟨everyone, hashes⟩
  cases everyone <;> cases hashes <;> simp only [actorRow, h, hfurther]

/-- Instructions of which the same is kept have the same steps, but for names with the same hash. -/
theorem map_plain_eq (hkept : i.kept = j.kept) (hi : i.steps = .ok ss) (hj : j.steps = .ok ss') :
    ss.map Step.plain = ss'.map Step.plain := by
  obtain ⟨-, op, hop, hss⟩ := steps_eq_ok_iff.mp hi
  obtain ⟨-, op', hop', hss'⟩ := steps_eq_ok_iff.mp hj
  have heq : i.op = j.op := congrArg Kept.op hkept
  have hmode : i.mode = j.mode := congrArg Kept.mode hkept
  have hname : i.keptName = j.keptName := congrArg Kept.name hkept
  have hparams : i.keptParams = j.keptParams := congrArg Kept.params hkept
  rw [← heq, hop] at hop'
  cases hop'
  have hcode := Operation.code_of_ofCode? hop
  have hopcode := opcode_congr heq hmode
  by_cases hactor : op = .actor
  · subst hactor
    rw [keptParams, keptParams, ← heq, if_pos hcode.symm, if_pos hcode.symm,
      KeptParams.actors.injEq] at hparams
    rw [map_plain_stepsOf_actor hss, map_plain_stepsOf_actor hss', actorRow_congr hopcode,
      Prod.ext hparams.1 hparams.2]
  by_cases hemotion : op = .emotion
  · subst hemotion
    have hnot : ¬ (i.op = Operation.action.code ∨ i.op = Operation.namedCall.code) := by
      rw [← hcode]
      decide
    rw [keptName, keptName, ← heq, if_neg hnot, if_neg hnot, if_pos hcode.symm, if_pos hcode.symm,
      KeptName.hash.injEq] at hname
    cases hss
    cases hss'
    simp only [List.map_cons, List.map_nil, Step.plain, hopcode, hname]
  · have hnot : i.op ≠ Operation.actor.code := by
      intro h
      rw [h, Operation.ofCode?_code] at hop
      exact hactor (Option.some.inj hop).symm
    rw [keptParams, keptParams, ← heq, if_neg hnot, if_neg hnot, KeptParams.all.injEq] at hparams
    rw [stepsOf_congr heq hmode hparams hactor hemotion, hss'] at hss
    rw [Except.ok.inj hss]

end Instruction

/-! ## Recovering instructions -/

namespace Frame

def keptName (f : Frame) : KeptName :=
  match f.op with
  | .action | .namedCall => .erased
  | .emotion => .hash (f.operands.headD 0)
  | _ => .text []

/-- The parameters that a frame tells, with the hashes of the actors behind it. The numbers zero and
one are those of the truth values, which no text of a script has. -/
def keptParams (data : List Bytes) (hashes : List UInt64) (f : Frame) : KeptParams :=
  match f.op, f.operands with
  | .actor, operands => .actors (f.mode = Mode.everyone) (operands ++ hashes)
  | .line, [v] => .all [.text ((ref? data v).getD [])]
  | .color, [v] | .wait, [v] | .jump, [v] => .all [.int v]
  | .namedCall, [v] =>
    .all [if v = 0 then .bool false else if v = 1 then .bool true
      else .text ((ref? data v).getD [])]
  | .action, [v, n] | .namedCall, [v, n] => .all (Script.textParams (refs data v n))
  | _, _ => .all []

def kept (data : List Bytes) (hashes : List UInt64) (f : Frame) : Kept where
  op := f.op.code
  mode := if f.op = .noOp then f.mode else Mode.plain
  name := f.keptName
  params := f.keptParams data hashes

/-- What frames tell of instructions, and the hashes of actors that belong to a group in front of
them. -/
def recover (data : List Bytes) : List Frame → List UInt64 × List Kept
  | [] => ([], [])
  | f :: fs =>
    let (hashes, later) := recover data fs
    if f.isFurther then (f.operands ++ hashes, later) else ([], f.kept data hashes :: later)

theorem recover_further_append {data : List Bytes} {fs : List Frame} {later : List Kept}
    (h : recover data fs = ([], later)) (hashes : List UInt64) :
    recover data (hashes.map further ++ fs) = (hashes, later) := by
  induction hashes with
  | nil => exact h
  | cons hash hashes ih =>
    rw [List.map_cons, List.cons_append, recover, ih]
    rfl

theorem recover_cons_append {data : List Bytes} {f : Frame} (hf : f.isFurther = false)
    {fs : List Frame} {later : List Kept} (h : recover data fs = ([], later))
    (hashes : List UInt64) :
    recover data (f :: hashes.map further ++ fs) = ([], f.kept data hashes :: later) := by
  rw [List.cons_append, recover, recover_further_append h]
  simp [hf]

end Frame

theorem Frame.ShowsActors.kept_eq {data : List Bytes} {view : Bool × List UInt64} {f : Frame}
    {hashes : List UInt64} (h : ShowsActors view f hashes) :
    f.kept data hashes =
      { op := Operation.actor.code, mode := Mode.plain, name := .text [],
        params := .actors view.1 view.2 } := by
  obtain ⟨op, mode, operands, hlt, hlength⟩ := f
  obtain ⟨everyone, all⟩ := view
  obtain ⟨hop, hmode, hhashes⟩ := h
  change op = .actor at hop
  change mode = if everyone then Mode.everyone else Mode.plain at hmode
  change operands ++ hashes = all at hhashes
  subst hop hmode hhashes
  cases everyone <;> rfl

/-- The frames of an instruction tell what is kept of it. -/
theorem Frame.Encodes.kept_eq {data : List Bytes} {i : Instruction} {f : Frame}
    {hashes : List UInt64} (h : Encodes data i f hashes) : f.kept data hashes = i.kept := by
  cases h with
  | line href =>
    simp only [kept, keptParams, href]
    rfl
  | actionPack _ hrefs | callPack _ hrefs =>
    simp only [kept, keptParams, pack, hrefs]
    rfl
  | call hv href =>
    rename_i v
    have hzero : v ≠ 0 := fun h => absurd (h ▸ hv) (by decide)
    have hone : v ≠ 1 := fun h => absurd (h ▸ hv) (by decide)
    simp only [kept, keptParams, href, if_neg hzero, if_neg hone]
    rfl
  | switch on => cases on <;> rfl
  | actors hshows => exact hshows.kept_eq
  | action | emotion | wait | color | marker | sync | userInput => rfl

/-! ## Programs -/

namespace Program

open Script

theorem recover_frames {data : List Bytes} {is : List Instruction} {rows : List FrameRow}
    (h : List.Forall₂ (FrameRow.Encodes data) is rows) :
    Frame.recover data (rows.flatMap FrameRow.frames) = ([], is.map Instruction.kept) := by
  induction h with
  | nil => rfl
  | cons hrow _ ih =>
    obtain ⟨j, line, col, hrow, rfl⟩ := hrow
    rw [List.flatMap_cons, FrameRow.frames, Frame.recover_cons_append hrow.not_isFurther ih,
      hrow.kept_eq, List.map_cons]
    rfl

/-- The code of a script tells, together with the texts, what is kept of its instructions. -/
theorem exists_recover {us : List LexUnit} {is : List Instruction} (his : ∀ i ∈ is, StandsIn us i)
    {p q : Program} (hq : is.foldlM add p = .ok q) (hp : 2 ≤ p.data.length) :
    ∃ fs : List Frame, q.code = p.code ++ fs.flatMap (Frame.bytes p.order) ∧
      ∀ r : Program, r.Extends q → r.data.length < 2 ^ 64 →
        Frame.recover r.data fs = ([], is.map Instruction.kept) := by
  obtain ⟨rows, hrows⟩ := exists_laidOut his hq hp
  exact ⟨_, hrows.code_eq, fun r hr hsize => recover_frames (hrows.encoded r hr hsize)⟩

/-- The steps of instructions of which the same is kept, but for names with the same hash. -/
theorem map_plain_flatten_eq {xs ys : List Instruction} {rows rows' : List (List Step)}
    (hkept : xs.map Instruction.kept = ys.map Instruction.kept) (hrows : RowsOf xs rows)
    (hrows' : RowsOf ys rows') :
    rows.flatten.map Step.plain = rows'.flatten.map Step.plain := by
  induction hrows generalizing ys rows' with
  | nil =>
    cases ys with
    | nil =>
      cases hrows'
      rfl
    | cons y ys => cases hkept
  | cons hss _ ih =>
    cases hrows' with
    | nil => cases hkept
    | cons hss' hrest' =>
      obtain ⟨hfirst, hlater⟩ := List.cons.inj hkept
      rw [List.flatten_cons, List.flatten_cons, List.map_append, List.map_append,
        Instruction.map_plain_eq hfirst hss hss', ih hlater hrest']

end Program

/-- Two scripts have the same texts and the same code if and only if the same is kept of their
instructions. With fewer texts than words no number of a text wraps around. -/
theorem assemble_eq_iff_kept_eq (order : Option ByteOrder) (us vs : List Script.LexUnit)
    (xs ys : List Instruction) (p q : Program) (hxs : Script.instructions us = .ok xs)
    (hys : Script.instructions vs = .ok ys) (hp : Program.assemble order xs = .ok p)
    (hq : Program.assemble order ys = .ok q) (hsize : p.data.length < 2 ^ 64) :
    p.data = q.data ∧ p.code = q.code ↔ xs.map Instruction.kept = ys.map Instruction.kept := by
  constructor
  · rintro ⟨hdata, hcode⟩
    have hforms := (Script.standsIn_of_mem_instructions hxs).2
    have hforms' := (Script.standsIn_of_mem_instructions hys).2
    obtain ⟨fs, hfs, hrecover⟩ := Program.exists_recover hforms hp (Nat.le_refl 2)
    obtain ⟨gs, hgs, hrecover'⟩ := Program.exists_recover hforms' hq (Nat.le_refl 2)
    have hsame : fs = gs := by
      apply Frame.flatMap_bytes_injective (order.getD .little)
      rw [hfs, hgs] at hcode
      exact List.append_cancel_left hcode
    have hxs := hrecover p (.refl p) hsize
    have hys := hrecover' q (.refl q) (hdata ▸ hsize)
    rw [hdata, hsame, hys] at hxs
    exact (Prod.mk.inj hxs).2.symm
  · intro hkept
    obtain ⟨rows, hrows, hrun⟩ := Program.exists_rowsOf hp
    obtain ⟨rows', hrows', hrun'⟩ := Program.exists_rowsOf hq
    have hsteps := Program.map_plain_flatten_eq hkept hrows hrows'
    have hsame : (Program.start order).run rows.flatten = (Program.start order).run rows'.flatten
        := by
      rw [← Program.run_map_plain, hsteps, Program.run_map_plain]
    rw [← hrun, ← hrun', hsame]
    exact ⟨rfl, rfl⟩

/-- A script with an action, actors, an emotion, a call and a switch. -/
def waving : List Script.LexUnit :=
  ["@wave", "(both, hands)", "[..., ann]", "!glad", "$go", "there", "+lamp"].map fun text =>
    { text := Text.utf8 text }

/-- A script with other names and places than `waving`, and other ways to write its texts. -/
def bowing : List Script.LexUnit :=
  ["// a bow", "@bow", "( both , \"hands\" )", "[...,ann]", "!glad", "$walk", "\"there\"",
    "+light"].map fun text => { text := Text.utf8 text, line := 7 }

/-- The instructions of both scripts, which differ in three names and in their line. -/
def gesture (action call switch : String) (line : Int) : List Instruction :=
  [{ op := Operation.action.code, name := Text.utf8 action, line := line,
     params := [.text (Text.utf8 "both"), .text (Text.utf8 "hands")] },
   { op := Operation.actor.code, line := line,
     params := [.text (Text.utf8 "..."), .text (Text.utf8 "ann")] },
   { op := Operation.emotion.code, name := Text.utf8 "glad", line := line },
   { op := Operation.namedCall.code, name := Text.utf8 call, line := line,
     params := [.text (Text.utf8 "there")] },
   { op := Operation.namedCall.code, name := Text.utf8 switch, line := line,
     params := [.bool true] }]

theorem assemble_eq_iff_kept_eq_waving :
    ∃ xs ys p q, Script.instructions waving = .ok xs ∧ Script.instructions bowing = .ok ys ∧
      Program.assemble none xs = .ok p ∧ Program.assemble none ys = .ok q ∧
      p.data.length < 2 ^ 64 ∧ xs ≠ ys ∧ p.data = q.data ∧ p.code = q.code := by
  have hxs : Script.instructions waving = .ok (gesture "wave" "go" "lamp" 0) := by decide +kernel
  have hys : Script.instructions bowing = .ok (gesture "bow" "walk" "light" 7) := by decide +kernel
  have hne : gesture "wave" "go" "lamp" 0 ≠ gesture "bow" "walk" "light" 7 := by decide +kernel
  have hkept : (gesture "wave" "go" "lamp" 0).map Instruction.kept =
      (gesture "bow" "walk" "light" 7).map Instruction.kept := by decide +kernel
  have hdata : ((Program.assemble none (gesture "wave" "go" "lamp" 0)).map fun p => p.data.length) =
      .ok 5 := by decide +kernel
  have hok : (Program.assemble none (gesture "bow" "walk" "light" 7)).isOk = true := by
    decide +kernel
  obtain ⟨p, hp, hlength⟩ := Result.map_eq_ok_iff.mp hdata
  obtain ⟨q, hq⟩ := Result.exists_eq_ok hok
  have hsize : p.data.length < 2 ^ 64 := by
    rw [hlength]
    decide
  exact ⟨_, _, p, q, hxs, hys, hp, hq, hsize, hne,
    (assemble_eq_iff_kept_eq none waving bowing _ _ p q hxs hys hp hq hsize).mpr hkept⟩

end Dialogue
