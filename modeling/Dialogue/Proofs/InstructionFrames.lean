import Dialogue.Proofs.CodeFrames
import Dialogue.Proofs.ReadInstructions
import Dialogue.Proofs.Relocation

/-!
# The frames of instructions

An instruction of a script is encoded as a frame of its own and, for a group of actors, a frame for
each further one. `Frame.Encodes` says which these are, and `Program.exists_laidOut` finds them for
a whole row of instructions, together with the offsets where they start.
-/

namespace Dialogue

def Param.hash (q : Param) : UInt64 :=
  NameHash.ofBytes q.toText

/-- Whether the wildcard comes first, and the hashes of the other actors. A group without actors
counts as one with the hash zero. -/
def actorView : List Param → Bool × List UInt64
  | [] => (false, [0])
  | q :: qs =>
    if q.toText = Text.utf8 "..." then (true, qs.map Param.hash)
    else (false, (q :: qs).map Param.hash)

theorem actorView_ne (ps : List Param) : actorView ps ≠ (false, []) := by
  cases ps with
  | nil => simp [actorView]
  | cons q ps =>
    rw [actorView]
    split <;> simp

/-! ## Steps -/

/-- A step with the hash of a name in place of the name. -/
def Step.plain : Step → Step
  | named name => operand (NameHash.ofBytes name)
  | s => s

theorem Program.run_map_plain (p : Program) (ss : List Step) :
    p.run (ss.map Step.plain) = p.run ss := by
  induction ss generalizing p with
  | nil => rfl
  | cons s ss ih =>
    have hstep : p.apply s.plain = p.apply s := by cases s <;> rfl
    rw [List.map_cons, run_cons, run_cons, hstep, ih]

namespace Instruction

variable {i : Instruction} {ss : List Step}

theorem stepsOf_of_steps (op : Operation) (hop : i.op = op.code) (h : i.steps = .ok ss) :
    i.stepsOf op = .ok ss := by
  obtain ⟨-, op', hop', hss⟩ := steps_eq_ok_iff.mp h
  rw [hop, Operation.ofCode?_code] at hop'
  rwa [Option.some.inj hop']

/-- The steps of an actor behind the first one. -/
def furtherActor (i : Instruction) (hash : UInt64) : List Step :=
  [.opcode (i.opcode Mode.extra), .operand hash]

/-- The steps of a group of actors, given by the view of it. -/
def actorRow (i : Instruction) : Bool × List UInt64 → List Step
  | (true, hashes) => .opcode (i.opcode Mode.everyone) :: hashes.flatMap i.furtherActor
  | (false, []) => []
  | (false, hash :: hashes) =>
    .opcode (i.opcode Mode.plain) :: .operand hash :: hashes.flatMap i.furtherActor

theorem map_plain_actorSteps_succ {n : Nat} {ps : List Param}
    (h : i.actorSteps (n + 1) ps = .ok ss) :
    ss.map Step.plain = (ps.map Param.hash).flatMap i.furtherActor := by
  induction ps generalizing n ss with
  | nil =>
    cases h
    rfl
  | cons q ps ih =>
    rw [actorSteps, if_neg (Nat.succ_ne_zero n)] at h
    split at h
    · cases h
    · obtain ⟨later, hlater, rfl⟩ := Result.map_eq_ok_iff.mp h
      rw [List.map_append, ih hlater]
      rfl

theorem map_plain_stepsOf_actor (h : i.stepsOf .actor = .ok ss) :
    ss.map Step.plain = i.actorRow (actorView i.params) := by
  rw [stepsOf] at h
  cases hparams : i.params with
  | nil =>
    rw [hparams] at h
    cases h
    rfl
  | cons q ps =>
    rw [hparams, if_neg (by simp), actorSteps] at h
    by_cases hq : q.toText = Text.utf8 "..."
    · rw [if_pos hq, if_pos rfl] at h
      obtain ⟨later, hlater, rfl⟩ := Result.map_eq_ok_iff.mp h
      rw [actorView, if_pos hq, List.map_cons, map_plain_actorSteps_succ hlater]
      rfl
    · rw [if_neg hq] at h
      obtain ⟨later, hlater, rfl⟩ := Result.map_eq_ok_iff.mp h
      rw [actorView, if_neg hq, List.map_append, map_plain_actorSteps_succ hlater]
      rfl

end Instruction

/-! ## The frames of one instruction -/

namespace Frame

open Script

/-- Whether a frame is that of an actor behind the first one of a group. -/
def isFurther (f : Frame) : Bool :=
  f.op = .actor ∧ f.mode = Mode.extra

def further (hash : UInt64) : Frame where
  op := .actor
  mode := Mode.extra
  operands := [hash]
  mode_lt := by decide
  length_operands := rfl

/-- The frame of an action or a call that refers to a row of texts. -/
def pack (op : Operation) (hop : op = .action ∨ op = .namedCall) (first count : UInt64) :
    Frame where
  op := op
  mode := Mode.extra
  operands := [first, count]
  mode_lt := by decide
  length_operands := by
    rcases hop with rfl | rfl
    · rfl
    · rfl

/-- Whether a frame and hashes behind it are those of a group of actors. -/
structure ShowsActors (view : Bool × List UInt64) (f : Frame) (hashes : List UInt64) : Prop where
  op_eq : f.op = .actor
  mode_eq : f.mode = if view.1 then Mode.everyone else Mode.plain
  hashes_eq : f.operands ++ hashes = view.2

/-- The frames of an instruction: one of its own, and one for each hash of a further actor. The
numbers of its texts are those that they have in `data`, and the numbers zero and one in a call are
those of the truth values, which no text of a script has. -/
inductive Encodes (data : List Bytes) : Instruction → Frame → List UInt64 → Prop
  | line {text : Bytes} {v : UInt64} (href : ref? data v = some text) :
    Encodes data { op := Operation.line.code, params := [.text text] }
      ⟨.line, Mode.plain, [v], by decide, rfl⟩ []
  | action {name : Bytes} :
    Encodes data { op := Operation.action.code, name := name }
      ⟨.action, Mode.plain, [], by decide, rfl⟩ []
  | actionPack {name : Bytes} {texts : List Bytes} {first count : UInt64} (hne : texts ≠ [])
      (hrefs : refs data first count = texts) :
    Encodes data { op := Operation.action.code, name := name, params := textParams texts }
      (pack .action (.inl rfl) first count) []
  | call {name text : Bytes} {v : UInt64} (hv : 1 < v) (href : ref? data v = some text) :
    Encodes data { op := Operation.namedCall.code, name := name, params := textParams [text] }
      ⟨.namedCall, Mode.plain, [v], by decide, rfl⟩ []
  | callPack {name : Bytes} {texts : List Bytes} {first count : UInt64} (hlen : texts.length ≠ 1)
      (hrefs : refs data first count = texts) :
    Encodes data { op := Operation.namedCall.code, name := name, params := textParams texts }
      (pack .namedCall (.inr rfl) first count) []
  | switch {name : Bytes} (on : Bool) :
    Encodes data { op := Operation.namedCall.code, name := name, params := [.bool on] }
      ⟨.namedCall, Mode.plain, [if on then 1 else 0], by decide, rfl⟩ []
  | emotion {name : Bytes} :
    Encodes data { op := Operation.emotion.code, name := name }
      ⟨.emotion, Mode.plain, [NameHash.ofBytes name], by decide, rfl⟩ []
  | wait {duration : UInt64} :
    Encodes data { op := Operation.wait.code, params := [.int duration] }
      ⟨.wait, Mode.plain, [duration], by decide, rfl⟩ []
  | color {hash : UInt64} :
    Encodes data { op := Operation.color.code, params := [.int hash] }
      ⟨.color, Mode.plain, [hash], by decide, rfl⟩ []
  | actors {names : List Bytes} {f : Frame} {hashes : List UInt64}
      (hshows : ShowsActors (actorView (textParams names)) f hashes) :
    Encodes data { op := Operation.actor.code, params := textParams names } f hashes
  | marker :
    Encodes data { op := Operation.noOp.code, mode := Mode.extra }
      ⟨.noOp, Mode.extra, [], by decide, rfl⟩ []
  | sync :
    Encodes data { op := Operation.sync.code } ⟨.sync, Mode.plain, [], by decide, rfl⟩ []
  | userInput :
    Encodes data { op := Operation.userInput.code }
      ⟨.userInput, Mode.plain, [], by decide, rfl⟩ []

namespace Encodes

variable {data : List Bytes} {i : Instruction} {f : Frame} {hashes : List UInt64}

theorem not_isFurther (h : Encodes data i f hashes) : f.isFurther = false := by
  cases h with
  | actors hshows =>
    have hmode : f.mode ≠ Mode.extra := by
      rw [hshows.mode_eq]
      split <;> decide
    simp [isFurther, hmode]
  | line | action | actionPack | call | callPack | switch | emotion | wait | color | marker | sync
  | userInput => rfl

theorem op_eq (h : Encodes data i f hashes) : f.op.code = i.op := by
  cases h with
  | actors hshows => rw [hshows.op_eq]
  | line | action | actionPack | call | callPack | switch | emotion | wait | color | marker | sync
  | userInput => rfl

end Encodes

end Frame

namespace Program

/-- Whether the code that steps put behind a program is that of the frames of an instruction, with
the texts of any program that goes on from there. -/
def Tells (p : Program) (ss : List Step) (i : Instruction) : Prop :=
  ∃ (f : Frame) (hashes : List UInt64),
    (p.run ss).code = p.code ++ (f :: hashes.map Frame.further).flatMap (Frame.bytes p.order) ∧
    ∀ q : Program, q.Extends (p.run ss) → q.data.length < 2 ^ 64 → Frame.Encodes q.data i f hashes

variable {i : Instruction}

theorem tells_opcode (p : Program) (f : Frame) (hnone : f.operands = [])
    (henc : ∀ data, Frame.Encodes data i f []) :
    p.Tells [.opcode (Opcode.toWord ⟨f.op.code, f.mode⟩)] i := by
  refine ⟨f, [], ?_, fun q _ _ => henc q.data⟩
  rw [run_cons, run, List.foldl_nil, code_apply, List.map_nil, List.flatMap_singleton,
    Frame.bytes, hnone, List.flatMap_nil, List.append_nil]
  rfl

theorem tells_operand (p : Program) (f : Frame) {s : Step} (hs : s.isCall = false)
    (hoperands : s.operands (p.apply (.opcode (Opcode.toWord ⟨f.op.code, f.mode⟩))) = f.operands)
    (henc : ∀ q : Program,
      q.Extends ((p.apply (.opcode (Opcode.toWord ⟨f.op.code, f.mode⟩))).apply s) →
      q.data.length < 2 ^ 64 → Frame.Encodes q.data i f []) :
    p.Tells [.opcode (Opcode.toWord ⟨f.op.code, f.mode⟩), s] i := by
  refine ⟨f, [], ?_, henc⟩
  rw [run_cons, run_cons, run, List.foldl_nil, code_apply, code_apply, List.map_nil,
    List.flatMap_singleton, Frame.bytes, Step.bytes_of_not_isCall hs, hoperands, order_apply,
    List.append_assoc]
  rfl

theorem code_run_furtherActor (hop : i.op = Operation.actor.code) (p : Program)
    (hashes : List UInt64) :
    (p.run (hashes.flatMap i.furtherActor)).code =
      p.code ++ (hashes.map Frame.further).flatMap (Frame.bytes p.order) := by
  induction hashes generalizing p with
  | nil => exact (List.append_nil p.code).symm
  | cons hash hashes ih =>
    have hone : (p.run (i.furtherActor hash)).code =
        p.code ++ (Frame.further hash).bytes p.order := by
      rw [Instruction.furtherActor, run_cons, run_cons, run, List.foldl_nil, code_apply, code_apply,
        List.append_assoc, Instruction.opcode, hop]
      rfl
    rw [List.flatMap_cons, run_append, ih, hone, order_run, List.append_assoc, List.map_cons,
      List.flatMap_cons]

theorem exists_code_actorRow (hop : i.op = Operation.actor.code) (hmode : i.mode = Mode.plain)
    (p : Program) {view : Bool × List UInt64} (hview : view ≠ (false, [])) :
    ∃ (f : Frame) (hashes : List UInt64), Frame.ShowsActors view f hashes ∧
      (p.run (i.actorRow view)).code =
        p.code ++ (f :: hashes.map Frame.further).flatMap (Frame.bytes p.order) := by
  rcases view with ⟨everyone, hashes⟩
  cases everyone with
  | true =>
    refine ⟨⟨.actor, Mode.everyone, [], by decide, rfl⟩, hashes, ⟨rfl, rfl, rfl⟩, ?_⟩
    rw [Instruction.actorRow, run_cons, code_run_furtherActor hop, code_apply, order_apply,
      List.append_assoc, Instruction.opcode, hop, List.flatMap_cons, Frame.bytes, List.flatMap_nil,
      List.append_nil]
    rfl
  | false =>
    cases hashes with
    | nil => exact absurd rfl hview
    | cons hash hashes =>
      refine ⟨⟨.actor, Mode.plain, [hash], by decide, rfl⟩, hashes, ⟨rfl, rfl, rfl⟩, ?_⟩
      rw [Instruction.actorRow, run_cons, run_cons, code_run_furtherActor hop, code_apply,
        code_apply, order_apply, order_apply, List.append_assoc, List.append_assoc,
        Instruction.opcode, hop, hmode, List.flatMap_cons, Frame.bytes, List.append_assoc]
      rfl

/-- The frame of a pack leads to its texts. -/
theorem tells_packSteps {j : Instruction} {op : Operation} (hop : op = .action ∨ op = .namedCall)
    (hi : i.op = op.code) (p : Program)
    (henc : ∀ data first count, refs data first count = i.params.map Param.toText →
      Frame.Encodes data j (.pack op hop first count) []) :
    p.Tells i.packSteps j := by
  have hsteps : i.packSteps =
      [.opcode (Opcode.toWord ⟨op.code, Mode.extra⟩), .pack (i.params.map Param.toText)] := by
    rw [Instruction.packSteps, Instruction.opcode, hi]
    rfl
  rw [hsteps]
  exact p.tells_operand
    (.pack op hop p.nextRef (.ofNat (i.params.map Param.toText).length)) rfl rfl
    fun q hq hsize => henc q.data _ _ (Step.refs_nextRef hq hsize)

end Program

theorem Script.map_toText_textParams (texts : List Bytes) :
    (textParams texts).map Param.toText = texts := by
  rw [textParams, List.map_map]
  exact List.map_id texts

/-- The steps of an instruction of a script, wherever it stands, give its frames. -/
theorem Script.Form.tells {i : Instruction} (hi : Form i) (line col : Int) {ss : List Step}
    (hss : { i with line := line, col := col }.steps = .ok ss) {p : Program}
    (hp : 2 ≤ p.data.length) : p.Tells ss i := by
  cases hi with
  | line text =>
    cases Instruction.stepsOf_of_steps .line rfl hss
    refine p.tells_operand ⟨.line, 0, [p.nextRef], by decide, rfl⟩ rfl rfl ?_
    intro q hq hsize
    have href := Step.ref?_nextRef hq hsize
    exact .line href
  | action name texts =>
    have hrow := Instruction.stepsOf_of_steps .action rfl hss
    cases texts with
    | nil =>
      cases hrow
      exact p.tells_opcode ⟨.action, 0, [], by decide, rfl⟩ rfl fun _ => .action
    | cons text texts =>
      cases hrow
      refine Program.tells_packSteps (.inl rfl) rfl p fun data first count hrefs => ?_
      exact .actionPack (List.cons_ne_nil text texts) (hrefs.trans (map_toText_textParams _))
  | call name texts =>
    have hrow := Instruction.stepsOf_of_steps .namedCall rfl hss
    have hpack (hlen : texts.length ≠ 1) (data : List Bytes) (first count : UInt64)
        (hrefs : refs data first count = (textParams texts).map Param.toText) :
        Frame.Encodes data { op := Operation.namedCall.code, name, params := textParams texts }
          (.pack .namedCall (.inr rfl) first count) [] :=
      .callPack hlen (hrefs.trans (map_toText_textParams texts))
    rcases texts with - | ⟨text, - | ⟨text', texts⟩⟩
    · cases hrow
      exact Program.tells_packSteps (.inr rfl) rfl p (hpack (by simp))
    · cases hrow
      refine p.tells_operand ⟨.namedCall, 0, [p.nextRef], by decide, rfl⟩ rfl rfl ?_
      intro q hq hsize
      -- The table of a program starts with two texts, so that no text has a number below three.
      have hnext := Step.toNat_nextRef hq hsize (List.cons_ne_nil _ _)
      change p.nextRef.toNat = p.data.length + 1 at hnext
      have hv : 1 < p.nextRef := by
        rw [UInt64.lt_iff_toNat_lt, hnext]
        change 1 < p.data.length + 1
        omega
      have href := Step.ref?_nextRef hq hsize
      exact .call hv href
    · cases hrow
      exact Program.tells_packSteps (.inr rfl) rfl p (hpack (by simp))
  | switch name on =>
    cases Instruction.stepsOf_of_steps .namedCall rfl hss
    cases on with
    | false =>
      exact p.tells_operand ⟨.namedCall, 0, [0], by decide, rfl⟩ rfl rfl fun _ _ _ => .switch false
    | true =>
      exact p.tells_operand ⟨.namedCall, 0, [1], by decide, rfl⟩ rfl rfl fun _ _ _ => .switch true
  | emotion name =>
    cases Instruction.stepsOf_of_steps .emotion rfl hss
    exact p.tells_operand ⟨.emotion, 0, [NameHash.ofBytes name], by decide, rfl⟩ rfl rfl
      fun _ _ _ => .emotion
  | wait duration =>
    cases Instruction.stepsOf_of_steps .wait rfl hss
    exact p.tells_operand ⟨.wait, 0, [duration], by decide, rfl⟩ rfl rfl fun _ _ _ => .wait
  | color hash =>
    cases Instruction.stepsOf_of_steps .color rfl hss
    exact p.tells_operand ⟨.color, 0, [hash], by decide, rfl⟩ rfl rfl fun _ _ _ => .color
  | actors names hnames =>
    have hrow := Instruction.map_plain_stepsOf_actor (Instruction.stepsOf_of_steps .actor rfl hss)
    obtain ⟨f, hashes, hshows, hcode⟩ := Program.exists_code_actorRow
      (i := { op := Operation.actor.code, params := textParams names, line := line, col := col })
      rfl rfl p (actorView_ne (textParams names))
    rw [← hrow, Program.run_map_plain] at hcode
    exact ⟨f, hashes, hcode, fun _ _ _ => .actors hshows⟩
  | marker =>
    cases Instruction.stepsOf_of_steps .noOp rfl hss
    exact p.tells_opcode ⟨.noOp, Mode.extra, [], by decide, rfl⟩ rfl fun _ => .marker
  | sync =>
    cases Instruction.stepsOf_of_steps .sync rfl hss
    exact p.tells_opcode ⟨.sync, 0, [], by decide, rfl⟩ rfl fun _ => .sync
  | userInput =>
    cases Instruction.stepsOf_of_steps .userInput rfl hss
    exact p.tells_opcode ⟨.userInput, 0, [], by decide, rfl⟩ rfl fun _ => .userInput

/-! ## The frames of a row of instructions -/

/-- The frames of an instruction: where they start, the first one, and the hashes of the further
actors behind it. -/
structure FrameRow where
  offset : Nat
  first : Frame
  hashes : List UInt64

namespace FrameRow

def frames (row : FrameRow) : List Frame :=
  row.first :: row.hashes.map Frame.further

def entries (data : List Bytes) (row : FrameRow) : List CodeEntry :=
  Frame.entries data row.offset row.frames

/-- Whether the frames are those of an instruction, wherever it stands in its script. -/
def Encodes (data : List Bytes) (i : Instruction) (row : FrameRow) : Prop :=
  ∃ (j : Instruction) (line col : Int), Frame.Encodes data j row.first row.hashes ∧
    i = { j with line := line, col := col }

end FrameRow

theorem Frame.entries_append (order : ByteOrder) (data : List Bytes) (offset : Nat)
    (fs gs : List Frame) :
    entries data offset (fs ++ gs) =
      entries data offset fs ++ entries data (offset + (fs.flatMap (bytes order)).length) gs := by
  induction fs generalizing offset with
  | nil => rfl
  | cons f fs ih =>
    rw [List.cons_append, entries, entries, ih, List.cons_append, List.flatMap_cons,
      List.length_append, length_bytes, Nat.add_assoc]

namespace Program

/-- Whether the code that instructions put behind a program is that of the frames in rows. -/
structure LaidOut (p q : Program) (is : List Instruction) (rows : List FrameRow) : Prop where
  code_eq : q.code = p.code ++ (rows.flatMap FrameRow.frames).flatMap (Frame.bytes p.order)
  offsets_eq : rows.map FrameRow.offset = p.offsets is
  entries_eq : ∀ data, Frame.entries data p.code.length (rows.flatMap FrameRow.frames) =
    rows.flatMap (FrameRow.entries data)
  encoded : ∀ r : Program, r.Extends q → r.data.length < 2 ^ 64 →
    List.Forall₂ (FrameRow.Encodes r.data) is rows

open Script

/-- The induction is on the instructions: the frames of the first one stand behind `p`, and those of
the others behind the program that it makes of `p`. -/
theorem exists_laidOut {us : List LexUnit} {is : List Instruction} (his : ∀ i ∈ is, StandsIn us i)
    {p q : Program} (hq : is.foldlM add p = .ok q) (hp : 2 ≤ p.data.length) :
    ∃ rows, p.LaidOut q is rows := by
  induction is generalizing p with
  | nil =>
    have hpq : p = q := Result.pure_eq_ok_iff.mp hq
    subst hpq
    refine ⟨[], ⟨?_, rfl, fun _ => rfl, fun _ _ _ => .nil⟩⟩
    rw [List.flatMap_nil, List.flatMap_nil, List.append_nil]
  | cons i is ih =>
    obtain ⟨ss, hss, hq⟩ := foldlM_add_cons_eq_ok_iff.mp hq
    have hlater : q.Extends ((p.mark i.line).run ss) := extends_of_foldlM_add hq
    rw [← data_mark p i.line] at hp
    have hnext : 2 ≤ ((p.mark i.line).run ss).data.length :=
      Nat.le_trans hp (extends_run (p.mark i.line) ss).length_le
    obtain ⟨hi, his⟩ := List.forall_mem_cons.mp his
    obtain ⟨rows, hrows⟩ := ih his hq hnext
    obtain ⟨u, -, j, hj, rfl⟩ := hi
    obtain ⟨f, hashes, hcode, htells⟩ := hj.tells u.line u.col hss hp
    rw [code_mark, order_mark] at hcode
    refine ⟨⟨p.code.length, f, hashes⟩ :: rows, ⟨?_, ?_, ?_, ?_⟩⟩
    · rw [hrows.code_eq, hcode, order_run, order_mark, List.append_assoc, ← List.flatMap_append]
      rfl
    · rw [List.map_cons, hrows.offsets_eq, offsets_cons hss]
    · intro data
      have hentries := hrows.entries_eq data
      rw [hcode, List.length_append] at hentries
      rw [List.flatMap_cons, Frame.entries_append p.order, List.flatMap_cons, ← hentries]
      rfl
    · intro r hr hsize
      exact .cons ⟨j, u.line, u.col, htells r (hr.trans hlater) hsize, rfl⟩
        (hrows.encoded r hr hsize)

end Program

end Dialogue
