import Dialogue.Proofs.CompiledModules
import Dialogue.Proofs.InstructionFrames

/-!
# Instructions in listings

The listing of a compiled module is a row of groups of entries, one for each instruction of the
script. The comment of the first entry tells the parameters of the instruction, but for a call that
switches on: its operand one is taken for the number of a text, and the first text is that of false.
-/

namespace Dialogue

/-! ## Entries of an instruction -/

/-- Whether an entry is that of an actor behind the first one of a group. -/
def CodeEntry.IsFurther (e : CodeEntry) : Prop :=
  e.op = .actor ∧ e.mode = Mode.extra

theorem length_actorView (ps : List Param) :
    (actorView ps).2.length - (if (actorView ps).1 then 0 else 1) = ps.length - 1 := by
  cases ps with
  | nil => rfl
  | cons q ps =>
    rw [actorView]
    split <;> simp

namespace Frame

theorem isFurther_of_mem_entries {data : List Bytes} {offset : Nat} {hashes : List UInt64}
    {e : CodeEntry} (he : e ∈ entries data offset (hashes.map further)) :
    e.IsFurther ∧ e.comment = "" := by
  induction hashes generalizing offset with
  | nil => cases he
  | cons hash hashes ih =>
    rcases List.mem_cons.mp he with rfl | he
    · exact ⟨⟨rfl, rfl⟩, rfl⟩
    · exact ih he

theorem length_entries (data : List Bytes) (offset : Nat) (fs : List Frame) :
    (entries data offset fs).length = fs.length := by
  induction fs generalizing offset with
  | nil => rfl
  | cons f fs ih => rw [entries, List.length_cons, List.length_cons, ih]

theorem ShowsActors.length_hashes {view : Bool × List UInt64} {f : Frame} {hashes : List UInt64}
    (h : ShowsActors view f hashes) :
    hashes.length = view.2.length - (if view.1 then 0 else 1) := by
  have hlength := f.length_operands
  rw [h.op_eq, h.mode_eq] at hlength
  rw [← h.hashes_eq, List.length_append, hlength]
  cases view.1 with
  | false =>
    change _ = 1 + _ - 1
    omega
  | true =>
    change _ = 0 + _ - 0
    omega

theorem Encodes.length_hashes {data : List Bytes} {i : Instruction} {f : Frame}
    {hashes : List UInt64} (h : Encodes data i f hashes) :
    hashes.length = if i.op = Operation.actor.code then i.params.length - 1 else 0 := by
  cases h with
  | actors hshows =>
    rw [hshows.length_hashes, length_actorView]
    rfl
  | line | action | actionPack | call | callPack | switch | emotion | wait | color | marker | sync
  | userInput => rfl

end Frame

/-- Whether entries are those of an instruction: the first one is its own, and behind it come those
of the further actors of a group. -/
structure Instruction.Heads (i : Instruction) (e : CodeEntry) (further : List CodeEntry) :
    Prop where
  op_eq : e.op.code = i.op
  not_isFurther : ¬ e.IsFurther
  isFurther : ∀ e' ∈ further, e'.IsFurther
  length_further : further.length = if i.op = Operation.actor.code then i.params.length - 1 else 0

namespace FrameRow

def firstEntry (data : List Bytes) (row : FrameRow) : CodeEntry :=
  row.first.entry data row.offset

def furtherEntries (data : List Bytes) (row : FrameRow) : List CodeEntry :=
  Frame.entries data (row.offset + row.first.size) (row.hashes.map Frame.further)

theorem entries_eq_cons (data : List Bytes) (row : FrameRow) :
    row.entries data = row.firstEntry data :: row.furtherEntries data := rfl

theorem Encodes.heads {data : List Bytes} {i : Instruction} {row : FrameRow}
    (h : Encodes data i row) : i.Heads (row.firstEntry data) (row.furtherEntries data) := by
  obtain ⟨j, line, col, h, rfl⟩ := h
  refine ⟨h.op_eq, ?_, fun e he => (Frame.isFurther_of_mem_entries he).1, ?_⟩
  · intro hfurther
    have hnot := h.not_isFurther
    rw [Frame.isFurther, decide_eq_false_iff_not] at hnot
    exact hnot hfurther
  · rw [furtherEntries, Frame.length_entries, List.length_map, h.length_hashes]

end FrameRow

/-! ## Listings of compiled modules -/

/-- The listing of a compiled module shows the frames of the instructions of its script. -/
theorem exists_listed_rows {source : Bytes} {opts : CompileOptions} {r : Compilation}
    (hr : compile source opts = .ok r) (hlen : r.binary.length < 2 ^ 64) :
    ∃ m l rows, Module.decode r.binary ⟨some r.program.order, opts.legacyDataSize⟩ = .ok m ∧
      Listing.ofModule m = .ok l ∧ l.code = rows.flatMap (FrameRow.entries r.program.data) ∧
      (Program.start opts.order).LaidOut r.program r.instructions rows ∧
      List.Forall₂ (FrameRow.Encodes r.program.data) r.instructions rows := by
  obtain ⟨-, his, hp, hbinary⟩ := compile_eq_ok_iff.mp hr
  obtain ⟨l, hl, hcode⟩ := exists_listing_compiled hr
  obtain ⟨rows, hrows⟩ :=
    Program.exists_laidOut (Script.standsIn_of_mem_instructions his).2 hp (Nat.le_refl 2)
  have hsize : r.program.data.length < 2 ^ 64 := by
    have hle := Program.length_data_le r.program.data
    rw [← hbinary, Program.length_package] at hlen
    omega
  refine ⟨_, l, rows, decode_compiled hr hlen, hl, ?_, hrows, hrows.encoded _ (.refl _) hsize⟩
  have hframes : r.program.code =
      (rows.flatMap FrameRow.frames).flatMap (Frame.bytes r.program.order) := by
    rw [(Program.extends_of_foldlM_add hp).order]
    exact hrows.code_eq
  have hentries : entriesFrom r.program.order r.program.data 0 r.program.code = .ok l.code := hcode
  rw [hframes, Frame.entriesFrom_flatMap, Except.ok.injEq] at hentries
  rw [← hentries]
  exact hrows.entries_eq r.program.data

/-! ## Comments -/

/-- A parameter as the comments of listings quote it. -/
def Param.quoted (q : Param) : String :=
  Quoted.text q.toText

namespace Instruction

/-- Whether the parameters of an instruction are kept as a row of texts. -/
def HasPack (i : Instruction) : Prop :=
  i.op = Operation.action.code ∧ i.params ≠ [] ∨
    i.op = Operation.namedCall.code ∧ i.params.length ≠ 1

instance (i : Instruction) : Decidable i.HasPack :=
  inferInstanceAs (Decidable (_ ∨ _))

def SwitchesOn (i : Instruction) : Prop :=
  i.op = Operation.namedCall.code ∧ i.params = [.bool true]

def packComment (i : Instruction) : String :=
  "(" ++ ", ".intercalate (i.params.map Param.quoted) ++ ")"

/-- Whether a comment tells the truth about the parameters of an instruction. -/
structure Told (i : Instruction) (comment : String) : Prop where
  sole : ∀ q, i.params = [q] → i.op = Operation.line.code ∨ i.op = Operation.namedCall.code →
    comment = "" ∨ comment = q.quoted
  pack : i.HasPack → comment = i.packComment

/-- The comment of an instruction in a listing. -/
def comment (i : Instruction) : String :=
  if i.HasPack then i.packComment
  else
    match Operation.ofCode? i.op, i.params with
    | some .namedCall, [.bool true] => Quoted.text (Text.utf8 "false")
    | some .namedCall, [.bool false] => ""
    | some .namedCall, [q] | some .line, [q] => q.quoted
    | _, _ => ""

theorem comment_of_hasPack {i : Instruction} (hpack : i.HasPack) {texts : List Bytes}
    (hparams : i.params = Script.textParams texts) :
    i.comment = "(" ++ ", ".intercalate (texts.map Quoted.text) ++ ")" := by
  have hquoted : i.params.map Param.quoted = texts.map Quoted.text := by
    rw [hparams, Script.textParams, List.map_map]
    rfl
  rw [comment, if_pos hpack, packComment, hquoted]

/-- A comment tells the truth unless the instruction switches on. -/
theorem told_comment_iff (i : Instruction) : i.Told i.comment ↔ ¬ i.SwitchesOn := by
  constructor
  · rintro htold ⟨hop, hparams⟩
    have hcomment : i.comment = Quoted.text (Text.utf8 "false") := by
      have hpack : ¬ i.HasPack := by simp [HasPack, hop, hparams, Operation.code]
      rw [comment, if_neg hpack, hop, hparams, Operation.ofCode?_code]
    have hsole := htold.sole _ hparams (.inr hop)
    rw [hcomment] at hsole
    revert hsole
    decide +kernel
  · intro hon
    refine ⟨?_, fun hpack => if_pos hpack⟩
    intro q hparams hop
    have hpack : ¬ i.HasPack := by
      rcases hop with hop | hop <;> simp [HasPack, hop, hparams, Operation.code]
    rw [comment, if_neg hpack, hparams]
    rcases hop with hop | hop
    · rw [hop, Operation.ofCode?_code]
      exact .inr rfl
    · rw [hop, Operation.ofCode?_code]
      cases q with
      | text s => exact .inr rfl
      | int v => exact .inr rfl
      | bool b =>
        cases b with
        | false => exact .inl rfl
        | true => exact absurd ⟨hop, hparams⟩ hon

/-- Whether entries are those of an instruction, with the comment of it. -/
def CommentedBy (i : Instruction) (es : List CodeEntry) : Prop :=
  ∃ e further, es = e :: further ∧ i.Heads e further ∧ e.comment = i.comment ∧
    (i.Told e.comment ↔ ¬ i.SwitchesOn) ∧ ∀ e' ∈ further, e'.comment = ""

end Instruction

theorem Frame.Encodes.annotate_eq {data : List Bytes} {i : Instruction} {f : Frame}
    {hashes : List UInt64} (h : Encodes data i f hashes)
    (hdata : [Text.utf8 "false", Text.utf8 "true"] <+: data) :
    annotate data (f.op.operands f.mode) f.operands = i.comment := by
  cases h with
  | @line text v href =>
    change ((ref? data v).map Quoted.text).getD "" = _
    rw [href]
    rfl
  | @actionPack _ texts _ _ hne hrefs =>
    have hparams : Script.textParams texts ≠ [] := fun h => hne (List.map_eq_nil_iff.mp h)
    rw [Instruction.comment_of_hasPack (.inl ⟨rfl, hparams⟩) rfl, ← hrefs]
    rfl
  | @call name text v hv href =>
    change ((ref? data v).map Quoted.text).getD "" = _
    rw [href]
    rfl
  | @callPack _ texts _ _ hlen hrefs =>
    have hparams : (Script.textParams texts).length ≠ 1 := by
      rwa [Script.textParams, List.length_map]
    rw [Instruction.comment_of_hasPack (.inr ⟨rfl, hparams⟩) rfl, ← hrefs]
    rfl
  | switch on =>
    cases on with
    | false => rfl
    | true =>
      obtain ⟨later, rfl⟩ := hdata
      rfl
  | actors hshows =>
    rw [hshows.op_eq, hshows.mode_eq]
    split <;> rfl
  | action | emotion | wait | color | marker | sync | userInput => rfl

/-- In the listing of a compiled module the comments tell the parameters of the instructions, but
for the calls that switch on: these are commented with the text of false. -/
theorem compiled_comments (source : Bytes) (opts : CompileOptions) (r : Compilation)
    (hr : compile source opts = .ok r) (hlen : r.binary.length < 2 ^ 64) :
    ∃ m l groups, Module.decode r.binary ⟨some r.program.order, opts.legacyDataSize⟩ = .ok m ∧
      Listing.ofModule m = .ok l ∧ l.code = groups.flatten ∧
      List.Forall₂ Instruction.CommentedBy r.instructions groups := by
  obtain ⟨m, l, rows, hm, hl, hcode, -, hrows⟩ := exists_listed_rows hr hlen
  obtain ⟨-, -, hp, -⟩ := compile_eq_ok_iff.mp hr
  have hdata := (Program.extends_of_foldlM_add hp).data
  refine ⟨m, l, rows.map (FrameRow.entries r.program.data), hm, hl, ?_, ?_⟩
  · rw [hcode, List.flatMap_def]
  · rw [List.forall₂_map_right_iff]
    refine hrows.imp ?_
    rintro i row hrow
    have hheads := hrow.heads
    obtain ⟨j, line, col, hrow, rfl⟩ := hrow
    have hcomment : (row.firstEntry r.program.data).comment =
        Instruction.comment { j with line := line, col := col } := hrow.annotate_eq hdata
    refine ⟨_, _, row.entries_eq_cons r.program.data, hheads, hcomment, ?_,
      fun e he => (Frame.isFurther_of_mem_entries he).2⟩
    rw [hcomment]
    exact Instruction.told_comment_iff _

/-- A script with comments of all kinds. -/
def lamps : Bytes :=
  Text.utf8 "\"hi\" $go there $say (a, b) @wave (both, hands) [ann, bob] +lamp -lamp"

theorem compiled_comments_lamps :
    ∃ r m l groups, compile lamps {} = .ok r ∧ r.binary.length < 2 ^ 64 ∧
      Module.decode r.binary ⟨some r.program.order, false⟩ = .ok m ∧ Listing.ofModule m = .ok l ∧
      l.code = groups.flatten ∧ List.Forall₂ Instruction.CommentedBy r.instructions groups ∧
      r.instructions.map Instruction.comment =
        ["\"hi\"", "\"there\"", "(\"a\", \"b\")", "(\"both\", \"hands\")", "", "\"false\"", ""]
    := by
  have hcompiled : ((compile lamps {}).map fun r =>
      (r.binary.length, r.instructions.map Instruction.comment)) =
      .ok (211, ["\"hi\"", "\"there\"", "(\"a\", \"b\")", "(\"both\", \"hands\")", "", "\"false\"",
        ""]) := by
    decide +kernel
  obtain ⟨r, hr, hshown⟩ := Result.map_eq_ok_iff.mp hcompiled
  obtain ⟨hlength, hcomments⟩ := Prod.mk.inj hshown
  have hlen : r.binary.length < 2 ^ 64 := by
    rw [hlength]
    decide
  obtain ⟨m, l, groups, hm, hl, hcode, hgroups⟩ := compiled_comments lamps {} r hr hlen
  exact ⟨r, m, l, groups, hr, hlen, hm, hl, hcode, hgroups, hcomments⟩

/-- A call that switches on is listed with the text of false. -/
theorem listing_switch_on :
    ((compile (Text.utf8 "+lamp") {}).toOption.bind fun r =>
      (Module.decode r.binary ⟨some r.program.order, false⟩).toOption.bind fun m =>
        (Listing.ofModule m).toOption.map fun l =>
          (r.instructions.map fun i => i.params.map Param.quoted, l.code.map CodeEntry.comment)) =
      some ([["\"true\""]], ["\"false\""]) := by
  decide +kernel

end Dialogue
