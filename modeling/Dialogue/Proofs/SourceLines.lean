import Dialogue.Proofs.JoinedScripts
import Dialogue.Proofs.ListedInstructions

/-!
# Source lines in listings

The source map of a program has a line for the offset of every instruction with a line, and for no
other offset. In a listing the first entry of an instruction therefore shows its line, and those of
further actors show none: no two entries have the same offset.
-/

namespace Dialogue

open Script

/-! ## Offsets of instructions -/

namespace Program

variable {p q : Program} {is : List Instruction}

/-- The offset of an instruction is the length of the code of those before it. -/
theorem exists_getElem?_offsets (hq : is.foldlM add p = .ok q) {k : Nat} (hk : k < is.length) :
    ∃ r, (is.take k).foldlM add p = .ok r ∧ r.code <+: q.code ∧
      (p.offsets is)[k]? = some r.code.length := by
  induction is generalizing p k with
  | nil => cases hk
  | cons i is ih =>
    have hall := (extends_of_foldlM_add hq).code
    obtain ⟨ss, hss, hq⟩ := foldlM_add_cons_eq_ok_iff.mp hq
    cases k with
    | zero =>
      refine ⟨p, rfl, hall, ?_⟩
      rw [offsets_cons hss]
      rfl
    | succ k =>
      obtain ⟨r, hr, hprefix, hoffset⟩ := ih hq (Nat.lt_of_succ_lt_succ hk)
      refine ⟨r, foldlM_add_cons_eq_ok_iff.mpr ⟨ss, hss, hr⟩, hprefix, ?_⟩
      rw [offsets_cons hss, List.getElem?_cons_succ, hoffset]

/-- Whether numbers are the offsets at which the code of instructions starts in that of a program:
each is the length of the code of the instructions before. -/
structure StartsAt (order : Option ByteOrder) (is : List Instruction) (p : Program)
    (offsets : List Nat) : Prop where
  length_eq : offsets.length = is.length
  start_of_lt : ∀ k < is.length, ∃ q, assemble order (is.take k) = .ok q ∧ q.code <+: p.code ∧
    offsets[k]? = some q.code.length
  ascending : offsets.Pairwise (· < ·)
  inside : ∀ n ∈ offsets, n < p.code.length

theorem startsAt_offsets {order : Option ByteOrder} (hp : assemble order is = .ok p) :
    StartsAt order is p ((start order).offsets is) where
  length_eq := length_offsets hp
  start_of_lt := fun _ hk => exists_getElem?_offsets hp hk
  ascending := pairwise_offsets hp
  inside := fun _ hn => (mem_offsets_bounds hp hn).2

theorem get?_sourceMap_iff {order : Option ByteOrder} (hp : assemble order is = .ok p)
    (hsize : p.code.length < 2 ^ 64) {n : Nat} (hn : n < 2 ^ 64) {line : Int} :
    p.sourceMap.get? (.ofNat n) = some line ↔
      ∃ i, (i, n) ∈ is.zip ((start order).offsets is) ∧ 0 < i.line ∧ i.line = line := by
  rw [WordMap.get?_eq_some_iff, entries_sourceMap hp hsize, marks_eq hp, List.mem_map]
  simp only [List.mem_filter, decide_eq_true_eq, Prod.mk.injEq]
  constructor
  · rintro ⟨⟨i, k⟩, ⟨hmem, hpos⟩, hkey, hline⟩
    have hk : k < 2 ^ 64 :=
      Nat.lt_trans (mem_offsets_bounds hp (List.of_mem_zip hmem).2).2 hsize
    have hkn : k = n := by
      have hword := congrArg UInt64.toNat hkey
      rwa [UInt64.toNat_ofNat_of_lt' hk, UInt64.toNat_ofNat_of_lt' hn] at hword
    exact ⟨i, hkn ▸ hmem, hpos, hline⟩
  · rintro ⟨i, hmem, hpos, hline⟩
    exact ⟨(i, n), ⟨hmem, hpos⟩, rfl, hline⟩

end Program

/-! ## Offsets of entries -/

namespace Frame

theorem nodup_offsets_entries (data : List Bytes) (offset : Nat) (fs : List Frame) :
    ((entries data offset fs).map CodeEntry.offset).Nodup := by
  have hchain : ((entries data offset fs).map CodeEntry.offset).IsChain (· < ·) := by
    rw [List.isChain_map]
    refine (isChain_entries fs).imp ?_
    intro e e' h
    omega
  exact hchain.pairwise.nodup

theorem offset_le_of_mem_entries (order : ByteOrder) {data : List Bytes} {fs : List Frame}
    {e : CodeEntry} (he : e ∈ entries data 0 fs) :
    e.offset ≤ (fs.flatMap (bytes order)).length := by
  obtain ⟨before, after, rfl, hoffset⟩ :=
    exists_append_of_mem_offsets order (List.mem_map_of_mem (f := CodeEntry.offset) he)
  rw [hoffset, List.flatMap_append, List.length_append]
  omega

end Frame

/-! ## Lines -/

theorem Script.LexUnit.line_pos {source : Bytes} {us : List LexUnit}
    (hus : ofSource source = .ok us) {u : LexUnit} (hu : u ∈ us) : 0 < u.line := by
  obtain ⟨rfl, -⟩ := ofSource_eq_ok_iff.mp hus
  obtain ⟨before, t, after, prev, -, -, rfl⟩ := exists_of_mem_scan none {} _ u hu
  have hline := Position.line_after {} before
  change 0 < Int.ofNat (({} : Position).after before).line
  rw [hline]
  change (0 : Int) < ((1 + before.count '\n' : Nat) : Int)
  omega

/-- An entry with the line that a source map has for its offset, or none. -/
def CodeEntry.placed (sourceMap : WordMap Int) (e : CodeEntry) : CodeEntry :=
  { e with line := (sourceMap.get? (.ofNat e.offset)).getD 0 }

theorem Listing.code_attachSource (l : Listing) (sourceMap : WordMap Int) :
    (l.attachSource sourceMap).code = l.code.map (CodeEntry.placed sourceMap) := rfl

namespace Instruction

theorem Heads.placed {i : Instruction} {e : CodeEntry} {further : List CodeEntry}
    (h : i.Heads e further) (sourceMap : WordMap Int) :
    i.Heads (e.placed sourceMap) (further.map (CodeEntry.placed sourceMap)) where
  op_eq := h.op_eq
  not_isFurther := h.not_isFurther
  isFurther := by
    intro e' he'
    obtain ⟨e'', he'', rfl⟩ := List.mem_map.mp he'
    exact h.isFurther e'' he''
  length_further := by rw [List.length_map, h.length_further]

/-- Whether entries are those of an instruction, the first one with its line and the others with
none. -/
def LinedBy (i : Instruction) (es : List CodeEntry) : Prop :=
  ∃ e further, es = e :: further ∧ i.Heads e further ∧ 0 < i.line ∧ e.line = i.line ∧
    ∀ e' ∈ further, e'.line = 0

end Instruction

namespace Program.LaidOut

variable {order : Option ByteOrder} {p : Program} {is : List Instruction} {rows : List FrameRow}

theorem mem_zip_offsets_iff (hrows : (start order).LaidOut p is rows) {i : Instruction} {n : Nat} :
    (i, n) ∈ is.zip ((start order).offsets is) ↔
      ∃ row, (i, row) ∈ is.zip rows ∧ row.offset = n := by
  rw [← hrows.offsets_eq, List.zip_map_right, List.mem_map]
  constructor
  · rintro ⟨⟨j, row⟩, hmem, hpair⟩
    obtain ⟨rfl, hoffset⟩ := Prod.mk.inj hpair
    exact ⟨row, hmem, hoffset⟩
  · rintro ⟨row, hmem, rfl⟩
    exact ⟨(i, row), hmem, rfl⟩

theorem get?_first (hrows : (start order).LaidOut p is rows) (hp : assemble order is = .ok p)
    (hsize : p.code.length < 2 ^ 64) {i : Instruction} {row : FrameRow}
    (hmem : (i, row) ∈ is.zip rows) (hpos : 0 < i.line) :
    p.sourceMap.get? (.ofNat row.offset) = some i.line := by
  have hoffset := hrows.mem_zip_offsets_iff.mpr ⟨row, hmem, rfl⟩
  have hfit := Nat.lt_trans (mem_offsets_bounds hp (List.of_mem_zip hoffset).2).2 hsize
  exact (get?_sourceMap_iff hp hsize hfit).mpr ⟨i, hoffset, hpos, rfl⟩

/-- A source map has no line for the entry of a further actor: it is not the first one of any
instruction, and no other entry stands at its offset. -/
theorem get?_further (hrows : (start order).LaidOut p is rows) (hp : assemble order is = .ok p)
    (hsize : p.code.length < 2 ^ 64) {data : List Bytes}
    (henc : List.Forall₂ (FrameRow.Encodes data) is rows) {e : CodeEntry}
    (he : e ∈ rows.flatMap (FrameRow.entries data)) (hfurther : e.IsFurther) :
    p.sourceMap.get? (.ofNat e.offset) = none := by
  have hcode : p.code = (rows.flatMap FrameRow.frames).flatMap (Frame.bytes (start order).order) :=
    hrows.code_eq
  have hentries : Frame.entries data 0 (rows.flatMap FrameRow.frames) =
      rows.flatMap (FrameRow.entries data) := hrows.entries_eq data
  have hfit : e.offset < 2 ^ 64 := by
    have hle := Frame.offset_le_of_mem_entries (start order).order (hentries ▸ he)
    rw [← hcode] at hle
    omega
  rw [Option.eq_none_iff_forall_ne_some]
  intro line hline
  obtain ⟨i, hi, -⟩ := (get?_sourceMap_iff hp hsize hfit).mp hline
  obtain ⟨row, hmem, hoffset⟩ := hrows.mem_zip_offsets_iff.mp hi
  have hfirst : row.firstEntry data ∈ rows.flatMap (FrameRow.entries data) :=
    List.mem_flatMap.mpr ⟨row, (List.of_mem_zip hmem).2, List.mem_cons_self⟩
  have hsame : row.firstEntry data = e := by
    have hnodup := Frame.nodup_offsets_entries data 0 (rows.flatMap FrameRow.frames)
    rw [hentries] at hnodup
    exact List.inj_on_of_nodup_map hnodup hfirst he hoffset
  exact (List.forall₂_zip henc hmem).heads.not_isFurther (hsame ▸ hfurther)

theorem linedBy (hrows : (start order).LaidOut p is rows) (hp : assemble order is = .ok p)
    (hsize : p.code.length < 2 ^ 64) {data : List Bytes}
    (henc : List.Forall₂ (FrameRow.Encodes data) is rows) {i : Instruction} {row : FrameRow}
    (hmem : (i, row) ∈ is.zip rows) (hpos : 0 < i.line) :
    i.LinedBy ((row.entries data).map (CodeEntry.placed p.sourceMap)) := by
  refine ⟨_, _, rfl, (List.forall₂_zip henc hmem).heads.placed p.sourceMap, hpos, ?_, ?_⟩
  · exact congrArg (Option.getD · 0) (hrows.get?_first hp hsize hmem hpos)
  · intro e' he'
    obtain ⟨e, he, rfl⟩ := List.mem_map.mp he'
    have hlisted : e ∈ rows.flatMap (FrameRow.entries data) :=
      List.mem_flatMap.mpr ⟨row, (List.of_mem_zip hmem).2, List.mem_cons_of_mem _ he⟩
    have hfurther := (Frame.isFurther_of_mem_entries he).1
    exact congrArg (Option.getD · 0) (hrows.get?_further hp hsize henc hlisted hfurther)

end Program.LaidOut

/-- The source map of a program has the lines of its instructions at the offsets where their code
starts, and nothing else. In the listing of a compiled module the first entry of every instruction
has its line, and the entries of further actors have none. -/
theorem source_map_marks_starts :
    (∀ (order : Option ByteOrder) (is : List Instruction) (p : Program),
      Program.assemble order is = .ok p → p.code.length < 2 ^ 64 →
      ∃ offsets, Program.StartsAt order is p offsets ∧
        p.sourceMap.entries = ((is.zip offsets).filter fun x => 0 < x.1.line).map
          fun x => (.ofNat x.2, x.1.line)) ∧
    ∀ (source : Bytes) (opts : CompileOptions) (r : Compilation),
      compile source opts = .ok r → r.binary.length < 2 ^ 64 →
      ∃ m l groups, Module.decode r.binary ⟨some r.program.order, opts.legacyDataSize⟩ = .ok m ∧
        Listing.ofModule m = .ok l ∧ (l.attachSource r.program.sourceMap).code = groups.flatten ∧
        List.Forall₂ Instruction.LinedBy r.instructions groups := by
  constructor
  · intro order is p hp hsize
    refine ⟨_, Program.startsAt_offsets hp, ?_⟩
    rw [Program.entries_sourceMap hp hsize, Program.marks_eq hp]
  · intro source opts r hr hlen
    obtain ⟨m, l, rows, hm, hl, hcode, hrows, henc⟩ := exists_listed_rows hr hlen
    obtain ⟨hunits, his, hp, hbinary⟩ := compile_eq_ok_iff.mp hr
    have hsize : r.program.code.length < 2 ^ 64 := by
      rw [← hbinary, Program.length_package] at hlen
      omega
    refine ⟨m, l, rows.map fun row => (row.entries r.program.data).map
      (CodeEntry.placed r.program.sourceMap), hm, hl, ?_, ?_⟩
    · rw [Listing.code_attachSource, hcode, List.map_flatMap, List.flatMap_def]
    · rw [List.forall₂_map_right_iff, List.forall₂_iff_zip]
      refine ⟨henc.length_eq, ?_⟩
      intro i row hmem
      have hpos : 0 < i.line := by
        obtain ⟨u, hu, j, -, rfl⟩ :=
          (standsIn_of_mem_instructions his).2 i (List.of_mem_zip hmem).1
        exact LexUnit.line_pos hunits hu
      exact hrows.linedBy hp hsize henc hmem hpos

/-- Instructions of which the second one has no line. -/
def cues : List Instruction :=
  [{ op := Operation.sync.code, line := 3 }, { op := Operation.userInput.code },
   { op := Operation.line.code, params := [.text (Text.utf8 "hi")], line := 2 }]

/-- A script with a group of three actors. -/
def trio : Bytes :=
  Text.utf8 "[ann, bob, eve]\n\"hi\" ;"

theorem source_map_marks_starts_trio :
    (∃ p offsets, Program.assemble none cues = .ok p ∧ p.code.length < 2 ^ 64 ∧
      Program.StartsAt none cues p offsets ∧
      p.sourceMap.entries = ((cues.zip offsets).filter fun x => 0 < x.1.line).map
        (fun x => (.ofNat x.2, x.1.line)) ∧
      p.sourceMap.entries = [(0, 3), (4, 2)]) ∧
    ∃ r m l groups, compile trio {} = .ok r ∧ r.binary.length < 2 ^ 64 ∧
      Module.decode r.binary ⟨some r.program.order, false⟩ = .ok m ∧ Listing.ofModule m = .ok l ∧
      (l.attachSource r.program.sourceMap).code = groups.flatten ∧
      List.Forall₂ Instruction.LinedBy r.instructions groups ∧
      r.instructions.map (fun i => (i.line, i.params.length)) = [(1, 3), (2, 1), (2, 0)] := by
  have hcues : ((Program.assemble none cues).map fun p => (p.code.length, p.sourceMap.entries)) =
      .ok (14, [(0, 3), (4, 2)]) := by
    decide +kernel
  have htrio : ((compile trio {}).map fun r =>
      (r.binary.length, r.instructions.map fun i => (i.line, i.params.length))) =
      .ok (136, [(1, 3), (2, 1), (2, 0)]) := by
    decide +kernel
  obtain ⟨p, hp, hshown⟩ := Result.map_eq_ok_iff.mp hcues
  obtain ⟨hlength, hentries⟩ := Prod.mk.inj hshown
  have hsize : p.code.length < 2 ^ 64 := by
    rw [hlength]
    decide
  obtain ⟨r, hr, hshown⟩ := Result.map_eq_ok_iff.mp htrio
  obtain ⟨hlength, hlines⟩ := Prod.mk.inj hshown
  have hlen : r.binary.length < 2 ^ 64 := by
    rw [hlength]
    decide
  obtain ⟨offsets, hoffsets, hmap⟩ := source_map_marks_starts.1 none cues p hp hsize
  obtain ⟨m, l, groups, hm, hl, hcode, hgroups⟩ := source_map_marks_starts.2 trio {} r hr hlen
  exact ⟨⟨p, offsets, hp, hsize, hoffsets, hmap, hentries⟩,
    r, m, l, groups, hr, hlen, hm, hl, hcode, hgroups, hlines⟩

end Dialogue
