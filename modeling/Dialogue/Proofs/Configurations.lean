import Dialogue.Proofs.CodeFrames
import Dialogue.Proofs.CompiledModules
import Dialogue.Proofs.Relocation

/-!
# Configurations

Neither the byte order nor what the header says changes what a script is compiled to. The code is
the same row of frames in every byte order, and of the header only the words that a configuration
gives are its own.
-/

namespace Dialogue

theorem ByteOrder.getElem?_flatMap_write64 (order : ByteOrder) (ws : List UInt64) (k : Nat) :
    (ws.flatMap order.write64)[k]? = ws[k / 8]?.bind fun w => (order.write64 w)[k % 8]? := by
  induction ws generalizing k with
  | nil => simp
  | cons w ws ih =>
    have hlength := order.length_write64 w
    rw [List.flatMap_cons]
    by_cases hk : k < 8
    · rw [List.getElem?_append_left (by omega), Nat.div_eq_of_lt hk, Nat.mod_eq_of_lt hk]
      rfl
    · obtain ⟨n, rfl⟩ := Nat.exists_eq_add_of_le (Nat.not_lt.mp hk)
      have hdiv : (8 + n) / 8 = n / 8 + 1 := by omega
      rw [List.getElem?_append_right (by omega), hlength, Nat.add_sub_cancel_left, ih, hdiv,
        Nat.add_mod_left, List.getElem?_cons_succ]

/-! ## The same words in every byte order -/

namespace Framed

theorem flatMap_words_body {order : ByteOrder} {body : List Event}
    (h : ∀ e ∈ body, e.step.isCall = false ∧ e.program.order = order) (order' : ByteOrder) :
    (body.flatMap fun e => e.step.words e.program).flatMap (CodeWord.bytes order') =
      (body.flatMap Event.operands).flatMap order'.write64 := by
  have hwords (e : Event) (he : e.step.isCall = false) :
      (e.step.words e.program).flatMap (CodeWord.bytes order') =
        e.operands.flatMap order'.write64 := by
    obtain ⟨p, i, s⟩ := e
    cases s with
    | opcode word => cases he
    | operand | string | named | pack => rfl
  rw [List.flatMap_assoc, List.flatMap_assoc]
  apply List.flatMap_congr
  intro e he
  exact hwords e (h e he).1

/-- Framed events are frames, whatever the byte order they are written in. -/
theorem exists_frames {order : ByteOrder} {offset : Nat} {es : List Event}
    (h : Framed order offset es) :
    ∃ fs : List Frame, ∀ order' : ByteOrder,
      (es.flatMap fun e => e.step.words e.program).flatMap (CodeWord.bytes order') =
        fs.flatMap (Frame.bytes order') := by
  induction h with
  | nil offset => exact ⟨[], fun _ => rfl⟩
  | cons p i op mode body rest horder hop hbody hcount hrest ih =>
    obtain ⟨fs, hfs⟩ := ih
    have hmode : mode % 0x10 < 0x10 := by
      rw [UInt16.lt_iff_toNat_lt, UInt16.toNat_mod]
      exact Nat.mod_lt _ (by decide)
    have hmod : mode % 0x10 % 0x10 = mode % 0x10 := by
      apply UInt16.toNat_inj.mp
      rw [UInt16.toNat_mod, UInt16.toNat_mod]
      exact Nat.mod_mod _ _
    have hword : Opcode.toWord ⟨op.code, mode % 0x10⟩ = Opcode.toWord ⟨i.op, mode⟩ := by
      rw [Opcode.toWord, Opcode.toWord, hop, hmod]
    refine ⟨⟨op, mode % 0x10, body.flatMap Event.operands, hmode, hcount⟩ :: fs, fun order' => ?_⟩
    have hopcode : [CodeWord.opcode (Opcode.toWord ⟨i.op, mode⟩)].flatMap (CodeWord.bytes order') =
        order'.write16 (Opcode.toWord ⟨i.op, mode⟩) := List.append_nil _
    rw [List.flatMap_cons, List.flatMap_append, List.flatMap_append, List.flatMap_append,
      flatMap_words_body hbody, hfs, List.flatMap_cons, Frame.bytes, hword, ← hopcode,
      List.append_assoc]
    rfl

end Framed

namespace Program

variable {p p' q q' : Program} {is : List Instruction} {order order' : Option ByteOrder}

theorem words_eventsOf_congr (h : p.data = p'.data) (i : Instruction) (ss : List Step) :
    (p.eventsOf i ss).flatMap (fun e => e.step.words e.program) =
      (p'.eventsOf i ss).flatMap fun e => e.step.words e.program := by
  induction ss generalizing p p' with
  | nil => rfl
  | cons s ss ih =>
    have hwords : s.words p = s.words p' := by
      cases s with
      | opcode | operand | named => rfl
      | string | pack => simp only [Step.words, nextRef, h]
    have hdata : (p.apply s).data = (p'.apply s).data := by rw [data_apply, data_apply, h]
    rw [eventsOf, eventsOf, List.flatMap_cons, List.flatMap_cons, hwords, ih hdata]

/-- The words of instructions depend on the texts in front of them only. -/
theorem words_congr (h : p.data = p'.data) (is : List Instruction) : p.words is = p'.words is := by
  induction is generalizing p p' with
  | nil => rfl
  | cons i is ih =>
    cases hss : i.steps with
    | error fault => simp only [words, events, hss]
    | ok ss =>
      have hmark : (p.mark i.line).data = (p'.mark i.line).data := by
        rw [data_mark, data_mark, h]
      have hrun : ((p.mark i.line).run ss).data = ((p'.mark i.line).run ss).data := by
        rw [data_run, data_run, hmark]
      rw [words_cons hss, words_cons hss, words_eventsOf_congr hmark, ih hrun]

theorem jumps_run (p : Program) (ss : List Step) : (p.run ss).jumps = p.jumps := by
  induction ss generalizing p with
  | nil => rfl
  | cons s ss ih =>
    have hstep : (p.apply s).jumps = p.jumps := by cases s <;> rfl
    rw [run_cons, ih, hstep]

theorem jumps_mark (p : Program) (line : Int) : (p.mark line).jumps = p.jumps := by
  rw [mark]
  split
  · rfl
  · rfl

theorem jumps_assemble (hp : assemble order is = .ok p) : p.jumps = .empty := by
  refine assemble_induction (P := fun q => q.jumps = .empty) hp rfl ?_
  intro q i ss _ _ hq
  rw [jumps_run, jumps_mark, hq]

section

variable (hp : assemble order is = .ok p) (hp' : assemble order' is = .ok p')

include hp hp'

theorem data_congr : p.data = p'.data := by
  obtain ⟨texts, hdata, hdata'⟩ := exists_texts hp hp'
  rw [hdata, hdata']
  rfl

/-- The programs of the same instructions are the same row of frames. -/
theorem exists_frames (hmodes : ∀ i ∈ is, i.PlainMode) :
    ∃ fs : List Frame, p.code = fs.flatMap (Frame.bytes p.order) ∧
      p'.code = fs.flatMap (Frame.bytes p'.order) := by
  have hcode {order : Option ByteOrder} {p : Program} (hp : assemble order is = .ok p) :
      p.code = ((start order).words is).flatMap (CodeWord.bytes p.order) := by
    rw [order_assemble hp]
    exact (code_foldlM_add hp).trans (flatMap_bytes_words (start order) is).symm
  obtain ⟨fs, hfs⟩ := (framed_events hmodes hp).exists_frames
  refine ⟨fs, (hcode hp).trans (hfs p.order), (hcode hp').trans ?_⟩
  have hdata : (start order').data = (start order).data := rfl
  rw [words_congr hdata]
  exact hfs p'.order

end

/-! ## Headers -/

theorem getElem?_words_header (p : Program) (opts opts' : ModuleOptions) {j : Nat}
    (hgiven : j ∉ [1, 2, 3])
    (hsize : opts.legacyDataSize = opts'.legacyDataSize ∨ j ∉ [5, 6, 8]) :
    (p.header opts).words[j]? = (p.header opts').words[j]? := by
  match j, hgiven, hsize with
  | 0, _, _ | 4, _, _ | 7, _, _ | 9, _, _ => rfl
  | 1, hgiven, _ | 2, hgiven, _ | 3, hgiven, _ => exact absurd (by decide) hgiven
  | 5, _, .inl h | 6, _, .inl h | 8, _, .inl h =>
    simp only [header, Header.words, codeSection, jumpSection, dataSection, Section.stop, h]
    rfl
  | 5, _, .inr h | 6, _, .inr h | 8, _, .inr h => exact absurd (by decide) h
  | _ + 10, _, _ => rfl

/-- Modules of a program differ in the words that are given, and in places and sizes that count the
ends of texts. -/
theorem getElem?_package (p : Program) (opts opts' : ModuleOptions) {k : Nat}
    (hgiven : k / 8 ∉ [1, 2, 3])
    (hsize : opts.legacyDataSize = opts'.legacyDataSize ∨ k / 8 ∉ [5, 6, 8]) :
    (p.package opts)[k]? = (p.package opts')[k]? := by
  have hlength (opts : ModuleOptions) :
      ((p.header opts).words.flatMap p.order.write64).length = 80 :=
    ByteOrder.length_flatMap_write64 p.order _
  have hfront (opts : ModuleOptions) (hk : k < 80) : (p.package opts)[k]? =
      (p.header opts).words[k / 8]?.bind fun w => (p.order.write64 w)[k % 8]? := by
    rw [package, List.append_assoc, List.append_assoc, List.getElem?_append_left (by rwa [hlength]),
      ByteOrder.getElem?_flatMap_write64]
  have hback (opts : ModuleOptions) (hk : 80 ≤ k) : (p.package opts)[k]? =
      (dataBytes p.data ++ (jumpBytes p.order p.jumps ++ p.code))[k - 80]? := by
    rw [package, List.append_assoc, List.append_assoc,
      List.getElem?_append_right (by rwa [hlength]), hlength]
  rcases Nat.lt_or_ge k 80 with hk | hk
  · rw [hfront opts hk, hfront opts' hk, getElem?_words_header p opts opts' hgiven hsize]
  · rw [hback opts hk, hback opts' hk]

end Program

open Script

theorem compile_error_congr {source : Bytes} {opts : CompileOptions} {e : CompileError}
    (h : compile source opts = .error e) (opts' : CompileOptions) :
    compile source opts' = .error e := by
  apply Result.bind_eq_error_iff.mpr
  rcases Result.bind_eq_error_iff.mp h with hunits | ⟨us, hus, h⟩
  · exact .inl hunits
  · refine .inr ⟨us, hus, Result.bind_eq_error_iff.mpr ?_⟩
    rcases Result.bind_eq_error_iff.mp h with hread | ⟨is, his, h⟩
    · exact .inl hread
    · refine .inr ⟨is, his, Result.bind_eq_error_iff.mpr ?_⟩
      rcases Result.bind_eq_error_iff.mp h with hassemble | ⟨p, -, h⟩
      · obtain ⟨fault, hfault, rfl⟩ := Result.mapError_eq_error_iff.mp hassemble
        refine .inl (Result.mapError_eq_error_iff.mpr ⟨fault, ?_, rfl⟩)
        exact Program.foldlM_add_eq_error_iff.mpr (Program.foldlM_add_eq_error_iff.mp hfault)
      · cases h

section

variable {source : Bytes} {opts opts' : CompileOptions} {c c' : Compilation}
  (hc : compile source opts = .ok c) (hc' : compile source opts' = .ok c')

include hc hc'

theorem instructions_congr : c.instructions = c'.instructions := by
  obtain ⟨hus, his, -, -⟩ := compile_eq_ok_iff.mp hc
  obtain ⟨hus', his', -, -⟩ := compile_eq_ok_iff.mp hc'
  rw [hus] at hus'
  rw [← Except.ok.inj hus', his] at his'
  exact Except.ok.inj his'

theorem exists_assemble_compiled :
    ∃ is, (∀ i ∈ is, i.PlainMode) ∧ Program.assemble opts.order is = .ok c.program ∧
      Program.assemble opts'.order is = .ok c'.program := by
  obtain ⟨-, his, hp, -⟩ := compile_eq_ok_iff.mp hc
  obtain ⟨-, -, hp', -⟩ := compile_eq_ok_iff.mp hc'
  rw [← instructions_congr hc hc'] at hp'
  refine ⟨c.instructions, ?_, hp, hp'⟩
  intro i hi
  exact ((standsIn_of_mem_instructions his).2 i hi).plainMode

theorem length_binary_congr : c.binary.length = c'.binary.length := by
  obtain ⟨is, hmodes, hp, hp'⟩ := exists_assemble_compiled hc hc'
  obtain ⟨fs, hcode, hcode'⟩ := Program.exists_frames hp hp' hmodes
  obtain ⟨-, -, -, hbinary⟩ := compile_eq_ok_iff.mp hc
  obtain ⟨-, -, -, hbinary'⟩ := compile_eq_ok_iff.mp hc'
  have hlength : c.program.code.length = c'.program.code.length := by
    simp only [hcode, hcode', List.length_flatMap, Frame.length_bytes]
  rw [← hbinary, ← hbinary', Program.length_package, Program.length_package,
    Program.data_congr hp hp', Program.jumps_assemble hp, Program.jumps_assemble hp', hlength]

theorem program_congr (horder : opts.order.getD .little = opts'.order.getD .little) :
    c.program = c'.program := by
  obtain ⟨is, -, hp, hp'⟩ := exists_assemble_compiled hc hc'
  have hstart : Program.start opts.order = Program.start opts'.order := by
    rw [Program.start, Program.start, horder]
  rw [Program.assemble, hstart] at hp
  exact Except.ok.inj (hp.symm.trans hp')

end

/-- All configurations agree. A script is compiled under each of them or fails with the same error,
the modules have the same length, and what is read from them is the same. In the same byte order
modules differ in the versions and flags, and in the places that the size of the texts decides. -/
theorem compile_configurations (source : Bytes) (opts opts' : CompileOptions) :
    ((∃ c, compile source opts = .ok c) ↔ ∃ c', compile source opts' = .ok c') ∧
    (∀ e, compile source opts = .error e ↔ compile source opts' = .error e) ∧
    ∀ c c', compile source opts = .ok c → compile source opts' = .ok c' →
      c.binary.length = c'.binary.length ∧
      (c.binary.length < 2 ^ 64 → ∃ m m' entries,
        Module.decode c.binary ⟨some (opts.order.getD .little), opts.legacyDataSize⟩ = .ok m ∧
        Module.decode c'.binary ⟨some (opts'.order.getD .little), opts'.legacyDataSize⟩ = .ok m' ∧
        m.data = m'.data ∧ m.jumps = m'.jumps ∧
        m.disassemble = .ok entries ∧ m'.disassemble = .ok entries) ∧
      (opts.order.getD .little = opts'.order.getD .little →
        ∀ k, c.binary[k]? ≠ c'.binary[k]? →
          (8 ≤ k ∧ k < 32) ∨ opts.legacyDataSize ≠ opts'.legacyDataSize ∧
            ((40 ≤ k ∧ k < 56) ∨ (64 ≤ k ∧ k < 72))) := by
  have herror (e : CompileError) :
      compile source opts = .error e ↔ compile source opts' = .error e :=
    ⟨fun h => compile_error_congr h opts', fun h => compile_error_congr h opts⟩
  refine ⟨?_, herror, ?_⟩
  · cases h : compile source opts with
    | error e => rw [(herror e).mp h]
    | ok c =>
      cases h' : compile source opts' with
      | error e =>
        rw [(herror e).mpr h'] at h
        cases h
      | ok c' => exact iff_of_true ⟨c, rfl⟩ ⟨c', rfl⟩
  · intro c c' hc hc'
    have hlength := length_binary_congr hc hc'
    obtain ⟨is, hmodes, hp, hp'⟩ := exists_assemble_compiled hc hc'
    refine ⟨hlength, ?_, ?_⟩
    · intro hsize
      have hdecode := decode_compiled hc hsize
      have hdecode' := decode_compiled hc' (hlength ▸ hsize)
      obtain ⟨fs, hcode, hcode'⟩ := Program.exists_frames hp hp' hmodes
      have hdata := Program.data_congr hp hp'
      rw [Program.order_assemble hp] at hdecode
      rw [Program.order_assemble hp'] at hdecode'
      refine ⟨_, _, Frame.entries c.program.data 0 fs, hdecode, hdecode', hdata, ?_, ?_, ?_⟩
      · exact (Program.jumps_assemble hp).trans (Program.jumps_assemble hp').symm
      · rw [Module.disassemble, Program.packaged, hcode]
        exact Frame.entriesFrom_flatMap fs
      · rw [Module.disassemble, Program.packaged, hcode', hdata]
        exact Frame.entriesFrom_flatMap fs
    · intro horder k hdiffer
      obtain ⟨-, -, -, hbinary⟩ := compile_eq_ok_iff.mp hc
      obtain ⟨-, -, -, hbinary'⟩ := compile_eq_ok_iff.mp hc'
      by_contra hplace
      rw [← hbinary, ← hbinary', program_congr hc hc' horder] at hdiffer
      apply hdiffer
      apply Program.getElem?_package
      · intro hword
        apply hplace
        simp only [List.mem_cons, List.not_mem_nil, or_false] at hword
        omega
      · by_cases hlegacy : opts.legacyDataSize = opts'.legacyDataSize
        · exact .inl hlegacy
        · right
          intro hword
          apply hplace
          simp only [List.mem_cons, List.not_mem_nil, or_false] at hword
          exact .inr ⟨hlegacy, by omega⟩

/-- A script with a text that occurs in a pack, and a call. -/
def duet : Bytes :=
  Text.utf8 "[Ann, Bob]\n\"Hi\" @wave(left, \"up\") $go(on)"

theorem compile_configurations_duet :
    ∃ c c', compile duet {} = .ok c ∧
      compile duet { order := some .big, version := 7, legacyDataSize := true } = .ok c' ∧
      c.binary ≠ c'.binary ∧ c.binary.length = c'.binary.length ∧
      ∃ m m' entries, Module.decode c.binary ⟨some .little, false⟩ = .ok m ∧
        Module.decode c'.binary ⟨some .big, true⟩ = .ok m' ∧ m.data = m'.data ∧
        m.jumps = m'.jumps ∧ m.disassemble = .ok entries ∧ m'.disassemble = .ok entries := by
  obtain ⟨c, hc⟩ : ∃ c, compile duet {} = .ok c := Result.exists_eq_ok (by decide +kernel)
  obtain ⟨c', hc'⟩ : ∃ c', compile duet
      { order := some .big, version := 7, legacyDataSize := true } = .ok c' :=
    Result.exists_eq_ok (by decide +kernel)
  have hdiffer : (compile duet {}).map Compilation.binary ≠ (compile duet
      { order := some .big, version := 7, legacyDataSize := true }).map Compilation.binary := by
    decide +kernel
  have hsize : (compile duet {}).map (fun c => c.binary.length) = .ok 163 := by decide +kernel
  rw [hc] at hdiffer hsize
  rw [hc'] at hdiffer
  have hlength : c.binary.length = 163 := Except.ok.inj hsize
  obtain ⟨-, -, hagree⟩ := compile_configurations duet {}
    { order := some .big, version := 7, legacyDataSize := true }
  obtain ⟨hequal, hread, -⟩ := hagree c c' hc hc'
  refine ⟨c, c', hc, hc', ?_, hequal, hread (by omega)⟩
  intro hbinary
  exact hdiffer (congrArg Except.ok hbinary)

end Dialogue
