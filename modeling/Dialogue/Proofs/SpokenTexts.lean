import Dialogue.Proofs.CompiledModules
import Dialogue.Proofs.InstructionFrames
import Dialogue.Proofs.ParamTrees

/-!
# Texts that are spoken

A script that is nothing but a string has one unit and one instruction, a line that says the text of
the string. Every text without zero bytes is the text of a string, so that every such text can be
said.
-/

namespace Dialogue

namespace Script

theorem LexUnit.ofSource_quote (capital : Bool) (text : List Char) :
    ofSource (Text.encode (Literal.quote capital text)) =
      .ok [ofChars {} (Literal.quote capital text)] := by
  have hunit : UnitAt none (Literal.quote capital text) [] :=
    .quoted _ [] (by simp) (Literal.quotedBody_write capital text)
  have hscan := scan_unit hunit {}
  rw [List.append_nil] at hscan
  refine ofSource_eq_ok_iff.mpr ⟨?_, List.cons_ne_nil _ _⟩
  rw [Text.decode_encode, hscan, scan]

/-- A string stands for a line. -/
theorem instructions_string {u : LexUnit} {text : Bytes}
    (hstarts : u.trimmed.startsWith 0x22 = true)
    (hread : Literal.read u.trimmed.text = .ok text) :
    instructions [u] =
      .ok [{ op := Operation.line.code, params := [.text text], line := u.line, col := u.col }]
    := by
  obtain ⟨rest, hrest⟩ := LexUnit.startsWith_iff.mp hstarts
  have hliteral : u.trimmed.literal = .ok text := Result.mapError_eq_ok_iff.mpr hread
  have hline : u.trimmed.read none =
      .ok (.alone { op := Operation.line.code, params := [.text text] }) := by
    rw [LexUnit.read, hrest]
    change u.trimmed.literal >>= _ = _
    rw [hliteral]
    rfl
  apply instructions_eq_ok_iff.mpr
  refine ⟨?_, List.cons_ne_nil _ _⟩
  apply readUnits_cons_eq_ok_iff.mpr
  exact ⟨_, hline, [], rfl, rfl⟩

end Script

theorem Program.data_assemble_line {order : Option ByteOrder} {text : Bytes} {line col : Int}
    {p : Program}
    (h : assemble order [{ op := Operation.line.code, params := [.text text], line, col }] = .ok p)
    :
    p.data = [Text.utf8 "false", Text.utf8 "true", text] := by
  obtain ⟨ss, hss, hp⟩ := foldlM_add_cons_eq_ok_iff.mp h
  cases Instruction.stepsOf_of_steps .line rfl hss
  cases Result.pure_eq_ok_iff.mp hp
  rw [data_run, data_mark]
  rfl

open Script

/-- Every text can be said: the string that is written for it is a script with one unit, which is
the string, and one line. -/
theorem compile_spoken_text (capital : Bool) (text : SpokenText) (opts : CompileOptions) :
    ∃ c, compile (Text.encode (Literal.quote capital text.chars)) opts = .ok c ∧
      c.units =
        [{ text := Text.encode (Literal.quote capital text.chars), offset := 0, line := 1,
           col := 1 }] ∧
      c.instructions =
        [{ op := Operation.line.code, params := [.text (Text.encode text.chars)], line := 1,
           col := 1 }] ∧
      c.program.data = [Text.utf8 "false", Text.utf8 "true", Text.encode text.chars] := by
  have hunits := LexUnit.ofSource_quote capital text.chars
  have hends : LexUnit.HasBareEnds (Literal.quote capital text.chars) :=
    LexUnit.hasBareEnds_between _ rfl rfl
  have htrim := hends.trim_encode
  have hstarts : (LexUnit.ofChars {} (Literal.quote capital text.chars)).trimmed.startsWith 0x22 =
      true := by
    apply LexUnit.startsWith_iff.mpr
    exact ⟨_, htrim.trans (Literal.encode_quote capital text.chars)⟩
  have hread : Literal.read (LexUnit.ofChars {} (Literal.quote capital text.chars)).trimmed.text =
      .ok (Text.encode text.chars) := by
    have hquote := Literal.read_quote capital text.nul_notMem
    rwa [← htrim] at hquote
  have his := instructions_string hstarts hread
  have hnul : 0 ∉ Text.encode text.chars :=
    mt (Text.mem_encode_iff (b := 0) (by decide) text.chars).mp text.nul_notMem
  obtain ⟨c, hc, hus, hsame⟩ := exists_compile hunits his opts (by simpa using hnul)
  obtain ⟨-, -, hp, -⟩ := compile_eq_ok_iff.mp hc
  rw [hsame] at hp
  exact ⟨c, hc, hus, hsame, Program.data_assemble_line hp⟩

end Dialogue
