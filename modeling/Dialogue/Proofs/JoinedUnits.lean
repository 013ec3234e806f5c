import Dialogue.Compile
import Dialogue.Proofs.CodePoints
import Dialogue.Proofs.UnitPlaces
import Dialogue.Proofs.UnitScan

/-!
# Layout

A source and the text that has each of its units on a line of its own have the same units, and what
a script is compiled to depends on the texts of its units only.
-/

namespace Dialogue

namespace Text

theorem encode_intercalate (sep : List Char) (parts : List (List Char)) :
    encode (sep.intercalate parts) = (encode sep).intercalate (parts.map encode) := by
  induction parts with
  | nil => rfl
  | cons part parts ih =>
    cases parts with
    | nil => rw [List.map_singleton, List.intercalate_singleton, List.intercalate_singleton]
    | cons next parts =>
      rw [List.intercalate_cons_cons, encode_append, encode_append, ih]
      exact List.intercalate_cons_cons.symm

end Text

namespace Script

namespace LexUnit

/-- The texts of units, each on a line of its own. -/
def join (us : List LexUnit) : Bytes :=
  (Text.utf8 "\n").intercalate (us.map text)

theorem scan_newline (prev : Option Char) (pos : Position) (cs : List Char) :
    scan 0 prev pos ('\n' :: cs) = scan 0 (some '\n') (pos.advance '\n') cs := by
  refine scan_gap ?_ pos
  rw [lengthAt?_cons (by decide), if_neg (by decide), if_neg (by decide)]

theorem map_text_scan_intercalate {us : List (List Char)} (hus : ∀ u ∈ us, UnitAt none u [])
    {prev : Option Char} (hprev : prev ≠ some '\\') (pos : Position) :
    (scan 0 prev pos (['\n'].intercalate us)).map text = us.map Text.encode := by
  induction us generalizing prev pos with
  | nil => rfl
  | cons u us ih =>
    obtain ⟨hu, hus⟩ := List.forall_mem_cons.mp hus
    cases us with
    | nil =>
      have hunit : UnitAt prev u [] := hu.congr hprev fun d hd => by cases hd
      have hscan := scan_unit hunit pos
      rw [List.append_nil] at hscan
      rw [List.intercalate_singleton, hscan]
      rfl
    | cons next us =>
      have hunit (cs : List Char) : UnitAt prev u ('\n' :: cs) :=
        hu.congr hprev fun d hd => (Option.mem_some.mp hd).symm
      rw [List.intercalate_cons_cons, List.append_assoc, List.singleton_append, scan_unit (hunit _),
        scan_newline, List.map_cons, ih hus (by decide)]
      rfl

/-- The text of a unit is a unit by itself. -/
theorem unitAt_of_mem_scan (prev : Option Char) (pos : Position) (cs : List Char) :
    ∀ v ∈ scan 0 prev pos cs, ∃ u, v.text = Text.encode u ∧ UnitAt none u [] := by
  intro v hv
  obtain ⟨before, u, rest, last, -, hunit, rfl⟩ := exists_of_mem_scan prev pos cs v hv
  refine ⟨u, rfl, hunit.congr (by decide) ?_⟩
  intro d hd
  cases hd

theorem exists_ofSource_join {source : Bytes} {us : List LexUnit} (h : ofSource source = .ok us) :
    ∃ vs, ofSource (join us) = .ok vs ∧ vs.map text = us.map text := by
  obtain ⟨hscan, hne⟩ := ofSource_eq_ok_iff.mp h
  have hunits : ∀ v ∈ us, ∃ u, v.text = Text.encode u ∧ UnitAt none u [] := by
    rw [← hscan]
    exact unitAt_of_mem_scan none {} _
  have hencode : (us.map fun v => Text.decode v.text).map Text.encode = us.map text := by
    rw [List.map_map]
    refine List.map_congr_left ?_
    intro v hv
    obtain ⟨u, hu, -⟩ := hunits v hv
    rw [Function.comp_apply, hu, Text.decode_encode]
  have hjoin :
      join us = Text.encode (['\n'].intercalate (us.map fun v => Text.decode v.text)) := by
    rw [Text.encode_intercalate, hencode]
    rfl
  have htexts : (scan 0 none {} (Text.decode (join us))).map text = us.map text := by
    rw [hjoin, Text.decode_encode, map_text_scan_intercalate _ (by decide), hencode]
    intro u hu
    obtain ⟨v, hv, rfl⟩ := List.mem_map.mp hu
    obtain ⟨u, hu, hunit⟩ := hunits v hv
    rw [hu, Text.decode_encode]
    exact hunit
  refine ⟨_, ofSource_eq_ok_iff.mpr ⟨rfl, ?_⟩, htexts⟩
  intro hnil
  rw [hnil] at htexts
  exact hne (List.map_eq_nil_iff.mp htexts.symm)

theorem map_moved_nowhere (us : List LexUnit) :
    us.map (moved nowhere) = (us.map text).map fun t => { text := t, line := 0, col := 0 } := by
  rw [List.map_map]
  rfl

end LexUnit

end Script

open Script

/-- Whether two scripts are compiled alike, but for the places of their instructions and errors. -/
inductive SameOutcome : (r r' : Except CompileError Compilation) → Prop
  | compiled {c c' : Compilation} (hdata : c.program.data = c'.program.data)
      (hcode : c.program.code = c'.program.code) (hbinary : c.binary = c'.binary)
      (hinstructions : c.instructions.map (Instruction.moved nowhere) =
        c'.instructions.map (Instruction.moved nowhere)) :
    SameOutcome (.ok c) (.ok c')
  | rejected {d d' : Diagnostic} (hfault : d.fault = d'.fault) (hunit : d.unit = d'.unit) :
    SameOutcome (.error (.script d)) (.error (.script d'))
  | unencodable {e e' : EncodeError} (hop : e.op = e'.op) (hfault : e.fault = e'.fault) :
    SameOutcome (.error (.encode e)) (.error (.encode e'))

/-- Compiling from the instructions on. -/
def compileInstructions (us : List LexUnit) (is : List Instruction) (opts : CompileOptions) :
    Except CompileError Compilation :=
  ((Program.assemble opts.order is).mapError .encode).map fun p =>
    { units := us, instructions := is, program := p, binary := p.package opts.toModuleOptions }

theorem compile_of_units {source : Bytes} {us : List LexUnit} (h : LexUnit.ofSource source = .ok us)
    (opts : CompileOptions) :
    compile source opts =
      (instructions us).mapError .script >>= fun is => compileInstructions us is opts := by
  rw [compile, h]
  rfl

theorem sameOutcome_of_instructions {us us' : List LexUnit} {is is' : List Instruction}
    (h : is.map (Instruction.moved nowhere) = is'.map (Instruction.moved nowhere))
    (opts : CompileOptions) :
    SameOutcome (compileInstructions us is opts) (compileInstructions us' is' opts) := by
  have hassemble := Program.assemble_nowhere opts.order is
  rw [h, Program.assemble_nowhere, Result.map_mapError_eq_iff] at hassemble
  rw [compileInstructions, compileInstructions]
  rcases hassemble with ⟨p', p, hp', hp, heq⟩ | ⟨e', e, he', he, heq⟩
  · rw [hp, hp']
    have hbinary := congrArg (Program.package · opts.toModuleOptions) heq.symm
    exact .compiled (congrArg Program.data heq).symm (congrArg Program.code heq).symm hbinary h
  · rw [he, he']
    exact .unencodable (congrArg EncodeError.op heq).symm (congrArg EncodeError.fault heq).symm

/-- What a script is compiled to depends on the texts of its units only. -/
theorem sameOutcome_of_texts {source source' : Bytes} {us us' : List LexUnit}
    (h : LexUnit.ofSource source = .ok us) (h' : LexUnit.ofSource source' = .ok us')
    (htexts : us.map LexUnit.text = us'.map LexUnit.text) (opts : CompileOptions) :
    SameOutcome (compile source opts) (compile source' opts) := by
  have hmoved : us.map (LexUnit.moved nowhere) = us'.map (LexUnit.moved nowhere) := by
    rw [LexUnit.map_moved_nowhere, LexUnit.map_moved_nowhere, htexts]
  have hread := instructions_moved nowhere rfl us
  rw [hmoved, instructions_moved nowhere rfl us', Result.map_mapError_eq_iff] at hread
  rw [compile_of_units h, compile_of_units h']
  rcases hread with ⟨is', is, his', his, heq⟩ | ⟨d', d, hd', hd, heq⟩
  · rw [his, his']
    exact sameOutcome_of_instructions heq.symm opts
  · rw [hd, hd']
    exact .rejected (congrArg Diagnostic.fault heq).symm (congrArg Diagnostic.unit heq).symm

/-- The layout of a script does not matter: a script and the text that has its units one below the
other have the same units and are compiled alike. -/
theorem compile_join_units (source : Bytes) (us : List LexUnit) (opts : CompileOptions)
    (h : LexUnit.ofSource source = .ok us) :
    ∃ vs, LexUnit.ofSource (LexUnit.join us) = .ok vs ∧
      vs.map LexUnit.text = us.map LexUnit.text ∧
      SameOutcome (compile (LexUnit.join us) opts) (compile source opts) := by
  obtain ⟨vs, hvs, htexts⟩ := LexUnit.exists_ofSource_join h
  exact ⟨vs, hvs, htexts, sameOutcome_of_texts hvs h htexts opts⟩

/-- A script on one line, with a string next to a word. -/
def crowded : Bytes :=
  Text.utf8 "[Ann]\"Hi\"@wave(left, \"up\") // hello"

theorem compile_join_units_crowded :
    ∃ us, LexUnit.ofSource crowded = .ok us ∧
      LexUnit.join us = Text.utf8 "[Ann]\n\"Hi\"\n@wave\n(left, \"up\")\n// hello" ∧
      ∃ vs, LexUnit.ofSource (LexUnit.join us) = .ok vs ∧
        vs.map LexUnit.text = us.map LexUnit.text ∧
        SameOutcome (compile (LexUnit.join us) {}) (compile crowded {}) := by
  obtain ⟨us, hus⟩ : ∃ us, LexUnit.ofSource crowded = .ok us :=
    Result.exists_eq_ok (by decide +kernel)
  have hjoin : (LexUnit.ofSource crowded).map LexUnit.join =
      .ok (Text.utf8 "[Ann]\n\"Hi\"\n@wave\n(left, \"up\")\n// hello") := by
    decide +kernel
  rw [hus] at hjoin
  exact ⟨us, hus, Except.ok.inj hjoin, compile_join_units crowded us {} hus⟩

end Dialogue
