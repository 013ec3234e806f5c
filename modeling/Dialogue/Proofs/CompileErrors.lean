import Dialogue.Proofs.ErrorPlaces
import Dialogue.Proofs.GuardedCompile

/-!
# Errors of scripts

Compiling comes to an end without a look-up that fails, and an error of a script points at one of
its units: line and column are those of the unit, and the excerpt shows the line that the unit
starts on. The text in the error is that of the unit without white space at its ends. It is the
whole text, unless the unit is a comment.
-/

namespace Dialogue

namespace Script

/-- An excerpt that shows a line by its number, with a caret under a column of it. -/
def Diagnostic.excerptAt (d : Diagnostic) (lines : List Bytes) (n m : Nat) (text : Bytes) : Bytes :=
  d.message ++ Text.utf8 "\n\n" ++ numberedLine lines n
    ++ (Text.utf8 (lineNumber (n + 1) ++ " | ") ++ text ++ Text.utf8 "\n")
    ++ caretLine (m + 1) ++ numberedLine lines (n + 2)

theorem snippet?_of_getElem? {d : Diagnostic} {source text : Bytes} {n m : Nat}
    (hline : d.line = n + 1) (hcol : d.col = m + 1)
    (htext : (source.splitOn 0x0A)[n]? = some text) :
    (Failure.diagnostic d).snippet? source =
      some (d.excerptAt (source.splitOn 0x0A) n m text) := by
  have hlength := (List.getElem?_eq_some_iff.mp htext).1
  have hmin : min d.line.toNat (source.splitOn 0x0A).length = n + 1 := by omega
  have hmax : max d.col.toNat 1 = m + 1 := by omega
  have hhere : numberedLine (source.splitOn 0x0A) (n + 1) =
      Text.utf8 (lineNumber (n + 1) ++ " | ") ++ text ++ Text.utf8 "\n" := by
    rw [numberedLine, htext]
  rw [Failure.snippet?]
  dsimp only [Failure.diagnostic?]
  rw [if_neg (by omega), Diagnostic.excerpt?, if_neg (by omega)]
  dsimp only
  rw [hmin, hmax, hhere]
  rfl

/-- What an error says about the unit it is about. The line with number `n`, counted from zero, has
the text `text`, and the unit starts with its character `c` at column `m`. -/
structure Diagnostic.PointsAt (d : Diagnostic) (source : Bytes) (u : LexUnit) (n m : Nat)
    (text : Bytes) (c : Char) : Prop where
  kind : d.fault.kind = .grammar ∨ d.fault.kind = .parameter
  line : d.line = u.line
  col : d.col = u.col
  unit : d.unit = Text.trim u.text
  whole : d.unit = u.text ∨ Text.utf8 "//" <+: u.text
  line_eq : d.line = n + 1
  col_eq : d.col = m + 1
  text_eq : (source.splitOn 0x0A)[n]? = some text
  char_eq : (Text.decode text)[m]? = some c
  starts : (Text.decode d.unit).head? = some c
  snippet : (Failure.diagnostic d).snippet? source =
    some (d.excerptAt (source.splitOn 0x0A) n m text)

theorem exists_pointsAt {source : Bytes} {us : List LexUnit} {u : LexUnit} {d : Diagnostic}
    (hus : LexUnit.ofSource source = .ok us) (hu : u ∈ us) (h : d.Blames u.trimmed) :
    ∃ n m text c, d.PointsAt source u n m text c := by
  obtain ⟨hkind, hd⟩ := h
  obtain ⟨n, m, text, c, hline, hcol, htext, hc, hstarts⟩ := LexUnit.exists_line hus hu
  have hunit : d.unit = Text.trim u.text := congrArg Diagnostic.unit hd
  have hdline : d.line = u.line := congrArg Diagnostic.line hd
  have hdcol : d.col = u.col := congrArg Diagnostic.col hd
  have hwhole : Text.trim u.text = u.text ∨ Text.utf8 "//" <+: u.text := by
    obtain ⟨hscan, -⟩ := LexUnit.ofSource_eq_ok_iff.mp hus
    rw [← hscan] at hu
    obtain ⟨before, cs, rest, prev, -, hunitAt, rfl⟩ := LexUnit.exists_of_mem_scan none {} _ u hu
    exact hunitAt.trim_encode.2
  exact ⟨n, m, text, c, {
    kind := hkind
    line := hdline
    col := hdcol
    unit := hunit
    whole := hunit ▸ hwhole
    line_eq := hdline.trans hline
    col_eq := hdcol.trans hcol
    text_eq := htext
    char_eq := hc
    starts := hunit ▸ hstarts
    snippet := snippet?_of_getElem? (hdline.trans hline) (hdcol.trans hcol) htext }⟩

end Script

open Script

/-- Compiling never looks for something that is not there, and an error in a script is about the
whole of it or points at one of its units. -/
theorem compile_error_points (source : Bytes) (opts : CompileOptions) :
    (Guarded.compile source opts).run = some (compile source opts) ∧
    ∀ d, compile source opts = .error (.script d) →
      Guarded.snippet d source = (Failure.diagnostic d).snippet? source ∧
      ((d.line = 0 ∧ (d.fault.kind = .lexical ∨ d.fault.kind = .emptyProgram) ∧
          (Failure.diagnostic d).snippet? source = some d.message) ∨
        ∃ us u n m text c, LexUnit.ofSource source = .ok us ∧ u ∈ us ∧
          d.PointsAt source u n m text c) := by
  refine ⟨Guarded.run_compile source opts, ?_⟩
  intro d h
  refine ⟨Guarded.snippet_eq d source, ?_⟩
  rcases error_cases h with rfl | rfl | ⟨us, u, hus, hu, hblames⟩
  · exact .inl ⟨rfl, .inl rfl, rfl⟩
  · exact .inl ⟨rfl, .inr rfl, rfl⟩
  · obtain ⟨n, m, text, c, hpoints⟩ := exists_pointsAt hus hu hblames
    exact .inr ⟨us, u, n, m, text, c, hus, hu, hpoints⟩

/-- A named call on the second line with a number for its argument. -/
def misused : Bytes :=
  Text.utf8 "[Ann]\n  $go 12"

theorem compile_error_points_misused :
    ∃ d, compile misused {} = .error (.script d) ∧ d.line = 2 ∧ d.col = 7 ∧
      ∃ us u n m text c, LexUnit.ofSource misused = .ok us ∧ u ∈ us ∧
        d.PointsAt misused u n m text c := by
  let d : Diagnostic :=
    { fault := .badArgument (Text.utf8 "go"), line := 2, col := 7, unit := Text.utf8 "12" }
  have hd : compile misused {} = .error (.script d) := by decide +kernel
  obtain ⟨-, hpoints⟩ := compile_error_points misused {}
  rcases (hpoints d hd).2 with ⟨hzero, -⟩ | hunit
  · exact absurd hzero (by decide)
  · exact ⟨d, hd, rfl, rfl, hunit⟩

/-- A named call in front of a comment that ends with white space. -/
def commented : Bytes :=
  Text.utf8 "$a // b "

/-- The text in an error need not be that of a unit. -/
theorem unit_of_error_trimmed :
    ∃ d us, compile commented {} = .error (.script d) ∧ LexUnit.ofSource commented = .ok us ∧
      d.line ≠ 0 ∧ ¬ ∃ u ∈ us, (u.line, u.col, u.text) = (d.line, d.col, d.unit) := by
  refine ⟨{ fault := .badArgument (Text.utf8 "a"), line := 1, col := 4, unit := Text.utf8 "// b" },
    [{ text := Text.utf8 "$a", offset := 0, line := 1, col := 1 },
      { text := Text.utf8 "// b ", offset := 3, line := 1, col := 4 }], ?_, ?_, ?_, ?_⟩
  · decide +kernel
  · decide +kernel
  · decide
  · decide +kernel

end Dialogue
