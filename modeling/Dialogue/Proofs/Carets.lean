import Dialogue.Proofs.CompileErrors

/-!
# Carets

An excerpt shows a line of the source behind its number, and below it a row with a caret. Numbers
take four places, and as many as they have digits if these are more. The row with the caret always
leaves out four, so the caret stands under its column exactly up to line 9999.
-/

namespace Dialogue

namespace Text

theorem decode_encode_append (cs : List Char) (rest : Bytes) :
    decode (encode cs ++ rest) = cs ++ decode rest := by
  rw [decode, glyphs_encode_append, List.map_append, List.map_map]
  exact congrArg (· ++ decode rest) (List.map_id cs)

theorem replicate_space (m : Nat) : List.replicate m 0x20 = encode (List.replicate m ' ') := by
  induction m with
  | zero => rfl
  | succ m ih =>
    rw [List.replicate_succ, List.replicate_succ, encode, List.flatMap_cons, ih]
    rfl

theorem splitOn_replicate_append {α : Type} [DecidableEq α] (sep : α) (k : Nat) (rest : List α) :
    (List.replicate k sep ++ rest).splitOn sep =
      List.replicate k [] ++ rest.splitOn sep := by
  induction k with
  | zero => rfl
  | succ k ih =>
    rw [List.replicate_succ, List.cons_append, List.splitOn_cons_eq_if_modifyHead,
      if_pos (beq_self_eq_true sep), ih]
    rfl

end Text

namespace Script

/-! ## Rows -/

/-- A line of the source behind its number. -/
def shownRow (n : Nat) (text : Bytes) : Bytes :=
  Text.utf8 (lineNumber n ++ " | ") ++ text

/-- A row that is blank up to the caret. -/
def caretRow (col : Nat) : Bytes :=
  Text.utf8 "     | " ++ List.replicate (col - 1) 0x20 ++ Text.utf8 "^"

/-- Rows one below the other. -/
def stack (rows : List Bytes) : Bytes :=
  rows.flatMap (· ++ [0x0A])

/-- The rows of an excerpt for the line `text` and the lines before and after it. -/
def excerptRows (before : List Bytes) (text : Bytes) (after : List Bytes) (col : Nat) :
    List Bytes :=
  before.getLast?.toList.map (shownRow before.length) ++
    [shownRow (before.length + 1) text, caretRow col] ++
    after.head?.toList.map (shownRow (before.length + 2))

theorem numberedLine_succ (lines : List Bytes) (i : Nat) :
    numberedLine lines (i + 1) = stack (lines[i]?.toList.map (shownRow (i + 1))) := by
  rw [numberedLine]
  cases lines[i]? with
  | none => rfl
  | some text => exact (List.append_nil _).symm

theorem numberedLine_before (before rest : List Bytes) :
    numberedLine (before ++ rest) before.length =
      stack (before.getLast?.toList.map (shownRow before.length)) := by
  induction before using List.reverseRecOn with
  | nil => rfl
  | append_singleton before last _ =>
    rw [List.length_append, List.length_singleton, numberedLine_succ, List.append_assoc,
      List.getElem?_append_right (Nat.le_refl _), Nat.sub_self, List.getLast?_concat]
    rfl

theorem numberedLine_after (before : List Bytes) (text : Bytes) (after : List Bytes) :
    numberedLine (before ++ text :: after) (before.length + 2) =
      stack (after.head?.toList.map (shownRow (before.length + 2))) := by
  rw [numberedLine_succ, List.getElem?_append_right (Nat.le_add_right _ _),
    Nat.add_sub_cancel_left, List.getElem?_cons_succ, List.head?_eq_getElem?]

theorem excerptAt_eq_stack (d : Diagnostic) (before : List Bytes) (text : Bytes)
    (after : List Bytes) (m : Nat) :
    d.excerptAt (before ++ text :: after) before.length m text =
      stack (d.message :: [] :: excerptRows before text after (m + 1)) := by
  rw [Diagnostic.excerptAt, numberedLine_before, numberedLine_after]
  simp only [stack, excerptRows, caretLine, caretRow, shownRow, List.flatMap_cons,
    List.flatMap_append, List.flatMap_nil, List.append_assoc]
  rfl

/-- Where the error stands in a failure makes no difference to the excerpt. -/
theorem Failure.snippet?_of_diagnostic? {e : Failure} {d : Diagnostic}
    (hd : e.diagnostic? = some d) (hline : d.line ≠ 0) (source : Bytes) :
    e.snippet? source = (Failure.diagnostic d).snippet? source := by
  rw [snippet?, hd, snippet?]
  dsimp only [diagnostic?]
  rw [if_neg hline, if_neg hline]

theorem snippet?_eq_stack {e : Failure} {d : Diagnostic} {source text : Bytes}
    {before after : List Bytes} {m : Nat} (hd : e.diagnostic? = some d)
    (hlines : source.splitOn 0x0A = before ++ text :: after)
    (hline : d.line = before.length + 1) (hcol : d.col = m + 1) :
    e.snippet? source =
      some (stack (d.message :: [] :: excerptRows before text after (m + 1))) := by
  have htext : (source.splitOn 0x0A)[before.length]? = some text := by
    rw [hlines, List.getElem?_append_right (Nat.le_refl _), Nat.sub_self]
    rfl
  rw [Failure.snippet?_of_diagnostic? hd (by omega), snippet?_of_getElem? hline hcol htext, hlines,
    excerptAt_eq_stack]

/-! ## Places in rows -/

/-- Whether a column of the line `text` stands at a place, counted from zero, of the row that shows
the line. -/
def IsColumn (row text : Bytes) (col place : Nat) : Prop :=
  ∃ front, Text.decode row = front ++ Text.decode text ∧ place + 1 = front.length + col

/-- Whether the one caret of a row stands at a place. -/
def IsCaret (row : Bytes) (place : Nat) : Prop :=
  ∀ i, (Text.decode row)[i]? = some '^' ↔ i = place

/-- The number of places that a line number takes. -/
def numberWidth (n : Nat) : Nat :=
  max 4 (Nat.toDigits 10 n).length

theorem length_lineNumber (n : Nat) : (lineNumber n).toList.length = numberWidth n := by
  rw [lineNumber, Numeral.decimal, String.toList_ofList, String.toList_ofList, List.length_append,
    List.length_replicate, numberWidth]
  omega

theorem numberWidth_eq_four_iff (n : Nat) : numberWidth n = 4 ↔ n < 10000 := by
  have hdigits : (Nat.toDigits 10 n).length ≤ 4 ↔ n < 10000 :=
    Nat.length_toDigits_le_iff (by decide) (by decide)
  rw [numberWidth, ← hdigits]
  omega

/-- The line in a row is read as it is read by itself, also if it starts with stray bytes. -/
theorem decode_shownRow (n : Nat) (text : Bytes) :
    Text.decode (shownRow n text) = (lineNumber n ++ " | ").toList ++ Text.decode text :=
  Text.decode_encode_append _ text

theorem isColumn_shownRow (n : Nat) (text : Bytes) (m : Nat) :
    IsColumn (shownRow n text) text (m + 1) (numberWidth n + 3 + m) := by
  refine ⟨_, decode_shownRow n text, ?_⟩
  rw [String.toList_append, List.length_append, length_lineNumber]
  rfl

theorem decode_caretRow (m : Nat) :
    Text.decode (caretRow (m + 1)) = "     | ".toList ++ List.replicate m ' ' ++ ['^'] := by
  rw [caretRow, Nat.add_sub_cancel, Text.replicate_space, Text.utf8, Text.utf8,
    ← Text.encode_append, ← Text.encode_append, Text.decode_encode]
  rfl

theorem isCaret_caretRow (m : Nat) : IsCaret (caretRow (m + 1)) (7 + m) := by
  have hblank : '^' ∉ "     | ".toList ++ List.replicate m ' ' := by
    rw [List.mem_append, not_or]
    refine ⟨by decide, fun hmem => ?_⟩
    cases List.eq_of_mem_replicate hmem
  have hlength : ("     | ".toList ++ List.replicate m ' ').length = 7 + m := by
    rw [List.length_append, List.length_replicate]
    rfl
  intro i
  rw [decode_caretRow, ← hlength]
  constructor
  · intro hi
    by_contra hne
    have hle : i < ("     | ".toList ++ List.replicate m ' ').length := by
      have hlt := (List.getElem?_eq_some_iff.mp hi).1
      rw [List.length_append, List.length_singleton] at hlt
      omega
    rw [List.getElem?_append_left hle] at hi
    exact hblank (List.mem_of_getElem? hi)
  · rintro rfl
    exact List.getElem?_concat_length

/-! ## Excerpts -/

/-- Whether a text shows a diagnostic: the message, an empty row, the line it is about with the
lines next to it, and below the line a row with a caret. Column and caret stand at the given places
of their rows. -/
structure Diagnostic.IsShown (d : Diagnostic) (source shown : Bytes) (before : List Bytes)
    (text : Bytes) (after : List Bytes) (column caret : Nat) : Prop where
  lines : source.splitOn 0x0A = before ++ text :: after
  line : d.line = before.length + 1
  rows : shown = stack (d.message :: [] :: excerptRows before text after d.col.toNat)
  column : IsColumn (shownRow (before.length + 1) text) text d.col.toNat column
  caret : IsCaret (caretRow d.col.toNat) caret

/-- An error with a place is shown with a caret that stands under its column, if the number of the
line is below 10000. It stands to the left of the column by the digits that the number has more
than four otherwise. -/
theorem caret_under_column_iff (source : Bytes) (e : Failure) (d : Diagnostic)
    (hd : e.diagnostic? = some d) (hfirst : 1 ≤ d.line)
    (hlast : d.line ≤ (source.splitOn 0x0A).length) (hcol : 1 ≤ d.col) :
    ∃ shown before text after column caret, e.snippet? source = some shown ∧
      d.IsShown source shown before text after column caret ∧
      column = caret + ((Nat.toDigits 10 d.line.toNat).length - 4) ∧
      (caret = column ↔ d.line < 10000) := by
  obtain ⟨n, hn⟩ : ∃ n : Nat, d.line = n + 1 := ⟨d.line.toNat - 1, by omega⟩
  obtain ⟨m, hm⟩ : ∃ m : Nat, d.col = m + 1 := ⟨d.col.toNat - 1, by omega⟩
  have hline : d.line.toNat = n + 1 := by omega
  have hplace : d.col.toNat = m + 1 := by omega
  have hin : n < (source.splitOn 0x0A).length := by omega
  have hlength : ((source.splitOn 0x0A).take n).length = n := by
    rw [List.length_take, Nat.min_eq_left hin.le]
  have hlines : source.splitOn 0x0A =
      (source.splitOn 0x0A).take n ++
        (source.splitOn 0x0A)[n] :: (source.splitOn 0x0A).drop (n + 1) := by
    rw [← List.drop_eq_getElem_cons hin, List.take_append_drop]
  have hwidth := numberWidth_eq_four_iff (n + 1)
  refine ⟨_, _, _, _, numberWidth (n + 1) + 3 + m, 7 + m,
    snippet?_eq_stack hd hlines (by rw [hlength, hn]) hm, ⟨hlines, ?_, ?_, ?_, ?_⟩, ?_, ?_⟩
  · rw [hlength, hn]
  · rw [hplace]
  · rw [hlength, hplace]
    exact isColumn_shownRow (n + 1) _ m
  · rw [hplace]
    exact isCaret_caretRow m
  · rw [hline, numberWidth]
    omega
  · rw [hn]
    omega

/-- A wait without a duration, behind a stray byte and a character of two bytes. -/
def crooked : Bytes :=
  Text.utf8 "ü\n" ++ [0x80] ++ Text.utf8 "é 'x\n;"

def crookedError : Diagnostic :=
  { fault := .badDuration (Text.utf8 "x"), line := 2, col := 4, unit := Text.utf8 "'x" }

def crookedFailure : Failure :=
  .within (Text.utf8 "dusk") (.diagnostic crookedError)

theorem caret_under_column_iff_crooked :
    crookedFailure.diagnostic? = some crookedError ∧
      crookedError.line ≤ (crooked.splitOn 0x0A).length ∧
      ∃ shown before text after column caret, crookedFailure.snippet? crooked = some shown ∧
        shown = Text.utf8 "syntax error at 2:4: invalid wait duration \"x\" (in \"'x\")\n\n"
          ++ Text.utf8 "   1 | ü\n   2 | " ++ [0x80]
          ++ Text.utf8 "é 'x\n     |    ^\n   3 | ;\n" ∧
        crookedError.IsShown crooked shown before text after column caret ∧ caret = column := by
  have hlast : crookedError.line ≤ (crooked.splitOn 0x0A).length := by decide +kernel
  obtain ⟨shown, before, text, after, column, caret, hshown, his, -, hplace⟩ :=
    caret_under_column_iff crooked crookedFailure crookedError rfl (by decide) hlast (by decide)
  refine ⟨rfl, hlast, shown, before, text, after, column, caret, hshown, ?_, his,
    hplace.mpr (by decide)⟩
  apply Option.some.inj
  rw [← hshown]
  decide +kernel

/-- A wait without a duration on line 10000, below empty lines. -/
def tall : Bytes :=
  List.replicate 9999 0x0A ++ Text.utf8 "'x"

def tallError : Diagnostic :=
  { fault := .badDuration (Text.utf8 "x"), line := 10000, col := 1, unit := Text.utf8 "'x" }

/-- The caret under the first column of line 10000 stands under the blank in front of it. -/
theorem caret_beside_column :
    tallError.line ≤ (tall.splitOn 0x0A).length ∧
      (Failure.diagnostic tallError).snippet? tall =
        some (stack [tallError.message, [], Text.utf8 "9999 | ", Text.utf8 "10000 | 'x",
          Text.utf8 "     | ^"]) ∧
      IsColumn (Text.utf8 "10000 | 'x") (Text.utf8 "'x") 1 8 ∧
      IsCaret (Text.utf8 "     | ^") 7 := by
  have hlines : tall.splitOn 0x0A = List.replicate 9999 [] ++ Text.utf8 "'x" :: [] :=
    Text.splitOn_replicate_append 0x0A 9999 _
  refine ⟨?_, ?_, isColumn_shownRow 10000 _ 0, isCaret_caretRow 0⟩
  · rw [hlines, List.length_append, List.length_replicate]
    decide
  · have hline : tallError.line = (List.replicate 9999 ([] : Bytes)).length + 1 := by
      rw [List.length_replicate]
      rfl
    rw [snippet?_eq_stack rfl hlines hline rfl, excerptRows, List.length_replicate,
      List.getLast?_replicate]
    rfl

end Script

end Dialogue
