import Dialogue.Proofs.CompiledModules
import Dialogue.Proofs.EncodableScripts

/-!
# Clean texts

The texts of a compiled script are valid UTF-8 without zero bytes, whatever bytes the script is made
of. A unit is cut from code points, and all further cuts are made next to ASCII signs, which no
other code point has among its bytes. An escape stands for a code point or for itself.
-/

namespace Dialogue

namespace Text

/-! ## Well-formed texts -/

theorem isWellFormed_encode (cs : List Char) : isWellFormed (encode cs) = true := by
  rw [isWellFormed, glyphs_encode, List.all_map]
  exact List.all_eq_true.mpr fun c _ => rfl

theorem encode_decode {bs : Bytes} (h : isWellFormed bs = true) : encode (decode bs) = bs := by
  have hchars : (decode bs).map Glyph.char = glyphs bs := by
    rw [decode, List.map_map]
    refine (List.map_congr_left fun g hg => ?_).trans (List.map_id _)
    cases g with
    | char c => rfl
    | stray b => cases List.all_eq_true.mp h _ hg
  rw [← joinGlyphs_map_char, hchars, joinGlyphs_glyphs]

theorem isValidUTF8_of_isWellFormed {bs : Bytes} (h : isWellFormed bs = true) :
    bs.toByteArray.IsValidUTF8 := by
  refine .intro (decode bs) ?_
  have hencode : (decode bs).flatMap String.utf8EncodeChar = bs := encode_decode h
  rw [List.utf8Encode, hencode]

/-- A text can be cut at an ASCII byte. -/
theorem isWellFormed_append_cons {b : UInt8} (hb : b.toNat < 0x80) (bs rest : Bytes) :
    isWellFormed (bs ++ b :: rest) = (isWellFormed bs && isWellFormed rest) := by
  have hcut : IsCut (b :: rest) := by
    rintro b' ⟨⟩
    omega
  rw [isWellFormed, glyphs_append hcut, List.all_append, glyphs_cons_of_lt hb, List.all_cons]
  rfl

theorem isWellFormed_between {first last : UInt8} (hfirst : first.toNat < 0x80)
    (hlast : last.toNat < 0x80) (inner : Bytes) :
    isWellFormed (first :: (inner ++ [last])) = isWellFormed inner := by
  have hfront := isWellFormed_append_cons hfirst [] (inner ++ [last])
  rw [List.nil_append] at hfront
  have hempty : isWellFormed [] = true := isWellFormed_encode []
  rw [hfront, isWellFormed_append_cons hlast inner [], hempty, Bool.true_and, Bool.and_true]

theorem isWellFormed_trim {bs : Bytes} (h : isWellFormed bs = true) :
    isWellFormed (trim bs) = true := by
  rw [← encode_decode h, trim_encode]
  exact isWellFormed_encode _

theorem isWellFormed_of_mem_intercalate {b : UInt8} (hb : b.toNat < 0x80) {parts : List Bytes}
    (h : isWellFormed ([b].intercalate parts) = true) : ∀ p ∈ parts, isWellFormed p = true := by
  induction parts with
  | nil => simp
  | cons part parts ih =>
    cases parts with
    | nil =>
      intro p hp
      rw [List.intercalate_singleton] at h
      rwa [List.mem_singleton.mp hp]
    | cons next parts =>
      rw [List.intercalate_cons_cons, List.append_assoc, List.singleton_append,
        isWellFormed_append_cons hb, Bool.and_eq_true] at h
      intro p hp
      rcases List.mem_cons.mp hp with rfl | hp
      · exact h.1
      · exact ih h.2 p hp

end Text

namespace Script

/-! ## Strings and groups -/

namespace Literal

theorem eq_of_between? {bs inner : Bytes} (h : between? bs = some inner) :
    bs = 0x22 :: (inner ++ [0x22]) := by
  unfold between? at h
  split at h
  · rename_i rest
    split at h
    · rename_i hlast
      cases h
      rw [List.dropLast_append_getLast? 0x22 hlast]
    · cases h
  · cases h

theorem isWellFormed_unescape [CharName.Names] {bs : Bytes} (h : Text.isWellFormed bs = true) :
    Text.isWellFormed (unescape bs) = true := by
  rw [unescape]
  split
  · exact Text.isWellFormed_encode _
  · exact h

theorem isWellFormed_of_read [CharName.Names] {bs text : Bytes} (h : read bs = .ok text)
    (hbs : Text.isWellFormed bs = true) : Text.isWellFormed text = true := by
  rw [read] at h
  split at h
  · cases h
  · rename_i inner hinner
    rw [eq_of_between? hinner, Text.isWellFormed_between (by decide) (by decide)] at hbs
    dsimp only at h
    split at h
    · cases h
    · cases h
      exact isWellFormed_unescape (Text.isWellFormed_trim hbs)

end Literal

namespace ParamGroup

theorem lt_of_closer? {first last : UInt8} (h : closer? first = some last) :
    first.toNat < 0x80 ∧ last.toNat < 0x80 := by
  unfold closer? at h
  split at h
  · rename_i hchar
    have hfirst : first.toNat = 0x28 := congrArg Char.toNat hchar
    cases h
    exact ⟨by omega, by decide⟩
  · rename_i hchar
    have hfirst : first.toNat = 0x5B := congrArg Char.toNat hchar
    cases h
    exact ⟨by omega, by decide⟩
  · cases h

theorem exists_of_inner? {group inner : Bytes} (h : inner? group = some inner) :
    ∃ first last, group = first :: (inner ++ [last]) ∧ closer? first = some last := by
  cases group with
  | nil => cases h
  | cons first rest =>
    rw [inner?] at h
    split at h
    · rename_i last hclose
      split at h
      · rename_i hlast
        cases h
        exact ⟨first, last, by rw [List.dropLast_append_getLast? last hlast], hclose⟩
      · cases h
    · cases h

theorem piecesFrom_ne_nil (s : Scan) (bs : Bytes) : piecesFrom s bs ≠ [] := by
  induction bs generalizing s with
  | nil => exact List.cons_ne_nil _ _
  | cons b bs ih =>
    rw [piecesFrom]
    split
    · exact List.cons_ne_nil _ _
    · exact mt List.modifyHead_eq_nil_iff.mp (ih _)

/-- The pieces of a text with the commas between them are the text. -/
theorem intercalate_piecesFrom (s : Scan) (bs : Bytes) :
    [0x2C].intercalate (piecesFrom s bs) = bs := by
  induction bs generalizing s with
  | nil => rfl
  | cons b bs ih =>
    rw [piecesFrom]
    split
    · rename_i hcomma
      rw [List.intercalate_cons_of_ne_nil (piecesFrom_ne_nil s bs), ih, hcomma.2]
      rfl
    · obtain ⟨part, parts, hparts⟩ := List.exists_cons_of_ne_nil (piecesFrom_ne_nil (s.step b) bs)
      rw [hparts, List.modifyHead_cons, List.intercalate_cons_cons_left, ← hparts, ih]

theorem isWellFormed_of_mem_read {group : Bytes} {texts : List Bytes}
    (h : read group = .ok texts) (hgroup : Text.isWellFormed group = true) :
    ∀ text ∈ texts, Text.isWellFormed text = true := by
  induction group using group_induction generalizing texts with
  | h group ih =>
    intro text htext
    cases hinner : inner? group with
    | none =>
      rw [read_of_inner?_eq_none hinner] at h
      cases h
    | some inner =>
      rw [read_of_inner? hinner] at h
      obtain ⟨parts, hparts, rfl⟩ := Result.map_eq_ok_iff.mp h
      obtain ⟨part, hpart, hmem⟩ := List.mem_flatten.mp htext
      obtain ⟨p, hp, hread⟩ := Result.exists_of_mapM_eq_ok hparts part hpart
      obtain ⟨first, last, rfl, hclose⟩ := exists_of_inner? hinner
      obtain ⟨hfirst, hlast⟩ := lt_of_closer? hclose
      rw [Text.isWellFormed_between hfirst hlast, ← intercalate_piecesFrom {} inner] at hgroup
      have hpiece : Text.isWellFormed (Text.trim p) = true :=
        Text.isWellFormed_trim (Text.isWellFormed_of_mem_intercalate (by decide) hgroup p hp)
      rcases readPiece_cases p with hcase | hcase | hcase | hcase | hcase
      all_goals rw [hcase] at hread
      · cases hread
        cases hmem
      · obtain ⟨literal, hliteral, rfl⟩ := Result.map_eq_ok_iff.mp hread
        rw [List.mem_singleton.mp hmem]
        exact Literal.isWellFormed_of_read hliteral hpiece
      · exact ih inner hinner p hp hread hpiece text hmem
      · cases hread
      · cases hread
        rw [List.mem_singleton.mp hmem]
        exact hpiece

end ParamGroup

/-! ## Scripts -/

theorem LexUnit.Gives.isWellFormed {u : LexUnit} {text : Bytes} (h : u.Gives text)
    (hu : Text.isWellFormed u.text = true) : Text.isWellFormed text = true := by
  cases h with
  | literal text hread =>
    exact Literal.isWellFormed_of_read (Result.mapError_eq_ok_iff.mp hread) hu
  | group texts text _ hread hmem =>
    exact ParamGroup.isWellFormed_of_mem_read (Result.mapError_eq_ok_iff.mp hread) hu text hmem
  | identifier _ => exact hu

theorem isWellFormed_of_mem_params {source : Bytes} {us : List LexUnit} {is : List Instruction}
    (hus : LexUnit.ofSource source = .ok us) (his : instructions us = .ok is) {i : Instruction}
    (hi : i ∈ is) : ∀ q ∈ i.params, Text.isWellFormed q.toText = true := by
  intro q hq
  cases q with
  | text text =>
    obtain ⟨hread, -⟩ := instructions_eq_ok_iff.mp his
    obtain ⟨u, hu, hgives⟩ := gives_of_readUnits hread hi hq
    obtain ⟨rfl, -⟩ := LexUnit.ofSource_eq_ok_iff.mp hus
    obtain ⟨_, cs, _, _, -, -, rfl⟩ := LexUnit.exists_of_mem_scan _ _ _ u hu
    exact hgives.isWellFormed (Text.isWellFormed_trim (Text.isWellFormed_encode cs))
  | int v => exact Text.isWellFormed_encode _
  | bool b =>
    cases b with
    | false => exact Text.isWellFormed_encode _
    | true => exact Text.isWellFormed_encode _

end Script

open Script

theorem isWellFormed_of_mem_data {source : Bytes} {opts : CompileOptions} {c : Compilation}
    (h : compile source opts = .ok c) :
    ∀ text ∈ c.program.data, Text.isWellFormed text = true := by
  obtain ⟨hus, his, hp, -⟩ := compile_eq_ok_iff.mp h
  intro text htext
  rcases Program.exists_param_of_mem_data hp htext with hold | ⟨i, hi, -, q, hq, rfl⟩
  · rcases List.mem_pair.mp hold with rfl | rfl
    · exact Text.isWellFormed_encode _
    · exact Text.isWellFormed_encode _
  · exact isWellFormed_of_mem_params hus his hi q hq

/-- Every text of a compiled script is valid UTF-8 and has no zero byte, whatever the bytes of the
script are. -/
theorem compiled_texts_clean (source : Bytes) (opts : CompileOptions) (c : Compilation)
    (h : compile source opts = .ok c) :
    ∀ text ∈ c.program.data, text.toByteArray.IsValidUTF8 ∧ 0 ∉ text := by
  intro text htext
  obtain ⟨-, -, hp, -⟩ := compile_eq_ok_iff.mp h
  exact ⟨Text.isValidUTF8_of_isWellFormed (isWellFormed_of_mem_data h text htext),
    Program.zero_notMem_data hp text htext⟩

/-- A script with a stray byte, an escape for a surrogate, an octal one beyond a byte, and a
backslash in front of a character of two bytes. -/
def hostile : Bytes :=
  Text.utf8 "@a([" ++ [0xFF] ++ Text.utf8 ", \"\\ud800,\\é\\777\"])"

theorem compiled_texts_clean_hostile :
    ∃ c, compile hostile {} = .ok c ∧
      c.program.data = [Text.utf8 "false", Text.utf8 "true", Text.utf8 "\ufffd",
        Text.utf8 "\\ud800,\\éǿ"] ∧
      ∀ text ∈ c.program.data, text.toByteArray.IsValidUTF8 ∧ 0 ∉ text := by
  have hdata : (compile hostile {}).map (fun c => c.program.data) =
      .ok [Text.utf8 "false", Text.utf8 "true", Text.utf8 "\ufffd",
        Text.utf8 "\\ud800,\\éǿ"] := by decide +kernel
  obtain ⟨c, hc, hdata⟩ := Result.map_eq_ok_iff.mp hdata
  exact ⟨c, hc, hdata, compiled_texts_clean hostile {} c hc⟩

end Dialogue
