import Dialogue.Proofs.Tokens
import Mathlib.Data.List.DropRight

/-!
# Places of units

The place of a unit is counted on from unit to unit. It is the one that the whole source gives: the
text of the unit is found at its offset, its line is told by the line feeds before it, and its
column by the characters since the last of them.
-/

namespace Dialogue.Script

theorem Position.col_after (cs : List Char) :
    (({} : Position).after cs).col = 1 + (cs.rtakeWhile (· != '\n')).length := by
  induction cs using List.reverseRecOn with
  | nil => rfl
  | append_singleton cs c ih =>
    have hstep :
        ({} : Position).after (cs ++ [c]) = (({} : Position).after cs).advance c :=
      Position.after_append {} cs [c]
    rw [hstep, advance, List.rtakeWhile_concat]
    by_cases hc : c = '\n'
    · rw [if_pos hc, if_neg (by simp [hc])]
      rfl
    · rw [if_neg hc, if_pos (by simp [hc]), List.length_append, ih, Nat.add_assoc]
      rfl

namespace LexUnit

/-- Whether a unit stands in a source as it says. -/
structure IsPlacedIn (source : List Char) (u : LexUnit) : Prop where
  within : u.offset + (Text.decode u.text).length ≤ source.length
  text : u.text =
    Text.encode ((source.drop u.offset).take (Text.decode u.text).length)
  notBlank : Text.trim u.text ≠ []
  noSpace : ∀ c ∈ (Text.decode u.text).head?, Text.isSpace c = false
  line : u.line = 1 + (source.take u.offset).count '\n'
  col : u.col = 1 + ((source.take u.offset).rtakeWhile (· != '\n')).length

theorem UnitAt.isPlacedIn {prev : Option Char} {t after : List Char} (h : UnitAt prev t after)
    (before : List Char) :
    (ofChars (({} : Position).after before) t).IsPlacedIn (before ++ (t ++ after)) := by
  have hoffset : (ofChars (({} : Position).after before) t).offset = before.length :=
    Position.offset_after_start before
  have hchars : Text.decode (ofChars (({} : Position).after before) t).text = t :=
    Text.decode_encode t
  obtain ⟨c, cs, rfl⟩ := List.exists_cons_of_ne_nil h.ne_nil
  constructor
  case within =>
    rw [hoffset, hchars, List.length_append, List.length_append]
    omega
  case text =>
    rw [hoffset, hchars, List.drop_left, List.take_left]
    rfl
  case notBlank =>
    have hstrip : (Text.strip Text.isSpace (c :: cs)).head? = some c :=
      Text.head?_strip h.isSpace_head
    have hne : Text.encode (Text.strip Text.isSpace (c :: cs)) ≠ [] :=
      Text.encode_ne_nil (List.ne_nil_of_mem (List.mem_of_mem_head? hstrip))
    rwa [← Text.trim_encode] at hne
  case noSpace =>
    rw [hchars]
    rintro _ ⟨⟩
    exact h.isSpace_head
  case line =>
    have hline := Position.line_after {} before
    rw [hoffset, List.take_left]
    exact congrArg Int.ofNat hline
  case col =>
    have hcol := Position.col_after before
    rw [hoffset, List.take_left]
    exact congrArg Int.ofNat hcol

theorem exists_unitAt_iff (source : List Char) :
    (∃ before t after, source = before ++ (t ++ after) ∧ UnitAt before.getLast? t after) ↔
      scan 0 none {} source ≠ [] := by
  have hcut := (tokenization_iff source (scan 0 none {} source)).mpr rfl
  constructor
  · rintro ⟨before, t, after, hsource, hunit⟩ hnil
    obtain ⟨c, cs, rfl⟩ := List.exists_cons_of_ne_nil hunit.ne_nil
    rw [hnil] at hcut
    have hgap := hcut.gap before c (cs ++ after) hsource (by simp)
    exact hgap.not_unitAt rfl hunit
  · intro hne
    obtain ⟨u, us, hus⟩ := List.exists_cons_of_ne_nil hne
    have hu : u ∈ scan 0 none {} source := hus ▸ List.mem_cons_self
    obtain ⟨before, t, after, hsource, htoken, -⟩ := hcut.token u hu
    exact ⟨before, t, after, hsource, htoken.form⟩

end LexUnit

/-- The units of a source come one after the other, each where its offset, its line and its column
say. A source is refused, without a place, exactly if no unit stands anywhere in it. -/
theorem units_placed_in_source (source : Bytes) :
    (∀ us, LexUnit.ofSource source = .ok us →
      us.IsChain (fun u v => u.offset + (Text.decode u.text).length ≤ v.offset) ∧
        ∀ u ∈ us, u.IsPlacedIn (Text.decode source)) ∧
      ((∃ d, LexUnit.ofSource source = .error d) ↔
        ¬ ∃ before t after, Text.decode source = before ++ (t ++ after) ∧
          LexUnit.UnitAt before.getLast? t after) ∧
      ∀ d, LexUnit.ofSource source = .error d →
        d.fault.kind = .lexical ∧ d.line = 0 ∧ d.col = 0 := by
  refine ⟨?_, ?_, ?_⟩
  · intro us hus
    obtain ⟨rfl, -⟩ := LexUnit.ofSource_eq_ok_iff.mp hus
    constructor
    · exact ((LexUnit.tokenization_iff _ _).mpr rfl).apart.isChain
    · intro u hu
      obtain ⟨before, t, after, prev, hsource, hunit, rfl⟩ :=
        LexUnit.exists_of_mem_scan none {} _ u hu
      rw [hsource]
      exact hunit.isPlacedIn before
  · simp only [LexUnit.ofSource_eq_error_iff, LexUnit.exists_unitAt_iff, not_not,
      exists_eq_right]
  · intro d hd
    obtain ⟨-, rfl⟩ := LexUnit.ofSource_eq_error_iff.mp hd
    exact ⟨rfl, rfl, rfl⟩

-- Columns count code points and stray bytes, and start anew behind a line feed within a unit.
example : LexUnit.ofSource ([0xFF] ++ Text.utf8 " \"é\nb\" c") =
    .ok [{ text := Text.utf8 "\"é\nb\"", offset := 2, line := 1, col := 3 },
      { text := Text.utf8 "c", offset := 8, line := 2, col := 4 }] := by
  decide +kernel

end Dialogue.Script
