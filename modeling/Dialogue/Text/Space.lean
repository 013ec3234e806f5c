import Dialogue.Text.Utf8

/-!
# White space

The Unicode white space characters, and texts without white space at their ends.
-/

namespace Dialogue.Text

def isSpace (c : Char) : Bool :=
  let n := c.toNat
  (0x09 ≤ n && n ≤ 0x0D) || n == 0x20 || n == 0x85 || n == 0xA0 || n == 0x1680 ||
    (0x2000 ≤ n && n ≤ 0x200A) || n == 0x2028 || n == 0x2029 || n == 0x202F || n == 0x205F ||
    n == 0x3000

/-- A list without the items at either end that satisfy `p`. -/
def strip {α : Type} (p : α → Bool) (xs : List α) : List α :=
  ((xs.dropWhile p).reverse.dropWhile p).reverse

/-- A text without the white space at its ends. A stray byte is no white space. -/
def trim (bs : Bytes) : Bytes :=
  joinGlyphs (strip (Glyph.charSatisfies isSpace) (glyphs bs))

def hasSpace (bs : Bytes) : Bool :=
  (glyphs bs).any (Glyph.charSatisfies isSpace)

theorem strip_sublist {α : Type} (p : α → Bool) (xs : List α) : (strip p xs).Sublist xs := by
  have h := (List.dropWhile_sublist p (l := (xs.dropWhile p).reverse)).reverse
  rw [List.reverse_reverse] at h
  exact h.trans (List.dropWhile_sublist p)

theorem length_joinGlyphs_le {gs hs : List Glyph} (h : gs.Sublist hs) :
    (joinGlyphs gs).length ≤ (joinGlyphs hs).length := by
  induction h with
  | slnil => exact Nat.le_refl _
  | cons g _ ih =>
    simp only [joinGlyphs, List.flatMap_cons, List.length_append] at ih ⊢
    omega
  | cons_cons g _ ih =>
    simp only [joinGlyphs, List.flatMap_cons, List.length_append] at ih ⊢
    omega

/-- Trimming makes no text longer. -/
theorem length_trim_le (bs : Bytes) : (trim bs).length ≤ bs.length := by
  have h := length_joinGlyphs_le (strip_sublist (Glyph.charSatisfies isSpace) (glyphs bs))
  rwa [joinGlyphs_glyphs] at h

end Dialogue.Text
