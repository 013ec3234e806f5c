import Dialogue.Proofs.Results
import Dialogue.Script.ParamGroup
import Mathlib.Data.List.Infix

/-!
# Reading parameter groups

The reading of a group is that of its pieces, and what holds of a group if it holds of the pieces
between its signs holds of all groups. An error in a group is about parameters, and a parameter with
a zero byte stands in the group as it is.
-/

namespace Dialogue

namespace Text

theorem isInfix_strip {α : Type} (p : α → Bool) (xs : List α) : strip p xs <:+: xs := by
  have hfront : xs.dropWhile p <:+ xs := List.dropWhile_suffix p
  have hback : strip p xs <+: xs.dropWhile p := by
    have hsuffix := List.dropWhile_suffix p (l := (xs.dropWhile p).reverse)
    rw [← List.reverse_prefix, List.reverse_reverse] at hsuffix
    exact hsuffix
  exact hback.isInfix.trans hfront.isInfix

theorem isInfix_trim (bs : Bytes) : trim bs <:+: bs := by
  obtain ⟨before, after, h⟩ := isInfix_strip (Glyph.charSatisfies isSpace) (glyphs bs)
  refine ⟨joinGlyphs before, joinGlyphs after, ?_⟩
  calc joinGlyphs before ++ trim bs ++ joinGlyphs after
      = joinGlyphs (before ++ strip (Glyph.charSatisfies isSpace) (glyphs bs) ++ after) := by
        rw [joinGlyphs, joinGlyphs, joinGlyphs, List.flatMap_append, List.flatMap_append]
        rfl
    _ = bs := by rw [h, joinGlyphs_glyphs]

end Text

namespace Script

theorem Literal.kind_of_read [CharName.Names] {bs : Bytes} {fault : Fault}
    (h : read bs = .error fault) : fault.kind = .parameter := by
  rw [read] at h
  split at h
  · cases h
    rfl
  · dsimp only at h
    split at h
    · cases h
      rfl
    · cases h

theorem Literal.zero_notMem_read [CharName.Names] {bs text : Bytes} (h : read bs = .ok text) :
    0 ∉ text := by
  rw [read] at h
  split at h
  · cases h
  · dsimp only at h
    split at h
    · cases h
    · rename_i hzero
      cases h
      exact hzero

namespace ParamGroup

theorem ofUInt8_inj {a b : UInt8} (h : Char.ofUInt8 a = Char.ofUInt8 b) : a = b :=
  UInt8.toNat_inj.mp (congrArg Char.toNat h)

/-! ## Pieces -/

theorem infix_of_mem_piecesFrom (s : Scan) (bs : Bytes) :
    (∀ p ∈ (piecesFrom s bs).head?, p <+: bs) ∧ ∀ p ∈ piecesFrom s bs, p <:+: bs := by
  induction bs generalizing s with
  | nil => simp [piecesFrom]
  | cons b bs ih =>
    rw [piecesFrom]
    split
    · refine ⟨by simp, ?_⟩
      intro p hp
      rcases List.mem_cons.mp hp with rfl | hp
      · exact List.nil_infix
      · exact List.infix_cons ((ih s).2 p hp)
    · obtain ⟨hhead, hmem⟩ := ih (s.step b)
      cases hparts : piecesFrom (s.step b) bs with
      | nil => simp
      | cons q qs =>
        rw [hparts] at hhead hmem
        have hfirst : b :: q <+: b :: bs := List.cons_prefix_cons.mpr ⟨rfl, hhead q rfl⟩
        constructor
        · intro p hp
          cases hp
          exact hfirst
        · intro p hp
          rcases List.mem_cons.mp hp with rfl | hp
          · exact hfirst.isInfix
          · exact List.infix_cons (hmem p (List.mem_cons_of_mem q hp))

theorem infix_of_mem_pieces {bs p : Bytes} (h : p ∈ pieces bs) : p <:+: bs :=
  (infix_of_mem_piecesFrom {} bs).2 p h

theorem isInfix_inner? {group inner : Bytes} (h : inner? group = some inner) :
    inner <:+: group := by
  cases group with
  | nil => cases h
  | cons b rest =>
    rw [inner?] at h
    split at h
    · split at h
      · cases h
        have hfront : rest.dropLast <+: rest := List.dropLast_prefix rest
        exact List.infix_cons hfront.isInfix
      · cases h
    · cases h

/-- The parameters that a piece of a group stands for. -/
def readPiece (p : Bytes) : Except Fault (List Bytes) :=
  match (Text.trim p).head?.map Char.ofUInt8 with
  | none => .ok []
  | some '"' => (Literal.read (Text.trim p)).map ([·])
  | some '(' | some '[' => read (Text.trim p)
  | some _ =>
    if Text.hasSpace (Text.trim p) then .error (.spaceInBare (Text.trim p)) else .ok [Text.trim p]

theorem read_of_inner? {group inner : Bytes} (h : inner? group = some inner) :
    read group = ((pieces inner).mapM readPiece).map List.flatten := by
  rw [read]
  split
  · rename_i hnone
    rw [hnone] at h
    cases h
  · rename_i inner' hinner
    rw [hinner] at h
    cases h
    rw [List.mapM_subtype (g := readPiece) (fun p hp => rfl), List.unattach_attach]
    cases List.mapM readPiece (pieces inner) with
    | error fault => rfl
    | ok parts => rfl

theorem read_of_inner?_eq_none {group : Bytes} (h : inner? group = none) :
    read group = .error (.malformedGroup group) := by
  rw [read]
  split
  · rfl
  · rename_i hinner
    rw [hinner] at h
    cases h

theorem group_induction {P : Bytes → Prop}
    (h : ∀ group, (∀ inner, inner? group = some inner → ∀ p ∈ pieces inner, P (Text.trim p)) →
      P group) (group : Bytes) : P group := by
  induction hn : group.length using Nat.strongRecOn generalizing group with
  | ind n ih =>
    refine h group fun inner hinner p hp => ih (Text.trim p).length ?_ _ rfl
    calc (Text.trim p).length ≤ p.length := Text.length_trim_le p
      _ ≤ inner.length := length_le_of_mem_pieces hp
      _ < n := hn ▸ length_inner?_lt hinner

theorem readPiece_cases (p : Bytes) :
    readPiece p = .ok [] ∨ readPiece p = (Literal.read (Text.trim p)).map ([·]) ∨
      readPiece p = read (Text.trim p) ∨
      readPiece p = .error (.spaceInBare (Text.trim p)) ∨ readPiece p = .ok [Text.trim p] := by
  rw [readPiece]
  split
  · exact .inl rfl
  · exact .inr (.inl rfl)
  · exact .inr (.inr (.inl rfl))
  · exact .inr (.inr (.inl rfl))
  · split
    · exact .inr (.inr (.inr (.inl rfl)))
    · exact .inr (.inr (.inr (.inr rfl)))

theorem kind_of_read {group : Bytes} {fault : Fault} (h : read group = .error fault) :
    fault.kind = .parameter := by
  induction group using group_induction generalizing fault with
  | h group ih =>
    cases hinner : inner? group with
    | none =>
      rw [read_of_inner?_eq_none hinner] at h
      cases h
      rfl
    | some inner =>
      rw [read_of_inner? hinner] at h
      obtain ⟨p, hp, hread⟩ := Result.exists_of_mapM_eq_error (Result.map_eq_error_iff.mp h)
      rcases readPiece_cases p with hcase | hcase | hcase | hcase | hcase
      all_goals rw [hcase] at hread
      · cases hread
      · exact Literal.kind_of_read (Result.map_eq_error_iff.mp hread)
      · exact ih inner hinner p hp hread
      · cases hread
        rfl
      · cases hread

/-- A parameter with a zero byte was written without quotes. -/
theorem infix_of_mem_read {group : Bytes} {texts : List Bytes} (h : read group = .ok texts) :
    ∀ text ∈ texts, 0 ∈ text → text <:+: group := by
  induction group using group_induction generalizing texts with
  | h group ih =>
    intro text htext hzero
    cases hinner : inner? group with
    | none =>
      rw [read_of_inner?_eq_none hinner] at h
      cases h
    | some inner =>
      rw [read_of_inner? hinner] at h
      obtain ⟨parts, hparts, rfl⟩ := Result.map_eq_ok_iff.mp h
      obtain ⟨part, hpart, hmem⟩ := List.mem_flatten.mp htext
      obtain ⟨p, hp, hread⟩ := Result.exists_of_mapM_eq_ok hparts part hpart
      have hpiece : Text.trim p <:+: group :=
        (Text.isInfix_trim p).trans ((infix_of_mem_pieces hp).trans (isInfix_inner? hinner))
      rcases readPiece_cases p with hcase | hcase | hcase | hcase | hcase
      all_goals rw [hcase] at hread
      · cases hread
        cases hmem
      · obtain ⟨literal, hliteral, rfl⟩ := Result.map_eq_ok_iff.mp hread
        rw [List.mem_singleton] at hmem
        exact absurd (hmem ▸ hzero) (Literal.zero_notMem_read hliteral)
      · exact (ih inner hinner p hp hread text hmem hzero).trans hpiece
      · cases hread
      · cases hread
        rw [List.mem_singleton] at hmem
        exact hmem ▸ hpiece

end ParamGroup

end Script

end Dialogue
