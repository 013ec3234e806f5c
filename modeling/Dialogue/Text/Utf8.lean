/-!
# Bytes and code points

A text is a list of bytes and need not be well-formed UTF-8. `Text.glyphs` cuts it into code points
and stray bytes, and the bytes of the glyphs, put together, are the text again.
-/

namespace Dialogue

/-- A text as it is stored: its bytes, well-formed UTF-8 or not. -/
abbrev Bytes := List UInt8

/-- An item of a byte text: a code point in its UTF-8 form, or a byte that belongs to none. -/
inductive Glyph where
  | char (c : Char)
  | stray (b : UInt8)
  deriving DecidableEq

namespace Text

def encode (cs : List Char) : Bytes :=
  cs.flatMap String.utf8EncodeChar

def utf8 (s : String) : Bytes :=
  encode s.toList

/-- Continues the value `acc` with `k` continuation bytes. -/
def continue? : (k acc : Nat) → Bytes → Option Nat
  | 0, acc, _ => some acc
  | _ + 1, _, [] => none
  | k + 1, acc, b :: bs =>
    if 0x80 ≤ b.toNat ∧ b.toNat < 0xC0 then continue? k (acc * 64 + (b.toNat - 0x80)) bs else none

/-- The code point numbered `v`, if there is one and it is at least `least`. -/
def scalar? (least v : Nat) : Option Char :=
  if least ≤ v ∧ v.isValidChar then some (Char.ofNat v) else none

/-- The code point written by `lead` and the first bytes of `rest`, with the number of bytes taken
from `rest`. Overlong forms, surrogates and numbers beyond U+10FFFF write none. -/
def charAt? (lead : UInt8) (rest : Bytes) : Option (Char × Nat) :=
  let n := lead.toNat
  if n < 0x80 then
    some (Char.ofNat n, 0)
  else if n < 0xC0 then
    none
  else if n < 0xE0 then
    ((continue? 1 (n - 0xC0) rest).bind (scalar? 0x80)).map (·, 1)
  else if n < 0xF0 then
    ((continue? 2 (n - 0xE0) rest).bind (scalar? 0x800)).map (·, 2)
  else if n < 0xF8 then
    ((continue? 3 (n - 0xF0) rest).bind (scalar? 0x10000)).map (·, 3)
  else
    none

/-- Cuts a text into glyphs. A byte that starts no code point is a glyph of its own. -/
def glyphs : Bytes → List Glyph
  | [] => []
  | b :: rest =>
    match charAt? b rest with
    | some (c, k) => .char c :: glyphs (rest.drop k)
    | none => .stray b :: glyphs rest
termination_by bs => bs.length
decreasing_by
  · simp only [List.length_drop, List.length_cons]
    omega
  · simp

end Text

namespace Glyph

def bytes : Glyph → Bytes
  | char c => String.utf8EncodeChar c
  | stray b => [b]

/-- The code point a glyph is read as: U+FFFD for a stray byte. -/
def toChar : Glyph → Char
  | char c => c
  | stray _ => '\ufffd'

def isChar : Glyph → Bool
  | char _ => true
  | stray _ => false

def charSatisfies (p : Char → Bool) : Glyph → Bool
  | char c => p c
  | stray _ => false

end Glyph

namespace Text

/-- The code points of a text, each stray byte read as U+FFFD. -/
def decode (bs : Bytes) : List Char :=
  (glyphs bs).map Glyph.toChar

def joinGlyphs (gs : List Glyph) : Bytes :=
  gs.flatMap Glyph.bytes

def isWellFormed (bs : Bytes) : Bool :=
  (glyphs bs).all Glyph.isChar

end Text

end Dialogue

/-! ## Reading back what was written -/

namespace Dialogue.Text

theorem continue?_eq_some {k acc v : Nat} {bs : Bytes} (h : continue? (k + 1) acc bs = some v) :
    ∃ b rest, bs = b :: rest ∧ 0x80 ≤ b.toNat ∧ b.toNat < 0xC0 ∧
      continue? k (acc * 64 + (b.toNat - 0x80)) rest = some v := by
  match bs, h with
  | b :: rest, h =>
    simp only [continue?, Option.ite_none_right_eq_some] at h
    exact ⟨b, rest, rfl, h.1.1, h.1.2, h.2⟩

theorem scalar?_eq_some {least v : Nat} {c : Char} (h : scalar? least v = some c) :
    least ≤ v ∧ c.toNat = v := by
  simp only [scalar?, Option.ite_none_right_eq_some, Option.some.injEq] at h
  obtain ⟨⟨hl, hv⟩, rfl⟩ := h
  exact ⟨hl, by rw [Char.ofNat, dif_pos hv]; rfl⟩

theorem ofNat_eq {n : Nat} {b : UInt8} (h : n = b.toNat) : UInt8.ofNat n = b := by
  subst h
  exact UInt8.ofNat_toNat

/-- The bytes that write a code point are those it was read from. -/
theorem utf8EncodeChar_append_drop {lead : UInt8} {rest : Bytes} {c : Char} {k : Nat}
    (h : charAt? lead rest = some (c, k)) :
    String.utf8EncodeChar c ++ rest.drop k = lead :: rest := by
  have hlead := lead.toNat_lt
  have hval : c.val.toNat = c.toNat := rfl
  delta String.utf8EncodeChar
  simp only [hval]
  simp only [charAt?] at h
  split at h
  · rename_i hn
    simp only [Option.some.injEq, Prod.mk.injEq] at h
    obtain ⟨rfl, rfl⟩ := h
    have hv : lead.toNat.isValidChar := Or.inl (by omega)
    have hc : (Char.ofNat lead.toNat).toNat = lead.toNat := by
      rw [Char.ofNat, dif_pos hv]
      rfl
    rw [hc, if_pos (by omega), UInt8.ofNat_toNat]
    rfl
  split at h
  · simp at h
  split at h
  · simp only [Option.map_eq_some_iff, Option.bind_eq_some_iff, Prod.mk.injEq] at h
    obtain ⟨c', ⟨v, hv, hs⟩, rfl, rfl⟩ := h
    obtain ⟨b₁, r, rfl, h₁, h₁', hv⟩ := continue?_eq_some hv
    obtain ⟨hl, hc⟩ := scalar?_eq_some hs
    simp only [continue?, Option.some.injEq] at hv
    rw [hc, if_neg (by omega), if_pos (by omega), ofNat_eq (b := lead) (by omega),
      ofNat_eq (b := b₁) (by omega)]
    rfl
  split at h
  · simp only [Option.map_eq_some_iff, Option.bind_eq_some_iff, Prod.mk.injEq] at h
    obtain ⟨c', ⟨v, hv, hs⟩, rfl, rfl⟩ := h
    obtain ⟨b₁, r, rfl, h₁, h₁', hv⟩ := continue?_eq_some hv
    obtain ⟨b₂, r, rfl, h₂, h₂', hv⟩ := continue?_eq_some hv
    obtain ⟨hl, hc⟩ := scalar?_eq_some hs
    simp only [continue?, Option.some.injEq] at hv
    rw [hc, if_neg (by omega), if_neg (by omega), if_pos (by omega),
      ofNat_eq (b := lead) (by omega), ofNat_eq (b := b₁) (by omega), ofNat_eq (b := b₂) (by omega)]
    rfl
  split at h
  · simp only [Option.map_eq_some_iff, Option.bind_eq_some_iff, Prod.mk.injEq] at h
    obtain ⟨c', ⟨v, hv, hs⟩, rfl, rfl⟩ := h
    obtain ⟨b₁, r, rfl, h₁, h₁', hv⟩ := continue?_eq_some hv
    obtain ⟨b₂, r, rfl, h₂, h₂', hv⟩ := continue?_eq_some hv
    obtain ⟨b₃, r, rfl, h₃, h₃', hv⟩ := continue?_eq_some hv
    obtain ⟨hl, hc⟩ := scalar?_eq_some hs
    simp only [continue?, Option.some.injEq] at hv
    rw [hc, if_neg (by omega), if_neg (by omega), if_neg (by omega),
      ofNat_eq (b := lead) (by omega), ofNat_eq (b := b₁) (by omega), ofNat_eq (b := b₂) (by omega),
      ofNat_eq (b := b₃) (by omega)]
    rfl
  · simp at h

/-- The bytes of the glyphs of a text are the text. -/
@[simp] theorem joinGlyphs_glyphs (bs : Bytes) : joinGlyphs (glyphs bs) = bs := by
  fun_induction glyphs bs with
  | case1 => rfl
  | case2 b rest c k h ih =>
    simp only [joinGlyphs] at ih
    simp [joinGlyphs, Glyph.bytes, ih, utf8EncodeChar_append_drop h]
  | case3 b rest h ih =>
    simp only [joinGlyphs] at ih
    simp [joinGlyphs, Glyph.bytes, ih]

end Dialogue.Text
