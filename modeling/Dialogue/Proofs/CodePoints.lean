import Dialogue.Text.Space
import Mathlib.Data.List.Basic

/-!
# Code points of byte texts

Text that was written is read back, code point by code point. A text may be cut in front of any byte
that does not continue a code point, such as a line feed, and its parts are read as they are read in
the whole.
-/

namespace Dialogue.Text

/-! ## Reading what was written -/

theorem toNat_lt_max (c : Char) : c.toNat < 0x110000 := by
  rcases c.valid with hlow | ⟨-, hhigh⟩
  · exact Nat.lt_trans hlow (by decide)
  · exact hhigh

theorem toNat_ofNat_lt {n : Nat} (h : n < 256) : (UInt8.ofNat n).toNat = n :=
  UInt8.toNat_ofNat_of_lt' h

theorem continue?_cons {m : Nat} (h : m < 64) (k acc : Nat) (bs : Bytes) :
    continue? (k + 1) acc (.ofNat (m + 0x80) :: bs) = continue? k (acc * 64 + m) bs := by
  have hbyte : (UInt8.ofNat (m + 0x80)).toNat = m + 0x80 := toNat_ofNat_lt (by omega)
  rw [continue?, hbyte, if_pos (by omega), Nat.add_sub_cancel]

theorem scalar?_toNat {c : Char} {least : Nat} (h : least ≤ c.toNat) :
    scalar? least c.toNat = some c := by
  have hvalid : c.toNat.isValidChar := c.valid
  rw [scalar?, if_pos ⟨h, hvalid⟩, Char.ofNat_toNat]

/-- The first code point of a text that starts with the bytes of one. -/
theorem charAt?_utf8EncodeChar (c : Char) :
    ∃ lead more, String.utf8EncodeChar c = lead :: more ∧
      ∀ rest, charAt? lead (more ++ rest) = some (c, more.length) := by
  have hmax := toNat_lt_max c
  have hval : c.val.toNat = c.toNat := rfl
  delta String.utf8EncodeChar
  simp only [hval]
  split_ifs with h1 h2 h3
  · refine ⟨_, [], rfl, fun rest => ?_⟩
    have hlead : (UInt8.ofNat c.toNat).toNat = c.toNat := toNat_ofNat_lt (by omega)
    simp only [charAt?, hlead]
    rw [if_pos (by omega), Char.ofNat_toNat]
    rfl
  · refine ⟨_, [_], rfl, fun rest => ?_⟩
    have hlead : (UInt8.ofNat (c.toNat / 64 % 32 + 0xC0)).toNat = c.toNat / 64 % 32 + 0xC0 :=
      toNat_ofNat_lt (by omega)
    have hvalue : (c.toNat / 64 % 32 + 0xC0 - 0xC0) * 64 + c.toNat % 64 = c.toNat := by omega
    simp only [charAt?, hlead, List.singleton_append]
    rw [if_neg (by omega), if_neg (by omega), if_pos (by omega), continue?_cons (by omega), hvalue,
      continue?, Option.bind_some, scalar?_toNat (by omega)]
    rfl
  · refine ⟨_, [_, _], rfl, fun rest => ?_⟩
    have hlead : (UInt8.ofNat (c.toNat / 4096 % 16 + 0xE0)).toNat = c.toNat / 4096 % 16 + 0xE0 :=
      toNat_ofNat_lt (by omega)
    have hvalue : ((c.toNat / 4096 % 16 + 0xE0 - 0xE0) * 64 + c.toNat / 64 % 64) * 64
        + c.toNat % 64 = c.toNat := by omega
    simp only [charAt?, hlead, List.cons_append, List.nil_append]
    rw [if_neg (by omega), if_neg (by omega), if_neg (by omega), if_pos (by omega),
      continue?_cons (by omega), continue?_cons (by omega), hvalue, continue?, Option.bind_some,
      scalar?_toNat (by omega)]
    rfl
  · refine ⟨_, [_, _, _], rfl, fun rest => ?_⟩
    have hlead : (UInt8.ofNat (c.toNat / 262144 % 8 + 0xF0)).toNat = c.toNat / 262144 % 8 + 0xF0 :=
      toNat_ofNat_lt (by omega)
    have hvalue : (((c.toNat / 262144 % 8 + 0xF0 - 0xF0) * 64 + c.toNat / 4096 % 64) * 64
        + c.toNat / 64 % 64) * 64 + c.toNat % 64 = c.toNat := by omega
    simp only [charAt?, hlead, List.cons_append, List.nil_append]
    rw [if_neg (by omega), if_neg (by omega), if_neg (by omega), if_neg (by omega),
      if_pos (by omega), continue?_cons (by omega), continue?_cons (by omega),
      continue?_cons (by omega), hvalue, continue?, Option.bind_some, scalar?_toNat (by omega)]
    rfl

theorem glyphs_utf8EncodeChar_append (c : Char) (rest : Bytes) :
    glyphs (String.utf8EncodeChar c ++ rest) = .char c :: glyphs rest := by
  obtain ⟨lead, more, hbytes, hread⟩ := charAt?_utf8EncodeChar c
  rw [hbytes, List.cons_append, glyphs, hread rest]
  simp only [List.drop_left]

theorem glyphs_encode_append (cs : List Char) (rest : Bytes) :
    glyphs (encode cs ++ rest) = cs.map .char ++ glyphs rest := by
  induction cs with
  | nil => rfl
  | cons c cs ih =>
    rw [encode, List.flatMap_cons, List.append_assoc, glyphs_utf8EncodeChar_append]
    rw [encode] at ih
    rw [ih]
    rfl

@[simp] theorem glyphs_encode (cs : List Char) : glyphs (encode cs) = cs.map .char := by
  have h := glyphs_encode_append cs []
  rw [List.append_nil] at h
  rw [h, glyphs, List.append_nil]

@[simp] theorem decode_encode (cs : List Char) : decode (encode cs) = cs := by
  rw [decode, glyphs_encode, List.map_map]
  exact List.map_id cs

/-- A text starts with the first byte of its first character. -/
theorem head?_encode_cons (c : Char) :
    ∃ lead ∈ String.utf8EncodeChar c, ∀ cs, (encode (c :: cs)).head? = some lead := by
  obtain ⟨lead, more, hlead, -⟩ := charAt?_utf8EncodeChar c
  refine ⟨lead, hlead ▸ List.mem_cons_self, fun cs => ?_⟩
  rw [encode, List.flatMap_cons, hlead]
  rfl

theorem encode_ne_nil {cs : List Char} (h : cs ≠ []) : encode cs ≠ [] := by
  obtain ⟨c, cs, rfl⟩ := List.exists_cons_of_ne_nil h
  obtain ⟨lead, -, hhead⟩ := head?_encode_cons c
  exact List.ne_nil_of_mem (List.mem_of_mem_head? (hhead cs))

theorem encode_append (cs ds : List Char) : encode (cs ++ ds) = encode cs ++ encode ds :=
  List.flatMap_append

theorem joinGlyphs_map_char (cs : List Char) : joinGlyphs (cs.map .char) = encode cs := by
  rw [joinGlyphs, List.flatMap_map]
  rfl

/-! ## White space of encoded text -/

theorem strip_map {α β : Type} (f : α → β) (p : β → Bool) (xs : List α) :
    strip p (xs.map f) = (strip (p ∘ f) xs).map f := by
  rw [strip, strip, List.dropWhile_map, ← List.map_reverse, List.dropWhile_map, ← List.map_reverse]

theorem trim_encode (cs : List Char) : trim (encode cs) = encode (strip isSpace cs) := by
  rw [trim, glyphs_encode, strip_map, joinGlyphs_map_char]
  rfl

/-- A list with neither end to be dropped is kept. -/
theorem strip_eq_self {α : Type} {p : α → Bool} {xs : List α}
    (hfirst : ∀ x ∈ xs.head?, p x = false) (hlast : ∀ x ∈ xs.getLast?, p x = false) :
    strip p xs = xs := by
  have hdrop : ∀ {ys : List α}, (∀ y ∈ ys.head?, p y = false) → ys.dropWhile p = ys := by
    intro ys hys
    cases ys with
    | nil => rfl
    | cons y ys => exact List.dropWhile_cons_of_neg (by simp [hys y rfl])
  rw [strip, hdrop hfirst, hdrop (by rwa [List.head?_reverse]), List.reverse_reverse]

/-- The item in front stays in front, if it is not dropped. -/
theorem head?_strip {α : Type} {p : α → Bool} {x : α} {xs : List α} (h : p x = false) :
    (strip p (x :: xs)).head? = some x := by
  rw [strip, List.dropWhile_cons_of_neg (by simp [h]), List.reverse_cons,
    List.dropWhile_append]
  split
  · rw [List.dropWhile_cons_of_neg (by simp [h])]
    rfl
  · rw [List.reverse_append]
    rfl

/-! ## Cutting a text -/

/-- Whether a text does not start in the middle of a code point. -/
def IsCut (bs : Bytes) : Prop :=
  ∀ b ∈ bs.head?, ¬ (0x80 ≤ b.toNat ∧ b.toNat < 0xC0)

theorem continue?_append {rest : Bytes} (h : IsCut rest) (k acc : Nat) (bs : Bytes) :
    continue? k acc (bs ++ rest) = continue? k acc bs := by
  induction k generalizing acc bs with
  | zero => rw [continue?, continue?]
  | succ k ih =>
    cases bs with
    | nil =>
      cases rest with
      | nil => rfl
      | cons b rest => rw [List.nil_append, continue?, continue?, if_neg (h b rfl)]
    | cons b bs => rw [List.cons_append, continue?, continue?, ih]

theorem le_length_of_continue? {k acc v : Nat} {bs : Bytes} (h : continue? k acc bs = some v) :
    k ≤ bs.length := by
  induction k generalizing acc bs with
  | zero => exact Nat.zero_le _
  | succ k ih =>
    obtain ⟨b, rest, rfl, -, -, hrest⟩ := continue?_eq_some h
    exact Nat.succ_le_succ (ih hrest)

theorem charAt?_append {rest : Bytes} (h : IsCut rest) (lead : UInt8) (bs : Bytes) :
    charAt? lead (bs ++ rest) = charAt? lead bs := by
  simp only [charAt?, continue?_append h]

theorem le_length_of_charAt? {lead : UInt8} {bs : Bytes} {c : Char} {k : Nat}
    (h : charAt? lead bs = some (c, k)) : k ≤ bs.length := by
  have hread : ∀ {n acc least : Nat},
      ((continue? n acc bs).bind (scalar? least)).map (·, n) = some (c, k) → k ≤ bs.length := by
    intro n acc least hmap
    obtain ⟨c', hbind, hpair⟩ := Option.map_eq_some_iff.mp hmap
    obtain ⟨v, hv, -⟩ := Option.bind_eq_some_iff.mp hbind
    cases hpair
    exact le_length_of_continue? hv
  simp only [charAt?] at h
  split_ifs at h
  · cases h
    exact Nat.zero_le _
  · exact hread h
  · exact hread h
  · exact hread h

theorem glyphs_append {rest : Bytes} (h : IsCut rest) (bs : Bytes) :
    glyphs (bs ++ rest) = glyphs bs ++ glyphs rest := by
  fun_induction glyphs bs with
  | case1 => rfl
  | case2 b bs c k hchar ih =>
    have hle := le_length_of_charAt? hchar
    rw [List.cons_append, glyphs, charAt?_append h, hchar]
    simp only [List.drop_append_of_le_length hle, ih, List.cons_append]
  | case3 b bs hchar ih =>
    rw [List.cons_append, glyphs, charAt?_append h, hchar]
    simp only [ih, List.cons_append]

theorem decode_append {rest : Bytes} (h : IsCut rest) (bs : Bytes) :
    decode (bs ++ rest) = decode bs ++ decode rest := by
  rw [decode, glyphs_append h, List.map_append]
  rfl

/-! ## ASCII -/

theorem toNat_ofNat_byte {b : UInt8} (h : b.toNat < 0x80) :
    (Char.ofNat b.toNat).toNat = b.toNat := by
  have hvalid : b.toNat.isValidChar := .inl (by omega)
  rw [Char.ofNat, dif_pos hvalid]
  rfl

theorem mem_utf8EncodeChar_iff {b : UInt8} (h : b.toNat < 0x80) (c : Char) :
    b ∈ String.utf8EncodeChar c ↔ c = Char.ofNat b.toNat := by
  have hmax := toNat_lt_max c
  have hne : ∀ {n : Nat}, 0x80 ≤ n → n < 256 → b ≠ .ofNat n := by
    rintro n hlow hhigh rfl
    rw [toNat_ofNat_lt hhigh] at h
    omega
  have hlong : 0x80 ≤ c.toNat → c ≠ Char.ofNat b.toNat := by
    rintro hc rfl
    rw [toNat_ofNat_byte h] at hc
    omega
  have hval : c.val.toNat = c.toNat := rfl
  delta String.utf8EncodeChar
  simp only [hval]
  split_ifs
  · rw [List.mem_singleton]
    constructor
    · rintro rfl
      rw [toNat_ofNat_lt (by omega), Char.ofNat_toNat]
    · intro hc
      rw [hc, toNat_ofNat_byte h, UInt8.ofNat_toNat]
  all_goals
    simp only [hlong (by omega), iff_false, List.mem_cons, List.not_mem_nil, or_false, not_or]
  · exact ⟨hne (by omega) (by omega), hne (by omega) (by omega)⟩
  · exact ⟨hne (by omega) (by omega), hne (by omega) (by omega), hne (by omega) (by omega)⟩
  · exact ⟨hne (by omega) (by omega), hne (by omega) (by omega), hne (by omega) (by omega),
      hne (by omega) (by omega)⟩

theorem mem_encode_iff {b : UInt8} (h : b.toNat < 0x80) (cs : List Char) :
    b ∈ encode cs ↔ Char.ofNat b.toNat ∈ cs := by
  simp only [encode, List.mem_flatMap, mem_utf8EncodeChar_iff h, exists_eq_right]

theorem le_toNat_of_charAt?_eq_none {lead : UInt8} {rest : Bytes} (h : charAt? lead rest = none) :
    0x80 ≤ lead.toNat := by
  rw [charAt?] at h
  split at h
  · cases h
  · omega

/-- An ASCII character is read from its own byte only. -/
theorem mem_decode_iff {b : UInt8} (h : b.toNat < 0x80) (bs : Bytes) :
    Char.ofNat b.toNat ∈ decode bs ↔ b ∈ bs := by
  unfold decode
  fun_induction glyphs bs with
  | case1 => exact iff_of_false List.not_mem_nil List.not_mem_nil
  | case2 lead rest c k hchar ih =>
    rw [List.map_cons, List.mem_cons, ih, ← utf8EncodeChar_append_drop hchar, List.mem_append,
      mem_utf8EncodeChar_iff h]
    exact or_congr_left eq_comm
  | case3 lead rest hstray ih =>
    have hlead := le_toNat_of_charAt?_eq_none hstray
    have hbyte : b ≠ lead := by
      rintro rfl
      omega
    have hchar : Char.ofNat b.toNat ≠ '\ufffd' := by
      intro hc
      have hnat := congrArg Char.toNat hc
      rw [toNat_ofNat_byte h] at hnat
      change b.toNat = 0xFFFD at hnat
      omega
    rw [List.map_cons, List.mem_cons, ih, List.mem_cons]
    exact or_congr (iff_of_false hchar hbyte) Iff.rfl

theorem utf8EncodeChar_byte {b : UInt8} (h : b.toNat < 0x80) :
    String.utf8EncodeChar (Char.ofNat b.toNat) = [b] := by
  have hval : (Char.ofNat b.toNat).val.toNat = b.toNat := toNat_ofNat_byte h
  delta String.utf8EncodeChar
  simp only [hval]
  rw [if_pos (by omega), UInt8.ofNat_toNat]

theorem glyphs_cons_of_lt {b : UInt8} (h : b.toNat < 0x80) (rest : Bytes) :
    glyphs (b :: rest) = .char (Char.ofNat b.toNat) :: glyphs rest := by
  rw [glyphs, charAt?]
  simp only [if_pos h, List.drop_zero]

/-- An ASCII character in front that is no white space stays in front. -/
theorem head?_trim {b : UInt8} {rest : Bytes} (h : b.toNat < 0x80)
    (hspace : isSpace (Char.ofNat b.toNat) = false) : (trim (b :: rest)).head? = some b := by
  have hhead : (strip (Glyph.charSatisfies isSpace)
      (.char (Char.ofNat b.toNat) :: glyphs rest)).head? = some (.char (Char.ofNat b.toNat)) :=
    head?_strip hspace
  obtain ⟨later, hlater⟩ := List.head?_eq_some_iff.mp hhead
  rw [trim, glyphs_cons_of_lt h, hlater, joinGlyphs, List.flatMap_cons, Glyph.bytes,
    utf8EncodeChar_byte h]
  rfl

theorem decode_append_newline (bs rest : Bytes) :
    decode (bs ++ 0x0A :: rest) = decode bs ++ '\n' :: decode rest := by
  have hcut : IsCut (0x0A :: rest) := by
    intro b hb
    cases hb
    decide
  rw [decode_append hcut]
  congr 1
  rw [decode, glyphs, charAt?]
  rfl

/-! ## Lines -/

/-- The lines of a text are read as they are read in the whole text. -/
theorem splitOn_decode (bs : Bytes) :
    (decode bs).splitOn '\n' = (bs.splitOn 0x0A).map decode := by
  have hmem : ∀ part : Bytes, '\n' ∈ decode part ↔ 0x0A ∈ part := fun part =>
    mem_decode_iff (b := 0x0A) (by decide) part
  induction hn : bs.length using Nat.strongRecOn generalizing bs with
  | ind n ih =>
    by_cases hline : 0x0A ∈ bs
    · obtain ⟨part, rest, rfl, hpart⟩ := List.eq_append_cons_of_mem hline
      have hshort : rest.length < n := by
        rw [← hn, List.length_append, List.length_cons]
        omega
      rw [decode_append_newline, List.splitOn_append_cons_self_of_not_mem hpart,
        List.splitOn_append_cons_self_of_not_mem (mt (hmem part).mp hpart), ih _ hshort rest rfl]
      rfl
    · rw [List.splitOn_eq_singleton hline, List.splitOn_eq_singleton (mt (hmem bs).mp hline)]
      rfl

end Dialogue.Text
