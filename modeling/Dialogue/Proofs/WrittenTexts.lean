import Dialogue.Proofs.ErrorPlaces

/-!
# Texts written as strings

Every text can be written between quotes: quotes and backslashes behind a backslash, and white space
at its ends by its code. The string that is written this way is read as the text.
-/

namespace Dialogue

namespace Text

theorem isSpace_head?_strip (cs : List Char) :
    ∀ c ∈ (strip isSpace cs).head?, isSpace c = false := by
  intro c hc
  obtain ⟨back, hback⟩ : strip isSpace cs <+: cs.dropWhile isSpace := by
    have hsuffix := List.dropWhile_suffix isSpace (l := (cs.dropWhile isSpace).reverse)
    rw [← List.reverse_prefix, List.reverse_reverse] at hsuffix
    exact hsuffix
  have hhead := List.head?_dropWhile_not isSpace cs
  rw [← hback, List.head?_append, hc] at hhead
  simpa using hhead

theorem isSpace_getLast?_strip (cs : List Char) :
    ∀ c ∈ (strip isSpace cs).getLast?, isSpace c = false := by
  intro c hc
  have hhead := List.head?_dropWhile_not isSpace (cs.dropWhile isSpace).reverse
  rw [strip, List.getLast?_reverse] at hc
  rw [hc] at hhead
  simpa using hhead

/-- The white space at the end of a text that is not all white space. -/
def spaceBehind (cs : List Char) : List Char :=
  ((cs.dropWhile isSpace).reverse.takeWhile isSpace).reverse

theorem takeWhile_append_strip_append (cs : List Char) :
    cs.takeWhile isSpace ++ (strip isSpace cs ++ spaceBehind cs) = cs := by
  have hback : strip isSpace cs ++ spaceBehind cs = cs.dropWhile isSpace := by
    rw [strip, spaceBehind, ← List.reverse_append, List.takeWhile_append_dropWhile,
      List.reverse_reverse]
  rw [hback, List.takeWhile_append_dropWhile]

theorem isSpace_of_mem_spaceBehind {cs : List Char} {c : Char} (h : c ∈ spaceBehind cs) :
    isSpace c = true :=
  List.mem_takeWhile_imp (List.mem_reverse.mp h)

/-- The code points of the white space characters. -/
def spaceCodes : List Nat :=
  List.range' 0x09 5 ++ [0x20, 0x85, 0xA0, 0x1680] ++ List.range' 0x2000 11 ++
    [0x2028, 0x2029, 0x202F, 0x205F, 0x3000]

theorem toNat_mem_spaceCodes {c : Char} (h : isSpace c = true) : c.toNat ∈ spaceCodes := by
  simp only [isSpace, Bool.or_eq_true, Bool.and_eq_true, decide_eq_true_eq, beq_iff_eq] at h
  simp only [spaceCodes, List.mem_append, List.mem_range'_1, List.mem_cons, List.not_mem_nil,
    or_false]
  omega

end Text

namespace Script

open LexUnit (QuotedBody HasBareEnds)

namespace LexUnit

theorem HasBareEnds.append {cs ds : List Char} (hcs : HasBareEnds cs) (hds : HasBareEnds ds) :
    HasBareEnds (cs ++ ds) := by
  constructor
  · intro c hc
    rw [List.head?_append] at hc
    rcases Option.or_eq_some_iff.mp hc with hc | ⟨-, hc⟩
    · exact hcs.1 c hc
    · exact hds.1 c hc
  · intro c hc
    rw [List.getLast?_append] at hc
    rcases Option.or_eq_some_iff.mp hc with hc | ⟨-, hc⟩
    · exact hds.2 c hc
    · exact hcs.2 c hc

theorem HasBareEnds.trim_encode {cs : List Char} (h : HasBareEnds cs) :
    Text.trim (Text.encode cs) = Text.encode cs := by
  rw [Text.trim_encode, Text.strip_eq_self h.1 h.2]

end LexUnit

namespace Literal

/-! ## Expanding -/

theorem expand_skip [CharName.Names] (cs rest : List Char) :
    expand cs.length (cs ++ rest) = expand 0 rest := by
  induction cs with
  | nil => rfl
  | cons c cs ih => exact ih

theorem expand_of_at? [CharName.Names] {c d : Char} (cs : List Char) {rest : List Char}
    (h : Escape.at? (c :: (cs ++ rest)) = some ⟨cs.length + 1, some d⟩) :
    expand 0 (c :: (cs ++ rest)) = d :: expand 0 rest := by
  rw [expand, h]
  exact congrArg (d :: ·) (expand_skip cs rest)

theorem at?_of_ne [CharName.Names] {c : Char} (h : c ≠ '\\') (cs : List Char) :
    Escape.at? (c :: cs) = none := by
  have hstart {d : Char} {ds : List Char} (heq : c :: cs = '\\' :: d :: ds) : False :=
    h (List.cons.inj heq).1
  rw [Escape.at?]
  all_goals
    intros
    apply hstart
    assumption

theorem expand_of_hasEscape_eq_false [CharName.Names] {cs : List Char} (h : hasEscape cs = false) :
    expand 0 cs = cs := by
  induction cs with
  | nil => rfl
  | cons c cs ih =>
    rw [hasEscape, Bool.or_eq_false_iff] at h
    have hnone : Escape.at? (c :: cs) = none := by simpa using h.1
    rw [expand, hnone]
    exact congrArg (c :: ·) (ih h.2)

theorem unescape_encode [CharName.Names] (cs : List Char) :
    unescape (Text.encode cs) = Text.encode (expand 0 cs) := by
  rw [unescape, Text.decode_encode]
  split
  · rfl
  · rename_i h
    rw [expand_of_hasEscape_eq_false (by simpa using h)]

/-! ## Spellings -/

/-- Whether characters can stand in a string for a text, whatever comes behind them. -/
def Spells [CharName.Names] (w text : List Char) : Prop :=
  (∀ body, QuotedBody body → QuotedBody (w ++ body)) ∧
    ∀ rest, expand 0 (w ++ rest) = text ++ expand 0 rest

theorem Spells.nil [CharName.Names] : Spells [] [] :=
  ⟨fun _ hbody => hbody, fun _ => rfl⟩

theorem Spells.append [CharName.Names] {w w' text text' : List Char} (h : Spells w text)
    (h' : Spells w' text') : Spells (w ++ w') (text ++ text') := by
  constructor
  · intro body hbody
    rw [List.append_assoc]
    exact h.1 _ (h'.1 body hbody)
  · intro rest
    rw [List.append_assoc, h.2, h'.2, List.append_assoc]

theorem Spells.flatMap [CharName.Names] {f : Char → List Char} {text : List Char}
    (h : ∀ c ∈ text, Spells (f c) [c]) : Spells (text.flatMap f) text := by
  induction text with
  | nil => exact .nil
  | cons c text ih =>
    obtain ⟨hc, htext⟩ := List.forall_mem_cons.mp h
    exact hc.append (ih htext)

/-- A character as it is, or behind a backslash if it has a meaning in strings. -/
def backslashed (c : Char) : List Char :=
  if c = '"' ∨ c = '\\' then ['\\', c] else [c]

theorem spells_backslashed [CharName.Names] (c : Char) : Spells (backslashed c) [c] := by
  rw [backslashed]
  split
  · rename_i hc
    constructor
    · intro body hbody
      apply QuotedBody.escaped c body _ hbody
      rcases hc with rfl | rfl
      · decide
      · decide
    · intro rest
      apply expand_of_at? [c]
      rcases hc with rfl | rfl
      · rfl
      · rfl
  · rename_i hc
    rw [not_or] at hc
    constructor
    · intro body hbody
      exact .plain c body hc.1 hc.2 hbody
    · intro rest
      rw [List.singleton_append, expand, at?_of_ne hc.2]
      rfl

/-- The four digits of the code of a character. -/
def digits (capital : Bool) (c : Char) : List Char :=
  (if capital then Numeral.upperHex 4 c.toNat else Numeral.lowerHex 4 c.toNat).toList

/-- A character by its code. -/
def coded (capital : Bool) (c : Char) : List Char :=
  '\\' :: 'u' :: digits capital c

/-- Whether four characters without a meaning in strings are the code of a character. -/
def IsCode (ds : List Char) (c : Char) : Prop :=
  ds.length = 4 ∧ (∀ d ∈ ds, Text.isSpace d = false ∧ d ≠ '"' ∧ d ≠ '\\') ∧
    (Numeral.read? 16 (UInt32.size - 1) ds).bind (Text.scalar? 0) = some c

instance (ds : List Char) (c : Char) : Decidable (IsCode ds c) :=
  haveI := List.decidableBAll (fun d => Text.isSpace d = false ∧ d ≠ '"' ∧ d ≠ '\\') ds
  inferInstanceAs (Decidable (_ ∧ _))

theorem isCode_digits (capital : Bool) {c : Char} (h : Text.isSpace c = true) :
    IsCode (digits capital c) c := by
  have hcodes : ∀ n ∈ Text.spaceCodes, ∀ capital,
      IsCode (digits capital (Char.ofNat n)) (Char.ofNat n) := by decide +kernel
  have hcode := hcodes c.toNat (Text.toNat_mem_spaceCodes h) capital
  rwa [Char.ofNat_toNat] at hcode

theorem quotedBody_append {ds body : List Char} (hds : ∀ d ∈ ds, d ≠ '"' ∧ d ≠ '\\')
    (hbody : QuotedBody body) : QuotedBody (ds ++ body) := by
  induction ds with
  | nil => exact hbody
  | cons d ds ih =>
    obtain ⟨hd, hds⟩ := List.forall_mem_cons.mp hds
    exact .plain d _ hd.1 hd.2 (ih hds)

theorem IsCode.spells [CharName.Names] {ds : List Char} {c : Char} (h : IsCode ds c) :
    Spells ('\\' :: 'u' :: ds) [c] := by
  obtain ⟨hlength, hplain, hread⟩ := h
  constructor
  · intro body hbody
    apply QuotedBody.escaped 'u' (ds ++ body) (by decide)
    exact quotedBody_append (fun d hd => (hplain d hd).2) hbody
  · intro rest
    apply expand_of_at? ('u' :: ds)
    have htake : (ds ++ rest).take 4 = ds := List.take_left' hlength
    have hline : '\n' ∉ ds := fun hmem => absurd (hplain _ hmem).1 (by decide)
    rw [List.cons_append, Escape.at?, Escape.hexadecimal?, htake, if_pos ⟨hlength, hline⟩, hread,
      List.length_cons, hlength]

/-! ## Writing -/

/-- A text as it is written between quotes, with small or with capital letters in its codes. -/
def write (capital : Bool) (text : List Char) : List Char :=
  (text.takeWhile Text.isSpace).flatMap (coded capital) ++
    ((Text.strip Text.isSpace text).flatMap backslashed ++
      (Text.spaceBehind text).flatMap (coded capital))

theorem spells_write [CharName.Names] (capital : Bool) (text : List Char) :
    Spells (write capital text) text := by
  have hcoded : ∀ c, Text.isSpace c = true → Spells (coded capital c) [c] := fun c hc =>
    (isCode_digits capital hc).spells
  have hwhole : Spells (write capital text) (text.takeWhile Text.isSpace ++
      (Text.strip Text.isSpace text ++ Text.spaceBehind text)) := by
    apply Spells.append
    · exact Spells.flatMap fun c hc => hcoded c (List.mem_takeWhile_imp hc)
    · apply Spells.append
      · exact Spells.flatMap fun c _ => spells_backslashed c
      · exact Spells.flatMap fun c hc => hcoded c (Text.isSpace_of_mem_spaceBehind hc)
  rwa [Text.takeWhile_append_strip_append] at hwhole

theorem quotedBody_write (capital : Bool) (text : List Char) : QuotedBody (write capital text) := by
  have hbody := (spells_write capital text).1 [] .nil
  rwa [List.append_nil] at hbody

theorem expand_write [CharName.Names] (capital : Bool) (text : List Char) :
    expand 0 (write capital text) = text := by
  have hexpand := (spells_write capital text).2 []
  rwa [List.append_nil, expand, List.append_nil] at hexpand

theorem hasBareEnds_coded (capital : Bool) {cs : List Char}
    (h : ∀ c ∈ cs, Text.isSpace c = true) : HasBareEnds (cs.flatMap (coded capital)) := by
  apply LexUnit.hasBareEnds_of_forall
  intro d hd
  obtain ⟨c, hc, hd⟩ := List.mem_flatMap.mp hd
  rcases List.mem_cons.mp hd with rfl | hd
  · rfl
  · rcases List.mem_cons.mp hd with rfl | hd
    · rfl
    · exact ((isCode_digits capital (h c hc)).2.1 d hd).1

theorem hasBareEnds_backslashed {cs : List Char} (h : HasBareEnds cs) :
    HasBareEnds (cs.flatMap backslashed) := by
  constructor
  · intro d hd
    cases cs with
    | nil => cases hd
    | cons c cs =>
      rw [List.flatMap_cons, backslashed] at hd
      split at hd
      · cases hd
        rfl
      · cases hd
        exact h.1 _ rfl
  · intro d hd
    rcases List.eq_nil_or_concat' cs with rfl | ⟨cs, c, rfl⟩
    · cases hd
    · have hlast : ((cs ++ [c]).flatMap backslashed).getLast? = some c := by
        rw [List.flatMap_append, List.flatMap_singleton, backslashed]
        split
        · simp
        · simp
      rw [hlast] at hd
      cases hd
      exact h.2 _ (by simp)

theorem hasBareEnds_write (capital : Bool) (text : List Char) :
    HasBareEnds (write capital text) := by
  apply LexUnit.HasBareEnds.append
  · exact hasBareEnds_coded capital fun c hc => List.mem_takeWhile_imp hc
  · apply LexUnit.HasBareEnds.append
    · exact hasBareEnds_backslashed
        ⟨Text.isSpace_head?_strip text, Text.isSpace_getLast?_strip text⟩
    · exact hasBareEnds_coded capital fun c hc => Text.isSpace_of_mem_spaceBehind hc

/-- A text as a string. -/
def quote (capital : Bool) (text : List Char) : List Char :=
  '"' :: (write capital text ++ ['"'])

theorem encode_quote (capital : Bool) (text : List Char) :
    Text.encode (quote capital text) = 0x22 :: (Text.encode (write capital text) ++ [0x22]) :=
  congrArg (0x22 :: ·) (Text.encode_append (write capital text) ['"'])

theorem between?_quote (capital : Bool) (text : List Char) :
    between? (Text.encode (quote capital text)) = some (Text.encode (write capital text)) := by
  rw [encode_quote, between?, List.getLast?_concat, if_pos rfl, List.dropLast_concat]

theorem read_quote [CharName.Names] (capital : Bool) {text : List Char} (h : '\x00' ∉ text) :
    read (Text.encode (quote capital text)) = .ok (Text.encode text) := by
  have hzero : 0 ∉ Text.encode text := mt (Text.mem_encode_iff (b := 0) (by decide) text).mp h
  rw [read, between?_quote]
  simp only [(hasBareEnds_write capital text).trim_encode, unescape_encode, expand_write]
  rw [if_neg hzero]

end Literal

end Script

end Dialogue
