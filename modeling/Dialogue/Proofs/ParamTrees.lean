import Dialogue.Proofs.EncodableScripts
import Dialogue.Proofs.GuardedTexts
import Dialogue.Proofs.LookAhead
import Dialogue.Proofs.WrittenTexts

/-!
# Trees of parameters

Parameters and groups of parameters, nested to any depth, are written with commas between them. A
group is read as the parameters that stand in it, from left to right. As a unit a group in
parentheses ends at the first closing parenthesis, so what a script holds in parentheses may not
have another one inside.
-/

namespace Dialogue

theorem Text.strip_padded {before after : List Char} (hbefore : ∀ c ∈ before, isSpace c = true)
    (hafter : ∀ c ∈ after, isSpace c = true) (cs : List Char) :
    strip isSpace (before ++ (cs ++ after)) = strip isSpace cs := by
  rw [strip, strip, List.dropWhile_append_of_pos hbefore, List.dropWhile_append]
  split
  · rename_i hempty
    rw [List.isEmpty_iff.mp hempty, List.dropWhile_eq_nil_iff.mpr hafter]
  · have hafter : ∀ c ∈ after.reverse, isSpace c = true := fun c hc =>
      hafter c (List.mem_reverse.mp hc)
    rw [List.reverse_append, List.dropWhile_append_of_pos hafter]

theorem Text.trim_padded {before after : List Char} (hbefore : ∀ c ∈ before, isSpace c = true)
    (hafter : ∀ c ∈ after, isSpace c = true) (cs : List Char) :
    trim (encode (before ++ (cs ++ after))) = trim (encode cs) := by
  rw [trim_encode, trim_encode, strip_padded hbefore hafter]

namespace Script

open Guarded (prepend)

/-- Whether a character has no meaning in groups. -/
def isBareChar (c : Char) : Bool :=
  !Text.isSpace c && c ∉ [',', '"', '(', ')', '[', ']']

/-- A parameter without quotes. -/
structure BareToken where
  chars : List Char
  ne_nil : chars ≠ []
  isBare : chars.all isBareChar = true

theorem BareToken.plain (token : BareToken) :
    ∀ c ∈ token.chars, Text.isSpace c = false ∧ c ∉ [',', '"', '(', ')', '[', ']'] := by
  intro c hc
  have hbare := List.all_eq_true.mp token.isBare c hc
  rwa [isBareChar, Bool.and_eq_true, Bool.not_eq_true', decide_eq_true_eq] at hbare

/-- A text that a string can stand for. -/
structure SpokenText where
  chars : List Char
  nul_notMem : '\x00' ∉ chars

structure Blank where
  chars : List Char
  isSpace : chars.all Text.isSpace = true

/-- What stands between two commas of a group. -/
inductive ParamTree where
  | bare (token : BareToken)
  | quoted (capital : Bool) (text : SpokenText)
  | group (square : Bool) (parts : List ParamTree)
  | nothing
  | padded (before after : Blank) (tree : ParamTree)

namespace ParamTree

theorem tree_induction {P : ParamTree → Prop} (bare : ∀ token, P (.bare token))
    (quoted : ∀ capital text, P (.quoted capital text))
    (group : ∀ square parts, (∀ t ∈ parts, P t) → P (.group square parts)) (nothing : P .nothing)
    (padded : ∀ before after t, P t → P (.padded before after t)) : ∀ t, P t
  | .bare token => bare token
  | .quoted capital text => quoted capital text
  | .group square parts => group square parts fun t _ =>
    tree_induction bare quoted group nothing padded t
  | .nothing => nothing
  | .padded before after t => padded before after t
    (tree_induction bare quoted group nothing padded t)

/-- A text between the signs of a group. -/
def enclosed (square : Bool) (inner : List Char) : List Char :=
  if square then '[' :: (inner ++ [']']) else '(' :: (inner ++ [')'])

mutual

def render : ParamTree → List Char
  | .bare token => token.chars
  | .quoted capital text => Literal.quote capital text.chars
  | .group square parts => enclosed square ([','].intercalate (renderAll parts))
  | .nothing => []
  | .padded before after t => before.chars ++ (t.render ++ after.chars)

def renderAll : List ParamTree → List (List Char)
  | [] => []
  | t :: ts => t.render :: renderAll ts

end

mutual

/-- The parameters of a tree from left to right. -/
def leaves : ParamTree → List Bytes
  | .bare token => [Text.encode token.chars]
  | .quoted _ text => [Text.encode text.chars]
  | .group _ parts => leavesAll parts
  | .nothing => []
  | .padded _ _ t => t.leaves

def leavesAll : List ParamTree → List Bytes
  | [] => []
  | t :: ts => t.leaves ++ leavesAll ts

end

/-- What a group of trees holds between its signs. -/
def contents (ts : List ParamTree) : List Char :=
  [','].intercalate (renderAll ts)

theorem renderAll_eq_map (ts : List ParamTree) : renderAll ts = ts.map render := by
  induction ts with
  | nil => rfl
  | cons t ts ih => rw [renderAll, ih, List.map_cons]

theorem leavesAll_eq_flatten (ts : List ParamTree) : leavesAll ts = (ts.map leaves).flatten := by
  induction ts with
  | nil => rfl
  | cons t ts ih => rw [leavesAll, ih, List.map_cons, List.flatten_cons]

end ParamTree

namespace ParamGroup

/-! ## Texts that are not cut -/

theorem piecesFrom_cons {s : Scan} {b : UInt8} (hcut : ¬ (s.isTop = true ∧ b = 0x2C))
    (s' : Scan) (hstep : s.step b = s') (rest : Bytes) :
    piecesFrom s (b :: rest) = prepend [b] (piecesFrom s' rest) := by
  rw [piecesFrom, if_neg hcut, hstep]
  rfl

/-- Whether a text, in groups nested at least so deep, is not cut and leaves a scan as it was. -/
def Passes (least : Nat) (bs : Bytes) : Prop :=
  ∀ depth, least ≤ depth → ∀ rest,
    piecesFrom ⟨depth, .outside⟩ (bs ++ rest) = prepend bs (piecesFrom ⟨depth, .outside⟩ rest)

theorem Passes.mono {least least' : Nat} {bs : Bytes} (h : Passes least bs)
    (hle : least ≤ least') : Passes least' bs :=
  fun depth hdepth => h depth (Nat.le_trans hle hdepth)

theorem passes_nil (least : Nat) : Passes least [] :=
  fun _ _ _ => (Guarded.prepend_nil _).symm

theorem Passes.append {least : Nat} {bs bs' : Bytes} (h : Passes least bs)
    (h' : Passes least bs') : Passes least (bs ++ bs') := by
  intro depth hdepth rest
  rw [List.append_assoc, h depth hdepth, h' depth hdepth, Guarded.prepend_prepend]

theorem step_outside {b : UInt8} (h : b ∉ [0x22, 0x28, 0x29, 0x5B, 0x5D]) (depth : Nat) :
    Scan.step ⟨depth, .outside⟩ b = ⟨depth, .outside⟩ := by
  have hne (a : UInt8) (ha : a ∈ [0x22, 0x28, 0x29, 0x5B, 0x5D]) :
      Char.ofUInt8 b ≠ Char.ofUInt8 a := by
    intro heq
    rw [ofUInt8_inj heq] at h
    exact h ha
  rw [Scan.step]
  split
  case h_1 hquoting => cases hquoting
  case h_2 hquoting _ => cases hquoting
  case h_3 hquoting _ => cases hquoting
  case h_4 hquoting _ _ => cases hquoting
  case h_5 hb => exact absurd hb (hne 0x22 (by decide))
  case h_6 hb => exact absurd hb (hne 0x28 (by decide))
  case h_7 hb => exact absurd hb (hne 0x5B (by decide))
  case h_8 hb => exact absurd hb (hne 0x29 (by decide))
  case h_9 hb => exact absurd hb (hne 0x5D (by decide))
  case h_10 => rfl

theorem step_inside {b : UInt8} (h : b ≠ 0x22 ∧ b ≠ 0x5C) (depth : Nat) :
    Scan.step ⟨depth, .inside⟩ b = ⟨depth, .inside⟩ := by
  rw [Scan.step]
  split
  case h_1 hquoting => cases hquoting
  case h_2 hb => exact absurd (ofUInt8_inj hb) h.2
  case h_3 hb => exact absurd (ofUInt8_inj hb) h.1
  case h_4 => rfl
  case h_5 hquoting _ => cases hquoting
  case h_6 hquoting _ => cases hquoting
  case h_7 hquoting _ => cases hquoting
  case h_8 hquoting _ => cases hquoting
  case h_9 hquoting _ => cases hquoting
  case h_10 hquoting _ _ _ _ _ => cases hquoting

/-- A comma passes inside of groups only. -/
theorem passes_byte {least : Nat} {b : UInt8} (h : b ∉ [0x22, 0x28, 0x29, 0x5B, 0x5D])
    (hcomma : least = 0 → b ≠ 0x2C) : Passes least [b] := by
  intro depth hdepth rest
  apply piecesFrom_cons _ _ (step_outside h depth)
  rintro ⟨htop, hb⟩
  have hdepth0 : depth = 0 := by simpa [Scan.isTop] using htop
  exact hcomma (by omega) hb

theorem passes_of_forall {bs : Bytes} (h : ∀ b ∈ bs, b ∉ [0x2C, 0x22, 0x28, 0x29, 0x5B, 0x5D]) :
    Passes 0 bs := by
  induction bs with
  | nil => exact passes_nil 0
  | cons b bs ih =>
    obtain ⟨hb, hbs⟩ := List.forall_mem_cons.mp h
    rw [List.mem_cons, not_or] at hb
    exact (passes_byte hb.2 fun _ => hb.1).append (ih hbs)

theorem passes_between {opener closer : UInt8} {inner : Bytes}
    (hopen : ∀ depth, Scan.step ⟨depth, .outside⟩ opener = ⟨depth + 1, .outside⟩)
    (hclose : ∀ depth, Scan.step ⟨depth + 1, .outside⟩ closer = ⟨depth, .outside⟩)
    (hcomma : opener ≠ 0x2C ∧ closer ≠ 0x2C) (h : Passes 1 inner) :
    Passes 0 (opener :: (inner ++ [closer])) := by
  intro depth _ rest
  have hfirst (bs : Bytes) : piecesFrom ⟨depth, .outside⟩ (opener :: bs) =
      prepend [opener] (piecesFrom ⟨depth + 1, .outside⟩ bs) :=
    piecesFrom_cons (fun hcut => hcomma.1 hcut.2) _ (hopen depth) bs
  have hlast (bs : Bytes) : piecesFrom ⟨depth + 1, .outside⟩ (closer :: bs) =
      prepend [closer] (piecesFrom ⟨depth, .outside⟩ bs) :=
    piecesFrom_cons (fun hcut => hcomma.2 hcut.2) _ (hclose depth) bs
  rw [List.cons_append, List.append_assoc, hfirst, h (depth + 1) (Nat.le_add_left 1 depth),
    List.singleton_append, hlast, Guarded.prepend_prepend, Guarded.prepend_prepend]
  rfl

theorem piecesFrom_inside {bs : Bytes} (h : ∀ b ∈ bs, b ≠ 0x22 ∧ b ≠ 0x5C) (depth : Nat)
    (rest : Bytes) :
    piecesFrom ⟨depth, .inside⟩ (bs ++ rest) = prepend bs (piecesFrom ⟨depth, .inside⟩ rest) := by
  induction bs with
  | nil => exact (Guarded.prepend_nil _).symm
  | cons b bs ih =>
    obtain ⟨hb, hbs⟩ := List.forall_mem_cons.mp h
    rw [List.cons_append, piecesFrom_cons (by simp [Scan.isTop]) _ (step_inside hb depth),
      ih hbs, Guarded.prepend_prepend]
    rfl

theorem piecesFrom_quotedBody {body : List Char} (h : LexUnit.QuotedBody body) (depth : Nat)
    (rest : Bytes) :
    piecesFrom ⟨depth, .inside⟩ (Text.encode body ++ rest) =
      prepend (Text.encode body) (piecesFrom ⟨depth, .inside⟩ rest) := by
  induction h with
  | nil => exact (Guarded.prepend_nil _).symm
  | plain c cs hquote hback _ ih =>
    have hbytes : ∀ b ∈ String.utf8EncodeChar c, b ≠ 0x22 ∧ b ≠ 0x5C := by
      intro b hb
      constructor
      · rintro rfl
        exact hquote ((Text.mem_utf8EncodeChar_iff (by decide) c).mp hb)
      · rintro rfl
        exact hback ((Text.mem_utf8EncodeChar_iff (by decide) c).mp hb)
    have hencode : Text.encode (c :: cs) = String.utf8EncodeChar c ++ Text.encode cs :=
      List.flatMap_cons
    rw [hencode, List.append_assoc, piecesFrom_inside hbytes, ih, Guarded.prepend_prepend]
  | escaped c cs hline _ ih =>
    obtain ⟨lead, more, hlead, -⟩ := Text.charAt?_utf8EncodeChar c
    -- Only the first byte of a character can be mistaken for a sign.
    have hmore : ∀ b ∈ more, ¬ b.toNat < 0x80 := by
      intro b hb hlow
      have hmem : b ∈ String.utf8EncodeChar c := hlead ▸ List.mem_cons_of_mem lead hb
      rw [(Text.mem_utf8EncodeChar_iff hlow c).mp hmem, Text.utf8EncodeChar_byte hlow] at hlead
      cases hlead
      cases hb
    have hbytes : ∀ b ∈ more, b ≠ 0x22 ∧ b ≠ 0x5C := by
      intro b hb
      constructor
      · rintro rfl
        exact hmore _ hb (by decide)
      · rintro rfl
        exact hmore _ hb (by decide)
    have hencode : Text.encode ('\\' :: c :: cs) = 0x5C :: lead :: (more ++ Text.encode cs) := by
      rw [Text.encode, List.flatMap_cons, List.flatMap_cons, hlead]
      rfl
    rw [hencode, List.cons_append, piecesFrom_cons (by simp [Scan.isTop]) ⟨depth, .escaped⟩ rfl,
      List.cons_append, piecesFrom_cons (by simp [Scan.isTop]) ⟨depth, .inside⟩ rfl,
      List.append_assoc, piecesFrom_inside hbytes, ih, Guarded.prepend_prepend,
      Guarded.prepend_prepend, Guarded.prepend_prepend]
    rfl

theorem passes_quotedBody {body : List Char} (h : LexUnit.QuotedBody body) :
    Passes 0 (0x22 :: (Text.encode body ++ [0x22])) := by
  intro depth _ rest
  rw [List.cons_append, piecesFrom_cons (by simp) ⟨depth, .inside⟩ rfl, List.append_assoc,
    piecesFrom_quotedBody h, List.singleton_append,
    piecesFrom_cons (by simp) ⟨depth, .outside⟩ rfl, Guarded.prepend_prepend,
    Guarded.prepend_prepend]
  rfl

theorem passes_intercalate {parts : List Bytes} (h : ∀ p ∈ parts, Passes 0 p) :
    Passes 1 ([0x2C].intercalate parts) := by
  induction parts with
  | nil => exact passes_nil 1
  | cons part parts ih =>
    obtain ⟨hpart, hparts⟩ := List.forall_mem_cons.mp h
    have hpart : Passes 1 part := hpart.mono (Nat.zero_le 1)
    cases parts with
    | nil =>
      rw [List.intercalate_singleton]
      exact hpart
    | cons next parts =>
      have hcomma : Passes 1 [0x2C] :=
        passes_byte (by decide) fun hleast => absurd hleast Nat.one_ne_zero
      rw [List.intercalate_cons_cons]
      exact (hpart.append hcomma).append (ih hparts)

/-- Parts that are not cut are found again between the commas. -/
theorem pieces_intercalate {parts : List Bytes} (hne : parts ≠ []) (h : ∀ p ∈ parts, Passes 0 p) :
    pieces ([0x2C].intercalate parts) = parts := by
  have hpass {p : Bytes} (hp : Passes 0 p) (rest : Bytes) :
      pieces (p ++ rest) = prepend p (pieces rest) := hp 0 (Nat.le_refl 0) rest
  induction parts with
  | nil => exact absurd rfl hne
  | cons part parts ih =>
    obtain ⟨hpart, hparts⟩ := List.forall_mem_cons.mp h
    cases parts with
    | nil =>
      have hlast := hpass hpart []
      rw [List.append_nil] at hlast
      rw [List.intercalate_singleton, hlast]
      exact congrArg ([·]) (List.append_nil part)
    | cons next parts =>
      have hcut (rest : Bytes) : pieces (0x2C :: rest) = [] :: pieces rest := by
        rw [pieces, piecesFrom, if_pos ⟨rfl, rfl⟩]
        rfl
      rw [List.intercalate_cons_cons, List.append_assoc, hpass hpart, List.singleton_append, hcut,
        ih (List.cons_ne_nil next parts) hparts]
      exact congrArg (· :: next :: parts) (List.append_nil part)

end ParamGroup

namespace ParamTree

open ParamGroup

theorem encode_enclosed (square : Bool) (cs : List Char) :
    Text.encode (enclosed square cs) =
      if square then 0x5B :: (Text.encode cs ++ [0x5D])
      else 0x28 :: (Text.encode cs ++ [0x29]) := by
  cases square with
  | false => exact congrArg (0x28 :: ·) (Text.encode_append cs [')'])
  | true => exact congrArg (0x5B :: ·) (Text.encode_append cs [']'])

theorem encode_contents (ts : List ParamTree) :
    Text.encode (contents ts) =
      [0x2C].intercalate (ts.map fun t => Text.encode t.render) := by
  rw [contents, Text.encode_intercalate, renderAll_eq_map, List.map_map]
  rfl

theorem passes_encode {cs : List Char} (h : ∀ c ∈ cs, c ∉ [',', '"', '(', ')', '[', ']']) :
    Passes 0 (Text.encode cs) := by
  apply passes_of_forall
  intro b hb hsign
  have hlow : ∀ b ∈ ([0x2C, 0x22, 0x28, 0x29, 0x5B, 0x5D] : Bytes), b.toNat < 0x80 :=
    List.forall_iff_forall_mem.mp (by decide)
  have hchar : ∀ b ∈ ([0x2C, 0x22, 0x28, 0x29, 0x5B, 0x5D] : Bytes),
      Char.ofNat b.toNat ∈ [',', '"', '(', ')', '[', ']'] :=
    List.forall_iff_forall_mem.mp (by decide)
  exact h _ ((Text.mem_encode_iff (hlow b hsign) cs).mp hb) (hchar b hsign)

theorem passes_blank (blank : Blank) : Passes 0 (Text.encode blank.chars) := by
  apply passes_encode
  intro c hc hsign
  have hsigns : ∀ c ∈ [',', '"', '(', ')', '[', ']'], Text.isSpace c = false :=
    List.forall_iff_forall_mem.mp (by decide)
  have hspace := List.all_eq_true.mp blank.isSpace c hc
  rw [hsigns c hsign] at hspace
  cases hspace

theorem passes_render (t : ParamTree) : Passes 0 (Text.encode t.render) := by
  induction t using tree_induction with
  | bare token => exact passes_encode fun c hc => (token.plain c hc).2
  | quoted capital text =>
    have hbody := passes_quotedBody (Literal.quotedBody_write capital text.chars)
    rw [render, Literal.encode_quote]
    exact hbody
  | group square parts ih =>
    have hinner : Passes 1 (Text.encode (contents parts)) := by
      rw [encode_contents]
      apply passes_intercalate
      intro p hp
      obtain ⟨t, ht, rfl⟩ := List.mem_map.mp hp
      exact ih t ht
    rw [render, ← contents, encode_enclosed]
    cases square with
    | false => exact passes_between (fun _ => rfl) (fun _ => rfl) (by decide) hinner
    | true => exact passes_between (fun _ => rfl) (fun _ => rfl) (by decide) hinner
  | nothing => exact passes_nil 0
  | padded before after t ih =>
    rw [render, Text.encode_append, Text.encode_append]
    exact (passes_blank before).append (ih.append (passes_blank after))

/-! ## Reading -/

theorem readPiece_nil : readPiece [] = .ok [] := by
  have htrim : Text.trim [] = [] := Text.trim_encode []
  rw [readPiece, htrim]
  rfl

theorem readPiece_bare {cs : List Char} (hne : cs ≠ [])
    (hplain : ∀ c ∈ cs, Text.isSpace c = false ∧ c ∉ [',', '"', '(', ')', '[', ']']) :
    readPiece (Text.encode cs) = .ok [Text.encode cs] := by
  have htrim : Text.trim (Text.encode cs) = Text.encode cs :=
    (LexUnit.hasBareEnds_of_forall fun c hc => (hplain c hc).1).trim_encode
  have hspace : Text.hasSpace (Text.encode cs) = false := by
    rw [Text.hasSpace, Text.glyphs_encode, List.any_map]
    exact List.any_eq_false.mpr fun c hc => Bool.eq_false_iff.mp (hplain c hc).1
  obtain ⟨c, cs, rfl⟩ := List.exists_cons_of_ne_nil hne
  obtain ⟨lead, hlead, hhead⟩ := Text.head?_encode_cons c
  have hne (b : UInt8) (hlow : b.toNat < 0x80)
      (hb : Char.ofNat b.toNat ∈ [',', '"', '(', ')', '[', ']']) :
      Char.ofUInt8 lead ≠ Char.ofUInt8 b := by
    intro heq
    rw [ofUInt8_inj heq] at hlead
    rw [← (Text.mem_utf8EncodeChar_iff hlow c).mp hlead] at hb
    exact (hplain c List.mem_cons_self).2 hb
  rw [readPiece, htrim, hhead, hspace]
  split
  case h_1 hnone => cases hnone
  case h_2 hquote => exact absurd (Option.some.inj hquote) (hne 0x22 (by decide) (by decide))
  case h_3 hparen => exact absurd (Option.some.inj hparen) (hne 0x28 (by decide) (by decide))
  case h_4 hsquare => exact absurd (Option.some.inj hsquare) (hne 0x5B (by decide) (by decide))
  case h_5 => rfl

theorem readPiece_quote (capital : Bool) (text : SpokenText) :
    readPiece (Text.encode (Literal.quote capital text.chars)) = .ok [Text.encode text.chars] := by
  have hends : LexUnit.HasBareEnds (Literal.quote capital text.chars) :=
    LexUnit.hasBareEnds_between _ rfl rfl
  have htrim := hends.trim_encode
  have hread := Literal.read_quote capital text.nul_notMem
  rw [Literal.encode_quote] at htrim hread ⊢
  rw [readPiece, htrim]
  change (Literal.read _).map _ = _
  rw [hread]
  rfl

theorem trim_enclosed (square : Bool) (cs : List Char) :
    Text.trim (Text.encode (enclosed square cs)) = Text.encode (enclosed square cs) := by
  have hends : LexUnit.HasBareEnds (enclosed square cs) := by
    cases square with
    | false => exact LexUnit.hasBareEnds_between cs rfl rfl
    | true => exact LexUnit.hasBareEnds_between cs rfl rfl
  exact hends.trim_encode

theorem readPiece_enclosed (square : Bool) (cs : List Char) :
    readPiece (Text.encode (enclosed square cs)) = read (Text.encode (enclosed square cs)) := by
  have htrim := trim_enclosed square cs
  rw [encode_enclosed] at htrim ⊢
  rw [readPiece, htrim]
  cases square with
  | false => rfl
  | true => rfl

theorem inner?_enclosed (square : Bool) (cs : List Char) :
    inner? (Text.encode (enclosed square cs)) = some (Text.encode cs) := by
  rw [encode_enclosed]
  cases square with
  | false =>
    change ite _ (some (List.dropLast _)) none = _
    rw [List.getLast?_concat, if_pos rfl, List.dropLast_concat]
  | true =>
    change ite _ (some (List.dropLast _)) none = _
    rw [List.getLast?_concat, if_pos rfl, List.dropLast_concat]

theorem mapM_readPiece {ts : List ParamTree}
    (h : ∀ t ∈ ts, readPiece (Text.encode t.render) = .ok t.leaves) :
    (ts.map fun t => Text.encode t.render).mapM readPiece = .ok (ts.map leaves) := by
  induction ts with
  | nil => rfl
  | cons t ts ih =>
    obtain ⟨ht, hts⟩ := List.forall_mem_cons.mp h
    rw [List.map_cons, List.mapM_cons, ht, ih hts]
    rfl

theorem read_enclosed (square : Bool) {ts : List ParamTree}
    (h : ∀ t ∈ ts, readPiece (Text.encode t.render) = .ok t.leaves) :
    read (Text.encode (enclosed square (contents ts))) = .ok (leavesAll ts) := by
  rw [read_of_inner? (inner?_enclosed square (contents ts)), encode_contents]
  cases ts with
  | nil =>
    change ([[]].mapM readPiece).map List.flatten = _
    rw [List.mapM_cons, readPiece_nil]
    rfl
  | cons t ts =>
    rw [pieces_intercalate, mapM_readPiece h, leavesAll_eq_flatten]
    · rfl
    · exact List.cons_ne_nil _ _
    · intro p hp
      obtain ⟨u, -, rfl⟩ := List.mem_map.mp hp
      exact passes_render u

theorem readPiece_render (t : ParamTree) :
    readPiece (Text.encode t.render) = .ok t.leaves := by
  induction t using tree_induction with
  | bare token => exact readPiece_bare token.ne_nil token.plain
  | quoted capital text => exact readPiece_quote capital text
  | group square parts ih => exact (readPiece_enclosed square _).trans (read_enclosed square ih)
  | nothing => exact readPiece_nil
  | padded before after t ih =>
    have htrim : Text.trim (Text.encode (padded before after t).render) =
        Text.trim (Text.encode t.render) :=
      Text.trim_padded (List.all_eq_true.mp before.isSpace) (List.all_eq_true.mp after.isSpace) _
    rw [readPiece, htrim]
    exact ih

/-- A group is read as the parameters in it, whatever else stands around them. -/
theorem read_group (square : Bool) (ts : List ParamTree) :
    read (Text.encode (enclosed square (contents ts))) = .ok (leavesAll ts) :=
  read_enclosed square fun t _ => readPiece_render t

end ParamTree

/-- The parameters of the groups that are shorter than a text, and of no others. -/
def shorterGroups (bs group : Bytes) : ExceptT Fault Option (List Bytes) :=
  if group.length < bs.length then ExceptT.mk (some (ParamGroup.read group))
  else ExceptT.lift none

/-- The unit of a tree holds the parameters of the tree from left to right. Whatever a text is, its
reading goes on with shorter groups only, and comes to an end. -/
theorem groups_flatten (square : Bool) (ts : List ParamTree) (offset : Nat) (line col : Int) :
    LexUnit.group ⟨Text.encode (ParamTree.group square ts).render, offset, line, col⟩ =
        .ok (ParamTree.group square ts).leaves ∧
      ∀ bs : Bytes, (Guarded.groupBy (shorterGroups bs) bs).run = some (ParamGroup.read bs) ∧
        ∀ rounds, bs.length < rounds →
          (Guarded.readGroup rounds bs).run = some (ParamGroup.read bs) := by
  refine ⟨?_, fun bs => ⟨?_, fun rounds => Guarded.run_readGroup⟩⟩
  · have hread := ParamTree.read_group square ts
    rw [LexUnit.group]
    exact Result.mapError_eq_ok_iff.mpr hread
  · apply Guarded.run_groupBy
    intro group hgroup
    rw [shorterGroups, if_pos hgroup]
    rfl

/-- Groups of both kinds in each other, with signs in a string, and pieces without parameters. -/
def bracketed : List ParamTree :=
  [.group true [.group false [.bare ⟨['b'], by decide, by decide⟩],
      .quoted false ⟨[' ', ',', ')', '"', '\\'], by decide⟩],
    .nothing, .padded ⟨['\t'], by decide⟩ ⟨[' '], by decide⟩ (.group false [])]

theorem groups_flatten_bracketed :
    LexUnit.group ⟨Text.utf8 "([(b),\"\\u0020,)\\\"\\\\\"],,\t() )", 0, 1, 1⟩ =
        .ok [Text.utf8 "b", Text.utf8 " ,)\"\\"] ∧
      (Text.utf8 "([b])").length < 6 ∧
      (Guarded.readGroup 6 (Text.utf8 "([b])")).run = some (ParamGroup.read (Text.utf8 "([b])"))
    := by
  have hrender : Text.encode (ParamTree.group false bracketed).render =
      Text.utf8 "([(b),\"\\u0020,)\\\"\\\\\"],,\t() )" := by decide +kernel
  have hleaves : (ParamTree.group false bracketed).leaves =
      [Text.utf8 "b", Text.utf8 " ,)\"\\"] := by decide +kernel
  obtain ⟨hread, hends⟩ := groups_flatten false bracketed 0 1 1
  rw [hrender, hleaves] at hread
  exact ⟨hread, by decide, (hends (Text.utf8 "([b])")).2 6 (by decide)⟩

/-! ## Actions -/

namespace LexUnit

theorem isWordRun_of_isAlpha {c : Char} (h : c.isAlpha = true) : isWordRun c = true := by
  have hlow : c.toNat < 0x80 := by
    rcases Bool.or_eq_true_iff.mp h with hupper | hlower
    · have hrange : 'A'.val ≤ c.val ∧ c.val ≤ 'Z'.val := of_decide_eq_true hupper
      exact Nat.lt_of_le_of_lt hrange.2 (by decide)
    · have hrange := Bool.and_eq_true_iff.mp hlower
      have hle : c.val ≤ 'z'.val := of_decide_eq_true hrange.2
      exact Nat.lt_of_le_of_lt hle (by decide)
  have halnum : c.isAlphanum = true := Bool.or_eq_true_iff.mpr (.inl h)
  rw [isWordRun, Text.isWordChar, if_pos hlow, halnum]
  rfl

theorem isSpace_of_isAlpha {c : Char} (h : c.isAlpha = true) : Text.isSpace c = false := by
  cases hspace : Text.isSpace c with
  | false => rfl
  | true =>
    have hword := isWordRun_of_isAlpha h
    rw [isWordRun_of_isSpace hspace] at hword
    cases hword

/-- The units of a name behind a sigil and a group that holds no closing parenthesis. -/
theorem ofSource_action {source : Bytes} {name inner : List Char}
    (hname : ∀ c ∈ name, c.isAlpha = true) (hinner : ')' ∉ inner)
    (h : Text.decode source = '@' :: name ++ '(' :: (inner ++ [')'])) :
    ofSource source = .ok [ofChars {} ('@' :: name),
      ofChars (({} : Position).after ('@' :: name)) ('(' :: (inner ++ [')']))] := by
  have hword : UnitAt none ('@' :: name) ('(' :: (inner ++ [')'])) := by
    apply UnitAt.word
    · intro d hd
      rcases List.mem_cons.mp hd with rfl | hd
      · decide
      · exact isWordRun_of_isAlpha (hname d hd)
    · intro d hd
      cases hd
      decide
  have hgroup (prev : Option Char) : UnitAt prev ('(' :: (inner ++ [')'])) [] :=
    .parens inner [] hinner
  have hscan := scan_unit (hgroup ('@' :: name).getLast?) (({} : Position).after ('@' :: name))
  rw [List.append_nil] at hscan
  refine ofSource_eq_ok_iff.mpr ⟨?_, List.cons_ne_nil _ _⟩
  rw [h, scan_unit hword, hscan, scan]

end LexUnit

/-- An action takes the group behind it as its parameters. -/
theorem instructions_action {u v : LexUnit} {name rest : Bytes} {texts : List Bytes}
    (hu : u.trimmed.text = 0x40 :: name) (hname : name ≠ []) (hv : v.trimmed.text = 0x28 :: rest)
    (hgroup : ParamGroup.read v.trimmed.text = .ok texts) :
    instructions [u, v] =
      .ok [{ op := Operation.action.code, name := name, params := textParams texts,
             line := u.line, col := u.col }] := by
  have hsigil : u.trimmed.sigilName = .ok name := by
    have hlength := List.length_pos_iff.mpr hname
    rw [LexUnit.sigilName, hu, if_neg (by rw [List.length_cons]; omega)]
    rfl
  have hstarts : v.trimmed.startsWith 0x28 = true := LexUnit.startsWith_iff.mpr ⟨rest, hv⟩
  have haction : u.trimmed.isAction = true := LexUnit.startsWith_iff.mpr ⟨name, hu⟩
  have htexts : v.trimmed.group = .ok texts := by
    rw [LexUnit.group, hgroup]
    rfl
  have hread : u.trimmed.read (some v) = .ok (.withNext
      { op := Operation.action.code, name := name, params := textParams texts }) := by
    rw [LexUnit.read_of_isAction haction, LexUnit.readAction, hsigil]
    change ite _ _ _ = _
    rw [if_pos hstarts, htexts]
    rfl
  apply instructions_eq_ok_iff.mpr
  refine ⟨?_, List.cons_ne_nil _ _⟩
  apply readUnits_cons_eq_ok_iff.mpr
  exact ⟨_, hread, [], rfl, rfl⟩

end Script

open Script

/-- An action is compiled with the parameters of any tree that holds no closing parenthesis. Bytes
of the source that belong to no character count as U+FFFD. -/
theorem compile_action_tree (name : List Char) (ts : List ParamTree) (source : Bytes)
    (opts : CompileOptions) (hne : name ≠ []) (hname : ∀ c ∈ name, c.isAlpha = true)
    (hclose : ')' ∉ ParamTree.contents ts) (hnul : ∀ text ∈ ParamTree.leavesAll ts, 0 ∉ text)
    (hsource : Text.decode source = '@' :: name ++ (ParamTree.group false ts).render) :
    ∃ c, compile source opts = .ok c ∧
      c.instructions =
        [{ op := Operation.action.code, name := Text.encode name,
           params := textParams (ParamTree.leavesAll ts), line := 1, col := 1 }] := by
  have hunits := LexUnit.ofSource_action hname hclose hsource
  have hends : LexUnit.HasBareEnds ('@' :: name) := by
    apply LexUnit.hasBareEnds_of_forall
    intro c hc
    rcases List.mem_cons.mp hc with rfl | hc
    · rfl
    · exact LexUnit.isSpace_of_isAlpha (hname c hc)
  have hword : Text.trim (Text.encode ('@' :: name)) = 0x40 :: Text.encode name :=
    hends.trim_encode
  have hgroup := ParamTree.trim_enclosed false (ParamTree.contents ts)
  have hparams := ParamTree.read_group false ts
  rw [← hgroup] at hparams
  have hread := instructions_action (u := .ofChars {} ('@' :: name))
    (v := .ofChars (({} : Position).after ('@' :: name)) (ParamTree.enclosed false _)) hword
    (Text.encode_ne_nil hne) (hgroup.trans (ParamTree.encode_enclosed false _)) hparams
  obtain ⟨c, hc, -, his⟩ := exists_compile hunits hread opts (by
    intro i hi text htext
    rw [List.mem_singleton.mp hi] at htext
    exact hnul text (mem_of_mem_textParams htext))
  exact ⟨c, hc, his⟩

/-- Parameters of all kinds: a word, a text with white space and a quote, and a group in a group. -/
def mixedTrees : List ParamTree :=
  [.bare ⟨['l', 'e', 'f', 't'], by decide, by decide⟩,
    .padded ⟨[' '], by decide⟩ ⟨[], by decide⟩ (.quoted true ⟨[' ', 'a', '"'], by decide⟩),
    .group true [.bare ⟨['x'], by decide, by decide⟩, .nothing, .group true []]]

theorem compile_action_tree_mixedTrees :
    Text.decode (Text.utf8 "@wave(left, \"\\u0020a\\\"\",[x,,[]])") =
        '@' :: ['w', 'a', 'v', 'e'] ++ (ParamTree.group false mixedTrees).render ∧
      ∃ c, compile (Text.utf8 "@wave(left, \"\\u0020a\\\"\",[x,,[]])") {} = .ok c ∧
        c.instructions =
          [{ op := Operation.action.code, name := Text.utf8 "wave",
             params := textParams [Text.utf8 "left", Text.utf8 " a\"", Text.utf8 "x"],
             line := 1, col := 1 }] := by
  have hsource : Text.decode (Text.utf8 "@wave(left, \"\\u0020a\\\"\",[x,,[]])") =
      '@' :: ['w', 'a', 'v', 'e'] ++ (ParamTree.group false mixedTrees).render := by decide +kernel
  refine ⟨hsource, ?_⟩
  exact compile_action_tree ['w', 'a', 'v', 'e'] mixedTrees _ {} (by decide)
    (List.all_eq_true.mp (by decide)) (by decide +kernel) (by decide +kernel) hsource

/-- A group in parentheses that holds another one. -/
def nestedParens : List ParamTree :=
  [.group false [.bare ⟨['b'], by decide, by decide⟩], .bare ⟨['c'], by decide, by decide⟩]

/-- A group in parentheses does not end at its own closing sign if it holds another one. -/
theorem compile_nestedParens :
    Text.decode (Text.utf8 "@a((b),c)") =
        '@' :: ['a'] ++ (ParamTree.group false nestedParens).render ∧
      ParamTree.leavesAll nestedParens = [Text.utf8 "b", Text.utf8 "c"] ∧
      compile (Text.utf8 "@a((b),c)") {} =
        .error (.script { fault := .malformedGroup (Text.utf8 "(b"), line := 1, col := 3,
                          unit := Text.utf8 "((b)" }) := by
  refine ⟨?_, ?_, ?_⟩
  · decide +kernel
  · decide +kernel
  · decide +kernel

end Dialogue
