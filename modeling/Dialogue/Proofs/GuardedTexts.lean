import Dialogue.NameHash
import Dialogue.Proofs.GuardedDisassembly
import Dialogue.Proofs.ParamGroups

/-!
# Texts within bounds

Second readers of strings and groups, and a second hash of names, go through texts by positions and
take bytes and parts of texts only by look-ups that may fail. Each of their loops has a number of
rounds, and no result if these are used up. They agree with the first ones: no look-up fails and no
loop runs out of rounds.
-/

namespace Dialogue.Guarded

open Script

section

variable {ε α β : Type}

theorem run_bind {x : ExceptT ε Option α} {r : Except ε α} {f : α → ExceptT ε Option β}
    {g : α → Except ε β} (hx : x.run = some r) (hf : ∀ a, r = .ok a → (f a).run = some (g a)) :
    (x >>= f).run = some (r >>= g) := by
  cases r with
  | error e => exact run_bind_of_run_error hx f
  | ok a =>
    rw [bind_of_run_ok hx]
    exact hf a rfl

theorem run_mapM {f : α → ExceptT ε Option β} {g : α → Except ε β} {xs : List α}
    (h : ∀ x ∈ xs, (f x).run = some (g x)) : (xs.mapM f).run = some (xs.mapM g) := by
  induction xs with
  | nil => rfl
  | cons x xs ih =>
    obtain ⟨hx, hxs⟩ := List.forall_mem_cons.mp h
    rw [List.mapM_cons, List.mapM_cons]
    refine run_bind hx fun y _ => ?_
    exact run_bind (ih hxs) fun ys _ => rfl

/-- The part of a list between two positions, none unless these are bounds of a part. -/
def slice? (xs : List α) (start stop : Nat) : Option (List α) :=
  if start ≤ stop ∧ stop ≤ xs.length then some ((xs.drop start).take (stop - start)) else none

theorem slice?_eq {xs : List α} {start stop : Nat} (h : start ≤ stop ∧ stop ≤ xs.length) :
    slice? xs start stop = some ((xs.drop start).take (stop - start)) :=
  if_pos h

theorem slice?_length (start : Nat) {xs : List α} (h : start ≤ xs.length) :
    slice? xs start xs.length = some (xs.drop start) := by
  rw [slice?_eq ⟨h, Nat.le_refl _⟩, ← List.length_drop, List.take_length]

end

/-! ## Signs around a text -/

/-- The text between the first and the last byte, if these are a fitting pair of signs. The outer
option is that of the look-ups. -/
def between? (fits : UInt8 → UInt8 → Bool) (bs : Bytes) : Option (Option Bytes) := do
  if bs.length < 2 then return none
  let first ← bs[0]?
  let last ← bs[bs.length - 1]?
  if fits first last then return some (← slice? bs 1 (bs.length - 1)) else return none

theorem between?_concat (fits : UInt8 → UInt8 → Bool) (first last : UInt8) (inner : Bytes) :
    between? fits (first :: (inner ++ [last])) =
      some (if fits first last then some inner else none) := by
  have hlength : (first :: (inner ++ [last])).length - 1 = inner.length + 1 := by simp
  have hlast : (first :: (inner ++ [last]))[inner.length + 1]? = some last := by simp
  have hslice : slice? (first :: (inner ++ [last])) 1 (inner.length + 1) = some inner := by
    rw [slice?_eq (by simp)]
    simp
  rw [between?, if_neg (by simp), hlength, hlast, hslice]
  by_cases hfits : fits first last
  · simp [hfits]
  · simp [hfits]

theorem ends_cases (bs : Bytes) :
    bs = [] ∨ (∃ b, bs = [b]) ∨ ∃ first inner last, bs = first :: (inner ++ [last]) := by
  cases bs with
  | nil => exact .inl rfl
  | cons first rest =>
    rcases List.eq_nil_or_concat rest with rfl | ⟨inner, last, rfl⟩
    · exact .inr (.inl ⟨first, rfl⟩)
    · exact .inr (.inr ⟨first, inner, last, by simp⟩)

theorem between?_quotes (bs : Bytes) :
    between? (fun first last => first = 0x22 ∧ last = 0x22) bs = some (Literal.between? bs) := by
  rcases ends_cases bs with rfl | ⟨b, rfl⟩ | ⟨first, inner, last, rfl⟩
  · rfl
  · by_cases hb : b = 0x22
    · subst hb
      rfl
    · simp [between?, Literal.between?, hb]
  · rw [between?_concat]
    by_cases hfirst : first = 0x22
    · subst hfirst
      simp [Literal.between?]
    · simp [Literal.between?, hfirst]

theorem between?_closer (bs : Bytes) :
    between? (fun first last => ParamGroup.closer? first = some last) bs =
      some (ParamGroup.inner? bs) := by
  rcases ends_cases bs with rfl | ⟨b, rfl⟩ | ⟨first, inner, last, rfl⟩
  · rfl
  · cases hclose : ParamGroup.closer? b with
    | none => simp [between?, ParamGroup.inner?, hclose]
    | some close => simp [between?, ParamGroup.inner?, hclose]
  · rw [between?_concat, ParamGroup.inner?]
    cases hclose : ParamGroup.closer? first with
    | none => simp
    | some close => simp [eq_comm]

/-! ## Strings -/

/-- What the text of an escape stands for. -/
def meaning? [CharName.Names] (escape : List Char) : Option (Option Char) := do
  let letter ← escape[1]?
  if letter ∈ ['U', 'u', 'x'] then
    let digits ← slice? escape 2 escape.length
    return (Numeral.read? 16 (UInt32.size - 1) digits).bind (Text.scalar? 0)
  else if letter = 'N' then
    let name ← slice? escape 3 (escape.length - 1)
    return CharName.lookup? name
  else if Escape.isOctal letter then
    let digits ← slice? escape 1 escape.length
    return (Numeral.read? 8 (UInt32.size - 1) digits).bind (Text.scalar? 0)
  else return Escape.single? letter

theorem meaning?_hexadecimal [CharName.Names] {letter : Char}
    (hletter : letter ∈ ['U', 'u', 'x']) {k : Nat} {rest : List Char} {e : Escape}
    (h : Escape.hexadecimal? k rest = some e) :
    meaning? (('\\' :: letter :: rest).take e.length) = some e.meaning := by
  rw [Escape.hexadecimal?] at h
  split at h
  · cases h
    rw [List.take_succ_cons, List.take_succ_cons, meaning?, slice?_length 2 (by simp)]
    exact if_pos hletter
  · cases h

theorem meaning?_named [CharName.Names] {rest : List Char} {e : Escape}
    (h : Escape.named? rest = some e) :
    meaning? (('\\' :: 'N' :: '{' :: rest).take e.length) = some e.meaning := by
  rw [Escape.named?] at h
  split at h
  · cases h
  · rename_i hname
    cases h
    generalize hrest : rest.takeWhile (· != '}') = name at hname ⊢
    have hstarts : name <+: rest := hrest ▸ List.takeWhile_prefix _
    have hshort : name.length < rest.length :=
      Nat.lt_of_le_of_ne hstarts.length_le (not_or.mp hname).2
    have hlength : ('\\' :: 'N' :: '{' :: rest.take (name.length + 1)).length - 1 =
        name.length + 3 := by
      simp only [List.length_cons, List.length_take]
      omega
    have hslice : slice? ('\\' :: 'N' :: '{' :: rest.take (name.length + 1)) 3 (name.length + 3) =
        some name := by
      rw [slice?_eq (by simp; omega), Nat.add_sub_cancel]
      simp only [List.drop_succ_cons, List.drop_zero, List.take_take]
      rw [Nat.min_eq_left (Nat.le_succ _), ← List.prefix_iff_eq_take.mp hstarts]
    rw [List.take_succ_cons, List.take_succ_cons, List.take_succ_cons, meaning?, hlength, hslice]
    rfl

theorem meaning?_octal [CharName.Names] {c : Char} (hc : Escape.isOctal c = true)
    (rest : List Char) :
    meaning? (('\\' :: c :: rest).take (Escape.octal (c :: rest)).length) =
      some (Escape.octal (c :: rest)).meaning := by
  rw [Escape.octal]
  generalize hdigits : ((c :: rest).take 3).takeWhile Escape.isOctal = digits
  obtain ⟨more, rfl⟩ : ∃ more, digits = c :: more := by
    rw [List.take_succ_cons, List.takeWhile_cons_of_pos hc] at hdigits
    exact ⟨_, hdigits.symm⟩
  have hthree : (c :: rest).take 3 <+: c :: rest := List.take_prefix 3 _
  have hstarts : c :: more <+: c :: rest :=
    (hdigits ▸ List.takeWhile_prefix _).trans hthree
  have hletters : ∀ d ∈ ['U', 'u', 'x', 'N'], Escape.isOctal d = false :=
    List.forall_iff_forall_mem.mp (by decide)
  have hc' : c ∉ ['U', 'u', 'x', 'N'] := fun hmem => by simp [hletters c hmem] at hc
  rw [List.take_succ_cons, ← List.prefix_iff_eq_take.mp hstarts, meaning?,
    slice?_length 1 (by simp)]
  simp only [List.mem_cons, List.not_mem_nil, or_false, not_or] at hc'
  simp [hc, hc']

theorem meaning?_take [CharName.Names] {cs : List Char} {e : Escape}
    (h : Escape.at? cs = some e) :
    meaning? (cs.take e.length) = some e.meaning := by
  unfold Escape.at? at h
  split at h
  · exact meaning?_hexadecimal (by decide) h
  · exact meaning?_hexadecimal (by decide) h
  · exact meaning?_hexadecimal (by decide) h
  · exact meaning?_named h
  · rename_i c rest _ _ _ _
    split at h
    · rename_i hc
      cases h
      exact meaning?_octal hc rest
    · rename_i hc
      obtain ⟨meaning, hmeaning, rfl⟩ := Option.map_eq_some_iff.mp h
      have hletters : ∀ d ∈ ['U', 'u', 'x', 'N'], Escape.single? d = none :=
        List.forall_iff_forall_mem.mp (by decide)
      have hc' : c ∉ ['U', 'u', 'x', 'N'] := fun hmem => by simp [hletters c hmem] at hmeaning
      simp only [List.mem_cons, List.not_mem_nil, or_false, not_or] at hc'
      simp [meaning?, hc, hc', hmeaning]
  · cases h

/-- Replaces the escapes, as `Literal.expand` does. -/
def expand? [CharName.Names] : (skip : Nat) → List Char → Option (List Char)
  | _, [] => some []
  | skip + 1, _ :: cs => expand? skip cs
  | 0, c :: cs =>
    match Escape.at? (c :: cs) with
    | none => return c :: (← expand? 0 cs)
    | some e => do
      let text :=
        match ← meaning? ((c :: cs).take e.length) with
        | some meaning => [meaning]
        | none => (c :: cs).take e.length
      return text ++ (← expand? (e.length - 1) cs)

theorem expand?_eq [CharName.Names] (skip : Nat) (cs : List Char) :
    expand? skip cs = some (Literal.expand skip cs) := by
  fun_induction Literal.expand skip cs with
  | case1 skip => rw [expand?]
  | case2 skip c cs ih => rw [expand?, ih]
  | case3 c cs hat ih =>
    rw [expand?, hat, ih]
    rfl
  | case4 c cs e hat ih =>
    rw [expand?, hat]
    dsimp only
    rw [meaning?_take hat, ih]
    rfl

def unescape? [CharName.Names] (bs : Bytes) : Option Bytes :=
  if Literal.hasEscape (Text.decode bs) then (expand? 0 (Text.decode bs)).map Text.encode
  else some bs

theorem unescape?_eq [CharName.Names] (bs : Bytes) : unescape? bs = some (Literal.unescape bs) := by
  rw [unescape?, Literal.unescape, expand?_eq]
  split
  · rfl
  · rfl

def readLiteral [CharName.Names] (bs : Bytes) : ExceptT Fault Option Bytes := do
  match ← ExceptT.lift (between? (fun first last => first = 0x22 ∧ last = 0x22) bs) with
  | none => throw (.unterminatedString bs)
  | some inner =>
    let text ← ExceptT.lift (unescape? (Text.trim inner))
    if 0 ∈ text then throw (.nulInString bs) else return text

theorem run_readLiteral [CharName.Names] (bs : Bytes) :
    (readLiteral bs).run = some (Literal.read bs) := by
  rw [readLiteral, between?_quotes, lift_some_bind, Literal.read]
  cases Literal.between? bs with
  | none => rfl
  | some inner =>
    dsimp only
    rw [unescape?_eq, lift_some_bind]
    split
    · rfl
    · rfl

/-! ## Groups -/

/-- The pieces of a text, cut at the commas that are met outside of strings and groups. The piece at
hand starts at `start`, and the byte to be looked at is that at `i`. -/
def piecesFrom (bs : Bytes) : (rounds i start : Nat) → ParamGroup.Scan → Option (List Bytes)
  | 0, _, _, _ => none
  | rounds + 1, i, start, s =>
    if i < bs.length then do
      let b ← bs[i]?
      if s.quoting = .inside ∧ b = 0x5C then piecesFrom bs rounds (i + 2) start s
      else if s.isTop ∧ b = 0x2C then
        let piece ← slice? bs start i
        return piece :: (← piecesFrom bs rounds (i + 1) (i + 1) s)
      else piecesFrom bs rounds (i + 1) start (s.step b)
    else return [← slice? bs start bs.length]

/-- Puts a text in front of the first of some texts. -/
def prepend (front : Bytes) (texts : List Bytes) : List Bytes :=
  texts.modifyHead (front ++ ·)

theorem prepend_prepend (front back : Bytes) (texts : List Bytes) :
    prepend front (prepend back texts) = prepend (front ++ back) texts := by
  cases texts with
  | nil => rfl
  | cons text texts => simp [prepend]

theorem prepend_nil (texts : List Bytes) : prepend [] texts = texts := by
  cases texts with
  | nil => rfl
  | cons text texts => rfl

/-- The state after a backslash is left before the next byte is looked at. -/
theorem quoting_step {s : ParamGroup.Scan} {b : UInt8} (hs : s.quoting ≠ .escaped)
    (hb : ¬ (s.quoting = .inside ∧ b = 0x5C)) : (s.step b).quoting ≠ .escaped := by
  unfold ParamGroup.Scan.step
  split
  case h_2 =>
    rename_i hquoting hchar
    exact absurd ⟨hquoting, ParamGroup.ofUInt8_inj hchar⟩ hb
  all_goals simp_all

theorem piecesFrom_backslash {s : ParamGroup.Scan} (hs : s.quoting = .inside) (bs : Bytes) :
    ParamGroup.piecesFrom s (0x5C :: bs) =
      prepend (0x5C :: bs.take 1) (ParamGroup.piecesFrom s (bs.drop 1)) := by
  obtain ⟨depth, quoting⟩ := s
  cases hs
  cases bs with
  | nil => rfl
  | cons b bs =>
    have hstep : (ParamGroup.Scan.mk depth .inside).step 0x5C = ⟨depth, .escaped⟩ := rfl
    rw [ParamGroup.piecesFrom, if_neg (by simp [ParamGroup.Scan.isTop]), hstep,
      ParamGroup.piecesFrom, if_neg (by simp [ParamGroup.Scan.isTop])]
    exact prepend_prepend [0x5C] [b] _

theorem piecesFrom_eq {bs : Bytes} {rounds i start : Nat} {s : ParamGroup.Scan}
    (hs : s.quoting ≠ .escaped) (hstart : start ≤ i) (hlength : start ≤ bs.length)
    (hrounds : 0 < rounds) (henough : bs.length < i + rounds) :
    piecesFrom bs rounds i start s =
      some (prepend ((bs.drop start).take (i - start)) (ParamGroup.piecesFrom s (bs.drop i))) := by
  induction rounds generalizing i start s with
  | zero => exact absurd hrounds (Nat.lt_irrefl 0)
  | succ rounds ih =>
    rw [piecesFrom]
    by_cases hi : i < bs.length
    swap
    · rw [if_neg hi, slice?_length start hlength, List.drop_eq_nil_of_le (Nat.not_lt.mp hi),
        List.take_of_length_le (by rw [List.length_drop]; omega)]
      simp [ParamGroup.piecesFrom, prepend]
    have hdrop : bs.drop i = bs[i] :: bs.drop (i + 1) := List.drop_eq_getElem_cons hi
    have htake (k : Nat) : (bs.drop start).take (i + k - start) =
        (bs.drop start).take (i - start) ++ (bs.drop i).take k := by
      rw [show i + k - start = i - start + k by omega, List.take_add, List.drop_drop]
      congr 3
      omega
    rw [if_pos hi, List.getElem?_eq_getElem hi, hdrop]
    dsimp only [Option.bind_eq_bind, Option.bind_some]
    by_cases hback : s.quoting = .inside ∧ bs[i] = 0x5C
    · rw [if_pos hback, ih hs (by omega) hlength (by omega) (by omega), htake 2, hdrop, hback.2,
        piecesFrom_backslash hback.1, prepend_prepend, List.drop_drop]
      rfl
    rw [if_neg hback, ParamGroup.piecesFrom]
    by_cases hcomma : s.isTop ∧ bs[i] = 0x2C
    · rw [if_pos hcomma, if_pos hcomma, slice?_eq ⟨hstart, by omega⟩,
        ih hs (Nat.le_refl _) (by omega) (by omega) (by omega), Nat.sub_self, List.take_zero,
        prepend_nil]
      simp [prepend]
    · rw [if_neg hcomma, if_neg hcomma,
        ih (quoting_step hs hback) (by omega) hlength (by omega) (by omega), htake 1, hdrop]
      exact congrArg some (prepend_prepend _ [bs[i]] _).symm

def pieces (bs : Bytes) : Option (List Bytes) :=
  piecesFrom bs (bs.length + 1) 0 0 {}

theorem pieces_eq (bs : Bytes) : pieces bs = some (ParamGroup.pieces bs) := by
  rw [pieces, piecesFrom_eq (by decide) (Nat.le_refl 0) (Nat.zero_le _) (Nat.succ_pos _) (by omega),
    Nat.sub_self, List.take_zero, prepend_nil]
  rfl

/-- The parameters that a piece stands for, by a reader of groups. -/
def readPiece (read : Bytes → ExceptT Fault Option (List Bytes)) (p : Bytes) :
    ExceptT Fault Option (List Bytes) := do
  let piece := Text.trim p
  if piece.isEmpty then return []
  else
    match Char.ofUInt8 (← ExceptT.lift piece[0]?) with
    | '"' => return [← readLiteral piece]
    | '(' | '[' => read piece
    | _ => if Text.hasSpace piece then throw (.spaceInBare piece) else return [piece]

theorem run_readPiece {read : Bytes → ExceptT Fault Option (List Bytes)} {p : Bytes}
    (hread : (read (Text.trim p)).run = some (ParamGroup.read (Text.trim p))) :
    (readPiece read p).run = some (ParamGroup.readPiece p) := by
  rw [readPiece, ParamGroup.readPiece]
  generalize Text.trim p = piece at hread ⊢
  cases piece with
  | nil => rfl
  | cons b bs =>
    simp only [List.isEmpty_cons, Bool.false_eq_true, if_false, List.getElem?_cons_zero,
      lift_some_bind, List.head?_cons, Option.map_some]
    generalize Char.ofUInt8 b = sigil
    split
    · exact run_bind_pure (run_readLiteral _) _
    · exact hread
    · exact hread
    · rename_i hquote hparen hbracket
      simp only
      split
      · rfl
      · rfl

/-- The parameters of a group, where `read` gives those of the groups in it. -/
def groupBy (read : Bytes → ExceptT Fault Option (List Bytes)) (bs : Bytes) :
    ExceptT Fault Option (List Bytes) := do
  match ← ExceptT.lift
    (between? (fun first last => ParamGroup.closer? first = some last) bs) with
  | none => throw (.malformedGroup bs)
  | some inner =>
    let parts ← (← ExceptT.lift (pieces inner)).mapM (readPiece read)
    return parts.flatten

/-- The parameters of a group. Inner groups take a round each. -/
def readGroup : (rounds : Nat) → Bytes → ExceptT Fault Option (List Bytes)
  | 0 => fun _ => ExceptT.lift none
  | rounds + 1 => groupBy (readGroup rounds)

/-- A group is read from what stands in shorter groups. -/
theorem run_groupBy {read : Bytes → ExceptT Fault Option (List Bytes)} {bs : Bytes}
    (h : ∀ group, group.length < bs.length → (read group).run = some (ParamGroup.read group)) :
    (groupBy read bs).run = some (ParamGroup.read bs) := by
  rw [groupBy, between?_closer, lift_some_bind]
  cases hinner : ParamGroup.inner? bs with
  | none =>
    rw [ParamGroup.read_of_inner?_eq_none hinner]
    rfl
  | some inner =>
    rw [ParamGroup.read_of_inner? hinner]
    dsimp only
    rw [pieces_eq, lift_some_bind]
    refine run_bind_pure (run_mapM fun p hp => run_readPiece (h _ ?_)) _
    have hshort := ParamGroup.length_inner?_lt hinner
    have hpiece := ParamGroup.length_le_of_mem_pieces hp
    have htrim := Text.length_trim_le p
    omega

theorem run_readGroup {rounds : Nat} {bs : Bytes} (h : bs.length < rounds) :
    (readGroup rounds bs).run = some (ParamGroup.read bs) := by
  induction rounds generalizing bs with
  | zero => exact absurd h (Nat.not_lt_zero _)
  | succ rounds ih =>
    rw [readGroup]
    apply run_groupBy
    intro group hgroup
    exact ih (by omega)

/-! ## Hashes -/

/-- Folds the whole blocks of a name from position `i` up to `stop` into a state. -/
def absorbFrom (bs : Bytes) (stop : Nat) : (rounds i : Nat) → UInt64 → Option UInt64
  | 0, i, h => if i < stop then none else some h
  | rounds + 1, i, h =>
    if i < stop then do
      let block ← slice? bs i (i + 8)
      absorbFrom bs stop rounds (i + 8)
        (NameHash.absorb h (NameHash.mixBlock (.ofNat (ofLowBytes block))))
    else some h

def absorbTail (h : UInt64) (tail : Bytes) : UInt64 :=
  if tail.isEmpty then h else NameHash.absorb h (.ofNat (ofLowBytes tail))

def hash (bs : Bytes) : Option UInt64 := do
  let n := UInt64.ofNat bs.length
  let stop := bs.length / 8 * 8
  let h ← absorbFrom bs stop (bs.length / 8) 0 (n ^^^ (n * NameHash.factor))
  let tail ← slice? bs stop bs.length
  return NameHash.finish (absorbTail h tail)

/-- The blocks from position `8 * k` on, by induction on the rounds. -/
theorem exists_absorbFrom (bs : Bytes) {rounds k : Nat} (h : UInt64)
    (hk : k + rounds = bs.length / 8) :
    ∃ h', absorbFrom bs (bs.length / 8 * 8) rounds (8 * k) h = some h' ∧
      absorbTail h' (bs.drop (bs.length / 8 * 8)) = NameHash.absorbAll h (bs.drop (8 * k)) := by
  induction rounds generalizing k h with
  | zero =>
    have hstop : 8 * k = bs.length / 8 * 8 := by omega
    refine ⟨h, if_neg (by omega), ?_⟩
    rw [hstop, absorbTail, NameHash.absorbAll]
    have hshort : ((bs.drop (bs.length / 8 * 8)).drop 7).isEmpty = true := by
      rw [List.isEmpty_iff, List.drop_drop, List.drop_eq_nil_iff]
      omega
    rw [if_pos hshort]
  | succ rounds ih =>
    have hlong : ¬ (bs.drop (8 * k)).isEmpty = true ∧
        ¬ ((bs.drop (8 * k)).drop 7).isEmpty = true := by
      rw [List.isEmpty_iff, List.isEmpty_iff, List.drop_drop, List.drop_eq_nil_iff,
        List.drop_eq_nil_iff]
      omega
    rw [absorbFrom, if_pos (by omega), slice?_eq (by omega), Nat.add_sub_cancel_left,
      NameHash.absorbAll, if_neg hlong.1, if_neg hlong.2, List.drop_drop]
    exact ih (k := k + 1) _ (by omega)

theorem hash_eq (bs : Bytes) : hash bs = some (NameHash.ofBytes bs) := by
  let n := UInt64.ofNat bs.length
  obtain ⟨h, hblocks, htail⟩ := exists_absorbFrom bs (n ^^^ (n * NameHash.factor)) (Nat.zero_add _)
  rw [Nat.mul_zero] at hblocks
  rw [hash, hblocks, slice?_length _ (Nat.div_mul_le_self _ _)]
  simp only [Option.bind_eq_bind, Option.bind_some]
  rw [htail]
  rfl

end Dialogue.Guarded
