import Dialogue.Toml.Document
import Mathlib.Data.List.Basic

/-!
# Tables of plain values

A TOML table in which each line holds a bare key and a plain value is read as the document that it
was written from: each key stands in the table once, for its value and with its line. Nothing of a
line is taken for a part of the next one, since no value can go on behind a line end.
-/

namespace Dialogue.Toml

theorem ne_of_test {p : Char → Bool} {c d : Char} (hd : p d = true) (hc : p c = false) : d ≠ c :=
  ne_of_apply_ne p (hd.trans_ne (hc.trans_ne Bool.false_ne_true).symm)

theorem taken_append (cs rest : List Char) : taken (cs ++ rest) rest = cs := by
  rw [taken, List.length_append, Nat.add_sub_cancel, List.take_left]

/-! ## Numbers -/

section Digits

variable {ds : List Char} (hds : ∀ c ∈ ds, c.isDigit = true) (rest : List Char)

include hds

theorem moreDigits_append : moreDigits (ds ++ '\n' :: rest) = '\n' :: rest := by
  induction ds with
  | nil => rfl
  | cons d ds ih =>
    have hd := hds d List.mem_cons_self
    rw [List.cons_append, moreDigits, if_pos hd]
    · exact ih fun c hc => hds c (List.mem_cons_of_mem d hc)
    · exact fun _ _ hsign => absurd hsign (ne_of_test hd rfl)

/-- Behind digits in front of a line end there is a digit or the line end, and no other sign. -/
theorem bind_sign?_digits? (n : Nat) (sign : Char) (hsign : sign.isDigit = false)
    (hend : sign ≠ '\n') : digits? n (ds ++ '\n' :: rest) >>= sign? sign = none := by
  induction n generalizing ds with
  | zero =>
    cases ds with
    | nil => exact if_neg (Ne.symm hend)
    | cons d ds => exact if_neg (ne_of_test (hds d List.mem_cons_self) hsign)
  | succ n ih =>
    cases ds with
    | nil => rfl
    | cons d ds =>
      rw [List.cons_append, digits?, if_pos (hds d List.mem_cons_self)]
      exact ih fun c hc => hds c (List.mem_cons_of_mem d hc)

theorem datetime?_digits : datetime? (ds ++ '\n' :: rest) = none := by
  have hdate := bind_sign?_digits? hds rest 4 '-' rfl (by decide)
  have hclock := bind_sign?_digits? hds rest 2 ':' rfl (by decide)
  simp only [datetime?, clock?, hdate, hclock, Option.bind_eq_bind, Option.bind_none]

theorem integer?_digits (hne : ds ≠ []) (hlead : ds.head? = some '0' → ds = ['0']) :
    integer? (ds ++ '\n' :: rest) = some ('\n' :: rest) := by
  obtain ⟨d, ds, rfl⟩ := List.exists_cons_of_ne_nil hne
  have hd := hds d List.mem_cons_self
  have hmore := moreDigits_append (fun c hc => hds c (List.mem_cons_of_mem d hc)) rest
  have hsign : optionalSign (d :: (ds ++ '\n' :: rest)) = d :: (ds ++ '\n' :: rest) := by
    unfold optionalSign
    split
    · rename_i heq
      exact absurd (List.cons.inj heq).1 (ne_of_test hd rfl)
    · rename_i heq
      exact absurd (List.cons.inj heq).1 (ne_of_test hd rfl)
    · rfl
  rw [List.cons_append, integer?, hsign]
  simp only [hd, Bool.not_true, Bool.false_eq_true, if_false, hmore]
  split
  · rfl
  · rename_i hshort
    -- one digit only: a zero, or one with no more digits behind it
    have hnil : ds = [] := by
      by_cases hzero : d = '0'
      · subst hzero
        exact List.tail_eq_of_cons_eq (hlead rfl)
      · have hlength : ¬ ('\n' :: rest).length < (ds ++ '\n' :: rest).length :=
          fun hlt => hshort ⟨hzero, hlt⟩
        rw [List.length_append] at hlength
        exact List.length_eq_zero_iff.mp (by omega)
    rw [hnil]
    rfl

theorem float?_digits (hne : ds ≠ []) (hlead : ds.head? = some '0' → ds = ['0']) :
    float? (ds ++ '\n' :: rest) = none := by
  rw [float?, integer?_digits hds rest hne hlead]
  rfl

end Digits

theorem head?_toDigits {n : Nat} (h : (Nat.toDigits 10 n).head? = some '0') : n = 0 := by
  have hdigit : ∀ d < 10, [Nat.digitChar d].head? = some '0' → d = 0 := by decide
  induction n using Nat.strongRecOn with
  | ind n ih =>
    rw [Nat.toDigits_eq_if (by decide)] at h
    split at h
    · rename_i hn
      exact hdigit n hn h
    · rename_i hn
      rw [List.head?_append_of_ne_nil _ Nat.toDigits_ne_nil] at h
      have hfront := ih (n / 10) (by omega) h
      omega

/-! ## Plain values -/

/-- Whether a character stands for itself between double quotes. -/
def IsPlain (c : Char) : Prop :=
  0x20 ≤ c.toNat ∧ c ≠ '"' ∧ c ≠ '\\'

section Strings

variable {cs : List Char} (hcs : ∀ c ∈ cs, IsPlain c)

include hcs

theorem basicRun_plain (rest : List Char) : basicRun 0 (cs ++ '"' :: rest) = cs.length := by
  induction cs with
  | nil =>
    rw [List.nil_append, basicRun]
    rfl
  | cons c cs ih =>
    have hc := hcs c List.mem_cons_self
    have hlength : basicLength? (c :: (cs ++ '"' :: rest)) = some 1 := by
      rw [basicLength?]
      · exact if_pos hc
      · exact fun _ h _ => hc.2.2 h
      · exact fun _ h _ => hc.2.2 h
      · exact fun _ _ h _ => hc.2.2 h
    rw [List.cons_append, basicRun, hlength]
    exact congrArg (· + 1) (ih fun d hd => hcs d (List.mem_cons_of_mem c hd))

theorem basicString?_plain (rest : List Char) :
    basicString? (cs ++ '"' :: rest) = some (cs, rest) := by
  rw [basicString?, basicRun_plain hcs, List.drop_left, List.take_left]
  rfl

theorem string?_plain (rest : List Char) :
    string? ('"' :: (cs ++ '"' :: '\n' :: rest)) =
      some ([.scalar (.escaped cs)], '\n' :: rest) := by
  have hstring := basicString?_plain hcs ('\n' :: rest)
  rw [string?]
  · rw [hstring]
    rfl
  · -- the string does not open a long one: behind its first quote there is no other, or a line end
    -- stands behind that
    intro behind heq
    cases cs with
    | nil => cases heq
    | cons c cs => exact (hcs c List.mem_cons_self).2.1 (List.cons.inj heq).1

theorem unescape?_plain : unescape? 0 cs = some cs := by
  induction cs with
  | nil => rfl
  | cons c cs ih =>
    have hc := hcs c List.mem_cons_self
    rw [unescape?, ih fun d hd => hcs d (List.mem_cons_of_mem c hd)]
    · rfl
    · exact fun _ _ h _ => hc.2.2 h

end Strings

/-- A value that is written on its line as it is meant. -/
inductive PlainValue where
  | integer (n : Nat)
  | boolean (b : Bool)
  | string (cs : List Char) (h : ∀ c ∈ cs, IsPlain c)

namespace PlainValue

/-- How a value is written. -/
def text : PlainValue → List Char
  | integer n => Nat.toDigits 10 n
  | boolean true => ['t', 'r', 'u', 'e']
  | boolean false => ['f', 'a', 'l', 's', 'e']
  | string cs _ => '"' :: (cs ++ ['"'])

/-- What a value is found as. -/
def scalar : PlainValue → Scalar
  | integer n => .integer (Nat.toDigits 10 n)
  | boolean b => .boolean b
  | string cs _ => .escaped cs

/-- What a value is in a document. -/
def value : PlainValue → Value
  | integer n => .integer (Nat.toDigits 10 n)
  | boolean b => .boolean b
  | string cs _ => .string cs

theorem scalarValue_scalar (v : PlainValue) (b : Builder) :
    b.scalarValue v.scalar = .ok v.value := by
  cases v with
  | integer | boolean => rfl
  | string cs hcs =>
    rw [scalar, Builder.scalarValue, Builder.text, unescape?_plain hcs]
    rfl

theorem exists_text_eq (v : PlainValue) :
    ∃ c cs, v.text = c :: cs ∧ isBlank c = false ∧ c ≠ '[' ∧ c ≠ '{' := by
  cases v with
  | integer n =>
    obtain ⟨d, ds, hds⟩ := List.exists_cons_of_ne_nil (Nat.toDigits_ne_nil (n := n) (b := 10))
    have hd : d.isDigit = true :=
      Nat.isDigit_of_mem_toDigits (by decide) (by decide) (hds ▸ List.mem_cons_self)
    have hblank : isBlank d = false := by
      rw [isBlank, beq_false_of_ne (ne_of_test hd rfl), beq_false_of_ne (ne_of_test hd rfl)]
      rfl
    exact ⟨d, ds, hds, hblank, ne_of_test hd rfl, ne_of_test hd rfl⟩
  | boolean b =>
    cases b with
    | false => exact ⟨_, _, rfl, by decide⟩
    | true => exact ⟨_, _, rfl, by decide⟩
  | string cs hcs => exact ⟨_, _, rfl, by decide⟩

theorem scalar?_text (v : PlainValue) (rest : List Char) :
    scalar? (v.text ++ '\n' :: rest) = some ([.scalar v.scalar], '\n' :: rest) := by
  cases v with
  | integer n =>
    have hdigits : ∀ c ∈ Nat.toDigits 10 n, c.isDigit = true :=
      fun c hc => Nat.isDigit_of_mem_toDigits (by decide) (by decide) hc
    have hlead (h : (Nat.toDigits 10 n).head? = some '0') : Nat.toDigits 10 n = ['0'] := by
      rw [head?_toDigits h]
      rfl
    have hne : Nat.toDigits 10 n ≠ [] := Nat.toDigits_ne_nil
    have hclean : (Nat.toDigits 10 n).filter (· != '_') = Nat.toDigits 10 n := by
      rw [List.filter_eq_self]
      intro c hc
      exact bne_iff_ne.mpr (ne_of_test (hdigits c hc) rfl)
    simp only [scalar?, text, scalar, datetime?_digits hdigits,
      float?_digits hdigits rest hne hlead, integer?_digits hdigits rest hne hlead, taken_append,
      hclean]
  | boolean b =>
    cases b with
    | false => rfl
    | true => rfl
  | string cs hcs =>
    have hstring := string?_plain hcs rest
    rw [text, List.cons_append, List.append_assoc]
    exact hstring

theorem value?_text (v : PlainValue) (depth : Nat) (rest : List Char) :
    value? (depth + 1) (v.text ++ '\n' :: rest) = some ([.scalar v.scalar], '\n' :: rest) := by
  obtain ⟨c, cs, htext, -, harray, htable⟩ := v.exists_text_eq
  have hscalar := v.scalar?_text rest
  rw [htext, List.cons_append] at hscalar ⊢
  rw [value?]
  · exact hscalar
  · exact fun _ h => harray (List.cons.inj h).1
  · exact fun _ h => htable (List.cons.inj h).1

theorem blanks_text (v : PlainValue) (rest : List Char) :
    blanks (v.text ++ rest) = v.text ++ rest := by
  obtain ⟨c, cs, htext, hblank, -, -⟩ := v.exists_text_eq
  rw [htext, List.cons_append, blanks, List.dropWhile_cons_of_neg (ne_true_of_eq_false hblank)]

end PlainValue

/-! ## Lines -/

/-- A key that needs no quotes. -/
structure BareKey where
  name : List Char
  ne_nil : name ≠ []
  isBareKey : ∀ c ∈ name, isBareKey c = true

namespace BareKey

variable (key : BareKey)

theorem exists_name_eq : ∃ c cs, key.name = c :: cs ∧ Toml.isBareKey c = true := by
  obtain ⟨c, cs, hname⟩ := List.exists_cons_of_ne_nil key.ne_nil
  exact ⟨c, cs, hname, key.isBareKey c (hname ▸ List.mem_cons_self)⟩

theorem key?_name {c : Char} (hc : Toml.isBareKey c = false) (rest : List Char) :
    key? (key.name ++ c :: rest) = some (key.name, c :: rest) := by
  have hc' := ne_true_of_eq_false hc
  have htaken : (key.name ++ c :: rest).takeWhile Toml.isBareKey = key.name := by
    rw [List.takeWhile_append_of_pos key.isBareKey, List.takeWhile_cons_of_neg hc', List.append_nil]
  have hleft : (key.name ++ c :: rest).dropWhile Toml.isBareKey = c :: rest := by
    rw [List.dropWhile_append_of_pos key.isBareKey, List.dropWhile_cons_of_neg hc']
  unfold key?
  rw [htaken, hleft]
  split
  · rename_i hnil
    exact absurd hnil key.ne_nil
  · rfl

theorem isBlank_or_isLineEnd_of_isBareKey {c : Char} (hc : Toml.isBareKey c = true) :
    (isBlank c || isLineEnd c) = false := by
  simp only [isBlank, isLineEnd, beq_false_of_ne (ne_of_test hc rfl : c ≠ ' '),
    beq_false_of_ne (ne_of_test hc rfl : c ≠ '\t'), beq_false_of_ne (ne_of_test hc rfl : c ≠ '\r'),
    beq_false_of_ne (ne_of_test hc rfl : c ≠ '\n'), Bool.or_false]

theorem blanks_name (rest : List Char) : blanks (key.name ++ rest) = key.name ++ rest := by
  obtain ⟨c, cs, hname, hc⟩ := key.exists_name_eq
  have hblank := (Bool.or_eq_false_iff.mp (isBlank_or_isLineEnd_of_isBareKey hc)).1
  rw [hname, List.cons_append, blanks, List.dropWhile_cons_of_neg (ne_true_of_eq_false hblank)]

theorem blankLines_name (rest : List Char) :
    blankLines ('\n' :: (key.name ++ rest)) = (1, key.name ++ rest) := by
  obtain ⟨c, cs, hname, hc⟩ := key.exists_name_eq
  have hskipped := isBlank_or_isLineEnd_of_isBareKey hc
  have hend : (isBlank '\n' || isLineEnd '\n') = true := rfl
  simp only [blankLines, hname, List.cons_append, List.takeWhile_cons, List.dropWhile_cons, hend,
    hskipped, if_true, Bool.false_eq_true, if_false]
  rfl

theorem name_name (b : Builder) : b.name key.name = .ok key.name := by
  obtain ⟨c, cs, hname, hc⟩ := key.exists_name_eq
  rw [hname]
  unfold Builder.name
  split
  · rename_i heq
    exact absurd (List.cons.inj heq).1 (ne_of_test hc rfl)
  · rfl

end BareKey

/-- A line of a table. -/
structure Line where
  key : BareKey
  value : PlainValue

namespace Line

/-- How a line is written behind the one before it. -/
def text (l : Line) : List Char :=
  '\n' :: (l.key.name ++ ' ' :: '=' :: ' ' :: l.value.text)

/-- What is found on a line. -/
def events (l : Line) : List Event :=
  [.lines 1, .key l.key.name, .scalar l.value.scalar, .pair]

theorem pair?_text (l : Line) (depth : Nat) (rest : List Char) :
    pair? (depth + 2) (l.key.name ++ ' ' :: '=' :: ' ' :: (l.value.text ++ '\n' :: rest)) =
      some ([.key l.key.name, .scalar l.value.scalar, .pair], '\n' :: rest) := by
  have hblanks : blanks (' ' :: (l.value.text ++ '\n' :: rest)) = l.value.text ++ '\n' :: rest :=
    l.value.blanks_text ('\n' :: rest)
  have hequals : sign? '=' (blanks (' ' :: '=' :: ' ' :: (l.value.text ++ '\n' :: rest))) =
      some (' ' :: (l.value.text ++ '\n' :: rest)) := rfl
  simp only [pair?, l.key.key?_name (c := ' ') rfl, Option.bind_eq_bind, Option.bind_some, hequals,
    hblanks, l.value.value?_text]
  rfl

end Line

/-! ## Tables -/

/-- How the lines of a table are written behind its header. -/
def bodyText (ls : List Line) : List Char :=
  ls.flatMap Line.text ++ ['\n']

/-- How a table is written. -/
def tableText (key : BareKey) (ls : List Line) : List Char :=
  '[' :: (key.name ++ ']' :: bodyText ls)

theorem exists_bodyText_eq (ls : List Line) : ∃ rest, bodyText ls = '\n' :: rest := by
  cases ls with
  | nil => exact ⟨[], rfl⟩
  | cons l ls => exact ⟨_, rfl⟩

theorem bodyText_cons (l : Line) (ls : List Line) : bodyText (l :: ls) = l.text ++ bodyText ls := by
  rw [bodyText, List.flatMap_cons, List.append_assoc, ← bodyText]

theorem length_le_length_bodyText (ls : List Line) : ls.length ≤ (bodyText ls).length := by
  induction ls with
  | nil => exact Nat.zero_le _
  | cons l ls ih =>
    rw [bodyText_cons, List.length_append, Line.text, List.length_cons, List.length_cons]
    omega

theorem tablePairs_bodyText {ls : List Line} {bound : Nat} (hbound : ls.length ≤ bound) :
    tablePairs bound (bodyText ls) = (ls.flatMap Line.events, ['\n']) := by
  induction ls generalizing bound with
  | nil =>
    cases bound with
    | zero => rfl
    | succ bound => rfl
  | cons l ls ih =>
    cases bound with
    | zero => cases hbound
    | succ bound =>
      obtain ⟨rest, hrest⟩ := exists_bodyText_eq ls
      have hbody : bodyText (l :: ls) =
          '\n' :: (l.key.name ++ ' ' :: '=' :: ' ' :: (l.value.text ++ '\n' :: rest)) := by
        rw [bodyText_cons, Line.text, hrest, List.cons_append, List.append_assoc]
        rfl
      have hmore := ih (Nat.le_of_succ_le_succ hbound)
      rw [hrest] at hmore
      rw [hbody, tablePairs]
      simp only [l.key.blankLines_name, l.pair?_text]
      rw [show lineRest ('\n' :: rest) = '\n' :: rest from rfl, hmore]
      rfl

theorem header?_tableText (key : BareKey) (ls : List Line) :
    header? (tableText key ls) = some (.table [key.name] key.name, bodyText ls) := by
  have hmore (bound : Nat) (rest : List Char) :
      moreKeys bound (']' :: rest) = ([], ']' :: rest) := by
    cases bound with
    | zero => rfl
    | succ bound => rfl
  have hkeys : tableKeys? (key.name ++ ']' :: bodyText ls) =
      some (([key.name], key.name), ']' :: bodyText ls) := by
    simp only [tableKeys?, key.key?_name (c := ']') rfl, Option.bind_eq_bind, Option.bind_some,
      hmore, taken_append]
  have hopen : sign? '[' (tableText key ls) = some (key.name ++ ']' :: bodyText ls) := rfl
  have hclose : sign? ']' (blanks (']' :: bodyText ls)) = some (bodyText ls) := rfl
  simp only [header?, hopen, Option.bind_eq_bind, Option.bind_some, key.blanks_name, hkeys, hclose]
  rfl

theorem expression_tableText (key : BareKey) (ls : List Line) :
    expression (tableText key ls) =
      (.table [key.name] key.name :: ls.flatMap Line.events, ['\n']) := by
  have hblanks : blanks (tableText key ls) = tableText key ls := rfl
  obtain ⟨rest, hrest⟩ := exists_bodyText_eq ls
  have hbody : lineRest (bodyText ls) = bodyText ls := by
    rw [hrest]
    rfl
  simp only [expression, hblanks, header?_tableText, hbody,
    tablePairs_bodyText (length_le_length_bodyText ls)]

theorem events?_tableText (key : BareKey) (ls : List Line) :
    events? (tableText key ls) =
      some (.table [key.name] key.name :: ls.flatMap Line.events ++ [.lines 1]) := by
  have hmore : moreExpressions 1 ['\n'] = ([.lines 1], []) := rfl
  rw [events?, expression_tableText]
  simp only [List.length_singleton, hmore]
  rfl

/-! ## Documents -/

/-- What a line with the given number gives to its table. -/
def Line.field (l : Line × Nat) : List Char × Node :=
  (l.1.key.name, .value l.2 l.1.value.value)

/-- What a line with the given number stands for in the table `table`. -/
def Line.entry (table : Path) (l : Line × Nat) : Path × Node :=
  (table ++ [((Line.field l).1, 0)], (Line.field l).2)

namespace Builder

theorem put_of_node?_eq_none {b : Builder} {table : Path} {name : List Char}
    (h : b.node? table name = none) (node : Node) :
    b.put table name node = { b with nodes := b.nodes ++ [(table ++ [(name, 0)], node)] } := by
  rw [node?, Option.map_eq_none_iff, List.find?_eq_none] at h
  refine if_neg fun hany => ?_
  obtain ⟨e, he, heq⟩ := List.any_eq_true.mp hany
  exact h e he heq

theorem addPair_of_node?_eq_none {b : Builder} (hplaced : b.isPlaced = false)
    (h : b.node? b.current b.key = none) :
    b.addPair =
      .ok { b with nodes := b.nodes ++ [(b.current ++ [(b.key, 0)], .value b.line b.value)] } := by
  rw [addPair, if_neg (ne_true_of_eq_false hplaced), h, put_of_node?_eq_none h]

theorem foldlM_step_cons {b b' : Builder} {e : Event} (h : step b e = .ok b') (es : List Event) :
    (e :: es).foldlM step b = es.foldlM step b' := by
  rw [List.foldlM_cons, h]
  rfl

/-- The state behind a line that is new. -/
def withLine (b : Builder) (l : Line) : Builder :=
  { b with
    line := b.line + 1
    key := l.key.name
    value := l.value.value
    nodes := b.nodes ++ [Line.entry b.current (l, b.line + 1)] }

theorem node?_withLine {b : Builder} {l : Line} {name : List Char} (hname : l.key.name ≠ name)
    (h : b.node? b.current name = none) : (b.withLine l).node? b.current name = none := by
  rw [node?, Option.map_eq_none_iff, List.find?_eq_none] at h ⊢
  intro e he
  rcases List.mem_append.mp he with he | he
  · exact h e he
  · rw [List.mem_singleton.mp he, Line.entry, beq_iff_eq, List.append_cancel_left_eq]
    intro heq
    exact hname (congrArg Prod.fst (List.cons.inj heq).1)

theorem foldlM_events {b : Builder} (hplaced : b.isPlaced = false) {l : Line}
    (hfree : b.node? b.current l.key.name = none) :
    l.events.foldlM step b = .ok (b.withLine l) := by
  have hkey : step { b with line := b.line + 1 } (.key l.key.name) =
      .ok { b with line := b.line + 1, key := l.key.name } := by
    rw [step, l.key.name_name]
    rfl
  have hvalue : step { b with line := b.line + 1, key := l.key.name } (.scalar l.value.scalar) =
      .ok { b with line := b.line + 1, key := l.key.name, value := l.value.value } := by
    rw [step, l.value.scalarValue_scalar]
    rfl
  have hpair : step { b with line := b.line + 1, key := l.key.name, value := l.value.value } .pair =
      .ok (b.withLine l) := addPair_of_node?_eq_none hplaced hfree
  rw [Line.events, foldlM_step_cons (b := b) (e := .lines 1) rfl, foldlM_step_cons hkey,
    foldlM_step_cons hvalue, foldlM_step_cons hpair]
  rfl

/-- The lines of a table are its entries, if no name is given twice. -/
theorem foldlM_flatMap_events {ls : List Line} {b : Builder} (hplaced : b.isPlaced = false)
    (hnames : (ls.map fun l => l.key.name).Nodup)
    (hfree : ∀ l ∈ ls, b.node? b.current l.key.name = none) :
    ∃ b', (ls.flatMap Line.events).foldlM step b = .ok b' ∧
      b'.nodes = b.nodes ++ (ls.zipIdx (b.line + 1)).map (Line.entry b.current) := by
  induction ls generalizing b with
  | nil => exact ⟨b, rfl, (List.append_nil _).symm⟩
  | cons l ls ih =>
    obtain ⟨hname, hnames⟩ := List.nodup_cons.mp hnames
    have hfree' : ∀ l' ∈ ls, (b.withLine l).node? b.current l'.key.name = none := by
      intro l' hl'
      refine node?_withLine ?_ (hfree l' (List.mem_cons_of_mem l hl'))
      intro heq
      exact hname (List.mem_map.mpr ⟨l', hl', heq.symm⟩)
    obtain ⟨b', hb', hnodes⟩ := ih (b := b.withLine l) hplaced hnames hfree'
    refine ⟨b', ?_, ?_⟩
    · rw [List.flatMap_cons, List.foldlM_append, foldlM_events hplaced (hfree l List.mem_cons_self)]
      exact hb'
    · rw [hnodes, List.zipIdx_cons, List.map_cons, withLine, List.append_assoc]
      rfl

theorem step_table (key : BareKey) :
    step {} (.table [key.name] key.name) =
      .ok { nodes := [([(key.name, 0)], .table 1 true)], current := [(key.name, 0)] } := by
  have hnames : [key.name].mapM (name {}) = .ok [key.name] := by
    rw [List.mapM_cons, key.name_name]
    rfl
  rw [step, locate, hnames]
  rfl

end Builder

namespace Document

variable (d : Document) (table parent : Path)

theorem fields_cons (name : List Char) (node : Node) :
    fields ((parent ++ [(name, 0)], node) :: d) table =
      if parent = table then (name, node) :: d.fields table else d.fields table := by
  rw [fields, List.filterMap_cons]
  simp only [List.getLast?_concat]
  by_cases h : parent = table
  · simp only [h, BEq.rfl, if_true]
    rfl
  · have hpath : (parent ++ [(name, 0)] == table ++ [(name, 0)]) = false := by
      rwa [beq_eq_false_iff_ne, ne_eq, List.append_cancel_right_eq]
    simp only [hpath, if_neg h, Bool.false_eq_true, if_false]
    rfl

theorem fields_map_entry (ls : List (Line × Nat)) :
    fields (ls.map (Line.entry parent)) table =
      if parent = table then ls.map Line.field else [] := by
  induction ls with
  | nil => exact (ite_self _).symm
  | cons l ls ih =>
    rw [List.map_cons, Line.entry, fields_cons, ih]
    split
    · rfl
    · rfl

end Document

/-- A table of plain lines is read as it was written, if no name is given twice. -/
theorem parse_tableText (key : BareKey) {ls : List Line}
    (hnames : (ls.map fun l => l.key.name).Nodup) :
    ∃ d, parse (tableText key ls) = .ok d ∧
      d.fields [] = [(key.name, .table 1 true)] ∧
      d.fields [(key.name, 0)] = (ls.zipIdx 2).map Line.field := by
  let b : Builder := { nodes := [([(key.name, 0)], .table 1 true)], current := [(key.name, 0)] }
  have hfree (name : List Char) : b.node? b.current name = none := by
    rw [Builder.node?, Option.map_eq_none_iff, List.find?_eq_none]
    intro e he
    rw [List.mem_singleton.mp he]
    simp [b]
  obtain ⟨b', hb', hnodes⟩ := Builder.foldlM_flatMap_events rfl hnames fun l _ => hfree l.key.name
  have hdocument : b'.nodes = ([] ++ [(key.name, 0)], .table 1 true) ::
      (ls.zipIdx 2).map (Line.entry [(key.name, 0)]) := hnodes
  refine ⟨b'.nodes, ?_, ?_, ?_⟩
  · rw [parse, events?_tableText]
    dsimp only
    rw [List.cons_append, Builder.foldlM_step_cons (Builder.step_table key), List.foldlM_append,
      hb']
    rfl
  · rw [hdocument, Document.fields_cons, Document.fields_map_entry, if_pos rfl,
      if_neg (List.cons_ne_nil _ _)]
  · rw [hdocument, Document.fields_cons, Document.fields_map_entry,
      if_neg (List.cons_ne_nil _ _).symm, if_pos rfl]

end Dialogue.Toml
