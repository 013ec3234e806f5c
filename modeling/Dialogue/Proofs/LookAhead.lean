import Dialogue.Proofs.CodePoints
import Dialogue.Proofs.ReadInstructions

/-!
# Units that look ahead

An action looks for a group behind it, and a named call for an argument. All other units are read in
the same way whatever comes next. So a comment can be put anywhere but in front of what a unit
takes.
-/

namespace Dialogue.Script

namespace LexUnit

variable {u v : LexUnit} {next? : Option LexUnit} {r : Reading}

/-- What a named call accepts behind it: a group, a string or an identifier. -/
def IsArgument (v : LexUnit) : Prop :=
  v.startsWith 0x28 = true ∨ v.startsWith 0x22 = true ∨ isIdentifier v.text = true

def isAction (u : LexUnit) : Bool :=
  u.startsWith 0x40

def isCall (u : LexUnit) : Bool :=
  u.startsWith 0x24

/-- Whether a unit goes on in the one behind it. -/
def Takes (u v : LexUnit) : Prop :=
  (u.isAction = true ∧ v.startsWith 0x28 = true) ∨ (u.isCall = true ∧ v.IsArgument)

instance (v : LexUnit) : Decidable v.IsArgument :=
  inferInstanceAs (Decidable (_ ∨ _))

instance (u v : LexUnit) : Decidable (u.Takes v) :=
  inferInstanceAs (Decidable (_ ∨ _))

theorem startsWith_iff {b : UInt8} : u.startsWith b = true ↔ ∃ rest, u.text = b :: rest := by
  rw [startsWith]
  cases u.text with
  | nil => simp
  | cons a rest => simp

theorem startsWith_of_sigil {sigil : UInt8} {rest : Bytes} (htext : u.text = sigil :: rest)
    (b : UInt8) (h : Char.ofUInt8 sigil = Char.ofUInt8 b) : u.startsWith b = true := by
  have hnat : sigil.toNat = b.toNat := congrArg Char.toNat h
  rw [startsWith_iff, htext, UInt8.toNat_inj.mp hnat]
  exact ⟨rest, rfl⟩

theorem isCall_of_isAction (h : u.isAction = true) : u.isCall = false := by
  obtain ⟨rest, hrest⟩ := startsWith_iff.mp h
  rw [isCall, startsWith, hrest]
  rfl

theorem not_isArgument_of_isCall (h : u.isCall = true) : ¬ u.IsArgument := by
  obtain ⟨rest, hrest⟩ := startsWith_iff.mp h
  rintro (hgroup | hstring | hidentifier)
  · rw [startsWith, hrest] at hgroup
    cases hgroup
  · rw [startsWith, hrest] at hstring
    cases hstring
  · rw [hrest] at hidentifier
    cases hidentifier

theorem not_takes_of_not_isArgument (h : ¬ v.IsArgument) (u : LexUnit) : ¬ u.Takes v := by
  rintro (⟨-, hgroup⟩ | ⟨-, hargument⟩)
  · exact h (.inl hgroup)
  · exact h hargument

/-! ## Readers -/

theorem read_of_isAction (h : u.isAction = true) (next? : Option LexUnit) :
    u.read next? = u.readAction next? := by
  obtain ⟨rest, hrest⟩ := startsWith_iff.mp h
  rw [read, hrest]
  rfl

theorem read_of_isCall (h : u.isCall = true) (next? : Option LexUnit) :
    u.read next? = u.readNamedCall next? := by
  obtain ⟨rest, hrest⟩ := startsWith_iff.mp h
  rw [read, hrest]
  rfl

theorem read_of_plain (haction : u.isAction = false) (hcall : u.isCall = false)
    (next? : Option LexUnit) : u.read next? = u.read none := by
  rw [read, read]
  split
  · rfl
  · rename_i sigil rest htext
    split
    case h_4 hsigil =>
      rw [isAction, startsWith_of_sigil htext 0x40 hsigil] at haction
      cases haction
    case h_5 hsigil =>
      rw [isCall, startsWith_of_sigil htext 0x24 hsigil] at hcall
      cases hcall
    all_goals rfl

theorem readAction_of_not_group (h : ∀ v ∈ next?, v.trimmed.startsWith 0x28 = false) :
    u.readAction next? = u.readAction none := by
  cases next? with
  | none => rfl
  | some v =>
    rw [readAction, readAction]
    simp [h v rfl]

theorem isArgument_of_callArguments {name : Bytes} {texts : List Bytes}
    (h : v.callArguments name = .ok texts) : v.IsArgument := by
  rw [callArguments] at h
  split at h
  · rename_i hgroup
    exact .inl hgroup
  · split at h
    · rename_i hstring
      exact .inr (.inl hstring)
    · split at h
      · rename_i hidentifier
        exact .inr (.inr hidentifier)
      · cases h

theorem takes_of_read_of_isCall (hcall : u.isCall = true) (h : u.read next? = .ok r) :
    ∃ v ∈ next?, u.Takes v.trimmed := by
  rw [read_of_isCall hcall] at h
  obtain ⟨name, -, h⟩ := Result.bind_eq_ok_iff.mp h
  cases next? with
  | none => cases h
  | some v =>
    obtain ⟨texts, htexts, -⟩ := Result.bind_eq_ok_iff.mp h
    exact ⟨v, rfl, .inr ⟨hcall, isArgument_of_callArguments htexts⟩⟩

/-- A unit that does not go on in the next one is read as if it were the last. -/
theorem read_of_not_takes (hcall : u.isCall = false) (h : ∀ v ∈ next?, ¬ u.Takes v.trimmed) :
    u.read next? = u.read none := by
  cases haction : u.isAction with
  | false => exact read_of_plain haction hcall next?
  | true =>
    rw [read_of_isAction haction, read_of_isAction haction]
    apply readAction_of_not_group
    intro v hv
    cases hgroup : v.trimmed.startsWith 0x28 with
    | false => rfl
    | true => exact absurd (.inl ⟨haction, hgroup⟩) (h v hv)

theorem takesNext_of_read_of_plain (haction : u.isAction = false) (hcall : u.isCall = false)
    (h : u.read next? = .ok r) : r.takesNext = false := by
  rw [read] at h
  split at h
  · cases h
    rfl
  · rename_i sigil rest htext
    -- One case for each sigil, in the order of `read`.
    split at h
    case h_1 | h_2 | h_10 | h_11 | h_12 =>
      cases h
      rfl
    case h_3 | h_6 | h_13 | h_14 =>
      obtain ⟨text, -, h⟩ := Result.bind_eq_ok_iff.mp h
      cases h
      rfl
    case h_4 hsigil =>
      rw [isAction, startsWith_of_sigil htext 0x40 hsigil] at haction
      cases haction
    case h_5 hsigil =>
      rw [isCall, startsWith_of_sigil htext 0x24 hsigil] at hcall
      cases hcall
    case h_7 =>
      rw [readWait] at h
      split at h
      · cases h
      · split at h
        · cases h
        · cases h
          rfl
    case h_8 =>
      rw [readColor] at h
      split at h
      · cases h
      · split at h
        · cases h
          rfl
        · cases h
          rfl
    case h_9 =>
      obtain ⟨names, -, h⟩ := Result.bind_eq_ok_iff.mp h
      split at h
      · cases h
      · cases h
        rfl
    case h_15 => cases h

/-- A unit is read together with the next one only if it goes on in it. -/
theorem takes_of_read (h : u.read next? = .ok r) (hr : r.takesNext = true) :
    ∃ v ∈ next?, u.Takes v.trimmed := by
  cases hcall : u.isCall with
  | true => exact takes_of_read_of_isCall hcall h
  | false =>
    cases haction : u.isAction with
    | false =>
      rw [takesNext_of_read_of_plain haction hcall h] at hr
      cases hr
    | true =>
      rw [read_of_isAction haction] at h
      obtain ⟨name, -, h⟩ := Result.bind_eq_ok_iff.mp h
      cases next? with
      | none =>
        cases h
        cases hr
      | some v =>
        dsimp only [Option.map_some] at h
        split at h
        · rename_i hgroup
          exact ⟨v, rfl, .inl ⟨haction, hgroup⟩⟩
        · cases h
          cases hr

theorem takesNext_of_not_takes (h : u.read next? = .ok r)
    (hnot : ∀ v ∈ next?, ¬ u.Takes v.trimmed) : r.takesNext = false := by
  cases hr : r.takesNext with
  | false => rfl
  | true =>
    obtain ⟨v, hv, htakes⟩ := takes_of_read h hr
    exact absurd htakes (hnot v hv)

theorem takesNext_of_read_none (h : u.read none = .ok r) : r.takesNext = false :=
  takesNext_of_not_takes h nofun

end LexUnit

/-! ## Comments -/

theorem Reading.later_append (r : Reading) {us : List LexUnit} (hus : us ≠ [])
    (vs : List LexUnit) : r.later (us ++ vs) = r.later us ++ vs := by
  rw [later, later]
  split
  · exact List.tail_append_of_ne_nil hus
  · rfl

theorem Reading.later_of_takesNext {r : Reading} (h : r.takesNext = false) (us : List LexUnit) :
    r.later us = us := by
  rw [later, h]
  rfl

theorem readUnits_cons_append (u : LexUnit) {us : List LexUnit} (hus : us ≠ [])
    (vs : List LexUnit) :
    readUnits (u :: us ++ vs) =
      u.trimmed.read us.head? >>= fun r =>
        (readUnits (r.later us ++ vs)).map (u.placed r ++ ·) := by
  rw [List.cons_append, readUnits_cons, List.head?_append_of_ne_nil us hus]
  simp only [Reading.later_append _ hus]

theorem mem_getLast?_of_suffix {us vs : List LexUnit} (h : us <:+ vs) {u : LexUnit}
    (hu : u ∈ us.getLast?) : u ∈ vs.getLast? := by
  obtain ⟨front, rfl⟩ := h
  rw [List.getLast?_append, hu]
  rfl

namespace LexUnit

def IsComment (c : LexUnit) : Prop :=
  Text.utf8 "//" <+: c.text ∨ Text.utf8 "/*" <+: c.text

instance (c : LexUnit) : Decidable c.IsComment :=
  inferInstanceAs (Decidable (_ ∨ _))

variable {c : LexUnit}

theorem IsComment.startsWith (hc : c.IsComment) : c.trimmed.startsWith 0x2F = true := by
  have hslash : ∃ rest, c.text = 0x2F :: rest := by
    rcases hc with ⟨rest, hrest⟩ | ⟨rest, hrest⟩
    · exact ⟨0x2F :: rest, hrest.symm⟩
    · exact ⟨0x2A :: rest, hrest.symm⟩
  obtain ⟨rest, hrest⟩ := hslash
  rw [LexUnit.startsWith, trimmed, hrest, Text.head?_trim (by decide) (by decide)]
  rfl

theorem IsComment.read (hc : c.IsComment) (next? : Option LexUnit) :
    c.trimmed.read next? = .ok .nothing := by
  obtain ⟨rest, hrest⟩ := startsWith_iff.mp hc.startsWith
  rw [LexUnit.read, hrest]
  rfl

theorem IsComment.not_isArgument (hc : c.IsComment) : ¬ c.trimmed.IsArgument := by
  obtain ⟨rest, hrest⟩ := startsWith_iff.mp hc.startsWith
  rintro (hgroup | hstring | hidentifier)
  · rw [LexUnit.startsWith, hrest] at hgroup
    cases hgroup
  · rw [LexUnit.startsWith, hrest] at hstring
    cases hstring
  · rw [hrest] at hidentifier
    cases hidentifier

theorem IsComment.not_takes (hc : c.IsComment) (u : LexUnit) : ¬ u.Takes c.trimmed :=
  not_takes_of_not_isArgument hc.not_isArgument u

end LexUnit

theorem readUnits_nothing {u : LexUnit} (h : ∀ next?, u.trimmed.read next? = .ok .nothing)
    (us : List LexUnit) : readUnits (u :: us) = readUnits us := by
  rw [readUnits_cons, h]
  change (readUnits us).map ([] ++ ·) = readUnits us
  cases readUnits us with
  | error d => rfl
  | ok is => rfl

theorem readUnits_comment {c : LexUnit} (hc : c.IsComment) (ys : List LexUnit) :
    readUnits (c :: ys) = readUnits ys :=
  readUnits_nothing hc.read ys

theorem readUnits_group {v : LexUnit} (hv : v.trimmed.startsWith 0x28 = true)
    (ys : List LexUnit) : readUnits (v :: ys) = readUnits ys := by
  apply readUnits_nothing
  intro next?
  obtain ⟨rest, hrest⟩ := LexUnit.startsWith_iff.mp hv
  rw [LexUnit.read, hrest]
  rfl

/-- No unit in front of a comment looks past it. -/
theorem readUnits_comment_congr {c : LexUnit} (hc : c.IsComment) {ys zs : List LexUnit}
    (h : readUnits ys = readUnits zs) (xs : List LexUnit) :
    readUnits (xs ++ c :: ys) = readUnits (xs ++ c :: zs) := by
  induction xs using units_induction with
  | nil => exact (readUnits_comment hc ys).trans (h.trans (readUnits_comment hc zs).symm)
  | cons u us ih =>
    cases us with
    | nil =>
      rw [List.singleton_append, List.singleton_append, readUnits_cons, readUnits_cons,
        List.head?_cons, List.head?_cons]
      cases hr : u.trimmed.read (some c) with
      | error d => rfl
      | ok r =>
        have hnext : r.takesNext = false := by
          apply LexUnit.takesNext_of_not_takes hr
          intro v hv
          cases hv
          exact hc.not_takes _
        change (readUnits _).map _ = (readUnits _).map _
        rw [Reading.later_of_takesNext hnext, Reading.later_of_takesNext hnext,
          readUnits_comment hc, readUnits_comment hc, h]
    | cons v vs =>
      have hne := List.cons_ne_nil v vs
      rw [readUnits_cons_append u hne, readUnits_cons_append u hne]
      congr 1
      funext r
      rw [ih _ (later_suffix (v :: vs) r)]

/-- Behind a unit that does not go on in the next one a comment changes nothing. -/
theorem readUnits_insert {c : LexUnit} (hc : c.IsComment) (xs ys : List LexUnit)
    (hcall : ∀ u ∈ xs.getLast?, u.trimmed.isCall = false)
    (htakes : ∀ u ∈ xs.getLast?, ∀ v ∈ ys.head?, ¬ u.trimmed.Takes v.trimmed) :
    readUnits (xs ++ c :: ys) = readUnits (xs ++ ys) := by
  induction xs using units_induction with
  | nil => exact readUnits_comment hc ys
  | cons u us ih =>
    cases us with
    | nil =>
      have hnext := LexUnit.read_of_not_takes (hcall u rfl) (htakes u rfl)
      have hcomment : u.trimmed.read (some c) = u.trimmed.read none := by
        apply LexUnit.read_of_not_takes (hcall u rfl)
        intro v hv
        cases hv
        exact hc.not_takes _
      rw [List.singleton_append, List.singleton_append, readUnits_cons, readUnits_cons,
        List.head?_cons, hcomment, hnext]
      cases hr : u.trimmed.read none with
      | error d => rfl
      | ok r =>
        have hr := LexUnit.takesNext_of_read_none hr
        change (readUnits _).map _ = (readUnits _).map _
        rw [Reading.later_of_takesNext hr, Reading.later_of_takesNext hr, readUnits_comment hc]
    | cons v vs =>
      have hne := List.cons_ne_nil v vs
      rw [readUnits_cons_append u hne, readUnits_cons_append u hne]
      congr 1
      funext r
      have hsuffix := later_suffix (v :: vs) r
      have hlast : ∀ w ∈ (r.later (v :: vs)).getLast?, w ∈ (u :: v :: vs).getLast? := fun w hw =>
        mem_getLast?_of_suffix (List.suffix_cons u _) (mem_getLast?_of_suffix hsuffix hw)
      rw [ih _ hsuffix (fun w hw => hcall w (hlast w hw)) (fun w hw => htakes w (hlast w hw))]

/-- A named call that is not followed by an argument is an error. -/
theorem readUnits_call_ne_ok {u : LexUnit} (hu : u.trimmed.isCall = true) (xs ys : List LexUnit)
    (hys : ∀ v ∈ ys.head?, ¬ v.trimmed.IsArgument) (is : List Instruction) :
    readUnits (xs ++ u :: ys) ≠ .ok is := by
  have hnot : ¬ u.trimmed.IsArgument := LexUnit.not_isArgument_of_isCall hu
  induction xs using units_induction generalizing is with
  | nil =>
    intro h
    obtain ⟨r, hr, -⟩ := readUnits_cons_eq_ok_iff.mp h
    obtain ⟨v, hv, haction | hcall⟩ := LexUnit.takes_of_read_of_isCall hu hr
    · rw [LexUnit.isCall_of_isAction haction.1] at hu
      cases hu
    · exact hys v hv hcall.2
  | cons w ws ih =>
    intro h
    cases ws with
    | nil =>
      obtain ⟨r, hr, js, hjs, -⟩ := readUnits_cons_eq_ok_iff.mp h
      -- The call cannot be what a unit in front of it takes.
      have hnext : r.takesNext = false := by
        apply LexUnit.takesNext_of_not_takes hr
        intro v hv
        cases hv
        exact LexUnit.not_takes_of_not_isArgument hnot _
      rw [Reading.later_of_takesNext hnext] at hjs
      exact ih [] (List.suffix_refl _) js hjs
    | cons v vs =>
      rw [readUnits_cons_append w (List.cons_ne_nil v vs)] at h
      obtain ⟨r, -, h⟩ := Result.bind_eq_ok_iff.mp h
      obtain ⟨js, hjs, -⟩ := Result.map_eq_ok_iff.mp h
      exact ih _ (later_suffix (v :: vs) r) js hjs

/-- A comment changes nothing, wherever it is put into a row of units, unless it comes between a
unit and what this unit takes. Right behind a named call it is no argument, and the row cannot be
read. A group right behind it stands for nothing, so that an action in front has no parameters. -/
theorem insert_comment_iff (xs ys : List LexUnit) (c : LexUnit) (hc : c.IsComment) :
    ((∀ u ∈ xs.getLast?, ∀ v ∈ ys.head?, ¬ u.trimmed.Takes v.trimmed) →
      ∀ is, instructions (xs ++ c :: ys) = .ok is ↔ instructions (xs ++ ys) = .ok is) ∧
    ((∃ u ∈ xs.getLast?, u.trimmed.isCall = true) →
      ∀ is, instructions (xs ++ c :: ys) ≠ .ok is) ∧
    ((∃ v ∈ ys.head?, v.trimmed.startsWith 0x28 = true) →
      ∀ is, instructions (xs ++ c :: ys) = .ok is ↔
        instructions (xs ++ c :: ys.tail) = .ok is) := by
  have hbehind {front : List LexUnit} {u : LexUnit} (hfront : xs = front ++ [u]) {vs : List LexUnit}
      (hu : u.trimmed.isCall = true) (hvs : ∀ v ∈ vs.head?, ¬ v.trimmed.IsArgument)
      (is : List Instruction) : instructions (xs ++ vs) ≠ .ok is := by
    intro h
    have hread := (instructions_eq_ok_iff.mp h).1
    rw [hfront, List.append_assoc, List.singleton_append] at hread
    exact readUnits_call_ne_ok hu front vs hvs is hread
  have hcomment : ∀ v ∈ (c :: ys).head?, ¬ v.trimmed.IsArgument := by
    intro v hv
    cases hv
    exact hc.not_isArgument
  refine ⟨?_, ?_, ?_⟩
  · intro htakes is
    by_cases hlast : ∃ u ∈ xs.getLast?, u.trimmed.isCall = true
    · obtain ⟨u, hu, hcall⟩ := hlast
      obtain ⟨front, hfront⟩ := List.getLast?_eq_some_iff.mp hu
      have hargument : ∀ v ∈ ys.head?, ¬ v.trimmed.IsArgument := fun v hv hargument =>
        htakes u hu v hv (.inr ⟨hcall, hargument⟩)
      exact iff_of_false (hbehind hfront hcall hcomment is) (hbehind hfront hcall hargument is)
    · have hcall : ∀ u ∈ xs.getLast?, u.trimmed.isCall = false := fun u hu =>
        Bool.eq_false_iff.mpr fun hcall => hlast ⟨u, hu, hcall⟩
      rw [instructions_eq_ok_iff, instructions_eq_ok_iff, readUnits_insert hc xs ys hcall htakes]
  · rintro ⟨u, hu, hcall⟩
    obtain ⟨front, hfront⟩ := List.getLast?_eq_some_iff.mp hu
    exact hbehind hfront hcall hcomment
  · rintro ⟨v, hv, hgroup⟩ is
    obtain ⟨later, rfl⟩ := List.head?_eq_some_iff.mp hv
    rw [instructions_eq_ok_iff, instructions_eq_ok_iff,
      readUnits_comment_congr hc (readUnits_group hgroup later), List.tail_cons]

/-- A named call and its argument. -/
def departure : LexUnit × LexUnit :=
  ({ text := Text.utf8 "$goto", line := 1, col := 1 },
    { text := Text.utf8 "end", line := 2, col := 1 })

/-- An action without a group, and a line. -/
def greetingUnits : LexUnit × LexUnit :=
  ({ text := Text.utf8 "@wave", line := 1, col := 1 },
    { text := Text.utf8 "\"Hi\"", line := 2, col := 1 })

def greetingInstructions : List Instruction :=
  [{ op := Operation.action.code, name := Text.utf8 "wave", line := 1, col := 1 },
    { op := Operation.line.code, params := [.text (Text.utf8 "Hi")], line := 2, col := 1 }]

def remark : LexUnit where
  text := Text.utf8 "// where"
  line := 1
  col := 7

def sideGroup : LexUnit where
  text := Text.utf8 "(left)"
  line := 2
  col := 1

theorem insert_comment_iff_remark :
    remark.IsComment ∧ ¬ greetingUnits.1.trimmed.Takes greetingUnits.2.trimmed ∧
      instructions ([greetingUnits.1] ++ remark :: [greetingUnits.2]) =
        .ok greetingInstructions ∧
      (∀ is, instructions ([departure.1] ++ remark :: [departure.2]) ≠ .ok is) ∧
      instructions ([greetingUnits.1] ++ remark :: [sideGroup, greetingUnits.2]) =
        .ok greetingInstructions := by
  have hc : remark.IsComment := by decide +kernel
  have htakes : ¬ greetingUnits.1.trimmed.Takes greetingUnits.2.trimmed := by decide +kernel
  have hskipped : instructions ([greetingUnits.1] ++ remark :: [greetingUnits.2]) =
      .ok greetingInstructions := by
    apply ((insert_comment_iff [greetingUnits.1] [greetingUnits.2] remark hc).1 ?_ _).mpr
    · decide +kernel
    · intro u hu v hv
      cases hu
      cases hv
      exact htakes
  refine ⟨hc, htakes, hskipped, ?_, ?_⟩
  · exact (insert_comment_iff [departure.1] [departure.2] remark hc).2.1
      ⟨departure.1, rfl, by decide +kernel⟩
  · exact ((insert_comment_iff [greetingUnits.1] [sideGroup, greetingUnits.2] remark hc).2.2
      ⟨sideGroup, rfl, by decide +kernel⟩ _).mpr hskipped

/-- A comment between a named call and its argument is not skipped. -/
theorem remark_splits_departure :
    remark.IsComment ∧
      instructions ([departure.1] ++ [departure.2]) =
        .ok [{ op := Operation.namedCall.code, name := Text.utf8 "goto",
               params := [.text (Text.utf8 "end")], line := 1, col := 1 }] ∧
      instructions ([departure.1] ++ remark :: [departure.2]) =
        .error { fault := .badArgument (Text.utf8 "goto"), line := 1, col := 7,
                 unit := Text.utf8 "// where" } := by
  refine ⟨?_, ?_, ?_⟩
  · decide +kernel
  · decide +kernel
  · decide +kernel

end Dialogue.Script
