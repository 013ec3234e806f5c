import Dialogue.Proofs.ErrorPlaces
import Dialogue.Proofs.GuardedCompile
import Dialogue.Proofs.JoinedUnits
import Dialogue.Proofs.LookAhead

/-!
# Scripts one below the other

A script that leaves no string, group or comment open can be continued on a new line. The units of
the whole are those of its parts, and so are the instructions, with the places of the second part
moved behind the first one.
-/

namespace Dialogue

/-- The instruction some lines further down. -/
def Instruction.lowered (lines : Nat) (i : Instruction) : Instruction :=
  { i with line := i.line + lines }

namespace Script

/-! ## Scans from other places -/

def Position.shifted (chars lines : Nat) (p : Position) : Position :=
  ⟨p.offset + chars, p.line + lines, p.col⟩

/-- The unit some code points and lines further down. -/
def LexUnit.shifted (chars lines : Nat) (u : LexUnit) : LexUnit :=
  { u with offset := u.offset + chars, line := u.line + lines }

theorem Position.advance_shifted (chars lines : Nat) (p : Position) (c : Char) :
    (p.shifted chars lines).advance c = (p.advance c).shifted chars lines := by
  rw [advance, advance]
  split
  · simp only [shifted, Nat.add_right_comm]
  · simp only [shifted, Nat.add_right_comm]

theorem Position.line_after (p : Position) (cs : List Char) :
    (p.after cs).line = p.line + cs.count '\n' := by
  induction cs generalizing p with
  | nil => rfl
  | cons c cs ih =>
    have hstep : (p.advance c).line = p.line + if c = '\n' then 1 else 0 := by
      rw [advance]
      split
      · rfl
      · rfl
    have hcount : (c :: cs).count '\n' = cs.count '\n' + if c = '\n' then 1 else 0 := by
      rw [List.count_cons]
      simp only [beq_iff_eq]
    rw [after, List.foldl_cons]
    refine (ih _).trans ?_
    omega

/-- The place behind a text and a line feed, where a new line starts. -/
theorem Position.advance_after_newline (cs : List Char) :
    (({} : Position).after cs).advance '\n' =
      ({} : Position).shifted (cs.length + 1) (cs.count '\n' + 1) := by
  have hline := Position.line_after {} cs
  rw [advance, if_pos rfl, Position.offset_after_start, hline]
  simp only [shifted, Nat.add_assoc, Nat.zero_add]

namespace LexUnit

theorem scan_shifted (chars lines skip : Nat) (prev : Option Char) (pos : Position)
    (cs : List Char) :
    scan skip prev (pos.shifted chars lines) cs =
      (scan skip prev pos cs).map (shifted chars lines) := by
  induction cs generalizing skip prev pos with
  | nil => rfl
  | cons c cs ih =>
    cases skip with
    | succ skip => rw [scan, scan, Position.advance_shifted, ih]
    | zero =>
      rw [scan, scan, Position.advance_shifted]
      cases lengthAt? prev (c :: cs) with
      | none => exact ih 0 _ _
      | some n =>
        simp only [ih, List.map_cons]
        rfl

theorem lengthAt?_congr {prev prev' : Option Char} (h : prev ≠ some '\\') (h' : prev' ≠ some '\\')
    (cs : List Char) : lengthAt? prev cs = lengthAt? prev' cs := by
  unfold lengthAt?
  split
  case h_2 => rw [if_neg h, if_neg h']
  all_goals rfl

theorem scan_congr {prev prev' : Option Char} (h : prev ≠ some '\\') (h' : prev' ≠ some '\\')
    (pos : Position) (cs : List Char) : scan 0 prev pos cs = scan 0 prev' pos cs := by
  cases cs with
  | nil => rfl
  | cons c cs => rw [scan, scan, lengthAt?_congr h h']

/-! ## Scans that go on -/

/-- Whether the code point with number `k` of a source belongs to a unit. -/
def Spans (u : LexUnit) (k : Nat) : Prop :=
  u.offset ≤ k ∧ k < u.offset + (Text.decode u.text).length

/-- The characters that open a string, a group or a comment. -/
def openers : List Char :=
  ['"', '(', '[', '/']

/-- Whether all openers among code points that are numbered from `start` belong to some units. -/
def Closed (start : Nat) (cs : List Char) (us : List LexUnit) : Prop :=
  ∀ p ∈ cs.zipIdx start, p.1 ∈ openers → ∃ u ∈ us, u.Spans p.2

instance (u : LexUnit) (k : Nat) : Decidable (u.Spans k) :=
  inferInstanceAs (Decidable (_ ∧ _))

instance (start : Nat) (cs : List Char) (us : List LexUnit) : Decidable (Closed start cs us) :=
  inferInstanceAs (Decidable (∀ p ∈ _, _ → _))

theorem UnitAt.append_newline {prev : Option Char} {u rest : List Char} (h : UnitAt prev u rest)
    (more : List Char) : UnitAt prev u (rest ++ '\n' :: more) := by
  have hhead : ∀ d ∈ (rest ++ '\n' :: more).head?, d ∈ rest.head? ∨ d = '\n' := by
    cases rest with
    | nil =>
      intro d hd
      exact .inr (Option.mem_some.mp hd).symm
    | cons c rest =>
      intro d hd
      exact .inl hd
  cases h with
  | word c cs rest hword hend =>
    apply UnitAt.word c cs _ hword
    intro d hd
    rcases hhead d hd with hd | rfl
    · exact hend d hd
    · exact isWordRun_eq_false _ (by decide)
  | sign c rest hsign => exact .sign c _ hsign
  | quoted body rest hprev hbody => exact .quoted body _ hprev hbody
  | parens body rest hbody => exact .parens body _ hbody
  | brackets body rest hbody => exact .brackets body _ hbody
  | lineComment body rest hbody hend =>
    apply UnitAt.lineComment body _ hbody
    intro d hd
    rcases hhead d hd with hd | hd
    · exact hend d hd
    · exact hd
  | blockComment body rest hbody => exact .blockComment body _ hbody

/-- A gap that is no opener is one whatever comes behind it. -/
theorem lengthAt?_gap {prev : Option Char} {c : Char} {cs : List Char} (hc : c ∉ openers)
    (h : lengthAt? prev (c :: cs) = none) (ds : List Char) : lengthAt? prev (c :: ds) = none := by
  rw [lengthAt?_cons hc] at h ⊢
  split at h
  · cases h
  · split at h
    · cases h
    · rename_i hsign hword
      rw [if_neg hsign, if_neg hword]

theorem scan_append_newline (prev : Option Char) (pos : Position) (cs more : List Char)
    (h : Closed pos.offset cs (scan 0 prev pos cs)) :
    scan 0 prev pos (cs ++ '\n' :: more) =
      scan 0 prev pos cs ++ scan 0 (some '\n') ((pos.after cs).advance '\n') more := by
  -- No unit of a scan starts before it, so an opener in front has to be the start of a unit.
  refine (scan_induction (P := fun prev pos cs us => (∀ v ∈ us, pos.offset ≤ v.offset) ∧
    (Closed pos.offset cs us → scan 0 prev pos (cs ++ '\n' :: more) =
      us ++ scan 0 (some '\n') ((pos.after cs).advance '\n') more)) ?_ ?_ ?_ prev pos cs).2 h
  · intro prev pos
    refine ⟨nofun, fun _ => ?_⟩
    exact scan_newline prev pos more
  · intro prev pos c cs us hgap ⟨hle, ih⟩
    have hoffset : (pos.advance c).offset = pos.offset + 1 := Position.offset_after pos [c]
    refine ⟨fun v hv => ?_, fun hclosed => ?_⟩
    · have hv := hle v hv
      omega
    · have hc : c ∉ openers := by
        intro hopens
        obtain ⟨u, hu, hspans⟩ := hclosed (c, pos.offset) List.mem_cons_self hopens
        have hu := hle u hu
        have hstart : u.offset ≤ pos.offset := hspans.1
        omega
      rw [List.cons_append, scan_gap (lengthAt?_gap hc hgap _), ih]
      · rfl
      · intro p hp hopens
        rw [hoffset] at hp
        exact hclosed p (List.mem_cons_of_mem _ hp) hopens
  · intro prev pos u rest us hunit ⟨hle, ih⟩
    have hoffset := Position.offset_after pos u
    refine ⟨fun v hv => ?_, fun hclosed => ?_⟩
    · rcases List.mem_cons.mp hv with rfl | hv
      · exact Nat.le_refl _
      · have hv := hle v hv
        omega
    · rw [List.append_assoc, scan_unit (hunit.append_newline more), ih, Position.after_append]
      · rfl
      · intro p hp hopens
        rw [hoffset] at hp
        have hmem : p ∈ (u ++ rest).zipIdx pos.offset := by
          rw [List.zipIdx_append]
          exact List.mem_append_right _ hp
        obtain ⟨v, hv, hspans⟩ := hclosed p hmem hopens
        rcases List.mem_cons.mp hv with rfl | hv
        · have hend := hspans.2
          have hstart := List.le_snd_of_mem_zipIdx hp
          simp only [ofChars, Text.decode_encode] at hend
          omega
        · exact ⟨v, hv, hspans⟩

/-- The units of a script and of one below it are the units of both. -/
theorem ofSource_below {a b : Bytes} {us vs : List LexUnit} (ha : ofSource a = .ok us)
    (hb : ofSource b = .ok vs) (hclosed : Closed 0 (Text.decode a) us) :
    ofSource (a ++ 0x0A :: b) = .ok (us ++
      vs.map (shifted ((Text.decode a).length + 1) ((Text.decode a).count '\n' + 1))) := by
  obtain ⟨rfl, hne⟩ := ofSource_eq_ok_iff.mp ha
  obtain ⟨rfl, -⟩ := ofSource_eq_ok_iff.mp hb
  have hprev : (some '\n' : Option Char) ≠ some '\\' := by decide
  refine ofSource_eq_ok_iff.mpr ⟨?_, List.append_ne_nil_of_left_ne_nil hne _⟩
  rw [Text.decode_append_newline, scan_append_newline none {} _ _ hclosed,
    Position.advance_after_newline, scan_shifted, scan_congr hprev (Option.some_ne_none _).symm]

/-! ## Instructions -/

theorem startsWith_trimmed {source : Bytes} {us : List LexUnit} (h : ofSource source = .ok us)
    {u : LexUnit} (hu : u ∈ us) (b : UInt8) : u.trimmed.startsWith b = u.startsWith b := by
  obtain ⟨rfl, -⟩ := ofSource_eq_ok_iff.mp h
  obtain ⟨before, cs, rest, last, -, hunit, rfl⟩ := exists_of_mem_scan none {} _ u hu
  obtain ⟨c, cs, rfl⟩ := List.exists_cons_of_ne_nil hunit.ne_nil
  have hstrip : (Text.strip Text.isSpace (c :: cs)).head? = some c :=
    Text.head?_strip hunit.isSpace_head
  obtain ⟨later, hlater⟩ := List.head?_eq_some_iff.mp hstrip
  obtain ⟨lead, -, hlead⟩ := Text.head?_encode_cons c
  have htrim : (Text.trim (Text.encode (c :: cs))).head? = (Text.encode (c :: cs)).head? := by
    rw [Text.trim_encode, hlater, hlead, hlead]
  exact congrArg (· == some b) htrim

end LexUnit

/-- Units that can be read by themselves are read the same way in front of others, unless the last
one takes a group from behind it. -/
theorem readUnits_append {us vs : List LexUnit} {is js : List Instruction}
    (hus : readUnits us = .ok is) (hvs : readUnits vs = .ok js)
    (hgroup : ∀ v ∈ vs.head?, v.trimmed.startsWith 0x28 = false) :
    readUnits (us ++ vs) = .ok (is ++ js) := by
  induction us using units_induction generalizing is with
  | nil =>
    cases hus
    exact hvs
  | cons u us ih =>
    obtain ⟨r, hr, ks, hks, rfl⟩ := readUnits_cons_eq_ok_iff.mp hus
    cases us with
    | nil =>
      have hcall : u.trimmed.isCall = false := by
        cases hcall : u.trimmed.isCall with
        | false => rfl
        | true =>
          obtain ⟨v, hv, -⟩ := LexUnit.takes_of_read_of_isCall hcall hr
          cases hv
      have htakes : ∀ v ∈ vs.head?, ¬ u.trimmed.Takes v.trimmed := by
        rintro v hv (⟨-, hv'⟩ | ⟨hcall', -⟩)
        · rw [hgroup v hv] at hv'
          cases hv'
        · rw [hcall] at hcall'
          cases hcall'
      have hnext := LexUnit.takesNext_of_read_none hr
      rw [Reading.later_of_takesNext hnext] at hks
      cases hks
      apply readUnits_cons_eq_ok_iff.mpr
      refine ⟨r, (LexUnit.read_of_not_takes hcall htakes).trans hr, js, ?_, ?_⟩
      · rw [Reading.later_of_takesNext hnext]
        exact hvs
      · rw [List.append_nil]
    | cons v us =>
      rw [readUnits_cons_append u (List.cons_ne_nil v us), hr]
      change (readUnits _).map _ = _
      rw [ih _ (later_suffix _ r) hks, List.append_assoc]
      rfl

theorem readUnits_shifted (chars lines : Nat) {us : List LexUnit} {is : List Instruction}
    (h : readUnits us = .ok is) :
    readUnits (us.map (.shifted chars lines)) = .ok (is.map (.lowered lines)) := by
  -- Units are read without their offsets, so moving them by lines says it all.
  have hplaces : (us.map (LexUnit.shifted chars lines)).map (LexUnit.moved id) =
      us.map (LexUnit.moved fun p => (p.1 + lines, p.2)) := by
    rw [List.map_map]
    rfl
  have hmoved := readUnits_moved (fun p => (p.1 + lines, p.2)) us
  rw [← hplaces, readUnits_moved id, h] at hmoved
  cases hread : readUnits (us.map (.shifted chars lines)) with
  | error d =>
    rw [hread] at hmoved
    cases hmoved
  | ok js =>
    rw [hread] at hmoved
    have hjs : js.map (Instruction.moved id) = js := List.map_id js
    rw [← hjs]
    exact congrArg Except.ok (Except.ok.inj hmoved)

/-- Scripts can be put one below the other. If the first one leaves nothing open between its units
and the second one does not start with a group, then the whole has the units and the instructions of
both, those of the second one further down. -/
theorem instructions_script_below (a b : Bytes) (us vs : List LexUnit) (is js : List Instruction)
    (ha : LexUnit.ofSource a = .ok us) (hb : LexUnit.ofSource b = .ok vs)
    (his : instructions us = .ok is) (hjs : instructions vs = .ok js)
    (hclosed : LexUnit.Closed 0 (Text.decode a) us)
    (hgroup : ∀ v ∈ vs.head?, v.startsWith 0x28 = false) :
    ∃ ws, LexUnit.ofSource (a ++ 0x0A :: b) = .ok (us ++ ws) ∧
      ws = vs.map (.shifted ((Text.decode a).length + 1) ((Text.decode a).count '\n' + 1)) ∧
      instructions (us ++ ws) =
        .ok (is ++ js.map (.lowered ((Text.decode a).count '\n' + 1))) := by
  refine ⟨_, LexUnit.ofSource_below ha hb hclosed, rfl, ?_⟩
  obtain ⟨his, hne⟩ := instructions_eq_ok_iff.mp his
  obtain ⟨hjs, -⟩ := instructions_eq_ok_iff.mp hjs
  apply instructions_eq_ok_iff.mpr
  refine ⟨?_, List.append_ne_nil_of_left_ne_nil hne _⟩
  apply readUnits_append his (readUnits_shifted _ _ hjs)
  intro v hv
  rw [List.head?_map] at hv
  obtain ⟨w, hw, rfl⟩ := Option.map_eq_some_iff.mp hv
  have htrimmed := LexUnit.startsWith_trimmed hb (List.mem_of_mem_head? hw) 0x28
  exact htrimmed.trans (hgroup w hw)

/-- A script that ends with an action and a byte that belongs to no unit. -/
def dawn : Bytes :=
  Text.utf8 "\"Hi (all)\"\n@wave " ++ [0xFF]

def dawnUnits : List LexUnit :=
  [{ text := Text.utf8 "\"Hi (all)\"", offset := 0, line := 1, col := 1 },
    { text := Text.utf8 "@wave", offset := 11, line := 2, col := 1 }]

def dusk : Bytes :=
  Text.utf8 "[Bob] \"Oh\""

def duskUnits : List LexUnit :=
  [{ text := Text.utf8 "[Bob]", offset := 0, line := 1, col := 1 },
    { text := Text.utf8 "\"Oh\"", offset := 6, line := 1, col := 7 }]

theorem instructions_script_below_dusk :
    LexUnit.ofSource dawn = .ok dawnUnits ∧ LexUnit.ofSource dusk = .ok duskUnits ∧
      LexUnit.Closed 0 (Text.decode dawn) dawnUnits ∧
      ∃ ws, LexUnit.ofSource (dawn ++ 0x0A :: dusk) = .ok (dawnUnits ++ ws) ∧
        ws = duskUnits.map (.shifted 19 2) ∧
        instructions (dawnUnits ++ ws) =
          .ok ([{ op := Operation.line.code, params := [.text (Text.utf8 "Hi (all)")],
                  line := 1, col := 1 },
              { op := Operation.action.code, name := Text.utf8 "wave", line := 2, col := 1 }] ++
            [{ op := Operation.actor.code, params := [.text (Text.utf8 "Bob")],
                line := 3, col := 1 },
              { op := Operation.line.code, params := [.text (Text.utf8 "Oh")],
                line := 3, col := 7 }]) := by
  have hdawn : LexUnit.ofSource dawn = .ok dawnUnits := by decide +kernel
  have hdusk : LexUnit.ofSource dusk = .ok duskUnits := by decide +kernel
  have hclosed : LexUnit.Closed 0 (Text.decode dawn) dawnUnits := by decide +kernel
  have hchars : (Text.decode dawn).length + 1 = 19 := by decide +kernel
  have hlines : (Text.decode dawn).count '\n' + 1 = 2 := by decide +kernel
  have hbelow := instructions_script_below dawn dusk dawnUnits duskUnits
    [{ op := Operation.line.code, params := [.text (Text.utf8 "Hi (all)")], line := 1, col := 1 },
      { op := Operation.action.code, name := Text.utf8 "wave", line := 2, col := 1 }]
    [{ op := Operation.actor.code, params := [.text (Text.utf8 "Bob")], line := 1, col := 1 },
      { op := Operation.line.code, params := [.text (Text.utf8 "Oh")], line := 1, col := 7 }]
    hdawn hdusk (by decide +kernel) (by decide +kernel) hclosed (by decide +kernel)
  rw [hchars, hlines] at hbelow
  exact ⟨hdawn, hdusk, hclosed, hbelow⟩

end Script

end Dialogue
