import Dialogue.Proofs.ReadInstructions

/-!
# Where texts come from

A text among the parameters of an instruction is given by a unit: it is what a string stands for, a
parameter of a group, or an identifier. What is to be shown of the texts of a script is shown of
these three.
-/

namespace Dialogue.Script

/-- The ways in which a unit gives a text. -/
inductive LexUnit.Gives (u : LexUnit) : Bytes → Prop
  | literal (text : Bytes) (h : u.literal = .ok text) : u.Gives text
  | group (texts : List Bytes) (text : Bytes)
      (hstarts : u.startsWith 0x28 = true ∨ u.startsWith 0x5B = true)
      (h : u.group = .ok texts) (hmem : text ∈ texts) : u.Gives text
  | identifier (h : isIdentifier u.text = true) : u.Gives u.text

def Reading.HasText (r : Reading) (text : Bytes) : Prop :=
  ∃ i ∈ r.instruction?, .text text ∈ i.params

theorem mem_of_mem_textParams {text : Bytes} {texts : List Bytes}
    (h : Param.text text ∈ textParams texts) : text ∈ texts := by
  obtain ⟨text', hmem, heq⟩ := List.mem_map.mp h
  cases heq
  exact hmem

namespace LexUnit

variable {u : LexUnit} {next? : Option LexUnit} {r : Reading} {text : Bytes}

theorem gives_of_readAction (h : u.readAction next? = .ok r) (htext : r.HasText text) :
    ∃ v ∈ next?, v.trimmed.Gives text := by
  obtain ⟨i, hi, hmem⟩ := htext
  obtain ⟨name, -, h⟩ := Result.bind_eq_ok_iff.mp h
  cases next? with
  | none =>
    cases h
    cases hi
    cases hmem
  | some v =>
    dsimp only [Option.map_some] at h
    split at h
    · rename_i hstarts
      obtain ⟨texts, htexts, h⟩ := Result.bind_eq_ok_iff.mp h
      cases h
      cases hi
      exact ⟨v, Option.mem_some_self v, .group texts text (.inl hstarts) htexts
        (mem_of_mem_textParams hmem)⟩
    · cases h
      cases hi
      cases hmem

theorem gives_of_callArguments {name : Bytes} {texts : List Bytes}
    (h : u.callArguments name = .ok texts) (hmem : text ∈ texts) : u.Gives text := by
  rw [callArguments] at h
  split at h
  · rename_i hstarts
    exact .group texts text (.inl hstarts) h hmem
  · split at h
    · obtain ⟨literal, hliteral, rfl⟩ := Result.map_eq_ok_iff.mp h
      rw [List.mem_singleton] at hmem
      exact hmem ▸ .literal literal hliteral
    · split at h
      · rename_i hidentifier
        cases h
        rw [List.mem_singleton] at hmem
        exact hmem ▸ .identifier hidentifier
      · cases h

theorem gives_of_readNamedCall (h : u.readNamedCall next? = .ok r) (htext : r.HasText text) :
    ∃ v ∈ next?, v.trimmed.Gives text := by
  obtain ⟨i, hi, hmem⟩ := htext
  obtain ⟨name, -, h⟩ := Result.bind_eq_ok_iff.mp h
  cases next? with
  | none => cases h
  | some v =>
    obtain ⟨texts, htexts, h⟩ := Result.bind_eq_ok_iff.mp h
    cases h
    cases hi
    exact ⟨v, Option.mem_some_self v, gives_of_callArguments htexts (mem_of_mem_textParams hmem)⟩

theorem gives_of_readActors (hstarts : u.startsWith 0x5B = true) (h : u.readActors = .ok r)
    (htext : r.HasText text) : u.Gives text := by
  obtain ⟨i, hi, hmem⟩ := htext
  obtain ⟨names, hnames, h⟩ := Result.bind_eq_ok_iff.mp h
  split at h
  · cases h
  · cases h
    cases hi
    exact .group names text (.inr hstarts) hnames (mem_of_mem_textParams hmem)

theorem not_hasText_of_readWait (h : u.readWait = .ok r) : ¬ r.HasText text := by
  rintro ⟨i, hi, hmem⟩
  rw [readWait] at h
  split at h
  · cases h
  · split at h
    · cases h
    · cases h
      cases hi
      simp at hmem

theorem not_hasText_of_readColor (h : u.readColor = .ok r) : ¬ r.HasText text := by
  rintro ⟨i, hi, hmem⟩
  rw [readColor] at h
  split at h
  · cases h
  · split at h
    · cases h
      cases hi
      simp at hmem
    · cases h
      cases hi

theorem not_hasText_of_readSwitch {on : Bool} (h : u.readSwitch on = .ok r) :
    ¬ r.HasText text := by
  rintro ⟨i, hi, hmem⟩
  obtain ⟨name, -, h⟩ := Result.bind_eq_ok_iff.mp h
  cases h
  cases hi
  simp at hmem

/-- A text that a unit is read with is given by the unit itself or by the one after it. -/
theorem gives_of_read (h : u.read next? = .ok r) (htext : r.HasText text) :
    u.Gives text ∨ ∃ v ∈ next?, v.trimmed.Gives text := by
  have hparam := htext
  obtain ⟨i, hi, hmem⟩ := hparam
  unfold read at h
  split at h
  · cases h
    cases hi
  · rename_i sigil rest hsigil
    -- One case for each sigil, in the order of `read`.
    split at h
    case h_1 | h_2 =>
      cases h
      cases hi
    case h_3 =>
      obtain ⟨literal, hliteral, h⟩ := Result.bind_eq_ok_iff.mp h
      cases h
      cases hi
      cases List.mem_singleton.mp hmem
      exact .inl (.literal text hliteral)
    case h_4 => exact .inr (gives_of_readAction h htext)
    case h_5 => exact .inr (gives_of_readNamedCall h htext)
    case h_6 =>
      obtain ⟨name, -, h⟩ := Result.bind_eq_ok_iff.mp h
      cases h
      cases hi
      cases hmem
    case h_7 => exact absurd htext (not_hasText_of_readWait h)
    case h_8 => exact absurd htext (not_hasText_of_readColor h)
    case h_9 hbracket =>
      have hstarts : u.startsWith 0x5B = true := by
        have hnat : sigil.toNat = (0x5B : UInt8).toNat := congrArg Char.toNat hbracket
        rw [startsWith, hsigil, UInt8.toNat_inj.mp hnat]
        rfl
      exact .inl (gives_of_readActors hstarts h htext)
    case h_10 | h_11 | h_12 =>
      cases h
      cases hi
      cases hmem
    case h_13 | h_14 => exact absurd htext (not_hasText_of_readSwitch h)
    case h_15 => cases h

end LexUnit

theorem gives_of_readUnits {us : List LexUnit} {is : List Instruction} (h : readUnits us = .ok is)
    {i : Instruction} (hi : i ∈ is) {text : Bytes} (hmem : .text text ∈ i.params) :
    ∃ u ∈ us, u.trimmed.Gives text := by
  induction us using units_induction generalizing is with
  | nil =>
    cases h
    cases hi
  | cons u us ih =>
    obtain ⟨r, hr, js, hjs, rfl⟩ := readUnits_cons_eq_ok_iff.mp h
    have hsuffix := later_suffix us r
    rcases List.mem_append.mp hi with hi | hi
    · rw [LexUnit.placed, Option.mem_toList, Option.map_eq_some_iff] at hi
      obtain ⟨j, hj, rfl⟩ := hi
      rcases LexUnit.gives_of_read hr ⟨j, hj, hmem⟩ with hu | ⟨v, hv, hgives⟩
      · exact ⟨u, List.mem_cons_self, hu⟩
      · exact ⟨v, List.mem_cons_of_mem u (List.mem_of_mem_head? hv), hgives⟩
    · obtain ⟨v, hv, hgives⟩ := ih _ hsuffix hjs hi
      exact ⟨v, List.mem_cons_of_mem u (hsuffix.subset hv), hgives⟩

end Dialogue.Script
