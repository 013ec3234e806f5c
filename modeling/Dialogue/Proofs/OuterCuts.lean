import Dialogue.Proofs.CleanTexts
import Dialogue.Proofs.ParamTrees

/-!
# Cuts at outer commas

A text is cut at the commas that stand outside of strings and groups, and in one way only. A comma
between two texts is such a cut exactly if the first of them leaves no string and no group open,
whatever else is in it: signs without a partner, open strings, backslashes at the end.
-/

namespace Dialogue.Script.ParamGroup

open Guarded (prepend)

/-! ## Scans -/

/-- The state of a scan after some more bytes. -/
def Scan.after (s : Scan) (bs : Bytes) : Scan :=
  bs.foldl Scan.step s

/-- A scan can stand outside of all strings and groups in one way only. -/
theorem Scan.eq_start_of_isTop {s : Scan} (h : s.isTop = true) : s = {} := by
  obtain ⟨depth, quoting⟩ := s
  obtain ⟨hquoting, hdepth⟩ := Bool.and_eq_true_iff.mp h
  cases eq_of_beq hquoting
  cases eq_of_beq hdepth
  rfl

theorem Scan.isTop_iff (s : Scan) : s.isTop = true ↔ s.quoting = .outside ∧ s.depth = 0 := by
  rw [isTop, Bool.and_eq_true, beq_iff_eq, beq_iff_eq]

theorem piecesFrom_comma {s : Scan} (h : s.isTop = true) (bs : Bytes) :
    piecesFrom s (0x2C :: bs) = [] :: pieces bs := by
  rw [piecesFrom, if_pos ⟨h, rfl⟩, s.eq_start_of_isTop h]
  rfl

/-- What follows a text goes on with the last of its pieces. -/
theorem exists_piecesFrom_append (s : Scan) (a : Bytes) :
    ∃ front last, piecesFrom s a = front ++ [last] ∧
      ∀ b, piecesFrom s (a ++ b) = front ++ prepend last (piecesFrom (s.after a) b) := by
  induction a generalizing s with
  | nil => exact ⟨[], [], rfl, fun b => (Guarded.prepend_nil _).symm⟩
  | cons c a ih =>
    by_cases hcut : s.isTop = true ∧ c = 0x2C
    · obtain ⟨htop, rfl⟩ := hcut
      cases s.eq_start_of_isTop htop
      obtain ⟨front, last, ha, happend⟩ := ih {}
      refine ⟨[] :: front, last, ?_, fun b => ?_⟩
      · rw [piecesFrom_comma rfl, pieces, ha]
        rfl
      · rw [List.cons_append, piecesFrom_comma rfl, pieces, happend]
        rfl
    · obtain ⟨front, last, ha, happend⟩ := ih (s.step c)
      cases front with
      | nil =>
        refine ⟨[], c :: last, ?_, fun b => ?_⟩
        · rw [piecesFrom_cons hcut _ rfl, ha]
          rfl
        · rw [List.cons_append, piecesFrom_cons hcut _ rfl, happend, List.nil_append,
            Guarded.prepend_prepend]
          rfl
      | cons part front =>
        refine ⟨(c :: part) :: front, last, ?_, fun b => ?_⟩
        · rw [piecesFrom_cons hcut _ rfl, ha]
          rfl
        · rw [List.cons_append, piecesFrom_cons hcut _ rfl, happend]
          rfl

/-! ## Commas between texts -/

/-- A comma behind a text is a cut, or it belongs to the last of the pieces. -/
theorem pieces_append_comma (a b : Bytes) :
    ∃ front last, pieces a = front ++ [last] ∧
      ((Scan.after {} a).isTop = true ∧ pieces (a ++ 0x2C :: b) = front ++ last :: pieces b ∨
        (Scan.after {} a).isTop = false ∧
          ∃ more later, pieces (a ++ 0x2C :: b) = front ++ (last ++ 0x2C :: more) :: later) := by
  obtain ⟨front, last, ha, happend⟩ := exists_piecesFrom_append {} a
  refine ⟨front, last, ha, ?_⟩
  rw [pieces, happend]
  cases htop : (Scan.after {} a).isTop with
  | true =>
    rw [piecesFrom_comma htop, prepend, List.modifyHead_cons, List.append_nil]
    exact .inl ⟨rfl, rfl⟩
  | false =>
    have hcut : ¬ ((Scan.after {} a).isTop = true ∧ (0x2C : UInt8) = 0x2C) := by
      rw [htop]
      exact fun hcut => absurd hcut.1 Bool.false_ne_true
    obtain ⟨more, later, hb⟩ := List.exists_cons_of_ne_nil
      (piecesFrom_ne_nil ((Scan.after {} a).step 0x2C) b)
    rw [piecesFrom_cons hcut _ rfl, hb]
    exact .inr ⟨rfl, more, later, rfl⟩

theorem pieces_append_comma_iff (a b : Bytes) :
    pieces (a ++ 0x2C :: b) = pieces a ++ pieces b ↔ (Scan.after {} a).isTop = true := by
  obtain ⟨front, last, ha, ⟨htop, hpieces⟩ | ⟨htop, more, later, hpieces⟩⟩ :=
    pieces_append_comma a b
  all_goals rw [hpieces, ha, htop, List.append_assoc, List.singleton_append]
  · exact iff_of_true rfl rfl
  · refine iff_of_false (fun h => ?_) Bool.false_ne_true
    have hlast : last ++ 0x2C :: more = last := (List.cons.inj (List.append_cancel_left h)).1
    exact List.cons_ne_nil _ _ (List.append_right_eq_self.mp hlast)

theorem exists_piecesFrom_uncut (s : Scan) (bs : Bytes) :
    ∃ first later, piecesFrom s bs = first :: later ∧ piecesFrom s first = [first] ∧
      ∀ p ∈ later, pieces p = [p] := by
  induction bs generalizing s with
  | nil => exact ⟨[], [], rfl, rfl, fun p hp => absurd hp List.not_mem_nil⟩
  | cons b bs ih =>
    by_cases hcut : s.isTop = true ∧ b = 0x2C
    · obtain ⟨htop, rfl⟩ := hcut
      obtain ⟨first, later, hbs, hfirst, hlater⟩ := ih {}
      rw [piecesFrom_comma htop, pieces, hbs]
      exact ⟨[], first :: later, rfl, rfl, List.forall_mem_cons.mpr ⟨hfirst, hlater⟩⟩
    · obtain ⟨first, later, hbs, hfirst, hlater⟩ := ih (s.step b)
      rw [piecesFrom_cons hcut _ rfl, hbs]
      refine ⟨b :: first, later, rfl, ?_, hlater⟩
      rw [piecesFrom_cons hcut _ rfl, hfirst]
      rfl

/-- A piece is cut no further. -/
theorem pieces_of_mem_pieces {bs p : Bytes} (h : p ∈ pieces bs) : pieces p = [p] := by
  obtain ⟨first, later, hbs, hfirst, hlater⟩ := exists_piecesFrom_uncut {} bs
  rw [pieces, hbs] at h
  rcases List.mem_cons.mp h with rfl | h
  · exact hfirst
  · exact hlater p h

/-- The first of several pieces is closed, and what is behind its comma is cut by itself. -/
theorem pieces_behind_first {bs p q : Bytes} {ps : List Bytes} (h : pieces bs = p :: q :: ps) :
    (Scan.after {} p).isTop = true ∧ bs = p ++ 0x2C :: [0x2C].intercalate (q :: ps) ∧
      pieces ([0x2C].intercalate (q :: ps)) = q :: ps := by
  have hjoin : bs = p ++ 0x2C :: [0x2C].intercalate (q :: ps) := by
    have hbs := intercalate_piecesFrom {} bs
    rw [← pieces, h, List.intercalate_cons_cons, List.append_assoc] at hbs
    exact hbs.symm
  have hmem : p ∈ pieces bs := h ▸ List.mem_cons_self
  have hp := pieces_of_mem_pieces hmem
  obtain ⟨front, last, hfront, hcomma⟩ :=
    pieces_append_comma p ([0x2C].intercalate (q :: ps))
  rw [hp] at hfront
  obtain ⟨rfl, hlast⟩ := List.append_eq_singleton_iff.mp hfront.symm |>.resolve_right
    fun hnil => absurd hnil.2 (List.cons_ne_nil _ _)
  cases hlast
  rw [← hjoin, h] at hcomma
  rcases hcomma with ⟨htop, hlater⟩ | ⟨-, more, later, hlater⟩
  · exact ⟨htop, hjoin, (List.cons.inj hlater).2.symm⟩
  · have hlast : p = p ++ 0x2C :: more := (List.cons.inj hlater).1
    exact absurd (List.append_right_eq_self.mp hlast.symm) (List.cons_ne_nil _ _)

/-! ## The only cut -/

/-- Whether a text has no comma outside of strings and groups. -/
def Uncut (bs : Bytes) : Prop :=
  ∀ x y, bs = x ++ 0x2C :: y → (Scan.after {} x).isTop = false

/-- Whether parts are a cut of a text at outer commas: they are the text with commas between them,
none has such a comma of its own, and none but the last leaves a string or a group open. -/
structure IsOuterCut (parts : List Bytes) (bs : Bytes) : Prop where
  ne_nil : parts ≠ []
  join : [0x2C].intercalate parts = bs
  uncut : ∀ p ∈ parts, Uncut p
  closed : ∀ p ∈ parts.dropLast, (Scan.after {} p).isTop = true

theorem pieces_eq_singleton_iff (bs : Bytes) : pieces bs = [bs] ↔ Uncut bs := by
  constructor
  · rintro h x y rfl
    by_contra htop
    rw [(pieces_append_comma_iff x y).mpr (Bool.not_eq_false _ ▸ htop)] at h
    have hlength := congrArg List.length h
    have hx := List.length_pos_iff.mpr (piecesFrom_ne_nil {} x)
    have hy := List.length_pos_iff.mpr (piecesFrom_ne_nil {} y)
    rw [List.length_append, List.length_singleton, pieces, pieces] at hlength
    omega
  · intro h
    cases hbs : pieces bs with
    | nil => exact absurd hbs (piecesFrom_ne_nil {} bs)
    | cons p ps =>
      cases ps with
      | nil =>
        have hjoin := intercalate_piecesFrom {} bs
        rw [← pieces, hbs] at hjoin
        rw [← hjoin]
        exact congrArg ([·]) (List.append_nil p).symm
      | cons q ps =>
        obtain ⟨htop, hjoin, -⟩ := pieces_behind_first hbs
        rw [h p _ hjoin] at htop
        cases htop

theorem isTop_of_mem_pieces {bs : Bytes} {parts : List Bytes} (h : pieces bs = parts) :
    ∀ p ∈ parts.dropLast, (Scan.after {} p).isTop = true := by
  induction parts generalizing bs with
  | nil => exact absurd h (piecesFrom_ne_nil {} bs)
  | cons p parts ih =>
    cases parts with
    | nil => exact fun q hq => absurd hq List.not_mem_nil
    | cons q ps =>
      obtain ⟨htop, -, hlater⟩ := pieces_behind_first h
      exact List.forall_mem_cons.mpr ⟨htop, ih hlater⟩

theorem IsOuterCut.pieces_eq {parts : List Bytes} {bs : Bytes} (h : IsOuterCut parts bs) :
    pieces bs = parts := by
  obtain ⟨hne, rfl, huncut, hclosed⟩ := h
  induction parts with
  | nil => exact absurd rfl hne
  | cons p parts ih =>
    obtain ⟨hp, hparts⟩ := List.forall_mem_cons.mp huncut
    have hpiece := (pieces_eq_singleton_iff p).mpr hp
    cases parts with
    | nil => rwa [List.intercalate_singleton]
    | cons q parts =>
      obtain ⟨htop, hlater⟩ := List.forall_mem_cons.mp hclosed
      rw [List.intercalate_cons_cons, List.append_assoc, List.singleton_append,
        (pieces_append_comma_iff p _).mpr htop, hpiece, ih (List.cons_ne_nil q parts) hparts hlater]
      rfl

theorem eq_pieces_iff (parts : List Bytes) (bs : Bytes) :
    parts = pieces bs ↔ IsOuterCut parts bs := by
  constructor
  · rintro rfl
    exact ⟨piecesFrom_ne_nil {} bs, intercalate_piecesFrom {} bs,
      fun p hp => (pieces_eq_singleton_iff p).mp (pieces_of_mem_pieces hp),
      isTop_of_mem_pieces rfl⟩
  · exact fun h => h.pieces_eq.symm

/-- The pieces of a text are the only way to cut it at its outer commas. They are the text again
with commas between them, and no piece is cut further. Two texts with a comma between them have the
pieces of the one and then those of the other, exactly if a scan of the first ends outside of
strings and groups. -/
theorem pieces_only_cut :
    (∀ bs, [0x2C].intercalate (pieces bs) = bs ∧ (∀ p ∈ pieces bs, pieces p = [p]) ∧
      ∀ parts, parts = pieces bs ↔ IsOuterCut parts bs) ∧
    ∀ a b, pieces (a ++ 0x2C :: b) = pieces a ++ pieces b ↔
      (Scan.after {} a).quoting = .outside ∧ (Scan.after {} a).depth = 0 := by
  refine ⟨fun bs => ⟨intercalate_piecesFrom {} bs, fun p => pieces_of_mem_pieces,
    fun parts => eq_pieces_iff parts bs⟩, fun a b => ?_⟩
  rw [pieces_append_comma_iff, Scan.isTop_iff]

-- A closing sign without a partner, a group closed by the other sign, and a string left open.
example : pieces (Text.utf8 "),(a,b],\"c\\\",d\\") =
    [Text.utf8 ")", Text.utf8 "(a,b]", Text.utf8 "\"c\\\",d\\"] := by
  decide +kernel

end Dialogue.Script.ParamGroup
