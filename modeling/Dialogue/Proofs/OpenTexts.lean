import Dialogue.Proofs.Snippets

/-!
# Texts left open

Whether a text is left open is found out by going from one string or comment to the end of it. A
reader that takes one byte at a time, and remembers no more than the kind of text it is in and the
number of open groups, comes to the same answer.
-/

namespace Dialogue.Repl

/-- The kinds of text that a byte can stand in. -/
inductive Within where
  | code
  /-- Code, right behind a slash. -/
  | slash
  | string
  /-- A string, right behind a backslash. -/
  | escaped
  | lineComment
  | blockComment
  /-- A block comment, right behind a star. -/
  | star
  deriving DecidableEq

/-- A reader of single bytes. -/
structure Reader where
  within : Within := .code
  /-- The number of groups that are open. -/
  depth : Nat := 0
  deriving DecidableEq

namespace Reader

/-- The reader behind a byte of code. Two slashes start a comment, as do a slash and a star, so a
slash is remembered. -/
def stepCode (depth : Nat) (b : UInt8) : Reader :=
  if b = 0x22 then ⟨.string, depth⟩
  else if b = 0x2F then ⟨.slash, depth⟩
  else if b = 0x28 ∨ b = 0x5B then ⟨.code, depth + 1⟩
  else if b = 0x29 ∨ b = 0x5D then ⟨.code, depth - 1⟩
  else ⟨.code, depth⟩

/-- The reader behind one more byte. -/
def step (r : Reader) (b : UInt8) : Reader :=
  match r.within with
  | .code => stepCode r.depth b
  | .slash =>
    if b = 0x2F then ⟨.lineComment, r.depth⟩
    else if b = 0x2A then ⟨.blockComment, r.depth⟩
    else stepCode r.depth b
  | .string =>
    if b = 0x5C then ⟨.escaped, r.depth⟩
    else if b = 0x22 then ⟨.code, r.depth⟩
    else ⟨.string, r.depth⟩
  | .escaped => ⟨.string, r.depth⟩
  | .lineComment => if b = 0x0A then ⟨.code, r.depth⟩ else ⟨.lineComment, r.depth⟩
  | .blockComment => if b = 0x2A then ⟨.star, r.depth⟩ else ⟨.blockComment, r.depth⟩
  | .star =>
    if b = 0x2F then ⟨.code, r.depth⟩
    else if b = 0x2A then ⟨.star, r.depth⟩
    else ⟨.blockComment, r.depth⟩

/-- The reader behind a text. -/
def after (r : Reader) (bs : Bytes) : Reader :=
  bs.foldl step r

/-- Whether a reader stands in a string, a block comment or a group. -/
def IsInside (r : Reader) : Prop :=
  (r.within = .string ∨ r.within = .escaped) ∨
    (r.within = .blockComment ∨ r.within = .star) ∨ 0 < r.depth

@[simp] theorem after_nil (r : Reader) : r.after [] = r := rfl

@[simp] theorem after_cons (r : Reader) (b : UInt8) (bs : Bytes) :
    r.after (b :: bs) = (r.step b).after bs := rfl

/-! ## Strings and comments -/

variable (depth : Nat)

theorem step_string {b : UInt8} (hback : b ≠ 0x5C) (hquote : b ≠ 0x22) :
    step ⟨.string, depth⟩ b = ⟨.string, depth⟩ :=
  (if_neg hback).trans (if_neg hquote)

/-- A string goes on up to its end, or as far as the text does. -/
theorem isInside_string_iff (bs : Bytes) :
    (after ⟨.string, depth⟩ bs).IsInside ↔
      ∀ behind ∈ afterString? bs, (after ⟨.code, depth⟩ behind).IsInside := by
  fun_induction afterString? bs with
  | case1 => simp [IsInside]
  | case2 rest => simp [step]
  | case3 => simp [IsInside, step]
  | case4 b rest ih => exact ih
  | case5 b rest hquote hlast hpair ih =>
    rw [after_cons, step_string depth (ne_backslash_of_forall hlast hpair) hquote]
    exact ih

/-- A star means nothing unless a slash is behind it. -/
theorem isInside_star_iff {bs : Bytes} (h : ∀ next ∈ bs.head?, next ≠ 0x2F) :
    (after ⟨.star, depth⟩ bs).IsInside ↔ (after ⟨.blockComment, depth⟩ bs).IsInside := by
  cases bs with
  | nil => simp [IsInside]
  | cons b bs =>
    have hstep : step ⟨.star, depth⟩ b = step ⟨.blockComment, depth⟩ b := if_neg (h b rfl)
    rw [after_cons, after_cons, hstep]

theorem isInside_blockComment_iff (bs : Bytes) :
    (after ⟨.blockComment, depth⟩ bs).IsInside ↔
      ∀ behind ∈ afterComment? bs, (after ⟨.code, depth⟩ behind).IsInside := by
  fun_induction afterComment? bs with
  | case1 => simp [IsInside]
  | case2 rest => simp [step]
  | case3 b rest hend ih =>
    by_cases hstar : b = 0x2A
    · have hnext : ∀ next ∈ rest.head?, next ≠ 0x2F := by
        rintro next hnext rfl
        obtain ⟨later, rfl⟩ := List.head?_eq_some_iff.mp hnext
        exact hend later hstar rfl
      have hstep : step ⟨.blockComment, depth⟩ b = ⟨.star, depth⟩ := if_pos hstar
      rw [after_cons, hstep, isInside_star_iff depth hnext]
      exact ih
    · have hstep : step ⟨.blockComment, depth⟩ b = ⟨.blockComment, depth⟩ := if_neg hstar
      rw [after_cons, hstep]
      exact ih

/-- A comment up to the end of its line leaves nothing open by itself. -/
theorem isInside_lineComment_iff (bs : Bytes) :
    (after ⟨.lineComment, depth⟩ bs).IsInside ↔
      (after ⟨.code, depth⟩ (bs.dropWhile (· != 0x0A))).IsInside := by
  induction bs with
  | nil => simp [IsInside]
  | cons b bs ih =>
    by_cases hline : b = 0x0A
    · rw [hline, List.dropWhile_cons_of_neg (by decide), after_cons, after_cons]
      rfl
    · have hstep : step ⟨.lineComment, depth⟩ b = ⟨.lineComment, depth⟩ := if_neg hline
      rw [after_cons, hstep, List.dropWhile_cons_of_pos (by simp [hline])]
      exact ih

/-- A slash means nothing unless a slash or a star is behind it. -/
theorem isInside_slash_iff {bs : Bytes} (h : ∀ next ∈ bs.head?, next ≠ 0x2F ∧ next ≠ 0x2A) :
    (after ⟨.slash, depth⟩ bs).IsInside ↔ (after ⟨.code, depth⟩ bs).IsInside := by
  cases bs with
  | nil => simp [IsInside]
  | cons b bs =>
    obtain ⟨hslash, hstar⟩ := h b rfl
    have hstep : step ⟨.slash, depth⟩ b = step ⟨.code, depth⟩ b :=
      (if_neg hslash).trans (if_neg hstar)
    rw [after_cons, after_cons, hstep]

theorem isInside_plain_iff {c : UInt8} {bs : Bytes} (h : IsPlain c bs) :
    (after ⟨.code, depth⟩ (c :: bs)).IsInside ↔
      (after ⟨.code, depthAfter depth c⟩ bs).IsInside := by
  obtain ⟨hquote, hnext⟩ := h
  by_cases hslash : c = 0x2F
  · subst hslash
    exact isInside_slash_iff depth (hnext rfl)
  · have hstep : step ⟨.code, depth⟩ c = ⟨.code, depthAfter depth c⟩ := by
      rw [step, stepCode, if_neg hquote, if_neg hslash, depthAfter]
      split_ifs <;> rfl
    rw [after_cons, hstep]

end Reader

/-! ## Texts -/

theorem isOpen_eq_true_iff (depth : Nat) (bs : Bytes) :
    isOpen depth bs = true ↔ (Reader.after ⟨.code, depth⟩ bs).IsInside := by
  fun_induction isOpen depth bs with
  | case1 depth => simp [Reader.IsInside]
  | case2 depth rest hstring =>
    have hinside := Reader.isInside_string_iff depth rest
    rw [hstring] at hinside
    exact iff_of_true rfl (hinside.mpr fun behind hnone =>
      absurd hnone (Option.not_mem_none behind))
  | case3 depth rest behind hstring _ ih =>
    have hinside := Reader.isInside_string_iff depth rest
    simp only [hstring, Option.mem_some_iff, forall_eq'] at hinside
    exact ih.trans hinside.symm
  | case4 depth rest ih => exact ih.trans (Reader.isInside_lineComment_iff depth rest).symm
  | case5 depth rest hcomment =>
    have hinside := Reader.isInside_blockComment_iff depth rest
    rw [hcomment] at hinside
    exact iff_of_true rfl (hinside.mpr fun behind hnone =>
      absurd hnone (Option.not_mem_none behind))
  | case6 depth rest behind hcomment _ ih =>
    have hinside := Reader.isInside_blockComment_iff depth rest
    simp only [hcomment, Option.mem_some_iff, forall_eq'] at hinside
    exact ih.trans hinside.symm
  | case7 depth c rest hquote hline hblock hopens ih =>
    have hplain := isPlain_of_forall hquote hline hblock
    rw [Reader.isInside_plain_iff depth hplain, depthAfter, if_pos hopens]
    exact ih
  | case8 depth c rest hquote hline hblock hopens hcloses ih =>
    have hplain := isPlain_of_forall hquote hline hblock
    rw [Reader.isInside_plain_iff depth hplain, depthAfter, if_neg hopens, if_pos hcloses]
    exact ih
  | case9 depth c rest hquote hline hblock hopens hcloses ih =>
    have hplain := isPlain_of_forall hquote hline hblock
    rw [Reader.isInside_plain_iff depth hplain, depthAfter, if_neg hopens, if_neg hcloses]
    exact ih

/-- A text is incomplete exactly if a reader that takes one byte at a time ends in a string, in a
block comment or in a group. -/
theorem isIncomplete_iff_reader (bs : Bytes) :
    isIncomplete bs = true ↔ (Reader.after {} bs).IsInside :=
  isOpen_eq_true_iff 0 bs

-- The star that opens a comment does not close it, and no comment starts within a comment or a
-- string.
example : isIncomplete (Text.utf8 "/*/") = true ∧ isIncomplete (Text.utf8 "//*\n\"/*\"") = false ∧
    isIncomplete (Text.utf8 "/**/\"\\") = true := by
  decide +kernel

end Dialogue.Repl
