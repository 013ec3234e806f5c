import Dialogue.Proofs.JoinedScripts

/-!
# Cutting a source into tokens

A cut of a source into tokens is declared here without the scan: the tokens stand apart from each
other, each has one of seven forms where it stands, and no token starts at a character that is left
out. A source has exactly one such cut, and the scan finds it.
-/

namespace Dialogue.Script

namespace LexUnit

/-! ## Tokens and gaps -/

/-- Whether the characters `t` are a token between `before` and `after`. A word run is not to be
continued on either side. -/
structure IsToken (before t after : List Char) : Prop where
  form : UnitAt before.getLast? t after
  start : ∀ c ∈ t.head?, isWordRun c = true → ∀ d ∈ before.getLast?, isWordRun d = false

/-- Whether a character between `before` and `after` may be left out. -/
structure IsGap (before : List Char) (c : Char) (after : List Char) : Prop where
  word : isWordRun c = false
  sign : isSign c = false
  parens : c = '(' → ')' ∉ after
  brackets : c = '[' → ']' ∉ after
  quote : c = '"' → before.getLast? = some '\\' ∨
    ¬ ∃ body rest, QuotedBody body ∧ after = body ++ '"' :: rest
  lineComment : c = '/' → after.head? ≠ some '/'
  blockComment : c = '/' → ¬ ∃ body rest, after = '*' :: (body ++ '*' :: '/' :: rest)

theorem not_unitAt_of_gap {prev : Option Char} {t rest : List Char}
    (h : lengthAt? prev (t ++ rest) = none) : ¬ UnitAt prev t rest := by
  intro hunit
  rw [hunit.lengthAt?] at h
  cases h

theorem not_infix_of_upToCommentEnd? {cs : List Char} (h : upToCommentEnd? cs = none) :
    ¬ ['*', '/'] <:+: cs := by
  fun_induction upToCommentEnd? cs with
  | case1 => simp
  | case2 => cases h
  | case3 c cs hnot ih =>
    rw [List.infix_cons_iff]
    rintro (hstarts | hlater)
    · obtain ⟨hstar, hslash⟩ := starts_of_prefix hstarts
      obtain ⟨later, rfl⟩ := List.head?_eq_some_iff.mp hslash
      exact hnot later hstar rfl
    · exact ih (Option.map_eq_none_iff.mp h) hlater

theorem isGap_of_lengthAt? {before after : List Char} {c : Char}
    (h : lengthAt? before.getLast? (c :: after) = none) : IsGap before c after := by
  have hnone {t rest : List Char} (hafter : c :: after = t ++ rest) :
      ¬ UnitAt before.getLast? t rest := not_unitAt_of_gap (hafter ▸ h)
  constructor
  case word =>
    obtain ⟨rest, hrest, hend⟩ := exists_takeWhile_append (p := isWordRun) after
    refine Bool.eq_false_iff.mpr fun hword => ?_
    refine hnone (congrArg (c :: ·) hrest) (.word c _ rest ?_ hend)
    exact List.forall_mem_cons.mpr ⟨hword, fun d hd => List.mem_takeWhile_imp hd⟩
  case sign =>
    refine Bool.eq_false_iff.mpr fun hsign => ?_
    exact hnone (t := [c]) rfl (.sign c after hsign)
  case parens =>
    rintro rfl hmem
    obtain ⟨body, rest, rfl, hbody⟩ := List.eq_append_cons_of_mem hmem
    exact hnone (t := '(' :: (body ++ [')'])) (by simp) (.parens body rest hbody)
  case brackets =>
    rintro rfl hmem
    obtain ⟨body, rest, rfl, hbody⟩ := List.eq_append_cons_of_mem hmem
    exact hnone (t := '[' :: (body ++ [']'])) (by simp) (.brackets body rest hbody)
  case quote =>
    rintro rfl
    refine or_iff_not_imp_left.mpr ?_
    rintro hprev ⟨body, rest, hbody, rfl⟩
    exact hnone (t := '"' :: (body ++ ['"'])) (by simp) (.quoted body rest hprev hbody)
  case lineComment =>
    rintro rfl hslash
    obtain ⟨body, rfl⟩ := List.head?_eq_some_iff.mp hslash
    rw [lengthAt?] at h
    cases h
  case blockComment =>
    rintro rfl ⟨body, rest, rfl⟩
    rw [lengthAt?] at h
    refine not_infix_of_upToCommentEnd? (Option.map_eq_none_iff.mp h) ⟨body, rest, ?_⟩
    rw [List.append_assoc]
    rfl

theorem IsGap.not_unitAt {before after : List Char} {c : Char} (h : IsGap before c after)
    {t rest : List Char} (heq : c :: after = t ++ rest) : ¬ UnitAt before.getLast? t rest := by
  intro hunit
  cases hunit with
  | word d cs rest hword hend =>
    cases heq
    exact Bool.false_ne_true (h.word.symm.trans (hword c List.mem_cons_self))
  | sign d rest hsign =>
    cases heq
    exact Bool.false_ne_true (h.sign.symm.trans hsign)
  | quoted body rest hprev hbody =>
    rw [List.cons_append, List.append_assoc] at heq
    cases heq
    rcases h.quote rfl with hback | hopen
    · exact hprev hback
    · exact hopen ⟨body, rest, hbody, rfl⟩
  | parens body rest hbody =>
    cases heq
    exact h.parens rfl (by simp)
  | brackets body rest hbody =>
    cases heq
    exact h.brackets rfl (by simp)
  | lineComment body rest hbody hend =>
    cases heq
    exact h.lineComment rfl rfl
  | blockComment body rest hbody =>
    cases heq
    exact h.blockComment rfl ⟨body, rest, by simp⟩

/-- A word run does not start right behind a unit that ends with a word character. -/
theorem UnitAt.isWordRun_head {prev : Option Char} {t rest : List Char} (h : UnitAt prev t rest) :
    ∀ c ∈ rest.head?, isWordRun c = true → ∀ d ∈ t.getLast?, isWordRun d = false := by
  have hlast {first last : Char} (body : List Char) (hsign : isWordRun last = false) :
      ∀ d ∈ (first :: (body ++ [last])).getLast?, isWordRun d = false := by
    intro d hd
    rw [← List.cons_append, List.getLast?_concat] at hd
    cases hd
    exact hsign
  intro c hc hword
  cases h with
  | word d cs rest _ hend =>
    rw [hend c hc] at hword
    cases hword
  | sign d rest hsign =>
    have hsigns : ∀ d ∈ ['*', '.', ';'], isWordRun d = false :=
      List.forall_iff_forall_mem.mp (by decide)
    rintro _ ⟨⟩
    exact hsigns d (mem_of_isSign hsign)
  | quoted body rest hprev hbody => exact hlast body (isWordRun_eq_false _ (by decide))
  | parens body rest hbody => exact hlast body (by decide)
  | brackets body rest hbody => exact hlast body (by decide)
  | lineComment body rest hbody hend =>
    rw [hend c hc, isWordRun_eq_false _ (by decide)] at hword
    cases hword
  | blockComment body rest hbody =>
    have hslash := isWordRun_eq_false '/' (by decide)
    have hend : ∀ d ∈ ('/' :: ('*' :: (body ++ ['*']) ++ ['/'])).getLast?, isWordRun d = false :=
      hlast _ hslash
    rwa [List.cons_append, List.append_assoc] at hend

/-- A source is gone through by gaps and tokens, with what has been passed in `before`. -/
theorem source_induction {P : List Char → List Char → List LexUnit → Prop}
    (nil : ∀ before, P before [] [])
    (gap : ∀ before c after us, IsGap before c after → P (before ++ [c]) after us →
      P before (c :: after) us)
    (token : ∀ before t after us, IsToken before t after → P (before ++ t) after us →
      P before (t ++ after) (ofChars (({} : Position).after before) t :: us))
    (cs : List Char) : P [] cs (scan 0 none {} cs) := by
  -- No word run is cut in two between `before` and what follows.
  refine scan_induction (P := fun prev pos cs us => ∀ before : List Char,
    prev = before.getLast? → pos = ({} : Position).after before →
    (∀ c ∈ cs.head?, isWordRun c = true → ∀ d ∈ before.getLast?, isWordRun d = false) →
    P before cs us) ?_ ?_ ?_ none {} cs [] rfl rfl (by simp)
  · intro _ _ before _ _ _
    exact nil before
  · rintro _ _ c after us hlength ih before rfl rfl hstart
    have hgap := isGap_of_lengthAt? hlength
    refine gap before c after us hgap (ih (before ++ [c]) ?_ ?_ ?_)
    · rw [List.getLast?_concat]
    · rw [Position.after_append]
      rfl
    · intro _ _ _ d hd
      rw [List.getLast?_concat] at hd
      cases hd
      exact hgap.word
  · rintro _ _ t after us hunit ih before rfl rfl hstart
    have hlast : (before ++ t).getLast? = t.getLast? :=
      List.getLast?_append_of_ne_nil before hunit.ne_nil
    refine token before t after us ⟨hunit, fun c hc => hstart c ?_⟩
      (ih (before ++ t) hlast.symm (Position.after_append _ _ _).symm ?_)
    · rwa [List.head?_append_of_ne_nil _ hunit.ne_nil]
    · rw [hlast]
      exact hunit.isWordRun_head

/-! ## Tokenizations -/

/-- Whether the units are a cut of `cs`, which stands behind `before`, into tokens. -/
structure Tokenization (before cs : List Char) (us : List LexUnit) : Prop where
  token : ∀ u ∈ us, ∃ front t back, cs = front ++ (t ++ back) ∧ IsToken (before ++ front) t back ∧
    u.offset = (before ++ front).length ∧ u.text = Text.encode t
  apart : us.Pairwise fun u v => u.offset + (Text.decode u.text).length ≤ v.offset
  gap : ∀ front c back, cs = front ++ c :: back →
    (∀ u ∈ us, ¬ u.Spans (before ++ front).length) → IsGap (before ++ front) c back

theorem tokenization_nil_iff {before : List Char} {us : List LexUnit} :
    Tokenization before [] us ↔ us = [] := by
  constructor
  · intro h
    refine List.eq_nil_iff_forall_not_mem.mpr fun u hu => ?_
    obtain ⟨front, t, back, hnil, htoken, -⟩ := h.token u hu
    have ht : t = [] := by
      have hparts := List.append_eq_nil_iff.mp hnil.symm
      exact (List.append_eq_nil_iff.mp hparts.2).1
    exact htoken.form.ne_nil ht
  · rintro rfl
    refine ⟨by simp, .nil, ?_⟩
    intro front c back hnil
    exact absurd hnil.symm (List.append_ne_nil_of_right_ne_nil front (List.cons_ne_nil c back))

theorem tokenization_gap_iff {before after : List Char} {c : Char} (hgap : IsGap before c after)
    {us : List LexUnit} :
    Tokenization before (c :: after) us ↔ Tokenization (before ++ [c]) after us := by
  have hmove (front : List Char) : before ++ c :: front = before ++ [c] ++ front := by simp
  constructor
  · intro h
    refine ⟨?_, h.apart, ?_⟩
    · intro u hu
      obtain ⟨front, t, back, heq, htoken, hplace⟩ := h.token u hu
      cases front with
      | nil =>
        rw [List.append_nil] at htoken
        exact absurd htoken.form (hgap.not_unitAt heq)
      | cons d front =>
        obtain ⟨rfl, hafter⟩ := List.cons.inj heq
        rw [hmove] at htoken hplace
        exact ⟨front, t, back, hafter, htoken, hplace⟩
    · intro front d back heq hfree
      have hlater := h.gap (c :: front) d back (congrArg (c :: ·) heq)
      rw [hmove] at hlater
      exact hlater hfree
  · intro h
    refine ⟨?_, h.apart, ?_⟩
    · intro u hu
      obtain ⟨front, t, back, heq, htoken, hplace⟩ := h.token u hu
      rw [← hmove] at htoken hplace
      exact ⟨c :: front, t, back, congrArg (c :: ·) heq, htoken, hplace⟩
    · intro front d back heq hfree
      cases front with
      | nil =>
        cases heq
        rwa [List.append_nil]
      | cons e front =>
        obtain ⟨rfl, hafter⟩ := List.cons.inj heq
        rw [hmove] at hfree ⊢
        exact h.gap front d back hafter hfree

theorem UnitAt.unique {prev : Option Char} {t rest t' rest' : List Char} (h : UnitAt prev t rest)
    (h' : UnitAt prev t' rest') (heq : t ++ rest = t' ++ rest') : t = t' ∧ rest = rest' := by
  have hlength : some t.length = some t'.length := by
    rw [← h.lengthAt?, heq, h'.lengthAt?]
  exact List.append_inj heq (Option.some.inj hlength)

theorem exists_append_of_length_le {t after front rest : List Char}
    (h : t ++ after = front ++ rest) (hle : t.length ≤ front.length) :
    ∃ more, front = t ++ more ∧ after = more ++ rest := by
  have hfront : t <+: front :=
    List.prefix_of_prefix_length_le (List.prefix_append t after) (h ▸ List.prefix_append front rest)
      hle
  obtain ⟨more, rfl⟩ := hfront
  rw [List.append_assoc] at h
  exact ⟨more, rfl, List.append_cancel_left h⟩

namespace Tokenization

variable {before cs : List Char} {us : List LexUnit}

theorem offset_le (h : Tokenization before cs us) {u : LexUnit} (hu : u ∈ us) :
    before.length ≤ u.offset := by
  obtain ⟨front, t, back, -, -, hoffset, -⟩ := h.token u hu
  rw [hoffset, List.length_append]
  exact Nat.le_add_right _ _

theorem length_pos (h : Tokenization before cs us) {u : LexUnit} (hu : u ∈ us) :
    0 < (Text.decode u.text).length := by
  obtain ⟨front, t, back, -, htoken, -, htext⟩ := h.token u hu
  rw [htext, Text.decode_encode]
  exact List.length_pos_iff.mpr htoken.form.ne_nil

/-- The first unit of a tokenization is the token in front. -/
theorem exists_cons {t after : List Char} (h : Tokenization before (t ++ after) us)
    (htoken : IsToken before t after) :
    ∃ u vs, us = u :: vs ∧ u.offset = before.length ∧ u.text = Text.encode t := by
  obtain ⟨c, cs, rfl⟩ := List.exists_cons_of_ne_nil htoken.form.ne_nil
  -- Its first character belongs to a unit, as it is no gap.
  obtain ⟨u, hu, hspans⟩ : ∃ u ∈ us, u.Spans before.length := by
    by_contra hfree
    have hgap : IsGap before c (cs ++ after) := by
      have hgap := h.gap [] c (cs ++ after) rfl
      rw [List.append_nil] at hgap
      exact hgap fun u hu hspans => hfree ⟨u, hu, hspans⟩
    exact hgap.not_unitAt rfl htoken.form
  -- That unit starts there, and no other one can come before it.
  have hoffset : u.offset = before.length := Nat.le_antisymm hspans.1 (h.offset_le hu)
  have htext : u.text = Text.encode (c :: cs) := by
    obtain ⟨front, t, back, heq, htoken', hfront, htext⟩ := h.token u hu
    rw [List.length_append] at hfront
    have hnil : front = [] := List.length_eq_zero_iff.mp (by omega)
    subst hnil
    rw [List.append_nil] at htoken'
    rw [htext, (htoken.form.unique htoken'.form heq).1]
  obtain ⟨earlier, vs, rfl⟩ := List.append_of_mem hu
  cases earlier with
  | nil => exact ⟨u, vs, rfl, hoffset, htext⟩
  | cons w earlier =>
    have hw : w ∈ w :: earlier ++ u :: vs := List.mem_cons_self
    have hbefore := List.rel_of_pairwise_cons h.apart
      (List.mem_append_right earlier (List.mem_cons_self (a := u) (l := vs)))
    have hstart := h.offset_le hw
    have hpos := h.length_pos hw
    omega

end Tokenization

theorem tokenization_token_iff {before t after : List Char} (htoken : IsToken before t after)
    {us : List LexUnit} :
    Tokenization before (t ++ after) us ↔
      ∃ u vs, us = u :: vs ∧ u.offset = before.length ∧ u.text = Text.encode t ∧
        Tokenization (before ++ t) after vs := by
  have hmove (front : List Char) : before ++ (t ++ front) = before ++ t ++ front :=
    (List.append_assoc before t front).symm
  constructor
  · intro h
    obtain ⟨u, vs, rfl, hoffset, htext⟩ := h.exists_cons htoken
    obtain ⟨hfirst, hapart⟩ := List.pairwise_cons.mp h.apart
    simp only [htext, Text.decode_encode] at hfirst
    refine ⟨u, vs, rfl, hoffset, htext, ?_, hapart, ?_⟩
    · intro v hv
      obtain ⟨front, t', back, heq, htoken', hplace⟩ := h.token v (List.mem_cons_of_mem u hv)
      have hle : t.length ≤ front.length := by
        have hbehind := hfirst v hv
        rw [hplace.1, List.length_append] at hbehind
        omega
      obtain ⟨more, rfl, hafter⟩ := exists_append_of_length_le heq hle
      rw [hmove] at htoken' hplace
      exact ⟨more, t', back, hafter, htoken', hplace⟩
    · intro front c back heq hfree
      have hgap := h.gap (t ++ front) c back (by rw [heq, List.append_assoc])
      rw [hmove] at hgap
      refine hgap (List.forall_mem_cons.mpr ⟨fun hspans => ?_, hfree⟩)
      have hend := hspans.2
      rw [htext, Text.decode_encode, hoffset, List.length_append, List.length_append] at hend
      omega
  · rintro ⟨u, vs, rfl, hoffset, htext, h⟩
    refine ⟨?_, ?_, ?_⟩
    · refine List.forall_mem_cons.mpr ⟨⟨[], t, after, rfl, ?_, ?_, htext⟩, fun v hv => ?_⟩
      · rwa [List.append_nil]
      · rwa [List.append_nil]
      · obtain ⟨front, t', back, heq, htoken', hplace⟩ := h.token v hv
        rw [← hmove] at htoken' hplace
        exact ⟨t ++ front, t', back, by rw [heq, List.append_assoc], htoken', hplace⟩
    · refine List.pairwise_cons.mpr ⟨fun v hv => ?_, h.apart⟩
      have hbehind := h.offset_le hv
      rwa [hoffset, htext, Text.decode_encode, ← List.length_append]
    · intro front c back heq hfree
      obtain ⟨hu, hvs⟩ := List.forall_mem_cons.mp hfree
      have hle : t.length ≤ front.length := by
        by_contra hlt
        refine hu ⟨?_, ?_⟩
        · rw [hoffset, List.length_append]
          exact Nat.le_add_right _ _
        · rw [hoffset, htext, Text.decode_encode, List.length_append]
          omega
      obtain ⟨more, rfl, hafter⟩ := exists_append_of_length_le heq hle
      rw [hmove] at hvs ⊢
      exact h.gap more c back hafter hvs

/-- Where a unit starts, and its text. -/
def spot (u : LexUnit) : Nat × Bytes :=
  (u.offset, u.text)

theorem tokenization_iff (cs : List Char) (us : List LexUnit) :
    Tokenization [] cs us ↔ us.map spot = (scan 0 none {} cs).map spot := by
  revert us
  refine source_induction (P := fun before cs vs => ∀ us,
    Tokenization before cs us ↔ us.map spot = vs.map spot) ?_ ?_ ?_ cs
  · intro before us
    rw [tokenization_nil_iff, List.map_nil, List.map_eq_nil_iff]
  · intro before c after vs hgap ih us
    rw [tokenization_gap_iff hgap, ih]
  · intro before t after vs htoken ih us
    have hoffset := Position.offset_after_start before
    rw [tokenization_token_iff htoken, List.map_cons, List.map_eq_cons_iff]
    constructor
    · rintro ⟨u, us, rfl, hu, htext, hus⟩
      exact ⟨u, us, rfl, by rw [spot, spot, ofChars, hu, htext, hoffset], (ih us).mp hus⟩
    · rintro ⟨u, us, rfl, hspot, hus⟩
      obtain ⟨hu, htext⟩ := Prod.mk.inj hspot
      exact ⟨u, us, rfl, hu.trans hoffset, htext, (ih us).mpr hus⟩

end LexUnit

/-- A source is cut into tokens in exactly one way, and its units are these tokens. It is refused
if it has none. -/
theorem source_cut_into_tokens (source : Bytes) :
    ∃ us, (LexUnit.ofSource source = .ok us ∨
        us = [] ∧ ∃ d, LexUnit.ofSource source = .error d) ∧
      LexUnit.Tokenization [] (Text.decode source) us ∧
      ∀ vs, LexUnit.Tokenization [] (Text.decode source) vs →
        vs.map LexUnit.spot = us.map LexUnit.spot := by
  refine ⟨LexUnit.scan 0 none {} (Text.decode source), ?_,
    (LexUnit.tokenization_iff _ _).mpr rfl, fun vs => (LexUnit.tokenization_iff _ vs).mp⟩
  by_cases hscan : LexUnit.scan 0 none {} (Text.decode source) = []
  · exact .inr ⟨hscan, _, LexUnit.ofSource_eq_error_iff.mpr ⟨hscan, rfl⟩⟩
  · exact .inl (LexUnit.ofSource_eq_ok_iff.mpr ⟨rfl, hscan⟩)

-- A group, a string and a comment that are not closed leave out their first characters only.
example : LexUnit.ofSource (Text.utf8 "( \"a /*/ b") =
    .ok [{ text := Text.utf8 "a", offset := 3, line := 1, col := 4 },
      { text := Text.utf8 "*", offset := 6, line := 1, col := 7 },
      { text := Text.utf8 "b", offset := 9, line := 1, col := 10 }] := by
  decide +kernel

end Dialogue.Script
