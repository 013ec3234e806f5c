import Dialogue.Script.LexUnit
import Mathlib.Data.List.Basic
import Mathlib.Data.List.Infix
import Mathlib.Data.List.TakeWhile

/-!
# The scan for units

`UnitAt prev u rest` says that the characters `u`, between `prev` and `rest`, are a unit, by one of
seven forms. The scan finds a unit wherever one of them applies, and `scan_induction` goes through a
source unit by unit and gap by gap.
-/

namespace Dialogue.Script

/-- The place behind some code points. -/
def Position.after (p : Position) (cs : List Char) : Position :=
  cs.foldl Position.advance p

namespace LexUnit

/-- What may stand between the quotes of a string. -/
inductive QuotedBody : List Char → Prop
  | nil : QuotedBody []
  | plain (c : Char) (cs : List Char) (hquote : c ≠ '"') (hback : c ≠ '\\') (h : QuotedBody cs) :
    QuotedBody (c :: cs)
  | escaped (c : Char) (cs : List Char) (hline : c ≠ '\n') (h : QuotedBody cs) :
    QuotedBody ('\\' :: c :: cs)

/-- Whether the characters `u` are a unit where they stand, between `prev` and `rest`. -/
inductive UnitAt (prev : Option Char) : (u rest : List Char) → Prop
  | word (c : Char) (cs rest : List Char) (hword : ∀ d ∈ c :: cs, isWordRun d = true)
      (hend : ∀ d ∈ rest.head?, isWordRun d = false) : UnitAt prev (c :: cs) rest
  | sign (c : Char) (rest : List Char) (hsign : isSign c = true) : UnitAt prev [c] rest
  | quoted (body rest : List Char) (hprev : prev ≠ some '\\') (hbody : QuotedBody body) :
    UnitAt prev ('"' :: (body ++ ['"'])) rest
  | parens (body rest : List Char) (hbody : ')' ∉ body) : UnitAt prev ('(' :: (body ++ [')'])) rest
  | brackets (body rest : List Char) (hbody : ']' ∉ body) :
    UnitAt prev ('[' :: (body ++ [']'])) rest
  | lineComment (body rest : List Char) (hbody : '\n' ∉ body) (hend : ∀ d ∈ rest.head?, d = '\n') :
    UnitAt prev ('/' :: '/' :: body) rest
  | blockComment (body rest : List Char) (hbody : ¬ ['*', '/'] <:+: body ++ ['*']) :
    UnitAt prev ('/' :: '*' :: (body ++ ['*', '/'])) rest

/-! ## Ends of units -/

theorem upTo?_eq_some_iff {close : Char} {cs : List Char} {n : Nat} :
    upTo? close cs = some n ↔
      ∃ body rest, cs = body ++ close :: rest ∧ n = body.length + 1 ∧ close ∉ body := by
  constructor
  · intro h
    induction cs generalizing n with
    | nil => cases h
    | cons c cs ih =>
      rw [upTo?] at h
      split at h
      · rename_i hc
        cases h
        exact ⟨[], cs, by rw [hc]; rfl, rfl, List.not_mem_nil⟩
      · rename_i hc
        obtain ⟨m, hm, rfl⟩ := Option.map_eq_some_iff.mp h
        obtain ⟨body, rest, rfl, rfl, hbody⟩ := ih hm
        refine ⟨c :: body, rest, rfl, rfl, ?_⟩
        rw [List.mem_cons, not_or]
        exact ⟨Ne.symm hc, hbody⟩
  · rintro ⟨body, rest, rfl, rfl, hbody⟩
    induction body with
    | nil => rw [List.nil_append, upTo?, if_pos rfl]; rfl
    | cons c body ih =>
      rw [List.mem_cons, not_or] at hbody
      rw [List.cons_append, upTo?, if_neg (Ne.symm hbody.1), ih hbody.2]
      rfl

theorem upToQuote?_eq_some_iff {cs : List Char} {n : Nat} :
    upToQuote? cs = some n ↔
      ∃ body rest, cs = body ++ '"' :: rest ∧ n = body.length + 1 ∧ QuotedBody body := by
  constructor
  · intro h
    fun_induction upToQuote? cs generalizing n with
    | case1 => cases h
    | case2 rest =>
      cases h
      exact ⟨[], rest, rfl, rfl, .nil⟩
    | case3 => cases h
    | case4 c cs hc ih =>
      obtain ⟨m, hm, rfl⟩ := Option.map_eq_some_iff.mp h
      obtain ⟨body, rest, rfl, rfl, hbody⟩ := ih hm
      exact ⟨'\\' :: c :: body, rest, rfl, rfl, .escaped c body hc hbody⟩
    | case5 => cases h
    | case6 c cs hquote hpair hlast ih =>
      obtain ⟨m, hm, rfl⟩ := Option.map_eq_some_iff.mp h
      obtain ⟨body, rest, rfl, rfl, hbody⟩ := ih hm
      refine ⟨c :: body, rest, rfl, rfl, .plain c body hquote ?_ hbody⟩
      intro hback
      cases body with
      | nil => exact hpair _ _ hback rfl
      | cons d body => exact hpair _ _ hback rfl
  · rintro ⟨body, rest, rfl, rfl, hbody⟩
    induction hbody with
    | nil => rfl
    | plain c cs hquote hback _ ih =>
      have hstep : upToQuote? (c :: (cs ++ '"' :: rest)) =
          (upToQuote? (cs ++ '"' :: rest)).map (· + 1) := by
        simp [upToQuote?, hback]
      rw [List.cons_append, hstep, ih]
      rfl
    | escaped c cs hline _ ih =>
      rw [List.cons_append, List.cons_append, upToQuote?, if_neg hline, ih]
      rfl

theorem starts_of_prefix {c : Char} {cs : List Char} (h : ['*', '/'] <+: c :: cs) :
    c = '*' ∧ cs.head? = some '/' := by
  obtain ⟨later, hlater⟩ := h
  cases hlater
  exact ⟨rfl, rfl⟩

theorem upToCommentEnd?_eq_some_iff {cs : List Char} {n : Nat} :
    upToCommentEnd? cs = some n ↔
      ∃ body rest, cs = body ++ '*' :: '/' :: rest ∧ n = body.length + 2 ∧
        ¬ ['*', '/'] <:+: body ++ ['*'] := by
  constructor
  · intro h
    fun_induction upToCommentEnd? cs generalizing n with
    | case1 => cases h
    | case2 rest =>
      cases h
      exact ⟨[], rest, rfl, rfl, by decide⟩
    | case3 c cs hnot ih =>
      obtain ⟨m, hm, rfl⟩ := Option.map_eq_some_iff.mp h
      obtain ⟨body, rest, rfl, rfl, hbody⟩ := ih hm
      refine ⟨c :: body, rest, rfl, rfl, ?_⟩
      rw [List.cons_append, List.infix_cons_iff]
      rintro (hstarts | hinfix)
      · obtain ⟨hstar, hslash⟩ := starts_of_prefix hstarts
        cases body with
        | nil => cases hslash
        | cons d body =>
          cases hslash
          exact hnot _ hstar rfl
      · exact hbody hinfix
  · rintro ⟨body, rest, rfl, rfl, hbody⟩
    induction body with
    | nil => rfl
    | cons c body ih =>
      rw [List.cons_append, List.infix_cons_iff, not_or] at hbody
      have hstep : upToCommentEnd? (c :: (body ++ '*' :: '/' :: rest)) =
          (upToCommentEnd? (body ++ '*' :: '/' :: rest)).map (· + 1) := by
        rw [upToCommentEnd?]
        rintro later rfl hlater
        apply hbody.1
        cases body with
        | nil => cases hlater
        | cons d body =>
          cases hlater
          exact ⟨_, rfl⟩
      rw [List.cons_append, hstep, ih hbody.2]
      rfl

/-! ## Units where they stand -/

theorem exists_takeWhile_append {p : Char → Bool} (cs : List Char) :
    ∃ rest, cs = cs.takeWhile p ++ rest ∧ ∀ d ∈ rest.head?, p d = false := by
  refine ⟨cs.dropWhile p, List.takeWhile_append_dropWhile.symm, ?_⟩
  intro d hd
  have hhead := List.head?_dropWhile_not p cs
  rw [hd] at hhead
  simpa using hhead

theorem takeWhile_append_of_head? {p : Char → Bool} {cs rest : List Char}
    (hcs : ∀ d ∈ cs, p d = true) (hrest : ∀ d ∈ rest.head?, p d = false) :
    (cs ++ rest).takeWhile p = cs := by
  rw [List.takeWhile_append_of_pos hcs]
  cases rest with
  | nil => exact List.append_nil cs
  | cons d rest => rw [List.takeWhile_cons_of_neg (by simp [hrest d rfl]), List.append_nil]

theorem exists_unitAt {prev : Option Char} {cs : List Char} {n : Nat}
    (h : lengthAt? prev cs = some n) :
    ∃ u rest, cs = u ++ rest ∧ n = u.length ∧ UnitAt prev u rest := by
  fun_cases lengthAt? prev cs with
  | case1 => rw [lengthAt?] at h; cases h
  | case2 cs hprev => rw [lengthAt?, if_pos hprev] at h; cases h
  | case3 cs hprev =>
    rw [lengthAt?, if_neg hprev] at h
    obtain ⟨m, hm, rfl⟩ := Option.map_eq_some_iff.mp h
    obtain ⟨body, rest, rfl, rfl, hbody⟩ := upToQuote?_eq_some_iff.mp hm
    exact ⟨'"' :: (body ++ ['"']), rest, by simp, by simp, .quoted body rest hprev hbody⟩
  | case4 cs =>
    rw [lengthAt?] at h
    obtain ⟨m, hm, rfl⟩ := Option.map_eq_some_iff.mp h
    obtain ⟨body, rest, rfl, rfl, hbody⟩ := upTo?_eq_some_iff.mp hm
    exact ⟨'(' :: (body ++ [')']), rest, by simp, by simp, .parens body rest hbody⟩
  | case5 cs =>
    rw [lengthAt?] at h
    obtain ⟨m, hm, rfl⟩ := Option.map_eq_some_iff.mp h
    obtain ⟨body, rest, rfl, rfl, hbody⟩ := upTo?_eq_some_iff.mp hm
    exact ⟨'[' :: (body ++ [']']), rest, by simp, by simp, .brackets body rest hbody⟩
  | case6 cs =>
    rw [lengthAt?] at h
    cases h
    obtain ⟨rest, hcs, hend⟩ := exists_takeWhile_append (p := (· != '\n')) cs
    refine ⟨'/' :: '/' :: cs.takeWhile (· != '\n'), rest, ?_, rfl, .lineComment _ rest ?_ ?_⟩
    · rw [List.cons_append, List.cons_append, ← hcs]
    · intro hmem
      simpa using List.mem_takeWhile_imp hmem
    · intro d hd
      simpa using hend d hd
  | case7 cs =>
    rw [lengthAt?] at h
    obtain ⟨m, hm, rfl⟩ := Option.map_eq_some_iff.mp h
    obtain ⟨body, rest, rfl, rfl, hbody⟩ := upToCommentEnd?_eq_some_iff.mp hm
    exact ⟨'/' :: '*' :: (body ++ ['*', '/']), rest, by simp, by simp,
      .blockComment body rest hbody⟩
  | case8 c cs _ _ _ _ _ hsign =>
    simp only [lengthAt?, hsign] at h
    cases h
    exact ⟨[c], cs, rfl, rfl, .sign c cs hsign⟩
  | case9 c cs _ _ _ _ _ hsign hword =>
    simp only [lengthAt?, hsign, hword] at h
    cases h
    obtain ⟨rest, hcs, hend⟩ := exists_takeWhile_append (p := isWordRun) cs
    refine ⟨c :: cs.takeWhile isWordRun, rest, ?_, rfl, .word c _ rest ?_ hend⟩
    · rw [List.cons_append, ← hcs]
    · intro d hd
      rcases List.mem_cons.mp hd with rfl | hd
      · exact hword
      · exact List.mem_takeWhile_imp hd
  | case10 c cs _ _ _ _ _ hsign hword =>
    simp only [lengthAt?, hsign, hword] at h
    cases h

theorem lengthAt?_cons {c : Char} (h : c ∉ ['"', '(', '[', '/']) (prev : Option Char)
    (cs : List Char) :
    lengthAt? prev (c :: cs) =
      if isSign c then some 1
      else if isWordRun c then some ((cs.takeWhile isWordRun).length + 1) else none := by
  rw [lengthAt?]
  all_goals
    intros
    subst c
    simp at h

theorem isWordRun_eq_false :
    ∀ c ∈ ['"', '(', '[', '/', '*', '.', ';', '\n'], isWordRun c = false :=
  List.forall_iff_forall_mem.mp (by decide)

theorem mem_of_isSign {c : Char} (h : isSign c = true) : c ∈ ['*', '.', ';'] := by
  simpa [isSign, or_assoc] using h

theorem UnitAt.lengthAt? {prev : Option Char} {u rest : List Char} (h : UnitAt prev u rest) :
    LexUnit.lengthAt? prev (u ++ rest) = some u.length := by
  cases h with
  | word c cs rest hword hend =>
    have hc := hword c List.mem_cons_self
    have hcs : ∀ d ∈ cs, isWordRun d = true := fun d hd => hword d (List.mem_cons_of_mem c hd)
    have hother : c ∉ ['"', '(', '[', '/', '*', '.', ';', '\n'] := by
      intro hmem
      rw [isWordRun_eq_false c hmem] at hc
      cases hc
    have hplain : c ∉ ['"', '(', '[', '/'] := fun hmem =>
      hother (List.mem_append_left ['*', '.', ';', '\n'] hmem)
    have hsign : ¬ isSign c = true := fun hsign =>
      hother (List.mem_append_right ['"', '(', '[', '/']
        (List.mem_append_left ['\n'] (mem_of_isSign hsign)))
    rw [List.cons_append, lengthAt?_cons hplain, if_neg hsign, if_pos hc,
      takeWhile_append_of_head? hcs hend]
    rfl
  | sign c rest hsign =>
    have hplain : c ∉ ['"', '(', '[', '/'] := by
      have hother : ∀ d ∈ ['*', '.', ';'], d ∉ ['"', '(', '[', '/'] :=
        List.forall_iff_forall_mem.mp (by decide)
      exact hother c (mem_of_isSign hsign)
    rw [List.cons_append, lengthAt?_cons hplain, if_pos hsign]
    rfl
  | quoted body rest hprev hbody =>
    have hbody : upToQuote? (body ++ '"' :: rest) = some (body.length + 1) :=
      upToQuote?_eq_some_iff.mpr ⟨body, rest, rfl, rfl, hbody⟩
    simp [LexUnit.lengthAt?, hprev, hbody]
  | parens body rest hbody =>
    have hbody : upTo? ')' (body ++ ')' :: rest) = some (body.length + 1) :=
      upTo?_eq_some_iff.mpr ⟨body, rest, rfl, rfl, hbody⟩
    simp [LexUnit.lengthAt?, hbody]
  | brackets body rest hbody =>
    have hbody : upTo? ']' (body ++ ']' :: rest) = some (body.length + 1) :=
      upTo?_eq_some_iff.mpr ⟨body, rest, rfl, rfl, hbody⟩
    simp [LexUnit.lengthAt?, hbody]
  | lineComment body rest hbody hend =>
    have hline : ∀ d ∈ body, (d != '\n') = true := by
      intro d hd
      rw [bne_iff_ne]
      rintro rfl
      exact hbody hd
    have hstop : ∀ d ∈ rest.head?, (d != '\n') = false := by
      intro d hd
      rw [hend d hd]
      rfl
    rw [List.cons_append, List.cons_append, LexUnit.lengthAt?,
      takeWhile_append_of_head? hline hstop]
    rfl
  | blockComment body rest hbody =>
    have hbody : upToCommentEnd? (body ++ '*' :: '/' :: rest) = some (body.length + 2) :=
      upToCommentEnd?_eq_some_iff.mpr ⟨body, rest, rfl, rfl, hbody⟩
    simp [LexUnit.lengthAt?, hbody]

theorem UnitAt.ne_nil {prev : Option Char} {u rest : List Char} (h : UnitAt prev u rest) :
    u ≠ [] := by
  cases h <;> exact List.cons_ne_nil _ _

/-- A unit stays one between other characters, as long as it does not come behind a backslash or run
on at its end. -/
theorem UnitAt.congr {prev prev' : Option Char} {u rest rest' : List Char} (h : UnitAt prev u rest)
    (hprev : prev' ≠ some '\\') (hrest : ∀ d ∈ rest'.head?, d = '\n') : UnitAt prev' u rest' := by
  cases h with
  | word c cs rest hword hend =>
    refine .word c cs rest' hword ?_
    intro d hd
    rw [hrest d hd]
    exact isWordRun_eq_false _ (by decide)
  | sign c rest hsign => exact .sign c rest' hsign
  | quoted body rest _ hbody => exact .quoted body rest' hprev hbody
  | parens body rest hbody => exact .parens body rest' hbody
  | brackets body rest hbody => exact .brackets body rest' hbody
  | lineComment body rest hbody _ => exact .lineComment body rest' hbody hrest
  | blockComment body rest hbody => exact .blockComment body rest' hbody

/-! ## The scan -/

/-- The unit that some code points at a place make. -/
def ofChars (pos : Position) (u : List Char) : LexUnit where
  text := Text.encode u
  offset := pos.offset
  line := pos.line
  col := pos.col

theorem scan_skip (u rest : List Char) (prev : Option Char) (pos : Position) :
    scan u.length prev pos (u ++ rest) = scan 0 (u.getLast?.or prev) (pos.after u) rest := by
  induction u generalizing prev pos with
  | nil => rfl
  | cons c u ih =>
    rw [List.length_cons, List.cons_append, scan, ih, List.getLast?_cons]
    cases u.getLast? with
    | none => rfl
    | some d => rfl

theorem scan_unit {prev : Option Char} {u rest : List Char} (h : UnitAt prev u rest)
    (pos : Position) :
    scan 0 prev pos (u ++ rest) = ofChars pos u :: scan 0 u.getLast? (pos.after u) rest := by
  obtain ⟨c, cs, rfl⟩ := List.exists_cons_of_ne_nil h.ne_nil
  have hlength := h.lengthAt?
  rw [List.cons_append] at hlength ⊢
  rw [scan, hlength]
  simp only [List.length_cons, Nat.add_sub_cancel, List.take_succ_cons, List.take_left]
  rw [scan_skip, List.getLast?_cons]
  cases cs.getLast? with
  | none => rfl
  | some d => rfl

theorem scan_gap {prev : Option Char} {c : Char} {cs : List Char}
    (h : lengthAt? prev (c :: cs) = none) (pos : Position) :
    scan 0 prev pos (c :: cs) = scan 0 (some c) (pos.advance c) cs := by
  rw [scan, h]

/-- A scan goes on behind a gap of one code point, or behind a unit. -/
theorem scan_induction {P : Option Char → Position → List Char → List LexUnit → Prop}
    (nil : ∀ prev pos, P prev pos [] [])
    (gap : ∀ prev pos c cs us, lengthAt? prev (c :: cs) = none →
      P (some c) (pos.advance c) cs us → P prev pos (c :: cs) us)
    (unit : ∀ prev pos u rest us, UnitAt prev u rest →
      P u.getLast? (pos.after u) rest us → P prev pos (u ++ rest) (ofChars pos u :: us))
    (prev : Option Char) (pos : Position) (cs : List Char) :
    P prev pos cs (scan 0 prev pos cs) := by
  induction hn : cs.length using Nat.strongRecOn generalizing prev pos cs with
  | ind n ih =>
    cases cs with
    | nil => exact nil prev pos
    | cons c cs =>
      cases hlength : lengthAt? prev (c :: cs) with
      | none =>
        rw [scan_gap hlength]
        refine gap prev pos c cs _ hlength (ih cs.length ?_ _ _ cs rfl)
        rw [← hn, List.length_cons]
        exact Nat.lt_succ_self _
      | some m =>
        obtain ⟨u, rest, hcs, -, hunit⟩ := exists_unitAt hlength
        rw [hcs, scan_unit hunit]
        refine unit prev pos u rest _ hunit (ih rest.length ?_ _ _ rest rfl)
        have hpos := List.length_pos_iff.mpr hunit.ne_nil
        rw [← hn, hcs, List.length_append]
        omega

/-- Where the units of a scan stand. -/
theorem exists_of_mem_scan (prev : Option Char) (pos : Position) (cs : List Char) :
    ∀ v ∈ scan 0 prev pos cs, ∃ before u rest last, cs = before ++ (u ++ rest) ∧
      UnitAt last u rest ∧ v = ofChars (pos.after before) u := by
  refine scan_induction (P := fun _ pos cs us => ∀ v ∈ us, ∃ before u rest last,
    cs = before ++ (u ++ rest) ∧ UnitAt last u rest ∧ v = ofChars (pos.after before) u)
    ?_ ?_ ?_ prev pos cs
  · intro prev pos v hv
    cases hv
  · intro prev pos c cs us _ ih v hv
    obtain ⟨before, u, rest, last, rfl, hunit, rfl⟩ := ih v hv
    exact ⟨c :: before, u, rest, last, rfl, hunit, rfl⟩
  · intro prev pos u rest us hunit ih v hv
    rcases List.mem_cons.mp hv with rfl | hv
    · exact ⟨[], u, rest, prev, rfl, hunit, rfl⟩
    · obtain ⟨before, u', rest', last, rfl, hunit', rfl⟩ := ih v hv
      refine ⟨u ++ before, u', rest', last, ?_, hunit', ?_⟩
      · rw [List.append_assoc]
      · rw [Position.after, Position.after, Position.after, List.foldl_append]

theorem ofSource_eq_ok_iff {source : Bytes} {us : List LexUnit} :
    ofSource source = .ok us ↔ scan 0 none {} (Text.decode source) = us ∧ us ≠ [] := by
  rw [ofSource]
  split
  · rename_i h
    rw [h]
    constructor
    · intro hus
      cases hus
    · rintro ⟨rfl, hne⟩
      exact absurd rfl hne
  · rename_i h
    constructor
    · intro hus
      cases hus
      exact ⟨rfl, h⟩
    · rintro ⟨rfl, -⟩
      rfl

theorem ofSource_eq_error_iff {source : Bytes} {d : Diagnostic} :
    ofSource source = .error d ↔
      scan 0 none {} (Text.decode source) = [] ∧ d = { fault := .noUnits } := by
  rw [ofSource]
  split
  · rename_i h
    rw [h]
    constructor
    · intro hd
      cases hd
      exact ⟨rfl, rfl⟩
    · rintro ⟨-, rfl⟩
      rfl
  · rename_i h
    constructor
    · intro hd
      cases hd
    · rintro ⟨hnil, -⟩
      exact absurd hnil h

end LexUnit

end Dialogue.Script
