import Dialogue.Proofs.JoinedUnits
import Dialogue.Repl.Session

/-!
# Snippets of an input

Lines are put together to snippets without any of them being lost, repeated or merged: the snippets
and the lines left over, one below the other, are the input. A snippet ends with the first line that
leaves nothing open, and what is read behind it is read as if it stood alone.
-/

namespace Dialogue.Repl

/-! ## Texts that go on -/

/-- A byte of a string is no backslash, if it is none in front of a byte and none at the end. -/
theorem ne_backslash_of_forall {b : UInt8} {bs : Bytes} (hlast : b = 0x5C → bs = [] → False)
    (hpair : ∀ c rest, b = 0x5C → bs = c :: rest → False) : b ≠ 0x5C := by
  intro hb
  cases bs with
  | nil => exact hlast hb rfl
  | cons c rest => exact hpair c rest hb rfl

theorem afterString?_append {bs rest : Bytes} (h : afterString? bs = some rest) (more : Bytes) :
    afterString? (bs ++ more) = some (rest ++ more) := by
  fun_induction afterString? bs with
  | case1 => cases h
  | case2 rest' =>
    cases h
    rfl
  | case3 => cases h
  | case4 b bs ih => exact ih h
  | case5 b bs hquote hlast hpair ih =>
    have hback := ne_backslash_of_forall hlast hpair
    have hstep : afterString? (b :: (bs ++ more)) = afterString? (bs ++ more) := by
      rw [afterString?]
      · exact hquote
      · exact fun hb _ => hback hb
      · exact fun _ _ hb _ => hback hb
    rw [List.cons_append, hstep]
    exact ih h

theorem afterComment?_append {bs rest : Bytes} (h : afterComment? bs = some rest) (more : Bytes) :
    afterComment? (bs ++ more) = some (rest ++ more) := by
  fun_induction afterComment? bs with
  | case1 => cases h
  | case2 rest' =>
    cases h
    rfl
  | case3 b bs hnot ih =>
    have hstep : afterComment? (b :: (bs ++ more)) = afterComment? (bs ++ more) := by
      rw [afterComment?]
      intro later hb hbs
      cases bs with
      | nil => cases h
      | cons c bs =>
        cases hbs
        exact hnot bs hb rfl
    rw [List.cons_append, hstep]
    exact ih h

/-- Whether a byte in front of `rest` opens neither a string nor a comment. -/
def IsPlain (c : UInt8) (rest : Bytes) : Prop :=
  c ≠ 0x22 ∧ (c = 0x2F → ∀ next ∈ rest.head?, next ≠ 0x2F ∧ next ≠ 0x2A)

theorem isPlain_of_forall {c : UInt8} {rest : Bytes} (hquote : c ≠ 0x22)
    (hline : ∀ later, c = 0x2F → rest ≠ 0x2F :: later)
    (hblock : ∀ later, c = 0x2F → rest ≠ 0x2A :: later) : IsPlain c rest := by
  refine ⟨hquote, fun hslash next hnext => ?_⟩
  obtain ⟨later, rfl⟩ := List.head?_eq_some_iff.mp hnext
  constructor
  · rintro rfl
    exact hline later hslash rfl
  · rintro rfl
    exact hblock later hslash rfl

theorem IsPlain.append_newline {c : UInt8} {rest : Bytes} (h : IsPlain c rest) (more : Bytes) :
    IsPlain c (rest ++ 0x0A :: more) := by
  refine ⟨h.1, fun hslash next hnext => ?_⟩
  cases rest with
  | nil =>
    cases hnext
    decide
  | cons b rest => exact h.2 hslash next hnext

def depthAfter (depth : Nat) (b : UInt8) : Nat :=
  if b = 0x28 ∨ b = 0x5B then depth + 1 else if b = 0x29 ∨ b = 0x5D then depth - 1 else depth

theorem isOpen_plain {c : UInt8} {rest : Bytes} (h : IsPlain c rest) (depth : Nat) :
    isOpen depth (c :: rest) = isOpen (depthAfter depth c) rest := by
  rw [isOpen, depthAfter]
  · split_ifs <;> rfl
  · exact h.1
  · rintro later hslash rfl
    exact (h.2 hslash _ rfl).1 rfl
  · rintro later hslash rfl
    exact (h.2 hslash _ rfl).2 rfl

theorem isOpen_string {rest behind : Bytes} (h : afterString? rest = some behind) (depth : Nat) :
    isOpen depth (0x22 :: rest) = isOpen depth behind := by
  rw [isOpen]
  split
  · rename_i hnone
    rw [hnone] at h
    cases h
  · rename_i hsome
    rw [hsome] at h
    cases h
    rfl

theorem isOpen_lineComment (rest : Bytes) (depth : Nat) :
    isOpen depth (0x2F :: 0x2F :: rest) = isOpen depth (rest.dropWhile (· != 0x0A)) := by
  rw [isOpen]

theorem isOpen_blockComment {rest behind : Bytes} (h : afterComment? rest = some behind)
    (depth : Nat) : isOpen depth (0x2F :: 0x2A :: rest) = isOpen depth behind := by
  rw [isOpen]
  split
  · rename_i hnone
    rw [hnone] at h
    cases h
  · rename_i hsome
    rw [hsome] at h
    cases h
    rfl

theorem dropWhile_append_newline (bs more : Bytes) :
    (bs ++ 0x0A :: more).dropWhile (· != 0x0A) = bs.dropWhile (· != 0x0A) ++ 0x0A :: more := by
  rw [List.dropWhile_append]
  split
  · rename_i hempty
    rw [List.isEmpty_iff.mp hempty]
    rfl
  · rfl

/-- What follows a text with nothing open is read as it is read by itself. -/
theorem isOpen_append_newline {depth : Nat} {a : Bytes} (h : isOpen depth a = false) (b : Bytes) :
    isOpen depth (a ++ 0x0A :: b) = isOpen 0 b := by
  fun_induction isOpen depth a with
  | case1 depth =>
    have hdepth : depth = 0 := by simpa using h
    have hplain : IsPlain 0x0A b := ⟨by decide, fun hslash => absurd hslash (by decide)⟩
    rw [hdepth, List.nil_append, isOpen_plain hplain]
    rfl
  | case2 => cases h
  | case3 depth rest behind hstring _ ih =>
    rw [List.cons_append, isOpen_string (afterString?_append hstring _)]
    exact ih h
  | case4 depth rest ih =>
    rw [List.cons_append, List.cons_append, isOpen_lineComment, dropWhile_append_newline]
    exact ih h
  | case5 => cases h
  | case6 depth rest behind hcomment _ ih =>
    rw [List.cons_append, List.cons_append, isOpen_blockComment (afterComment?_append hcomment _)]
    exact ih h
  | case7 depth c rest hquote hline hblock hopens ih =>
    have hplain := isPlain_of_forall hquote hline hblock
    rw [List.cons_append, isOpen_plain (hplain.append_newline b), depthAfter, if_pos hopens]
    exact ih h
  | case8 depth c rest hquote hline hblock hopens hcloses ih =>
    have hplain := isPlain_of_forall hquote hline hblock
    rw [List.cons_append, isOpen_plain (hplain.append_newline b), depthAfter, if_neg hopens,
      if_pos hcloses]
    exact ih h
  | case9 depth c rest hquote hline hblock hopens hcloses ih =>
    have hplain := isPlain_of_forall hquote hline hblock
    rw [List.cons_append, isOpen_plain (hplain.append_newline b), depthAfter, if_neg hopens,
      if_neg hcloses]
    exact ih h

theorem isIncomplete_append_newline {a : Bytes} (h : isIncomplete a = false) (b : Bytes) :
    isIncomplete (a ++ 0x0A :: b) = isIncomplete b :=
  isOpen_append_newline h b

/-! ## Lines one below the other -/

/-- Lines as one text. -/
def joinLines (lines : List Bytes) : Bytes :=
  [0x0A].intercalate lines

theorem joinLines_singleton (line : Bytes) : joinLines [line] = line :=
  List.intercalate_singleton

theorem joinLines_cons (line : Bytes) {lines : List Bytes} (h : lines ≠ []) :
    joinLines (line :: lines) = line ++ 0x0A :: joinLines lines := by
  rw [joinLines, List.intercalate_cons_of_ne_nil h, List.append_assoc]
  rfl

theorem joinLines_append {lines more : List Bytes} (h : lines ≠ []) (hmore : more ≠ []) :
    joinLines (lines ++ more) = joinLines lines ++ 0x0A :: joinLines more := by
  induction lines with
  | nil => exact absurd rfl h
  | cons line lines ih =>
    by_cases hlines : lines = []
    · rw [hlines, joinLines_singleton]
      exact joinLines_cons line hmore
    · have hne : lines ++ more ≠ [] := List.append_ne_nil_of_left_ne_nil hlines more
      rw [List.cons_append, joinLines_cons line hne, ih hlines, joinLines_cons line hlines,
        List.append_assoc, List.cons_append]

/-- A line feed of a text stands between two of its lines. -/
theorem exists_of_joinLines_eq {lines : List Bytes} (hlines : ∀ line ∈ lines, 0x0A ∉ line)
    {p q : Bytes} (h : joinLines lines = p ++ 0x0A :: q) :
    ∃ front back, lines = front ++ back ∧ front ≠ [] ∧ back ≠ [] ∧ p = joinLines front := by
  induction lines generalizing p with
  | nil => exact absurd h.symm (List.append_ne_nil_of_right_ne_nil p (List.cons_ne_nil _ q))
  | cons line lines ih =>
    have hline := hlines line List.mem_cons_self
    by_cases hne : lines = []
    · rw [hne, joinLines_singleton] at h
      exact absurd (h ▸ List.mem_append_right p List.mem_cons_self) hline
    · rw [joinLines_cons line hne] at h
      -- The first line feed is the one behind `line`, so `p` ends there or goes on behind it.
      have hend : line = p → ∃ front back, line :: lines = front ++ back ∧ front ≠ [] ∧
          back ≠ [] ∧ p = joinLines front := by
        rintro rfl
        exact ⟨[line], lines, rfl, List.cons_ne_nil line [], hne, (joinLines_singleton line).symm⟩
      rcases List.append_eq_append_iff.mp h with ⟨more, rfl, hmore⟩ | ⟨more, rfl, hmore⟩
      · cases more with
        | nil => exact hend (List.append_nil line).symm
        | cons b more =>
          obtain ⟨rfl, hrest⟩ := List.cons.inj hmore
          have hlater := fun line hline => hlines line (List.mem_cons_of_mem _ hline)
          obtain ⟨front, back, rfl, hfront, hback, rfl⟩ := ih hlater hrest
          exact ⟨line :: front, back, rfl, List.cons_ne_nil line front, hback,
            (joinLines_cons line hfront).symm⟩
      · cases more with
        | nil => exact hend (List.append_nil p)
        | cons b more =>
          obtain ⟨rfl, -⟩ := List.cons.inj hmore
          exact absurd (List.mem_append_right p List.mem_cons_self) hline

theorem joinLines_map_append {groups : List (List Bytes)} (h : [] ∉ groups) (lines : List Bytes) :
    joinLines (groups.map joinLines ++ lines) = joinLines (groups.flatten ++ lines) := by
  induction groups with
  | nil => rfl
  | cons group groups ih =>
    rw [List.mem_cons, not_or] at h
    have hgroup : group ≠ [] := Ne.symm h.1
    rw [List.map_cons, List.flatten_cons, List.cons_append, List.append_assoc]
    by_cases hrest : groups.flatten ++ lines = []
    · obtain ⟨hflatten, rfl⟩ := List.append_eq_nil_iff.mp hrest
      have hgroups : groups = [] := by
        refine List.eq_nil_iff_forall_not_mem.mpr fun other hother => h.2 ?_
        rwa [List.flatten_eq_nil_iff.mp hflatten other hother] at hother
      rw [hgroups]
      exact (joinLines_singleton _).trans (congrArg joinLines (List.append_nil group).symm)
    · have hsnippets : groups.map joinLines ++ lines ≠ [] := by
        intro hnil
        obtain ⟨hmap, rfl⟩ := List.append_eq_nil_iff.mp hnil
        rw [List.map_eq_nil_iff.mp hmap] at hrest
        exact hrest rfl
      rw [joinLines_cons _ hsnippets, joinLines_append hgroup hrest, ih h.2]

/-! ## Snippets -/

/-- Whether lines leave something open, however many of them are read. -/
def Unfinished (lines : List Bytes) : Prop :=
  ∀ front, front ≠ [] → front <+: lines → isIncomplete (joinLines front) = true

theorem unfinished_nil : Unfinished [] := by
  intro front hne hfront
  exact absurd (List.prefix_nil.mp hfront) hne

theorem unfinished_concat {lines : List Bytes} {line : Bytes} (h : Unfinished lines)
    (hline : isIncomplete (joinLines (lines ++ [line])) = true) :
    Unfinished (lines ++ [line]) := by
  intro front hne hfront
  rcases List.prefix_concat_iff.mp hfront with rfl | hfront
  · exact hline
  · exact h front hne hfront

theorem extend_joinLines {lines : List Bytes} (h : Unfinished lines) (line : Bytes) :
    extend (joinLines lines) line = joinLines (lines ++ [line]) := by
  by_cases hne : lines = []
  · rw [hne, List.nil_append, joinLines_singleton]
    rfl
  · -- The empty text has nothing open.
    have htext : joinLines lines ≠ [] := by
      intro hempty
      have hopen := h lines hne (List.prefix_refl lines)
      rw [hempty, isIncomplete, isOpen] at hopen
      cases hopen
    rw [extend, if_neg (mt List.isEmpty_iff.mp htext),
      joinLines_append hne (List.cons_ne_nil line []), joinLines_singleton]

/-- Whether lines make a snippet: all of them together leave nothing open, and any fewer leave
something open. -/
structure MakeSnippet (lines : List Bytes) : Prop where
  ne_nil : lines ≠ []
  complete : isIncomplete (joinLines lines) = false
  unfinished : Unfinished lines.dropLast

/-- Lines are taken until they make a snippet or run out. -/
theorem readSnippet_joinLines {taken : List Bytes} (htaken : Unfinished taken)
    (lines : List Bytes) :
    (readSnippet (joinLines taken) lines = none ∧ Unfinished (taken ++ lines)) ∨
      ∃ more rest, lines = more ++ rest ∧ MakeSnippet (taken ++ more) ∧
        readSnippet (joinLines taken) lines = some (joinLines (taken ++ more), rest) := by
  induction lines generalizing taken with
  | nil =>
    rw [List.append_nil]
    exact .inl ⟨rfl, htaken⟩
  | cons line lines ih =>
    simp only [readSnippet, extend_joinLines htaken]
    split
    · rename_i hopen
      rcases ih (unfinished_concat htaken hopen) with
        ⟨hnone, hlines⟩ | ⟨more, rest, rfl, hmake, hsome⟩
      · rw [List.append_assoc] at hlines
        exact .inl ⟨hnone, hlines⟩
      · rw [List.append_assoc] at hmake hsome
        exact .inr ⟨line :: more, rest, rfl, hmake, hsome⟩
    · rename_i hopen
      refine .inr ⟨[line], lines, rfl, ⟨by simp, by simpa using hopen, ?_⟩, rfl⟩
      rwa [List.dropLast_concat]

/-- The snippets that are read from lines one after the other, and the lines left over. -/
def readAll (lines : List Bytes) : List Bytes × List Bytes :=
  match h : readSnippet [] lines with
  | none => ([], lines)
  | some (snippet, rest) =>
    have := length_readSnippet_lt h
    (snippet :: (readAll rest).1, (readAll rest).2)
termination_by lines.length

theorem readAll_of_none {lines : List Bytes} (h : readSnippet [] lines = none) :
    readAll lines = ([], lines) := by
  rw [readAll]
  split
  · rfl
  · rename_i hsome
    rw [hsome] at h
    cases h

theorem readAll_of_some {lines rest : List Bytes} {snippet : Bytes}
    (h : readSnippet [] lines = some (snippet, rest)) :
    readAll lines = (snippet :: (readAll rest).1, (readAll rest).2) := by
  rw [readAll]
  split
  · rename_i hnone
    rw [hnone] at h
    cases h
  · rename_i hsome
    rw [hsome] at h
    cases h
    rfl

theorem exists_groups (lines : List Bytes) :
    ∃ groups : List (List Bytes), lines = groups.flatten ++ (readAll lines).2 ∧
      (readAll lines).1 = groups.map joinLines ∧ (∀ group ∈ groups, MakeSnippet group) ∧
      Unfinished (readAll lines).2 := by
  induction hn : lines.length using Nat.strongRecOn generalizing lines with
  | ind n ih =>
    rcases readSnippet_joinLines unfinished_nil lines with
      ⟨hnone, hlines⟩ | ⟨group, rest, rfl, hmake, hsome⟩
    · rw [readAll_of_none hnone]
      exact ⟨[], rfl, rfl, fun group hgroup => absurd hgroup List.not_mem_nil, hlines⟩
    · have hshort := length_readSnippet_lt hsome
      obtain ⟨groups, hrest, hsnippets, hgroups, htail⟩ := ih rest.length (hn ▸ hshort) rest rfl
      rw [readAll_of_some hsome]
      refine ⟨group :: groups, ?_, congrArg _ hsnippets, ?_, htail⟩
      · rw [List.flatten_cons, List.append_assoc, ← hrest]
      · exact List.forall_mem_cons.mpr ⟨hmake, hgroups⟩

theorem MakeSnippet.isIncomplete_of_newline {lines : List Bytes} (h : MakeSnippet lines)
    (hlines : ∀ line ∈ lines, 0x0A ∉ line) {p q : Bytes} (hp : joinLines lines = p ++ 0x0A :: q) :
    isIncomplete p = true := by
  obtain ⟨front, back, rfl, hfront, hback, rfl⟩ := exists_of_joinLines_eq hlines hp
  refine h.unfinished front hfront ?_
  rw [List.dropLast_append_of_ne_nil hback]
  exact List.prefix_append front _

/-- The session after snippets, up to one that ends it. -/
def Session.hear (s : Session) : List Bytes → Session
  | [] => s
  | snippet :: snippets =>
    if (s.accept snippet).isLast then (s.accept snippet).session
    else (s.accept snippet).session.hear snippets

theorem Session.fst_run (s : Session) (lines : List Bytes) :
    (s.run lines).1 = s.hear (readAll lines).1 := by
  fun_induction run s lines with
  | case1 s lines hnone =>
    rw [readAll_of_none hnone]
    rfl
  | case2 s lines snippet rest hsome _ _ _ hlast =>
    rw [readAll_of_some hsome, hear, if_pos hlast]
  | case3 s lines snippet rest hsome _ _ _ hlast _ _ hrun ih =>
    rw [readAll_of_some hsome, hear, if_neg hlast, ← ih, hrun]

/-- Reading snippets keeps an input as it is: the snippets and the lines left over are the lines of
the input, each snippet made of the fewest lines that leave nothing open. A session takes in these
snippets. Where one ends, the text behind it can be read by itself. -/
theorem input_kept_by_snippets (lines : List Bytes) (hlines : ∀ line ∈ lines, 0x0A ∉ line) :
    joinLines ((readAll lines).1 ++ (readAll lines).2) = joinLines lines ∧
      (∃ groups : List (List Bytes), lines = groups.flatten ++ (readAll lines).2 ∧ [] ∉ groups ∧
        (readAll lines).1 = groups.map joinLines) ∧
      (∀ snippet ∈ (readAll lines).1, isIncomplete snippet = false ∧
        ∀ p q, snippet = p ++ 0x0A :: q → isIncomplete p = true) ∧
      Unfinished (readAll lines).2 ∧
      (∀ session : Session, (session.run lines).1 = session.hear (readAll lines).1) ∧
      ∀ a b, isIncomplete a = false → isIncomplete (a ++ 0x0A :: b) = isIncomplete b := by
  obtain ⟨groups, hflatten, hsnippets, hmake, htail⟩ := exists_groups lines
  have hgroups : [] ∉ groups := fun hnil => (hmake [] hnil).ne_nil rfl
  refine ⟨?_, ⟨groups, hflatten, hgroups, hsnippets⟩, ?_, htail,
    fun session => session.fst_run lines, fun a b ha => isIncomplete_append_newline ha b⟩
  · rw [hsnippets, joinLines_map_append hgroups, ← hflatten]
  · intro snippet hsnippet
    rw [hsnippets] at hsnippet
    obtain ⟨group, hgroup, rfl⟩ := List.mem_map.mp hsnippet
    refine ⟨(hmake group hgroup).complete, fun p q hp => ?_⟩
    refine (hmake group hgroup).isIncomplete_of_newline (fun line hline => hlines line ?_) hp
    rw [hflatten]
    exact List.mem_append_left _ (List.mem_flatten_of_mem hgroup hline)

/-- A string that goes on behind a backslash at the end of a line, then a group, an empty line, and
a comment that is not closed. -/
def typed : List Bytes :=
  [Text.utf8 "\"a\\", Text.utf8 "\" (b", Text.utf8 ") // [", [], Text.utf8 "/*/"]

def typedSnippet : Bytes :=
  Text.utf8 "\"a\\\n\" (b\n) // ["

theorem input_kept_by_snippets_typed :
    (∀ line ∈ typed, 0x0A ∉ line) ∧ readAll typed = ([typedSnippet, []], [Text.utf8 "/*/"]) ∧
      joinLines [typedSnippet, [], Text.utf8 "/*/"] = joinLines typed ∧
      isIncomplete (Text.utf8 "\"a\\\n\" (b") = true ∧ Unfinished [Text.utf8 "/*/"] ∧
      isIncomplete typedSnippet = false ∧
      isIncomplete (typedSnippet ++ 0x0A :: Text.utf8 "/*/") =
        isIncomplete (Text.utf8 "/*/") := by
  have hlines : ∀ line ∈ typed, 0x0A ∉ line := by decide +kernel
  have hread : readAll typed = ([typedSnippet, []], [Text.utf8 "/*/"]) := by decide +kernel
  obtain ⟨hjoin, -, hsnippets, htail, -, hbehind⟩ := input_kept_by_snippets typed hlines
  rw [hread] at hjoin hsnippets htail
  obtain ⟨hcomplete, hshorter⟩ := hsnippets typedSnippet List.mem_cons_self
  exact ⟨hlines, hread, hjoin, hshorter _ (Text.utf8 ") // [") (by decide +kernel), htail,
    hcomplete, hbehind _ _ hcomplete⟩

end Dialogue.Repl
