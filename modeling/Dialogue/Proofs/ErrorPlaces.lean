import Dialogue.Compile
import Dialogue.Proofs.CodePoints
import Dialogue.Proofs.ParamGroups
import Dialogue.Proofs.ReadInstructions
import Dialogue.Proofs.UnitScan

/-!
# Places of errors

An error of a script is about one of its units, and the place of the unit is where its text stands
when the source is cut into lines.
-/

namespace Dialogue.Script

/-- Whether a diagnostic is about the grammar or the parameters of a unit, and says so. -/
def Diagnostic.Blames (d : Diagnostic) (u : LexUnit) : Prop :=
  (d.fault.kind = .grammar ∨ d.fault.kind = .parameter) ∧ d = u.diagnostic d.fault

namespace LexUnit

variable {u : LexUnit} {d : Diagnostic}

/-! ## Readers -/

theorem blames_of_group (h : u.group = .error d) : d.Blames u := by
  cases hread : ParamGroup.read u.text with
  | error fault =>
    rw [group, blame, hread] at h
    cases h
    exact ⟨.inr (ParamGroup.kind_of_read hread), rfl⟩
  | ok texts =>
    rw [group, blame, hread] at h
    cases h

theorem blames_of_literal (h : u.literal = .error d) : d.Blames u := by
  cases hread : Literal.read u.text with
  | error fault =>
    rw [literal, blame, hread] at h
    cases h
    exact ⟨.inr (Literal.kind_of_read hread), rfl⟩
  | ok text =>
    rw [literal, blame, hread] at h
    cases h

theorem blames_of_sigilName (h : u.sigilName = .error d) : d.Blames u := by
  rw [sigilName] at h
  split at h
  · cases h
    exact ⟨.inl rfl, rfl⟩
  · cases h

theorem blames_of_readAction {next? : Option LexUnit} (h : u.readAction next? = .error d) :
    d.Blames u ∨ ∃ v ∈ next?, d.Blames v.trimmed := by
  rcases Result.bind_eq_error_iff.mp h with hname | ⟨name, -, h⟩
  · exact .inl (blames_of_sigilName hname)
  · cases next? with
    | none => cases h
    | some v =>
      dsimp only [Option.map_some] at h
      split at h
      · rcases Result.bind_eq_error_iff.mp h with hgroup | ⟨texts, -, h⟩
        · exact .inr ⟨v, rfl, blames_of_group hgroup⟩
        · cases h
      · cases h

theorem blames_of_callArguments {name : Bytes} (h : u.callArguments name = .error d) :
    d.Blames u := by
  rw [callArguments] at h
  split at h
  · exact blames_of_group h
  · split at h
    · exact blames_of_literal (Result.map_eq_error_iff.mp h)
    · split at h
      · cases h
      · cases h
        exact ⟨.inl rfl, rfl⟩

theorem blames_of_readNamedCall {next? : Option LexUnit} (h : u.readNamedCall next? = .error d) :
    d.Blames u ∨ ∃ v ∈ next?, d.Blames v.trimmed := by
  rcases Result.bind_eq_error_iff.mp h with hname | ⟨name, -, h⟩
  · exact .inl (blames_of_sigilName hname)
  · cases next? with
    | none =>
      cases h
      exact .inl ⟨.inl rfl, rfl⟩
    | some v =>
      rcases Result.bind_eq_error_iff.mp h with harguments | ⟨texts, -, h⟩
      · exact .inr ⟨v, rfl, blames_of_callArguments harguments⟩
      · cases h

theorem blames_of_readWait (h : u.readWait = .error d) : d.Blames u := by
  rw [readWait] at h
  split at h
  · cases h
    exact ⟨.inl rfl, rfl⟩
  · split at h
    · cases h
      exact ⟨.inl rfl, rfl⟩
    · cases h

theorem blames_of_readColor (h : u.readColor = .error d) : d.Blames u := by
  rw [readColor] at h
  split at h
  · cases h
    exact ⟨.inl rfl, rfl⟩
  · split at h
    · cases h
    · cases h

theorem kind_of_actorFault? {isFirst : Bool} {names : List Bytes} {fault : Fault}
    (h : actorFault? isFirst names = some fault) : fault.kind = .grammar := by
  induction names generalizing isFirst with
  | nil => cases h
  | cons name names ih =>
    rw [actorFault?] at h
    split at h
    · split at h
      · exact ih h
      · cases h
        rfl
    · split at h
      · cases h
        rfl
      · exact ih h

theorem blames_of_readActors (h : u.readActors = .error d) : d.Blames u := by
  rcases Result.bind_eq_error_iff.mp h with hgroup | ⟨names, -, h⟩
  · exact blames_of_group hgroup
  · split at h
    · rename_i fault hfault
      cases h
      exact ⟨.inl (kind_of_actorFault? hfault), rfl⟩
    · cases h

theorem blames_of_readSwitch {on : Bool} (h : u.readSwitch on = .error d) : d.Blames u := by
  rcases Result.bind_eq_error_iff.mp h with hname | ⟨name, -, h⟩
  · exact blames_of_sigilName hname
  · cases h

/-- A unit is read without an error, or the error is about it or about the unit after it. -/
theorem blames_of_read {next? : Option LexUnit} (h : u.read next? = .error d) :
    d.Blames u ∨ ∃ v ∈ next?, d.Blames v.trimmed := by
  rw [read] at h
  split at h
  · cases h
  · split at h
    · cases h
    · cases h
    · rcases Result.bind_eq_error_iff.mp h with hliteral | ⟨text, -, h⟩
      · exact .inl (blames_of_literal hliteral)
      · cases h
    · exact blames_of_readAction h
    · exact blames_of_readNamedCall h
    · rcases Result.bind_eq_error_iff.mp h with hname | ⟨name, -, h⟩
      · exact .inl (blames_of_sigilName hname)
      · cases h
    · exact .inl (blames_of_readWait h)
    · exact .inl (blames_of_readColor h)
    · exact .inl (blames_of_readActors h)
    · cases h
    · cases h
    · cases h
    · exact .inl (blames_of_readSwitch h)
    · exact .inl (blames_of_readSwitch h)
    · cases h
      exact .inl ⟨.inl rfl, rfl⟩

end LexUnit

theorem blames_of_readUnits {us : List LexUnit} {d : Diagnostic} (h : readUnits us = .error d) :
    ∃ u ∈ us, d.Blames u.trimmed := by
  induction us using units_induction with
  | nil => cases h
  | cons u us ih =>
    rw [readUnits_cons] at h
    rcases Result.bind_eq_error_iff.mp h with hread | ⟨r, -, hlater⟩
    · rcases LexUnit.blames_of_read hread with hu | ⟨v, hv, hblames⟩
      · exact ⟨u, List.mem_cons_self, hu⟩
      · exact ⟨v, List.mem_cons_of_mem u (List.mem_of_mem_head? hv), hblames⟩
    · have hsuffix := later_suffix us r
      obtain ⟨v, hv, hblames⟩ := ih _ hsuffix (Result.map_eq_error_iff.mp hlater)
      exact ⟨v, List.mem_cons_of_mem u (hsuffix.subset hv), hblames⟩

theorem error_of_instructions {us : List LexUnit} {d : Diagnostic} (hne : us ≠ [])
    (h : instructions us = .error d) :
    d = { fault := .noInstructions } ∨ ∃ u ∈ us, d.Blames u.trimmed := by
  rw [instructions, if_neg (mt List.isEmpty_iff.mp hne)] at h
  rcases Result.bind_eq_error_iff.mp h with hread | ⟨is, -, h⟩
  · exact .inr (blames_of_readUnits hread)
  · split at h
    · cases h
      exact .inl rfl
    · cases h

/-- An error in a script is that it has no units, that it has no instructions, or about a unit. -/
theorem error_cases {source : Bytes} {opts : CompileOptions} {d : Diagnostic}
    (h : compile source opts = .error (.script d)) :
    d = { fault := .noUnits } ∨ d = { fault := .noInstructions } ∨
      ∃ us u, LexUnit.ofSource source = .ok us ∧ u ∈ us ∧ d.Blames u.trimmed := by
  rcases Result.bind_eq_error_iff.mp h with hsource | ⟨us, hus, h⟩
  · obtain ⟨d', hd', heq⟩ := Result.mapError_eq_error_iff.mp hsource
    cases heq
    rw [LexUnit.ofSource] at hd'
    split at hd'
    · cases hd'
      exact .inl rfl
    · cases hd'
  · have hunits := Result.mapError_eq_ok_iff.mp hus
    rcases Result.bind_eq_error_iff.mp h with hread | ⟨is, -, h⟩
    · obtain ⟨d', hd', heq⟩ := Result.mapError_eq_error_iff.mp hread
      cases heq
      have hne := (LexUnit.ofSource_eq_ok_iff.mp hunits).2
      rcases error_of_instructions hne hd' with hempty | ⟨u, hu, hblames⟩
      · exact .inr (.inl hempty)
      · exact .inr (.inr ⟨us, u, hunits, hu, hblames⟩)
    · rcases Result.bind_eq_error_iff.mp h with hassemble | ⟨p, -, h⟩
      · obtain ⟨e, -, heq⟩ := Result.mapError_eq_error_iff.mp hassemble
        cases heq
      · cases h

/-! ## Lines -/

/-- The place behind some code points is given by their full lines and the one that is not full. -/
theorem exists_lines (before : List Char) :
    ∃ full last, (({} : Position).after before).line = full.length + 1 ∧
      (({} : Position).after before).col = last.length + 1 ∧
      ∀ rest first more, rest.splitOn '\n' = first :: more →
        (before ++ rest).splitOn '\n' = full ++ (last ++ first) :: more := by
  induction before using List.reverseRecOn with
  | nil => exact ⟨[], [], rfl, rfl, fun rest first more h => h⟩
  | append_singleton before c ih =>
    obtain ⟨full, last, hline, hcol, hsplit⟩ := ih
    have hafter :
        ({} : Position).after (before ++ [c]) = (({} : Position).after before).advance c :=
      List.foldl_concat ..
    rw [hafter, Position.advance]
    by_cases hc : c = '\n'
    · refine ⟨full ++ [last], [], ?_, ?_, ?_⟩
      · rw [if_pos hc, hline, List.length_append]
        rfl
      · rw [if_pos hc]
        rfl
      · intro rest first more h
        have hnext : (c :: rest).splitOn '\n' = [] :: first :: more := by
          rw [List.splitOn_cons_eq_if_modifyHead, if_pos (beq_iff_eq.mpr hc), h]
        rw [List.append_assoc, List.singleton_append, hsplit _ _ _ hnext]
        simp
    · refine ⟨full, last ++ [c], ?_, ?_, ?_⟩
      · rw [if_neg hc, hline]
      · rw [if_neg hc, hcol, List.length_append]
        rfl
      · intro rest first more h
        have hnext : (c :: rest).splitOn '\n' = (c :: first) :: more := by
          rw [List.splitOn_cons_eq_if_modifyHead, if_neg (mt beq_iff_eq.mp hc), h,
            List.modifyHead_cons]
        rw [List.append_assoc, List.singleton_append, hsplit _ _ _ hnext]
        simp

/-! ## Ends of units -/

/-- The white space characters from U+0080 on. -/
def spaceRanges : List (Nat × Nat) :=
  [(0x85, 0x85), (0xA0, 0xA0), (0x1680, 0x1680), (0x2000, 0x200A), (0x2028, 0x2029),
    (0x202F, 0x202F), (0x205F, 0x205F), (0x3000, 0x3000)]

theorem inRanges_spaceRanges {c : Char} (hlow : 0x80 ≤ c.toNat) (h : Text.isSpace c = true) :
    Text.inRanges spaceRanges c.toNat = true := by
  simp only [Text.isSpace, Bool.or_eq_true, Bool.and_eq_true, decide_eq_true_eq, beq_iff_eq] at h
  simp only [Text.inRanges, spaceRanges, List.any_cons, List.any_nil, Bool.or_eq_true,
    Bool.and_eq_true, decide_eq_true_eq]
  omega

theorem inRanges_of_disjoint {rs ss : List (Nat × Nat)} {n : Nat}
    (h : (rs.all fun r => ss.all fun s => Nat.blt s.2 r.1 || Nat.blt r.2 s.1) = true)
    (hn : Text.inRanges ss n = true) : Text.inRanges rs n = false := by
  obtain ⟨s, hs, hsn⟩ := List.any_eq_true.mp hn
  refine List.any_eq_false.mpr ?_
  intro r hr hrn
  have hapart := List.all_eq_true.mp (List.all_eq_true.mp h r hr) s hs
  simp only [Bool.or_eq_true, Nat.blt_eq] at hapart
  simp only [Bool.and_eq_true, decide_eq_true_eq] at hsn hrn
  omega

namespace LexUnit

theorem isWordRun_of_isSpace {c : Char} (h : Text.isSpace c = true) : isWordRun c = false := by
  by_cases hlow : c.toNat < 0x80
  · have hascii : ∀ n < 0x80, Text.isSpace (Char.ofNat n) = true →
        isWordRun (Char.ofNat n) = false := by decide +kernel
    have hword := hascii c.toNat hlow
    rw [Char.ofNat_toNat] at hword
    exact hword h
  · have hranges : Text.inRanges Text.wordRanges c.toNat = false :=
      inRanges_of_disjoint (by decide +kernel) (inRanges_spaceRanges (Nat.not_lt.mp hlow) h)
    have hsigns : ∀ d ∈ ['&', '!', '@', '#', '$', '%', '>', '<', '+', '-', '_', '\''],
        d.toNat < 0x80 := List.forall_iff_forall_mem.mp (by decide)
    rw [isWordRun, Text.isWordChar, if_neg hlow, hranges, Bool.false_or, decide_eq_false_iff_not]
    exact fun hmem => hlow (hsigns c hmem)

/-- Whether a text has white space at neither end. -/
def HasBareEnds (u : List Char) : Prop :=
  (∀ c ∈ u.head?, Text.isSpace c = false) ∧ ∀ c ∈ u.getLast?, Text.isSpace c = false

theorem hasBareEnds_of_forall {u : List Char} (h : ∀ c ∈ u, Text.isSpace c = false) :
    HasBareEnds u :=
  ⟨fun c hc => h c (List.mem_of_mem_head? hc), fun c hc => h c (List.mem_of_getLast? hc)⟩

theorem hasBareEnds_between {first last : Char} (body : List Char)
    (hfirst : Text.isSpace first = false) (hlast : Text.isSpace last = false) :
    HasBareEnds (first :: (body ++ [last])) := by
  constructor
  · intro c hc
    cases hc
    exact hfirst
  · intro c hc
    rw [← List.cons_append, List.getLast?_concat] at hc
    cases hc
    exact hlast

/-- A unit has white space at neither end, unless it is a comment up to the end of its line. -/
theorem UnitAt.hasBareEnds {prev : Option Char} {u rest : List Char} (h : UnitAt prev u rest) :
    HasBareEnds u ∨ ∃ body, u = '/' :: '/' :: body := by
  cases h with
  | word c cs rest hword hend =>
    refine .inl (hasBareEnds_of_forall ?_)
    intro d hd
    cases hspace : Text.isSpace d with
    | false => rfl
    | true => exact absurd (hword d hd) (by simp [isWordRun_of_isSpace hspace])
  | sign c rest hsign =>
    have hsigns : ∀ d ∈ ['*', '.', ';'], Text.isSpace d = false :=
      List.forall_iff_forall_mem.mp (by decide)
    refine .inl (hasBareEnds_of_forall ?_)
    intro d hd
    rw [List.mem_singleton.mp hd]
    exact hsigns c (mem_of_isSign hsign)
  | quoted body rest hprev hbody => exact .inl (hasBareEnds_between body rfl rfl)
  | parens body rest hbody => exact .inl (hasBareEnds_between body rfl rfl)
  | brackets body rest hbody => exact .inl (hasBareEnds_between body rfl rfl)
  | lineComment body rest hbody hend => exact .inr ⟨body, rfl⟩
  | blockComment body rest hbody =>
    have hends : HasBareEnds ('/' :: ('*' :: (body ++ ['*']) ++ ['/'])) :=
      hasBareEnds_between _ rfl rfl
    rw [List.cons_append, List.append_assoc] at hends
    exact .inl hends

theorem UnitAt.isSpace_head {prev : Option Char} {c : Char} {cs rest : List Char}
    (h : UnitAt prev (c :: cs) rest) : Text.isSpace c = false := by
  rcases h.hasBareEnds with hends | ⟨body, heq⟩
  · exact hends.1 c rfl
  · cases heq
    rfl

/-- A unit loses white space at its end only, and only if it is a comment up to the end of its
line. -/
theorem UnitAt.trim_encode {prev : Option Char} {u rest : List Char} (h : UnitAt prev u rest) :
    (Text.decode (Text.trim (Text.encode u))).head? = u.head? ∧
      (Text.trim (Text.encode u) = Text.encode u ∨ Text.utf8 "//" <+: Text.encode u) := by
  rw [Text.trim_encode, Text.decode_encode]
  constructor
  · obtain ⟨c, cs, rfl⟩ := List.exists_cons_of_ne_nil h.ne_nil
    exact Text.head?_strip h.isSpace_head
  · rcases h.hasBareEnds with hends | ⟨body, rfl⟩
    · exact .inl (congrArg Text.encode (Text.strip_eq_self hends.1 hends.2))
    · exact .inr ⟨Text.encode body, rfl⟩

/-- The text of a unit starts at its column of its line. -/
theorem exists_line {source : Bytes} {us : List LexUnit} {v : LexUnit}
    (hus : ofSource source = .ok us) (hv : v ∈ us) :
    ∃ (n m : Nat) (line : Bytes) (c : Char), v.line = n + 1 ∧ v.col = m + 1 ∧
      (source.splitOn 0x0A)[n]? = some line ∧ (Text.decode line)[m]? = some c ∧
      (Text.decode (Text.trim v.text)).head? = some c := by
  obtain ⟨hscan, -⟩ := ofSource_eq_ok_iff.mp hus
  rw [← hscan] at hv
  obtain ⟨before, u, rest, prev, hsource, hunit, rfl⟩ := exists_of_mem_scan none {} _ v hv
  obtain ⟨c, cs, rfl⟩ := List.exists_cons_of_ne_nil hunit.ne_nil
  obtain ⟨full, last, hline, hcol, hsplit⟩ := exists_lines before
  obtain ⟨first, more, hrest⟩ :=
    List.exists_cons_of_ne_nil (List.splitOn_ne_nil '\n' (cs ++ rest))
  have hc : c ≠ '\n' := by
    rintro rfl
    cases hunit.isSpace_head
  have hnext : (c :: cs ++ rest).splitOn '\n' = (c :: first) :: more := by
    rw [List.cons_append, List.splitOn_cons_eq_if_modifyHead, if_neg (mt beq_iff_eq.mp hc), hrest,
      List.modifyHead_cons]
  have hlines := hsplit _ _ _ hnext
  rw [← hsource, Text.splitOn_decode] at hlines
  have hget : ((source.splitOn 0x0A).map Text.decode)[full.length]?
      = some (last ++ c :: first) := by
    rw [hlines, List.getElem?_append_right (Nat.le_refl _), Nat.sub_self]
    rfl
  rw [List.getElem?_map] at hget
  obtain ⟨line, hmem, hdecode⟩ := Option.map_eq_some_iff.mp hget
  refine ⟨full.length, last.length, line, c, congrArg Int.ofNat hline, congrArg Int.ofNat hcol,
    hmem, ?_, hunit.trim_encode.1⟩
  rw [hdecode, List.getElem?_append_right (Nat.le_refl _), Nat.sub_self]
  rfl

end LexUnit

end Dialogue.Script
