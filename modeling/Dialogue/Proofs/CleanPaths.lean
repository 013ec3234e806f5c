import Dialogue.Files.Path
import Dialogue.Proofs.CodePoints
import Dialogue.Proofs.JoinedUnits

/-!
# Cleaned paths

A cleaned path from the root is a row of names with a slash in front of each. Whatever path is asked
for, the absolute path is of this form, and so are its parent and its temporary neighbour, which
differ from it in the last name only.
-/

namespace Dialogue.Path

theorem slash_notMem_of_mem_names {p name : Bytes} (h : name ∈ names p) : slash ∉ name := by
  unfold names at h
  induction p generalizing name with
  | nil =>
    rw [List.splitOn_nil, List.mem_singleton] at h
    rw [h]
    exact List.not_mem_nil
  | cons b p ih =>
    rw [List.splitOn_cons_eq_if_modifyHead] at h
    split at h
    · rcases List.mem_cons.mp h with rfl | h
      · exact List.not_mem_nil
      · exact ih h
    · rename_i hb
      have hne : p.splitOn slash ≠ [] := List.splitOn_ne_nil slash p
      obtain ⟨first, rest, hparts⟩ := List.exists_cons_of_ne_nil hne
      rw [hparts, List.modifyHead_cons] at h
      rw [hparts] at ih
      rcases List.mem_cons.mp h with rfl | h
      · rw [List.mem_cons, not_or]
        exact ⟨Ne.symm (mt beq_iff_eq.mpr hb), ih List.mem_cons_self⟩
      · exact ih (List.mem_cons_of_mem first h)

theorem names_slash_cons (p : Bytes) : names (slash :: p) = [] :: names p := by
  rw [names, List.splitOn_cons_eq_if_modifyHead, if_pos (beq_self_eq_true slash)]
  rfl

/-- Whether a name leads from a directory to one of its entries. -/
structure IsName (name : Bytes) : Prop where
  ne_nil : name ≠ []
  ne_here : name ≠ here
  ne_above : name ≠ above
  slash_notMem : slash ∉ name

/-- The cleaned path from the root along a row of names. -/
def ofNames (row : List Bytes) : Bytes :=
  slash :: [slash].intercalate row

/-- The names that a path from the root leads along. -/
def row (p : Bytes) : List Bytes :=
  (names p).filter (· ≠ [])

theorem ofNames_cons_cons (name next : Bytes) (row : List Bytes) :
    ofNames (name :: next :: row) = slash :: name ++ ofNames (next :: row) := by
  rw [ofNames, List.intercalate_cons_cons, List.append_assoc]
  rfl

/-- The last name stands behind the last slash. The root has an empty one. -/
theorem ofNames_eq (row : List Bytes) :
    ofNames row = row.dropLast.flatMap (slash :: ·) ++ slash :: row.getLast?.getD [] := by
  induction row with
  | nil => rfl
  | cons name row ih =>
    cases row with
    | nil => simp [ofNames]
    | cons next row =>
      rw [ofNames_cons_cons, ih, List.dropLast_cons_of_ne_nil (List.cons_ne_nil _ _),
        List.flatMap_cons, List.append_assoc, List.getLast?_cons_cons]

section

variable {row : List Bytes} (hrow : ∀ name ∈ row, IsName name)

include hrow

theorem names_flatMap_append (rest : Bytes) :
    names (row.flatMap (slash :: ·) ++ slash :: rest) = [] :: row ++ names rest := by
  induction row with
  | nil => exact names_slash_cons rest
  | cons name row ih =>
    have hname := (hrow name List.mem_cons_self).slash_notMem
    have hrest := ih fun n hn => hrow n (List.mem_cons_of_mem name hn)
    -- What stands behind the name starts with a slash, whether it is the next name or the rest.
    obtain ⟨behind, hbehind⟩ :
        ∃ behind, row.flatMap (slash :: ·) ++ slash :: rest = slash :: behind := by
      cases row with
      | nil => exact ⟨rest, rfl⟩
      | cons next row => exact ⟨_, rfl⟩
    rw [hbehind, names_slash_cons] at hrest
    rw [List.flatMap_cons, List.append_assoc, hbehind, List.cons_append, names_slash_cons, names,
      List.splitOn_append_cons_self_of_not_mem hname, ← names, (List.cons.inj hrest).2]
    rfl

theorem isName_of_mem_dropLast : ∀ name ∈ row.dropLast, IsName name :=
  fun name hname => hrow name (List.mem_of_mem_dropLast hname)

theorem slash_notMem_getLast : slash ∉ row.getLast?.getD [] := by
  cases hlast : row.getLast? with
  | none => exact List.not_mem_nil
  | some name => exact (hrow name (List.mem_of_mem_getLast? hlast)).slash_notMem

theorem names_ofNames : names (ofNames row) = [] :: row.dropLast ++ [row.getLast?.getD []] := by
  rw [ofNames_eq, names_flatMap_append (isName_of_mem_dropLast hrow)]
  congr 1
  exact List.splitOn_eq_singleton (slash_notMem_getLast hrow)

theorem base_ofNames : base (ofNames row) = row.getLast?.getD [] := by
  rw [base, names_ofNames hrow, List.getLast?_concat]
  rfl

theorem directory_ofNames :
    directory (ofNames row) = row.dropLast.flatMap (slash :: ·) ++ [slash] := by
  have hsplit : ofNames row =
      (row.dropLast.flatMap (slash :: ·) ++ [slash]) ++ row.getLast?.getD [] := by
    rw [ofNames_eq, List.append_assoc]
    rfl
  rw [directory, base_ofNames hrow, hsplit, List.length_append, Nat.add_sub_cancel]
  exact List.take_left

theorem filter_ne_nil : row.filter (· ≠ []) = row := by
  rw [List.filter_eq_self]
  intro name hname
  exact decide_eq_true (hrow name hname).ne_nil

end

/-! ## Cleaning -/

theorem cleanStep_of_isName {name : Bytes} (h : IsName name) (rooted : Bool) (kept : List Bytes) :
    cleanStep rooted kept name = name :: kept := by
  have hne : ¬ (name.isEmpty = true ∨ name = here) := by
    rw [List.isEmpty_iff, not_or]
    exact ⟨h.ne_nil, h.ne_here⟩
  unfold cleanStep
  rw [if_neg hne, if_neg h.ne_above]

theorem foldl_cleanStep {ns : List Bytes} (h : ∀ n ∈ ns, n = [] ∨ IsName n) (rooted : Bool)
    (kept : List Bytes) :
    ns.foldl (cleanStep rooted) kept = (ns.filter (· ≠ [])).reverse ++ kept := by
  induction ns generalizing kept with
  | nil => rfl
  | cons n ns ih =>
    have hns := ih fun m hm => h m (List.mem_cons_of_mem n hm)
    rcases h n List.mem_cons_self with rfl | hn
    · exact hns kept
    · have hkept : decide (n ≠ []) = true := decide_eq_true hn.ne_nil
      rw [List.foldl_cons, cleanStep_of_isName hn, hns, List.filter_cons, if_pos hkept,
        List.reverse_cons, List.append_assoc]
      rfl

theorem clean_eq {p : Bytes} (hroot : isAbsolute p = true)
    (h : ∀ n ∈ names p, n = [] ∨ IsName n) : clean p = ofNames (row p) := by
  rw [clean, if_pos hroot, foldl_cleanStep h, List.append_nil, List.reverse_reverse]
  rfl

/-- Going up from the root leads nowhere, so no upward step is left over. -/
theorem isName_of_mem_cleanStep {kept : List Bytes} {name : Bytes}
    (hkept : ∀ n ∈ kept, IsName n) (hname : slash ∉ name) :
    ∀ n ∈ cleanStep true kept name, IsName n := by
  intro n hn
  unfold cleanStep at hn
  split at hn
  · exact hkept n hn
  · rename_i hne
    rw [List.isEmpty_iff, not_or] at hne
    split at hn
    · cases kept with
      | nil => exact absurd hn List.not_mem_nil
      | cons last before =>
        have hlast := (hkept last List.mem_cons_self).ne_above
        simp only [if_neg hlast] at hn
        exact hkept n (List.mem_cons_of_mem last hn)
    · rename_i habove
      rcases List.mem_cons.mp hn with rfl | hn
      · exact ⟨hne.1, hne.2, habove, hname⟩
      · exact hkept n hn

theorem isName_of_mem_foldl {ns kept : List Bytes} (hkept : ∀ n ∈ kept, IsName n)
    (hns : ∀ n ∈ ns, slash ∉ n) : ∀ n ∈ ns.foldl (cleanStep true) kept, IsName n := by
  induction ns generalizing kept with
  | nil => exact hkept
  | cons n ns ih =>
    refine ih (isName_of_mem_cleanStep hkept (hns n List.mem_cons_self)) ?_
    intro m hm
    exact hns m (List.mem_cons_of_mem n hm)

theorem exists_clean_eq {p : Bytes} (hroot : isAbsolute p = true) :
    ∃ row, (∀ name ∈ row, IsName name) ∧ clean p = ofNames row := by
  refine ⟨((names p).foldl (cleanStep true) []).reverse, ?_, ?_⟩
  · intro name hname
    exact isName_of_mem_foldl (fun n hn => absurd hn List.not_mem_nil)
      (fun n hn => slash_notMem_of_mem_names hn) name (List.mem_reverse.mp hname)
  · rw [clean, hroot]
    rfl

theorem exists_absolute_eq {workingDirectory : Bytes}
    (hroot : isAbsolute workingDirectory = true) (p : Bytes) :
    ∃ row, (∀ name ∈ row, IsName name) ∧ absolute workingDirectory p = ofNames row := by
  cases workingDirectory with
  | nil => cases hroot
  | cons b bs =>
    unfold absolute join
    split
    · rename_i habs
      exact exists_clean_eq habs
    · simp only [List.isEmpty_cons, Bool.false_eq_true, false_and, if_false]
      split
      · exact exists_clean_eq hroot
      · exact exists_clean_eq hroot

section

variable {row : List Bytes} (hrow : ∀ name ∈ row, IsName name)

include hrow

theorem clean_flatMap_append {rest : Bytes} (hrest : ∀ n ∈ names rest, n = [] ∨ IsName n) :
    clean (row.flatMap (slash :: ·) ++ slash :: rest) = ofNames (row ++ Path.row rest) := by
  have hroot : isAbsolute (row.flatMap (slash :: ·) ++ slash :: rest) = true := by
    cases row with
    | nil => rfl
    | cons name row => rfl
  have hnames := names_flatMap_append hrow rest
  rw [clean_eq hroot, Path.row, hnames]
  · rw [List.cons_append, List.filter_cons_of_neg (by simp), List.filter_append,
      filter_ne_nil hrow]
    rfl
  · intro n hn
    rw [hnames, List.cons_append] at hn
    rcases List.mem_cons.mp hn with rfl | hn
    · exact .inl rfl
    · rcases List.mem_append.mp hn with hn | hn
      · exact .inr (hrow n hn)
      · exact hrest n hn

theorem row_ofNames : Path.row (ofNames row) = row := by
  rcases List.eq_nil_or_concat row with rfl | ⟨before, last, rfl⟩
  · rfl
  · rw [List.concat_eq_append] at hrow ⊢
    rw [Path.row, names_ofNames hrow, List.dropLast_concat, List.getLast?_concat,
      Option.getD_some, List.cons_append, List.filter_cons_of_neg (by simp), filter_ne_nil hrow]

theorem parent_ofNames : parent (ofNames row) = ofNames row.dropLast := by
  have hrest : ∀ n ∈ names [], n = [] ∨ IsName n := fun n hn => .inl (List.mem_singleton.mp hn)
  rw [parent, directory_ofNames hrow, clean_flatMap_append (isName_of_mem_dropLast hrow) hrest]
  exact congrArg ofNames (List.append_nil _)

end

/-- The last name of the temporary neighbour. -/
def temporaryName (row : List Bytes) : Bytes :=
  0x2E :: row.getLast?.getD [] ++ Text.utf8 ".tmp"

theorem length_temporaryName (row : List Bytes) :
    (temporaryName row).length = (row.getLast?.getD []).length + 5 := by
  rw [temporaryName, List.length_append, List.length_cons]
  rfl

section

variable {row : List Bytes} (hrow : ∀ name ∈ row, IsName name)

include hrow

theorem isName_temporaryName : IsName (temporaryName row) where
  ne_nil := List.cons_ne_nil _ _
  ne_here h := by
    have hlen := congrArg List.length h
    rw [length_temporaryName] at hlen
    simp [here] at hlen
  ne_above h := by
    have hlen := congrArg List.length h
    rw [length_temporaryName] at hlen
    simp [above] at hlen
  slash_notMem := by
    have hlast := slash_notMem_getLast hrow
    have hdot : slash ≠ 0x2E := by decide
    have hend : slash ∉ Text.utf8 ".tmp" := by decide
    rw [temporaryName, List.cons_append, List.mem_cons, List.mem_append]
    tauto

theorem temporary_ofNames :
    temporary (ofNames row) = ofNames (row.dropLast ++ [temporaryName row]) := by
  have hname := isName_temporaryName hrow
  have hnames : names (slash :: temporaryName row) = [[], temporaryName row] := by
    rw [names_slash_cons, names, List.splitOn_eq_singleton hname.slash_notMem]
  have hrest : ∀ n ∈ names (slash :: temporaryName row), n = [] ∨ IsName n := by
    intro n hn
    rw [hnames] at hn
    rcases List.mem_cons.mp hn with rfl | hn
    · exact .inl rfl
    · exact .inr (List.mem_singleton.mp hn ▸ hname)
  have hrow' : Path.row (slash :: temporaryName row) = [temporaryName row] := by
    rw [Path.row, hnames, List.filter_cons_of_neg (by simp), List.filter_cons_of_pos]
    · rfl
    · exact decide_eq_true hname.ne_nil
  have hjoin : temporary (ofNames row) =
      clean (row.dropLast.flatMap (slash :: ·) ++ slash :: slash :: temporaryName row) := by
    rw [temporary, join, directory_ofNames hrow, base_ofNames hrow]
    simp [temporaryName]
  rw [hjoin, clean_flatMap_append (isName_of_mem_dropLast hrow) hrest, hrow']

end

end Dialogue.Path
