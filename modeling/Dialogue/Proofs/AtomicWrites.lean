import Dialogue.Files.Memory
import Dialogue.Proofs.CleanPaths
import Dialogue.Proofs.Results

/-!
# Atomic writes

A file is written by way of a temporary neighbour. Whatever stands at the parent, the target and the
temporary place, the write is done as a whole or the target is left as it was, and no other place is
touched.
-/

namespace Dialogue

/-- Whether a path can be given to the system. -/
structure Path.IsRepresentable (p : Bytes) : Prop where
  zero_notMem : 0 ∉ p
  length_lt : p.length < FileTree.pathLimit
  length_name_le : ∀ name ∈ names p, name.length ≤ FileTree.nameLimit

namespace FileTree

open Dialogue.Path

variable {t : FileTree}

/-! ## Entries -/

theorem get?_of_ne_nil (t : FileTree) {row : List Bytes} (hrow : row ≠ []) :
    t.get? row = (t.entries.find? fun e => e.1 == row).map Prod.snd := by
  rw [get?, if_neg (by rwa [List.isEmpty_iff])]

theorem ne_nil_of_get?_ne {row : List Bytes} (h : t.get? row ≠ some .directory) : row ≠ [] := by
  rintro rfl
  exact h rfl

theorem get?_erase (t : FileTree) {row : List Bytes} (hrow : row ≠ []) (place : List Bytes) :
    (t.erase row).get? place = if place = row then none else t.get? place := by
  by_cases hplace : place = []
  · rw [hplace, if_neg (Ne.symm hrow)]
    rfl
  · rw [get?_of_ne_nil _ hplace, get?_of_ne_nil _ hplace, erase, List.find?_filter]
    split
    · rename_i heq
      rw [Option.map_eq_none_iff, List.find?_eq_none]
      intro e _
      simp [heq]
    · rename_i hne
      congr 2
      funext e
      by_cases he : e.1 = place
      · simp [he, hne]
      · simp [he]

theorem get?_put (t : FileTree) {row : List Bytes} (hrow : row ≠ []) (entry : FileEntry)
    (place : List Bytes) :
    (t.put row entry).get? place = if place = row then some entry else t.get? place := by
  by_cases hplace : place = []
  · rw [hplace, if_neg (Ne.symm hrow)]
    rfl
  · have herase := get?_erase t hrow place
    rw [get?_of_ne_nil _ hplace] at herase
    rw [get?_of_ne_nil _ hplace, put, List.find?_append, Option.map_or, herase]
    split
    · rename_i heq
      simp [heq]
    · rename_i hne
      have hne' : (row == place) = false := beq_eq_false_iff_ne.mpr (Ne.symm hne)
      simp [hne']

/-- Whether every entry lies in a directory of the tree. -/
def IsTree (t : FileTree) : Prop :=
  ∀ e ∈ t.entries, t.get? e.1.dropLast = some .directory

instance : Decidable t.IsTree :=
  inferInstanceAs (Decidable (∀ e ∈ t.entries, t.get? e.1.dropLast = some .directory))

namespace IsTree

variable (ht : t.IsTree)

include ht

theorem get?_dropLast {row : List Bytes} {entry : FileEntry} (h : t.get? row = some entry) :
    t.get? row.dropLast = some .directory := by
  by_cases hrow : row = []
  · rw [hrow]
    rfl
  · rw [get?_of_ne_nil t hrow] at h
    obtain ⟨e, he, rfl⟩ := Option.map_eq_some_iff.mp h
    have hkey : e.1 = row := by simpa using List.find?_some he
    rw [← hkey]
    exact ht e (List.mem_of_find?_eq_some he)

theorem get?_of_append {row rest : List Bytes} (h : t.get? (row ++ rest) = some .directory) :
    t.get? row = some .directory := by
  induction rest using List.reverseRecOn with
  | nil => rwa [List.append_nil] at h
  | append_singleton rest name ih =>
    have hparent := ht.get?_dropLast h
    rw [← List.append_assoc, List.dropLast_concat] at hparent
    exact ih hparent

/-- What can be written at a free place or over a file leaves a tree. -/
theorem put {row : List Bytes} (hrow : row ≠ []) (hparent : t.get? row.dropLast = some .directory)
    (hplace : t.get? row ≠ some .directory) (contents : Bytes) :
    (t.put row (.file contents)).IsTree := by
  have hkeep {place : List Bytes} (h : t.get? place = some .directory) :
      (t.put row (.file contents)).get? place = some .directory := by
    rw [get?_put t hrow, if_neg, h]
    rintro rfl
    exact hplace h
  intro e he
  rcases List.mem_append.mp he with he | he
  · exact hkeep (ht e (List.mem_filter.mp he).1)
  · rw [List.mem_singleton.mp he]
    exact hkeep hparent

theorem erase {row : List Bytes} (hrow : row ≠ [])
    (hempty : ∀ e ∈ t.entries, e.1 ≠ [] → e.1.dropLast ≠ row) : (t.erase row).IsTree := by
  intro e he
  have hmem := (List.mem_filter.mp he).1
  rw [get?_erase t hrow, if_neg, ht e hmem]
  by_cases hroot : e.1 = []
  · rw [hroot]
    exact Ne.symm hrow
  · exact hempty e hmem hroot

theorem erase_file {row : List Bytes} {contents : Bytes} (h : t.get? row = some (.file contents)) :
    (t.erase row).IsTree := by
  refine ht.erase ?_ ?_
  · rintro rfl
    cases h
  · rintro e he - rfl
    rw [ht e he] at h
    cases h

end IsTree

/-! ## Finding places -/

theorem child_eq_ok_iff {dir place : List Bytes} {name : Bytes} :
    child dir name = .ok place ↔ name.length ≤ nameLimit ∧ dir ++ [name] = place := by
  unfold child
  by_cases hlen : nameLimit < name.length
  · simp [hlen, Nat.not_le.mpr hlen]
  · simp [hlen, Nat.not_lt.mp hlen]

theorem descend_cons_eq_ok_iff {dir row place : List Bytes} {name : Bytes} (hname : IsName name) :
    t.descend dir (name :: row) = .ok place ↔
      name.length ≤ nameLimit ∧ t.get? (dir ++ [name]) = some .directory ∧
        t.descend (dir ++ [name]) row = .ok place := by
  have hne : ¬ (name.isEmpty = true ∨ name = here) := by
    rw [List.isEmpty_iff, not_or]
    exact ⟨hname.ne_nil, hname.ne_here⟩
  rw [descend, if_neg hne, if_neg hname.ne_above, Result.bind_eq_ok_iff]
  constructor
  · rintro ⟨next, hnext, h⟩
    obtain ⟨hshort, rfl⟩ := child_eq_ok_iff.mp hnext
    split at h
    · cases h
    · cases h
    · rename_i hget
      exact ⟨hshort, hget, h⟩
  · rintro ⟨hshort, hget, h⟩
    refine ⟨_, child_eq_ok_iff.mpr ⟨hshort, rfl⟩, ?_⟩
    rw [hget]
    exact h

/-- Names lead to a directory if it is one, since all directories above it are there as well. -/
theorem descend_eq_ok_iff (ht : t.IsTree) {dir row place : List Bytes}
    (hdir : t.get? dir = some .directory) (hrow : ∀ name ∈ row, IsName name) :
    t.descend dir row = .ok place ↔
      (∀ name ∈ row, name.length ≤ nameLimit) ∧ t.get? (dir ++ row) = some .directory ∧
        dir ++ row = place := by
  induction row generalizing dir with
  | nil => simp [descend, hdir]
  | cons name row ih =>
    have hsplit : dir ++ name :: row = dir ++ [name] ++ row := by simp
    have hrest : ∀ n ∈ row, IsName n := fun n hn => hrow n (List.mem_cons_of_mem name hn)
    rw [descend_cons_eq_ok_iff (hrow name List.mem_cons_self), List.forall_mem_cons, hsplit]
    constructor
    · rintro ⟨hshort, hget, h⟩
      obtain ⟨hshorts, hgets, hplace⟩ := (ih hget hrest).mp h
      exact ⟨⟨hshort, hshorts⟩, hgets, hplace⟩
    · rintro ⟨⟨hshort, hshorts⟩, hgets, hplace⟩
      -- the first directory on the way is there because the last one is
      have hget := ht.get?_of_append hgets
      exact ⟨hshort, hget, (ih hget hrest).mpr ⟨hshorts, hgets, hplace⟩⟩

theorem locate_eq (t : FileTree) {row : List Bytes} (hrow : ∀ name ∈ row, IsName name)
    (dir : List Bytes) :
    t.locate dir (ofNames row) =
      if 0 ∈ ofNames row then .error .invalidPath
      else if pathLimit ≤ (ofNames row).length then .error .nameTooLong
      else t.descend [] row.dropLast >>= fun parent =>
        if row = [] then .ok [] else child parent (row.getLast?.getD []) := by
  have hroot : isAbsolute (ofNames row) = true := rfl
  have hsome : ¬ (ofNames row).isEmpty = true := Bool.false_ne_true
  unfold locate
  simp only [base_ofNames hrow, if_pos hroot, if_neg hsome]
  congr 2
  rcases List.eq_nil_or_concat row with rfl | ⟨before, last, rfl⟩
  · rfl
  · rw [List.concat_eq_append] at hrow ⊢
    have hlast := hrow last (List.mem_append_right before List.mem_cons_self)
    have hplain : ¬ (last.isEmpty = true ∨ last = here ∨ last = above) := by
      rw [List.isEmpty_iff, not_or, not_or]
      exact ⟨hlast.ne_nil, hlast.ne_here, hlast.ne_above⟩
    have hne : before ++ [last] ≠ [] := by simp
    rw [names_ofNames hrow]
    simp only [List.getLast?_concat, Option.getD_some, if_neg hplain, if_neg hne,
      List.dropLast_concat]
    rfl

theorem isRepresentable_ofNames_iff {row : List Bytes} (hrow : ∀ name ∈ row, IsName name) :
    IsRepresentable (ofNames row) ↔
      0 ∉ ofNames row ∧ (ofNames row).length < pathLimit ∧
        (∀ name ∈ row.dropLast, name.length ≤ nameLimit) ∧
          (row.getLast?.getD []).length ≤ nameLimit := by
  have hnames : (∀ name ∈ names (ofNames row), name.length ≤ nameLimit) ↔
      (∀ name ∈ row.dropLast, name.length ≤ nameLimit) ∧
        (row.getLast?.getD []).length ≤ nameLimit := by
    rw [names_ofNames hrow, List.cons_append, List.forall_mem_cons, List.forall_mem_append,
      List.forall_mem_singleton]
    exact and_iff_right (Nat.zero_le nameLimit)
  rw [← hnames]
  exact ⟨fun h => ⟨h.zero_notMem, h.length_lt, h.length_name_le⟩, fun h => ⟨h.1, h.2.1, h.2.2⟩⟩

/-- A cleaned path means its row of names if the system takes it and its parent is a directory. -/
theorem locate_eq_ok_iff (ht : t.IsTree) {row place : List Bytes}
    (hrow : ∀ name ∈ row, IsName name) (dir : List Bytes) :
    t.locate dir (ofNames row) = .ok place ↔
      IsRepresentable (ofNames row) ∧ t.get? row.dropLast = some .directory ∧ row = place := by
  have hdescend {parent : List Bytes} : t.descend [] row.dropLast = .ok parent ↔ _ :=
    descend_eq_ok_iff ht rfl (isName_of_mem_dropLast hrow)
  have hlast {parent : List Bytes} (hparent : row.dropLast = parent) :
      (if row = [] then .ok [] else child parent (row.getLast?.getD [])) = .ok place ↔
        (row.getLast?.getD []).length ≤ nameLimit ∧ row = place := by
    rcases List.eq_nil_or_concat row with rfl | ⟨before, last, rfl⟩
    · simp
    · rw [List.concat_eq_append, List.dropLast_concat] at hparent
      rw [List.concat_eq_append, if_neg (by simp), child_eq_ok_iff, hparent, List.getLast?_concat,
        Option.getD_some]
  rw [locate_eq t hrow, isRepresentable_ofNames_iff hrow]
  constructor
  · intro h
    split at h
    · cases h
    · rename_i hzero
      split at h
      · cases h
      · rename_i hlong
        obtain ⟨parent, hparent, h⟩ := Result.bind_eq_ok_iff.mp h
        obtain ⟨hshorts, hget, hplace⟩ := hdescend.mp hparent
        obtain ⟨hshort, hplace⟩ := (hlast hplace).mp h
        exact ⟨⟨hzero, Nat.not_le.mp hlong, hshorts, hshort⟩, hget, hplace⟩
  · rintro ⟨⟨hzero, hlong, hshorts, hshort⟩, hget, hplace⟩
    rw [if_neg hzero, if_neg (Nat.not_le.mpr hlong), Result.bind_eq_ok_iff]
    exact ⟨row.dropLast, hdescend.mpr ⟨hshorts, hget, rfl⟩, (hlast rfl).mpr ⟨hshort, hplace⟩⟩

/-! ## Operations at a cleaned path -/

theorem dropLast_ne_of_isEmptyAt {row : List Bytes} (h : t.isEmptyAt row = true)
    {e : List Bytes × FileEntry} (he : e ∈ t.entries) (hne : e.1 ≠ []) : e.1.dropLast ≠ row := by
  rintro rfl
  rw [isEmptyAt, Bool.not_eq_true', List.any_eq_false] at h
  have hfront : e.1.dropLast <+: e.1 := List.dropLast_prefix e.1
  have hbelow : e.1.dropLast.isPrefixOf e.1 = true := List.isPrefixOf_iff_prefix.mpr hfront
  have hlength : e.1.dropLast.length < e.1.length := by
    have hpos := List.length_pos_of_ne_nil hne
    rw [List.length_dropLast]
    omega
  exact h e he (Bool.and_eq_true_iff.mpr ⟨hbelow, decide_eq_true hlength⟩)

section

variable (ht : t.IsTree) {row : List Bytes} (hrow : ∀ name ∈ row, IsName name) (dir : List Bytes)

include ht hrow

theorem write_eq_ok_iff {t' : FileTree} {contents : Bytes} :
    t.write dir (ofNames row) contents = .ok t' ↔
      IsRepresentable (ofNames row) ∧ t.get? row.dropLast = some .directory ∧
        t.get? row ≠ some .directory ∧ t.put row (.file contents) = t' := by
  have hlocate {place : List Bytes} : t.locate dir (ofNames row) = .ok place ↔ _ :=
    locate_eq_ok_iff ht hrow dir
  unfold write
  cases hplace : t.locate dir (ofNames row) with
  | error fault =>
    constructor
    · intro h
      cases h
    · rintro ⟨hpath, hparent, -, -⟩
      rw [hlocate.mpr ⟨hpath, hparent, rfl⟩] at hplace
      cases hplace
  | ok place =>
    obtain ⟨hpath, hparent, rfl⟩ := hlocate.mp hplace
    simp only [hpath, hparent, true_and]
    split
    · rename_i hdirectory
      simp [hdirectory]
    · rename_i hfree
      simp only [Except.ok.injEq]
      exact (and_iff_right fun h => hfree h).symm

/-- What a removal can do: nothing, since there is no file, or take away an entry that has nothing
below it. -/
theorem remove_cases :
    t.remove dir (ofNames row) = t ∧
        (IsRepresentable (ofNames row) → ∀ contents, t.get? row ≠ some (.file contents)) ∨
      t.remove dir (ofNames row) = t.erase row ∧ IsRepresentable (ofNames row) ∧ row ≠ [] ∧
        ∀ e ∈ t.entries, e.1 ≠ [] → e.1.dropLast ≠ row := by
  have hlocate {place : List Bytes} : t.locate dir (ofNames row) = .ok place ↔ _ :=
    locate_eq_ok_iff ht hrow dir
  unfold remove
  cases hplace : t.locate dir (ofNames row) with
  | error fault =>
    refine .inl ⟨rfl, ?_⟩
    intro hpath contents hfile
    rw [hlocate.mpr ⟨hpath, ht.get?_dropLast hfile, rfl⟩] at hplace
    cases hplace
  | ok place =>
    obtain ⟨hpath, hparent, rfl⟩ := hlocate.mp hplace
    dsimp only
    split
    · rename_i contents hfile
      refine .inr ⟨rfl, hpath, ?_, ?_⟩
      · rintro rfl
        cases hfile
      · rintro e he - rfl
        rw [ht e he] at hfile
        cases hfile
    · rename_i hdirectory
      split
      · rename_i hempty
        have hsome : row ≠ [] := by simpa using hempty.2
        exact .inr ⟨rfl, hpath, hsome, fun e => dropLast_ne_of_isEmptyAt hempty.1⟩
      · refine .inl ⟨rfl, ?_⟩
        intro _ contents hfile
        rw [hdirectory] at hfile
        cases hfile
    · rename_i hfree
      refine .inl ⟨rfl, ?_⟩
      intro _ contents hfile
      rw [hfree] at hfile
      cases hfile

end

theorem rename_eq {dir source target : List Bytes} {old new : Bytes} {entry : FileEntry}
    (hsource : t.locate dir old = .ok source) (htarget : t.locate dir new = .ok target)
    (hentry : t.get? source = some entry) :
    t.rename dir old new =
      if t.get? target = some .directory then .error (.moving old new .alreadyExists)
      else .ok ((t.erase source).put target entry) := by
  unfold rename
  rw [hsource, htarget]
  dsimp only
  rw [hentry]
  cases htarget : t.get? target with
  | none => rfl
  | some other =>
    cases other with
    | file contents => rfl
    | directory => rfl

/-! ## Writing by way of the temporary neighbour -/

/-- The place of the temporary neighbour. -/
def neighbour (row : List Bytes) : List Bytes :=
  row.dropLast ++ [temporaryName row]

theorem neighbour_ne_nil (row : List Bytes) : neighbour row ≠ [] := by simp [neighbour]

theorem dropLast_neighbour (row : List Bytes) : (neighbour row).dropLast = row.dropLast :=
  List.dropLast_concat

theorem getLast?_neighbour (row : List Bytes) :
    (neighbour row).getLast? = some (temporaryName row) :=
  List.getLast?_concat

theorem neighbour_ne (row : List Bytes) : neighbour row ≠ row := by
  intro h
  have hlast := getLast?_neighbour row
  rw [h] at hlast
  have hlength := length_temporaryName row
  rw [hlast, Option.getD_some] at hlength
  omega

theorem isName_of_mem_neighbour {row : List Bytes} (hrow : ∀ name ∈ row, IsName name) :
    ∀ name ∈ neighbour row, IsName name := by
  rw [neighbour, List.forall_mem_append, List.forall_mem_singleton]
  exact ⟨isName_of_mem_dropLast hrow, isName_temporaryName hrow⟩

/-- The path of the target is shorter than that of its neighbour. -/
theorem isRepresentable_of_neighbour {row : List Bytes} (hrow : ∀ name ∈ row, IsName name)
    (h : IsRepresentable (ofNames (neighbour row))) : IsRepresentable (ofNames row) := by
  rw [isRepresentable_ofNames_iff (isName_of_mem_neighbour hrow), dropLast_neighbour,
    getLast?_neighbour, Option.getD_some, length_temporaryName, ofNames_eq, dropLast_neighbour,
    getLast?_neighbour] at h
  rw [isRepresentable_ofNames_iff hrow, ofNames_eq]
  obtain ⟨hzero, hlong, hshorts, hshort⟩ := h
  refine ⟨?_, ?_, hshorts, by omega⟩
  · intro hmem
    apply hzero
    simp only [Option.getD_some, temporaryName, List.mem_append, List.mem_cons] at hmem ⊢
    tauto
  · rw [List.length_append, List.length_cons] at hlong ⊢
    rw [Option.getD_some, length_temporaryName] at hlong
    omega

/-- A write by way of a file at the path `temporary`, on a tree alone. -/
def writeBy (t : FileTree) (dir : List Bytes) (temporary full contents : Bytes) :
    Except FileError Unit × FileTree :=
  match t.write dir temporary contents with
  | .error e => (.error e, t.remove dir temporary)
  | .ok written =>
    match written.rename dir temporary full with
    | .error e => (.error e, written.remove dir temporary)
    | .ok moved => (.ok (), moved)

/-- Whether the temporary neighbour of a place can be written. -/
structure IsReady (t : FileTree) (row : List Bytes) : Prop where
  isRepresentable : IsRepresentable (ofNames (neighbour row))
  get?_parent : t.get? row.dropLast = some .directory
  get?_neighbour : t.get? (neighbour row) ≠ some .directory

/-- What an atomic write can come to: it is done, the neighbour cannot be moved over a directory and
is taken away again, or it cannot be written at all. -/
inductive Outcome (t : FileTree) (dir row : List Bytes) (contents : Bytes) :
    Except FileError Unit × FileTree → Prop
  | written (hready : t.IsReady row) (htarget : t.get? row ≠ some .directory) :
    Outcome t dir row contents (.ok (),
      ((t.put (neighbour row) (.file contents)).erase (neighbour row)).put row (.file contents))
  | unmoved (hready : t.IsReady row) (htarget : t.get? row = some .directory) (e : FileError) :
    Outcome t dir row contents
      (.error e, (t.put (neighbour row) (.file contents)).erase (neighbour row))
  | unwritten (hready : ¬ t.IsReady row) (e : FileError) :
    Outcome t dir row contents (.error e, t.remove dir (ofNames (neighbour row)))

theorem outcome_writeBy (ht : t.IsTree) {row : List Bytes} (hrow : ∀ name ∈ row, IsName name)
    (dir : List Bytes) (contents : Bytes) :
    t.Outcome dir row contents
      (t.writeBy dir (ofNames (neighbour row)) (ofNames row) contents) := by
  have hrow' := isName_of_mem_neighbour hrow
  have hwrite {t' : FileTree} :
      t.write dir (ofNames (neighbour row)) contents = .ok t' ↔ _ := write_eq_ok_iff ht hrow' dir
  rw [dropLast_neighbour] at hwrite
  unfold writeBy
  cases hwritten : t.write dir (ofNames (neighbour row)) contents with
  | error e =>
    refine .unwritten ?_ e
    rintro ⟨hpath, hparent, hfree⟩
    rw [hwrite.mpr ⟨hpath, hparent, hfree, rfl⟩] at hwritten
    cases hwritten
  | ok written =>
    obtain ⟨hpath, hparent, hfree, rfl⟩ := hwrite.mp hwritten
    have hparent' := hparent
    rw [← dropLast_neighbour] at hparent'
    have htree := ht.put (neighbour_ne_nil row) hparent' hfree contents
    -- of the tree that is written, the move reads three places: the neighbour, which is new, and
    -- the parent and the target, which are as before
    have hget (place : List Bytes) : (t.put (neighbour row) (.file contents)).get? place = _ :=
      t.get?_put (neighbour_ne_nil row) (.file contents) place
    have hfile := (hget (neighbour row)).trans (if_pos rfl)
    have hkept : (t.put (neighbour row) (.file contents)).get? row.dropLast = some .directory := by
      have hparent' := htree.get?_dropLast hfile
      rwa [dropLast_neighbour] at hparent'
    have htarget := (hget row).trans (if_neg (neighbour_ne row).symm)
    have hrename := rename_eq
      ((locate_eq_ok_iff htree hrow' dir).mpr ⟨hpath, (dropLast_neighbour row).symm ▸ hkept, rfl⟩)
      ((locate_eq_ok_iff htree hrow dir).mpr
        ⟨isRepresentable_of_neighbour hrow hpath, hkept, rfl⟩) hfile
    rw [htarget] at hrename
    simp only [hrename]
    by_cases hdirectory : t.get? row = some .directory
    · -- the neighbour is a file, so it is taken away
      have hremove : (t.put (neighbour row) (.file contents)).remove dir (ofNames (neighbour row)) =
          (t.put (neighbour row) (.file contents)).erase (neighbour row) := by
        rcases remove_cases htree hrow' dir with ⟨-, hnone⟩ | ⟨hremove, -⟩
        · exact absurd hfile (hnone hpath contents)
        · exact hremove
      rw [if_pos hdirectory, hremove]
      exact .unmoved ⟨hpath, hparent, hfree⟩ hdirectory _
    · rw [if_neg hdirectory]
      exact .written ⟨hpath, hparent, hfree⟩ hdirectory

theorem get?_erase_put (t : FileTree) {row place : List Bytes} (hplace : place ≠ neighbour row)
    (contents : Bytes) :
    ((t.put (neighbour row) (.file contents)).erase (neighbour row)).get? place = t.get? place := by
  rw [get?_erase _ (neighbour_ne_nil row), if_neg hplace, get?_put _ (neighbour_ne_nil row),
    if_neg hplace]

theorem IsReady.isTree_erase (ht : t.IsTree) {row : List Bytes} (h : t.IsReady row)
    (contents : Bytes) :
    ((t.put (neighbour row) (.file contents)).erase (neighbour row)).IsTree := by
  have hparent : t.get? (neighbour row).dropLast = some .directory := by
    rw [dropLast_neighbour]
    exact h.get?_parent
  have hfile := (get?_put t (neighbour_ne_nil row) (.file contents) _).trans (if_pos rfl)
  exact (ht.put (neighbour_ne_nil row) hparent h.get?_neighbour contents).erase_file hfile

theorem IsReady.dropLast_ne {row : List Bytes} (h : t.IsReady row) :
    row.dropLast ≠ neighbour row := by
  intro heq
  apply h.get?_neighbour
  rw [← heq]
  exact h.get?_parent

namespace Outcome

variable {dir row : List Bytes} {contents : Bytes} {r : Except FileError Unit × FileTree}
  (h : t.Outcome dir row contents r)

include h

theorem eq_ok_iff : r.1 = .ok () ↔ t.IsReady row ∧ t.get? row ≠ some .directory := by
  cases h with
  | written hready htarget => simp [hready, htarget]
  | unmoved hready htarget e => simp [htarget]
  | unwritten hready e => simp [hready]

theorem get?_of_ok (hok : r.1 = .ok ()) :
    r.2.get? row = some (.file contents) ∧ r.2.get? (neighbour row) = none := by
  cases h with
  | written hready htarget =>
    have hrow := ne_nil_of_get?_ne htarget
    rw [get?_put _ hrow, if_pos rfl, get?_put _ hrow, if_neg (neighbour_ne row),
      get?_erase _ (neighbour_ne_nil row), if_pos rfl]
    exact ⟨rfl, rfl⟩
  | unmoved hready htarget e => cases hok
  | unwritten hready e => cases hok

variable (ht : t.IsTree) (hrow : ∀ name ∈ row, IsName name)

include ht hrow

theorem get?_of_ne {place : List Bytes} (htarget : r.1 = .ok () → place ≠ row)
    (hplace : place ≠ neighbour row) : r.2.get? place = t.get? place := by
  cases h with
  | written hready hdirectory =>
    have hne := ne_nil_of_get?_ne hdirectory
    rw [get?_put _ hne, if_neg (htarget rfl), get?_erase_put t hplace]
  | unmoved hready hdirectory e => exact get?_erase_put t hplace contents
  | unwritten hready e =>
    dsimp only
    rcases remove_cases ht (isName_of_mem_neighbour hrow) dir with ⟨heq, -⟩ | ⟨heq, -, hne, -⟩
    · rw [heq]
    · rw [heq, get?_erase _ hne, if_neg hplace]

theorem get?_neighbour_of_error (hne : r.1 ≠ .ok ())
    (hpath : IsRepresentable (ofNames (neighbour row))) (old : Bytes) :
    r.2.get? (neighbour row) ≠ some (.file old) := by
  have hgone (s : FileTree) :
      (s.erase (neighbour row)).get? (neighbour row) ≠ some (.file old) := by
    rw [get?_erase _ (neighbour_ne_nil row), if_pos rfl]
    exact (Option.some_ne_none _).symm
  cases h with
  | written hready hdirectory => exact absurd rfl hne
  | unmoved hready hdirectory e => exact hgone _
  | unwritten hready e =>
    dsimp only
    rcases remove_cases ht (isName_of_mem_neighbour hrow) dir with ⟨heq, hnone⟩ | ⟨heq, -, -, -⟩
    · rw [heq]
      exact hnone hpath old
    · rw [heq]
      exact hgone t

theorem eq_of_not_isRepresentable (hpath : ¬ IsRepresentable (ofNames (neighbour row))) :
    r.2 = t := by
  cases h with
  | written hready hdirectory => exact absurd hready.isRepresentable hpath
  | unmoved hready hdirectory e => exact absurd hready.isRepresentable hpath
  | unwritten hready e =>
    rcases remove_cases ht (isName_of_mem_neighbour hrow) dir with ⟨heq, -⟩ | ⟨-, hpath', -, -⟩
    · exact heq
    · exact absurd hpath' hpath

theorem isTree : r.2.IsTree := by
  cases h with
  | written hready hdirectory =>
    have hne := ne_nil_of_get?_ne hdirectory
    refine (hready.isTree_erase ht contents).put hne ?_ ?_ contents
    · rw [get?_erase_put t hready.dropLast_ne]
      exact hready.get?_parent
    · rwa [get?_erase_put t (neighbour_ne row).symm]
  | unmoved hready hdirectory e => exact hready.isTree_erase ht contents
  | unwritten hready e =>
    dsimp only
    rcases remove_cases ht (isName_of_mem_neighbour hrow) dir with ⟨heq, -⟩ | ⟨heq, -, hne, hbelow⟩
    · rwa [heq]
    · rw [heq]
      exact ht.erase hne hbelow

end Outcome

end FileTree

namespace MemoryHost

theorem run_bind {α β : Type} {w w' : MemoryHost} {x : StateM MemoryHost α} {a : α}
    (hx : x.run w = (a, w')) (f : α → StateM MemoryHost β) : (x >>= f).run w = (f a).run w' := by
  rw [StateT.run_bind, hx]
  rfl

theorem run_update (w : MemoryHost) (f : MemoryHost → Except FileError FileTree) :
    (update f).run w =
      match f w with
      | .ok tree => (.ok (), { w with tree := tree })
      | .error e => (.error e, w) := rfl

theorem run_writeFileAtomic (w : MemoryHost) (path contents : Bytes) :
    let full := Path.absolute (Path.ofNames w.directory) path
    let r := w.tree.writeBy w.directory (Path.temporary full) full contents
    (writeFileAtomic (m := StateM MemoryHost) path contents).run w =
      (r.1, { w with tree := r.2 }) := by
  intro full r
  have hfull : (absolutePath (m := StateM MemoryHost) path).run w = (full, w) := rfl
  have hwrite :
      (Host.writeFile (m := StateM MemoryHost) (Path.temporary full) contents).run w = _ :=
    run_update w _
  rw [writeFileAtomic, run_bind hfull]
  simp only [r, FileTree.writeBy]
  cases hwritten : w.tree.write w.directory (Path.temporary full) contents with
  | error e =>
    rw [hwritten] at hwrite
    rw [run_bind hwrite]
    rfl
  | ok written =>
    rw [hwritten] at hwrite
    rw [run_bind hwrite]
    dsimp only
    have hrename : (Host.rename (m := StateM MemoryHost) (Path.temporary full) full).run
        { w with tree := written } = _ := run_update _ _
    cases hmoved : written.rename w.directory (Path.temporary full) full with
    | error e =>
      rw [hmoved] at hrename
      rw [run_bind hrename]
      rfl
    | ok moved =>
      rw [hmoved] at hrename
      rw [run_bind hrename]
      rfl

theorem exists_outcome (w : MemoryHost) (hw : w.tree.IsTree) (path contents : Bytes) :
    ∃ row s, (∀ name ∈ row, Path.IsName name) ∧
      Path.absolute (Path.ofNames w.directory) path = Path.ofNames row ∧
      w.tree.Outcome w.directory row contents s ∧
      (writeFileAtomic (m := StateM MemoryHost) path contents).run w =
        (s.1, { w with tree := s.2 }) := by
  have hroot : Path.isAbsolute (Path.ofNames w.directory) = true := rfl
  obtain ⟨row, hrow, hfull⟩ := Path.exists_absolute_eq hroot path
  have hrun := w.run_writeFileAtomic path contents
  dsimp only at hrun
  rw [hfull, Path.temporary_ofNames hrow] at hrun
  exact ⟨row, _, hrow, hfull, FileTree.outcome_writeBy hw hrow w.directory contents, hrun⟩

end MemoryHost

/-- The entry that a cleaned path from the root means. -/
def FileTree.entryAt (t : FileTree) (p : Bytes) : Option FileEntry :=
  t.get? (Path.row p)

/-- An atomic write succeeds if and only if the parent of the target is a directory, neither the
target nor its temporary neighbour is one, and the system takes the path of the neighbour. Then the
target holds the contents, and the neighbour is gone. If it fails, the target is as before, and
there is no file at the neighbour; where its path is not taken nothing at all has changed. In both
cases every other place is as before. -/
theorem atomic_write (w : MemoryHost) (path contents : Bytes) (hw : w.tree.IsTree) :
    let full := Path.absolute (Path.ofNames w.directory) path
    let temporary := Path.temporary full
    let r := (writeFileAtomic (m := StateM MemoryHost) path contents).run w
    (r.1 = .ok () ↔
      w.tree.entryAt (Path.parent full) = some .directory ∧
        w.tree.entryAt full ≠ some .directory ∧ w.tree.entryAt temporary ≠ some .directory ∧
        Path.IsRepresentable temporary) ∧
    (r.1 = .ok () →
      r.2.tree.entryAt full = some (.file contents) ∧ r.2.tree.entryAt temporary = none) ∧
    (r.1 ≠ .ok () →
      r.2.tree.entryAt full = w.tree.entryAt full ∧
        (Path.IsRepresentable temporary →
          ∀ old, r.2.tree.entryAt temporary ≠ some (.file old)) ∧
        (¬ Path.IsRepresentable temporary → r.2.tree = w.tree)) ∧
    (∀ place, place ≠ Path.row full → place ≠ Path.row temporary →
      r.2.tree.get? place = w.tree.get? place) ∧
    r.2.tree.IsTree ∧ r.2 = { w with tree := r.2.tree } := by
  intro full temporary r
  obtain ⟨row, s, hrow, hfull, houtcome, hr⟩ := w.exists_outcome hw path contents
  change full = _ at hfull
  change r = _ at hr
  have htemporary : temporary = Path.ofNames (FileTree.neighbour row) :=
    (congrArg Path.temporary hfull).trans (Path.temporary_ofNames hrow)
  have hparent : Path.parent full = Path.ofNames row.dropLast :=
    (congrArg Path.parent hfull).trans (Path.parent_ofNames hrow)
  rw [hr, hparent, hfull, htemporary]
  simp only [FileTree.entryAt, Path.row_ofNames hrow,
    Path.row_ofNames (Path.isName_of_mem_dropLast hrow),
    Path.row_ofNames (FileTree.isName_of_mem_neighbour hrow)]
  refine ⟨?_, houtcome.get?_of_ok, ?_, ?_, houtcome.isTree hw hrow, trivial⟩
  · rw [houtcome.eq_ok_iff]
    constructor
    · rintro ⟨⟨hpath, hup, hfree⟩, htarget⟩
      exact ⟨hup, htarget, hfree, hpath⟩
    · rintro ⟨hup, htarget, hfree, hpath⟩
      exact ⟨⟨hpath, hup, hfree⟩, htarget⟩
  · intro hfailed
    have htarget := houtcome.get?_of_ne hw hrow (fun hok => absurd hok hfailed)
      (FileTree.neighbour_ne row).symm
    exact ⟨htarget, houtcome.get?_neighbour_of_error hw hrow hfailed,
      houtcome.eq_of_not_isRepresentable hw hrow⟩
  · intro place htarget hplace
    exact houtcome.get?_of_ne hw hrow (fun _ => htarget) hplace

/-- A working directory `log` with an empty directory `old` and a file `may`, and what an earlier
write has left behind next to each. -/
def harbour : MemoryHost where
  tree :=
    { entries :=
        [([Text.utf8 "log"], .directory),
          ([Text.utf8 "log", Text.utf8 "may"], .file (Text.utf8 "ebb")),
          ([Text.utf8 "log", Text.utf8 ".may.tmp"], .file (Text.utf8 "fl")),
          ([Text.utf8 "log", Text.utf8 "old"], .directory),
          ([Text.utf8 "log", Text.utf8 ".old.tmp"], .file (Text.utf8 "fl"))] }
  directory := [Text.utf8 "log"]

theorem atomic_write_harbour :
    let write (path : String) :=
      (writeFileAtomic (m := StateM MemoryHost) (Text.utf8 path) (Text.utf8 "flood")).run harbour
    harbour.tree.IsTree ∧
      ((write "../log/./may").1 = .ok () ∧
        (write "../log/./may").2.tree.entryAt (Text.utf8 "/log/may") =
          some (.file (Text.utf8 "flood")) ∧
        (write "../log/./may").2.tree.entryAt (Text.utf8 "/log/.may.tmp") = none) ∧
      ((write "old").1 ≠ .ok () ∧
        (write "old").2.tree.entryAt (Text.utf8 "/log/old") = some .directory) := by
  have hw : harbour.tree.IsTree := by decide +kernel
  have hmay := atomic_write harbour (Text.utf8 "../log/./may") (Text.utf8 "flood") hw
  have hold := atomic_write harbour (Text.utf8 "old") (Text.utf8 "flood") hw
  have hfull : Path.absolute (Path.ofNames harbour.directory) (Text.utf8 "../log/./may") =
      Text.utf8 "/log/may" := by decide +kernel
  have hfull' : Path.absolute (Path.ofNames harbour.directory) (Text.utf8 "old") =
      Text.utf8 "/log/old" := by decide +kernel
  have htemporary : Path.temporary (Text.utf8 "/log/may") = Text.utf8 "/log/.may.tmp" := by
    decide +kernel
  have hdirectory : harbour.tree.entryAt (Text.utf8 "/log/old") = some .directory := by
    decide +kernel
  dsimp only at hmay hold
  rw [hfull, htemporary] at hmay
  rw [hfull', hdirectory] at hold
  have hpath : Path.IsRepresentable (Text.utf8 "/log/.may.tmp") :=
    ⟨by decide +kernel, by decide +kernel, by decide +kernel⟩
  have hok := hmay.1.mpr ⟨by decide +kernel, by decide +kernel, by decide +kernel, hpath⟩
  have hfailed := mt hold.1.mp fun h => h.2.1 rfl
  exact ⟨hw, ⟨hok, hmay.2.1 hok⟩, hfailed, (hold.2.2.1 hfailed).1⟩

/-- A name of the greatest length can be given to the system and leads to a free place in a
directory, and yet nothing can be written there, since the name of its temporary neighbour is too
long. -/
theorem longest_name_unwritable :
    let full := Path.ofNames [List.replicate FileTree.nameLimit 0x61]
    let host : MemoryHost := {}
    Path.IsRepresentable full ∧ Path.absolute (Path.ofNames host.directory) full = full ∧
      host.tree.IsTree ∧ host.tree.entryAt (Path.parent full) = some .directory ∧
      host.tree.entryAt full = none ∧ host.tree.entryAt (Path.temporary full) = none ∧
      ((writeFileAtomic (m := StateM MemoryHost) full [0x78]).run host).1 =
        .error (.opening (Path.temporary full) .nameTooLong) := by
  refine ⟨⟨?_, ?_, ?_⟩, ?_, ?_, ?_, ?_, ?_, ?_⟩ <;> decide +kernel

end Dialogue
