import Dialogue.Proofs.GuardedDisassembly
import Dialogue.Proofs.StepEffects
import Mathlib.Data.List.Forall2
import Mathlib.Data.List.Nodup

/-!
# References to texts

A step puts the number of a text into the code before the text stands in the table. Programs only
grow, so that the number is found in the code and leads to the text at the end of every run, and the
numbers of all steps together count the table once.
-/

namespace Dialogue

/-! ## Numbers and texts -/

@[simp] theorem refs_zero (data : List Bytes) (n : UInt64) : refs data 0 n = [] := by
  rw [refs]
  split
  · rfl
  · rfl

/-- The texts from a number on are a part of the table. The number behind the largest one wraps
around to zero, which is the number of no text. -/
theorem refs_eq_take_drop {data : List Bytes} (hlen : data.length < 2 ^ 64) {v : UInt64}
    (hv : v ≠ 0) (n : UInt64) :
    refs data v n = (data.drop (v.toNat - 1)).take n.toNat := by
  induction hcount : n.toNat generalizing v n with
  | zero =>
    have hn : n = 0 := UInt64.toNat_inj.mp hcount
    rw [refs, if_pos hn, List.take_zero]
  | succ count ih =>
    have hn : n ≠ 0 := by
      rintro rfl
      cases hcount
    have hpos := toNat_pos hv
    have hrest : (n - 1).toNat = count := by
      have hle : (1 : UInt64) ≤ n := UInt64.le_iff_toNat_le.mpr (by rw [hcount]; simp)
      rw [UInt64.toNat_sub_of_le _ _ hle, hcount]
      rfl
    rw [refs, if_neg hn, ref?, if_neg hv]
    by_cases hlast : v.toNat - 1 < data.length
    · rw [List.getElem?_eq_getElem hlast, List.drop_eq_getElem_cons hlast, List.take_succ_cons]
      simp only [List.cons.injEq, true_and]
      by_cases hwrap : v + 1 = 0
      · have hsum : (v + 1).toNat = (v.toNat + 1) % 2 ^ 64 := UInt64.toNat_add v 1
        have hzero : (v + 1).toNat = 0 := congrArg UInt64.toNat hwrap
        rw [hwrap, refs_zero, List.drop_eq_nil_of_le (by omega), List.take_nil]
      · have hnext := toNat_add_one hwrap
        have hsame : (v + 1).toNat - 1 = v.toNat - 1 + 1 := by omega
        rw [ih hwrap (n - 1) hrest, hsame]
    · rw [List.getElem?_eq_none (by omega), List.drop_eq_nil_of_le (by omega), List.take_nil]

/-! ## Growing programs -/

namespace Program

/-- The word at an offset of the code. -/
def wordAt (p : Program) (offset : Nat) : UInt64 :=
  p.order.read64 (p.code.drop offset)

/-- Whether a program goes on where another one ends. -/
structure Extends (q p : Program) : Prop where
  data : p.data <+: q.data
  code : p.code <+: q.code
  order : q.order = p.order

theorem Extends.refl (p : Program) : p.Extends p :=
  ⟨List.prefix_refl _, List.prefix_refl _, rfl⟩

theorem Extends.trans {p q r : Program} (hr : r.Extends q) (hq : q.Extends p) : r.Extends p :=
  ⟨hq.data.trans hr.data, hq.code.trans hr.code, hr.order.trans hq.order⟩

theorem extends_apply (p : Program) (s : Step) : (p.apply s).Extends p := by
  refine ⟨?_, ?_, order_apply p s⟩
  · rw [data_apply]
    exact List.prefix_append _ _
  · rw [code_apply]
    exact List.prefix_append _ _

theorem extends_run (p : Program) (ss : List Step) : (p.run ss).Extends p := by
  induction ss generalizing p with
  | nil => exact .refl p
  | cons s ss ih => exact (ih (p.apply s)).trans (p.extends_apply s)

theorem Extends.length_le {p q : Program} (h : q.Extends p) : p.data.length ≤ q.data.length :=
  h.data.length_le

end Program

namespace Step

variable {p q : Program} {s : Step}

/-- The operands of a step stand in the code of every program that goes on behind the step. -/
theorem wordAt_of_extends (h : q.Extends (p.apply s)) (hs : s.isCall = false) {i : Nat}
    {w : UInt64} (hw : (s.operands p)[i]? = some w) : q.wordAt (p.code.length + 8 * i) = w := by
  obtain ⟨rest, hrest⟩ := h.code
  have horder : q.order = p.order := h.order.trans (Program.order_apply p s)
  rw [Program.wordAt, ← hrest, Program.code_apply, bytes_of_not_isCall hs, horder,
    List.append_assoc, List.drop_length_add_append]
  exact p.order.read64_drop_flatMap hw rest

theorem length_texts_le (h : q.Extends (p.apply s)) :
    p.data.length + s.texts.length ≤ q.data.length := by
  have hle := h.length_le
  rwa [Program.data_apply, List.length_append] at hle

theorem toNat_nextRef (h : q.Extends (p.apply s)) (hsize : q.data.length < 2 ^ 64)
    (hs : s.texts ≠ []) : p.nextRef.toNat = p.data.length + 1 := by
  have hle := length_texts_le h
  have hpos := List.length_pos_iff.mpr hs
  have hfit : (UInt64.ofNat p.data.length).toNat = p.data.length :=
    UInt64.toNat_ofNat_of_lt' (by change p.data.length < 2 ^ 64; omega)
  rw [Program.nextRef, UInt64.toNat_add, hfit]
  exact Nat.mod_eq_of_lt (by change p.data.length + 1 < 2 ^ 64; omega)

/-- The texts of a step are found by the number that the step puts into the code. -/
theorem refs_nextRef (h : q.Extends (p.apply s)) (hsize : q.data.length < 2 ^ 64) :
    refs q.data p.nextRef (.ofNat s.texts.length) = s.texts := by
  have hle := length_texts_le h
  have hcount : (UInt64.ofNat s.texts.length).toNat = s.texts.length :=
    UInt64.toNat_ofNat_of_lt' (by change s.texts.length < 2 ^ 64; omega)
  by_cases hs : s.texts = []
  · rw [hs, refs]
    rfl
  · have hnext := toNat_nextRef h hsize hs
    have hne : p.nextRef ≠ 0 := by
      intro hzero
      rw [hzero] at hnext
      cases hnext
    obtain ⟨rest, hrest⟩ := h.data
    rw [Program.data_apply, List.append_assoc] at hrest
    rw [refs_eq_take_drop hsize hne, hcount, hnext, Nat.add_sub_cancel, ← hrest, List.drop_left,
      List.take_left]

theorem ref?_nextRef {text : Bytes} (h : q.Extends (p.apply (.string text)))
    (hsize : q.data.length < 2 ^ 64) : ref? q.data p.nextRef = some text := by
  have hrefs := refs_nextRef h hsize
  have hone : UInt64.ofNat (string text).texts.length ≠ 0 := by
    change (1 : UInt64) ≠ 0
    decide
  rw [refs, if_neg hone] at hrefs
  cases href : ref? q.data p.nextRef with
  | none =>
    rw [href] at hrefs
    cases hrefs
  | some found =>
    rw [href] at hrefs
    rw [(List.cons.inj hrefs).1]

theorem wordAt_pack {texts : List Bytes} (h : q.Extends (p.apply (.pack texts)))
    (hsize : q.data.length < 2 ^ 64) :
    q.wordAt p.code.length = p.nextRef ∧
      q.wordAt (p.code.length + 8) = .ofNat texts.length ∧
      (UInt64.ofNat texts.length).toNat = texts.length := by
  have hle : p.data.length + texts.length ≤ q.data.length := length_texts_le h
  have hfit : texts.length < 2 ^ 64 := by omega
  exact ⟨wordAt_of_extends h rfl (i := 0) rfl, wordAt_of_extends h rfl (i := 1) rfl,
    UInt64.toNat_ofNat_of_lt' hfit⟩

/-- The numbers of the texts that a step refers to, as they stand at an offset of the code. -/
def numbers (q : Program) (offset : Nat) : Step → List Nat
  | string _ => [(q.wordAt offset).toNat]
  | pack _ => List.range' (q.wordAt offset).toNat (q.wordAt (offset + 8)).toNat
  | opcode _ | operand _ | named _ => []

theorem numbers_eq_range' (h : q.Extends (p.apply s)) (hsize : q.data.length < 2 ^ 64) :
    s.numbers q p.code.length = List.range' (p.data.length + 1) s.texts.length := by
  cases s with
  | opcode | operand | named => rfl
  | string text =>
    have hword : q.wordAt p.code.length = p.nextRef := wordAt_of_extends h rfl (i := 0) rfl
    rw [numbers, hword, toNat_nextRef h hsize (List.cons_ne_nil _ _)]
    rfl
  | pack texts =>
    obtain ⟨hfirst, hsecond, hcount⟩ := wordAt_pack h hsize
    rw [numbers, hfirst, hsecond, hcount]
    by_cases htexts : texts = []
    · subst htexts
      rfl
    · rw [toNat_nextRef h hsize htexts]
      rfl

end Step

/-! ## Runs -/

namespace Program

/-- The steps of a run, each with the length of the code in front of it. -/
def placed (p : Program) : List Step → List (Nat × Step)
  | [] => []
  | s :: ss => (p.code.length, s) :: (p.apply s).placed ss

theorem exists_of_mem_placed {p : Program} {ss : List Step} {offset : Nat} {s : Step}
    (h : (offset, s) ∈ p.placed ss) :
    ∃ q : Program, q.code.length = offset ∧ (p.run ss).Extends (q.apply s) := by
  induction ss generalizing p with
  | nil => cases h
  | cons t ss ih =>
    rcases List.mem_cons.mp h with heq | h
    · cases heq
      exact ⟨p, rfl, extends_run _ ss⟩
    · exact ih h

/-- The numbers that a run puts into the code count the texts that it puts into the table. -/
theorem flatMap_numbers {p q : Program} {ss : List Step} (h : q.Extends (p.run ss))
    (hsize : q.data.length < 2 ^ 64) :
    (p.placed ss).flatMap (fun s => s.2.numbers q s.1) =
      List.range' (p.data.length + 1) (ss.flatMap Step.texts).length := by
  induction ss generalizing p with
  | nil => rfl
  | cons s ss ih =>
    have hstep : q.Extends (p.apply s) := h.trans (extends_run (p.apply s) ss)
    have hlater := ih h
    rw [data_apply, List.length_append] at hlater
    rw [placed, List.flatMap_cons, Step.numbers_eq_range' hstep hsize, hlater, List.flatMap_cons,
      List.length_append, ← List.range'_append_1]
    congr 2
    omega

/-! ## Assembling -/

/-- A program with other source lines. -/
def withLines (p : Program) (lines : WordMap Int) : Program :=
  { p with sourceMap := lines }

theorem run_withLines (p : Program) (lines : WordMap Int) (ss : List Step) :
    (p.withLines lines).run ss = (p.run ss).withLines lines := by
  induction ss generalizing p with
  | nil => rfl
  | cons s ss ih =>
    have hstep : (p.withLines lines).apply s = (p.apply s).withLines lines := by
      cases s <;> rfl
    rw [run_cons, run_cons, hstep, ih]

theorem exists_mark_eq (p : Program) (line : Int) : ∃ lines, p.mark line = p.withLines lines := by
  unfold mark
  split
  · exact ⟨_, rfl⟩
  · exact ⟨p.sourceMap, rfl⟩

theorem run_append (p : Program) (ss ss' : List Step) :
    p.run (ss ++ ss') = (p.run ss).run ss' := by
  rw [run, List.foldl_append]
  rfl

/-- The steps of instructions, one row for each of them. -/
def RowsOf (is : List Instruction) (rows : List (List Step)) : Prop :=
  List.Forall₂ (fun i row => i.steps = .ok row) is rows

/-- More instructions are a run of their steps, but for the source lines. -/
theorem exists_rowsOf {p q : Program} {is : List Instruction} (h : is.foldlM add p = .ok q) :
    ∃ rows, RowsOf is rows ∧ (p.run rows.flatten).withLines q.sourceMap = q := by
  induction is generalizing p with
  | nil =>
    have hpq : p = q := Result.pure_eq_ok_iff.mp h
    refine ⟨[], .nil, ?_⟩
    rw [hpq]
    rfl
  | cons i is ih =>
    obtain ⟨ss, hss, hq⟩ := foldlM_add_cons_eq_ok_iff.mp h
    obtain ⟨rows, hrows, hrun⟩ := ih hq
    obtain ⟨lines, hlines⟩ := p.exists_mark_eq i.line
    refine ⟨ss :: rows, .cons hss hrows, ?_⟩
    rw [hlines, run_withLines, run_withLines] at hrun
    rw [List.flatten_cons, run_append]
    exact hrun

theorem extends_of_foldlM_add {p q : Program} {is : List Instruction}
    (h : is.foldlM add p = .ok q) : q.Extends p := by
  obtain ⟨rows, -, hrun⟩ := exists_rowsOf h
  have hextends := extends_run p rows.flatten
  rw [← hrun]
  exact ⟨hextends.data, hextends.code, hextends.order⟩

end Program

/-- At the end of every run the table starts with the two truth values, the numbers that steps have
put into the code lead to the texts of these steps, and all of them together count the rest of the
table once and in order. Assembling is such a run. -/
theorem references_resolve (order : Option ByteOrder) (ss : List Step)
    (hsize : ((Program.start order).run ss).data.length < 2 ^ 64) :
    let p := (Program.start order).run ss
    let placed := (Program.start order).placed ss
    [Text.utf8 "false", Text.utf8 "true"] <+: p.data ∧
    (∀ offset text, (offset, Step.string text) ∈ placed →
      ref? p.data (p.wordAt offset) = some text) ∧
    (∀ offset texts, (offset, Step.pack texts) ∈ placed →
      (p.wordAt (offset + 8)).toNat = texts.length ∧
        refs p.data (p.wordAt offset) (p.wordAt (offset + 8)) = texts) ∧
    (placed.map fun s => s.2.numbers p s.1).Pairwise List.Disjoint ∧
    (placed.flatMap fun s => s.2.numbers p s.1) = List.range' 3 (p.data.length - 2) ∧
    ∀ is q, Program.assemble order is = .ok q →
      ∃ rows, Program.RowsOf is rows ∧
        ((Program.start order).run rows.flatten).withLines q.sourceMap = q := by
  intro p placed
  have hnumbers : (placed.flatMap fun s => s.2.numbers p s.1) =
      List.range' 3 (p.data.length - 2) := by
    have hlength : p.data.length = 2 + (ss.flatMap Step.texts).length := by
      rw [Program.data_run, List.length_append]
      rfl
    rw [hlength, Nat.add_sub_cancel_left]
    exact Program.flatMap_numbers (.refl p) hsize
  have hstart := (Program.extends_run (Program.start order) ss).data
  refine ⟨hstart, ?_, ?_, ?_, hnumbers, fun is q => Program.exists_rowsOf⟩
  · intro offset text hmem
    obtain ⟨q, rfl, hq⟩ := Program.exists_of_mem_placed hmem
    have hword : p.wordAt q.code.length = q.nextRef := Step.wordAt_of_extends hq rfl (i := 0) rfl
    rw [hword]
    exact Step.ref?_nextRef hq hsize
  · intro offset texts hmem
    obtain ⟨q, rfl, hq⟩ := Program.exists_of_mem_placed hmem
    obtain ⟨hfirst, hsecond, hcount⟩ := Step.wordAt_pack hq hsize
    rw [hfirst, hsecond]
    exact ⟨hcount, Step.refs_nextRef hq hsize⟩
  · have hnodup : (placed.map fun s => s.2.numbers p s.1).flatten.Nodup := by
      rw [← List.flatMap_def, hnumbers]
      exact List.nodup_range'
    exact (List.nodup_flatten.mp hnodup).2

/-- Steps of all kinds, with an empty pack and an empty text among them. -/
def mixedSteps : List Step :=
  [.opcode 3, .string (Text.utf8 "hi"), .pack [], .operand 7,
   .pack [Text.utf8 "a", Text.utf8 "b"], .named (Text.utf8 "x"), .string []]

theorem references_resolve_mixed :
    let p := (Program.start none).run mixedSteps
    p.data.length < 2 ^ 64 ∧ ref? p.data (p.wordAt 2) = some (Text.utf8 "hi") ∧
      refs p.data (p.wordAt 34) (p.wordAt 42) = [Text.utf8 "a", Text.utf8 "b"] ∧
      (((Program.start none).placed mixedSteps).flatMap fun s => s.2.numbers p s.1) =
        [3, 4, 5, 6] := by
  intro p
  have hlength : p.data.length = 6 := by decide +kernel
  have hsize : p.data.length < 2 ^ 64 := by
    rw [hlength]
    decide
  obtain ⟨-, hstring, hpack, -, hnumbers, -⟩ := references_resolve none mixedSteps hsize
  refine ⟨hsize, hstring 2 _ (by decide +kernel), (hpack 34 _ (by decide +kernel)).2, ?_⟩
  rw [hnumbers, hlength]
  rfl

end Dialogue
