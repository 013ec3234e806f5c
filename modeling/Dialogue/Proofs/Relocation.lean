import Dialogue.Proofs.AssembledPrograms
import Dialogue.Proofs.DataReferences
import Dialogue.Proofs.WordMaps

/-!
# Assembling in parts

A row of instructions that is assembled behind another one gives the texts and the code it gives
alone, but for the numbers of its texts, which count on from the texts in front, and for the offsets
of its source lines. `Program.Moved` relates the two runs, and every step keeps it.
-/

namespace Dialogue

/-- A part of the code: an opcode, the number of a text, or an operand of another kind. -/
inductive CodeWord where
  | opcode (word : UInt16)
  | ref (number : UInt64)
  | literal (value : UInt64)
  deriving DecidableEq

namespace CodeWord

def bytes (order : ByteOrder) : CodeWord → Bytes
  | opcode word => order.write16 word
  | ref number => order.write64 number
  | literal value => order.write64 value

/-- Numbers of texts count from another text on, all else stays as it is. -/
def relocate (n : UInt64) : CodeWord → CodeWord
  | ref number => ref (number + n)
  | w => w

end CodeWord

namespace Step

/-- The words that a step puts behind the code of a program. -/
def words (p : Program) : Step → List CodeWord
  | opcode word => [.opcode word]
  | operand value => [.literal value]
  | string _ => [.ref p.nextRef]
  | named name => [.literal (NameHash.ofBytes name)]
  | pack texts => [.ref p.nextRef, .literal (.ofNat texts.length)]

theorem flatMap_bytes_words (s : Step) (p : Program) :
    (s.words p).flatMap (CodeWord.bytes p.order) = s.bytes p := by
  cases s with
  | opcode word => exact List.append_nil _
  | operand | string | named | pack => rfl

end Step

namespace Program

/-- The words of the code that instructions put behind a program. -/
def words (p : Program) (is : List Instruction) : List CodeWord :=
  (p.events is).flatMap fun e => e.step.words e.program

/-- The offsets at which the code of instructions starts. -/
def offsets (p : Program) : List Instruction → List Nat
  | [] => []
  | i :: is =>
    match i.steps with
    | .ok ss => p.code.length :: ((p.mark i.line).run ss).offsets is
    | .error _ => []

/-- The source lines that instructions mark, each with the offset of its mark. -/
def marks (p : Program) : List Instruction → List (UInt64 × Int)
  | [] => []
  | i :: is =>
    match i.steps with
    | .ok ss =>
      (if 0 < i.line then [(.ofNat p.code.length, i.line)] else [])
        ++ ((p.mark i.line).run ss).marks is
    | .error _ => []

variable {p q p' : Program} {i : Instruction} {is : List Instruction} {ss : List Step}

theorem offsets_cons (h : i.steps = .ok ss) (is : List Instruction) :
    p.offsets (i :: is) = p.code.length :: ((p.mark i.line).run ss).offsets is := by
  rw [offsets, h]

theorem marks_cons (h : i.steps = .ok ss) (is : List Instruction) :
    p.marks (i :: is) =
      (if 0 < i.line then [(.ofNat p.code.length, i.line)] else [])
        ++ ((p.mark i.line).run ss).marks is := by
  rw [marks, h]

theorem words_cons (h : i.steps = .ok ss) (is : List Instruction) :
    p.words (i :: is) =
      ((p.mark i.line).eventsOf i ss).flatMap (fun e => e.step.words e.program)
        ++ ((p.mark i.line).run ss).words is := by
  rw [words, events_cons h, List.flatMap_append]
  rfl

theorem sourceMap_run (p : Program) (ss : List Step) : (p.run ss).sourceMap = p.sourceMap := by
  induction ss generalizing p with
  | nil => rfl
  | cons s ss ih =>
    have hstep : (p.apply s).sourceMap = p.sourceMap := by cases s <;> rfl
    rw [run_cons, ih, hstep]

theorem sourceMap_foldlM_add (h : is.foldlM add p = .ok q) :
    q.sourceMap = (p.marks is).foldl (fun m e => m.insert e.1 e.2) p.sourceMap := by
  induction is generalizing p with
  | nil =>
    have hpq : p = q := Result.pure_eq_ok_iff.mp h
    rw [hpq]
    rfl
  | cons i is ih =>
    obtain ⟨ss, hss, hq⟩ := foldlM_add_cons_eq_ok_iff.mp h
    rw [ih hq, sourceMap_run, marks_cons hss, List.foldl_append, mark]
    split
    · rfl
    · rfl

theorem order_eventsOf {e : Event} (he : e ∈ p.eventsOf i ss) : e.program.order = p.order := by
  induction ss generalizing p with
  | nil => cases he
  | cons s ss ih =>
    rcases List.mem_cons.mp he with rfl | he
    · rfl
    · rw [ih he, order_apply]

theorem order_events {e : Event} (he : e ∈ p.events is) : e.program.order = p.order := by
  induction is generalizing p with
  | nil => cases he
  | cons i is ih =>
    rw [events] at he
    split at he
    · rcases List.mem_append.mp he with he | he
      · rw [order_eventsOf he, order_mark]
      · rw [ih he, order_run, order_mark]
    · cases he

theorem flatMap_bytes_words (p : Program) (is : List Instruction) :
    (p.words is).flatMap (CodeWord.bytes p.order) = (p.events is).flatMap Event.bytes := by
  rw [words, List.flatMap_assoc]
  apply List.flatMap_congr
  intro e he
  rw [← order_events he]
  exact e.step.flatMap_bytes_words e.program

/-! ## Two runs of the same instructions -/

/-- Whether a program stands `n` texts and `m` bytes of code further on than another one. -/
structure Moved (n : UInt64) (m : Nat) (p p' : Program) : Prop where
  order : p'.order = p.order
  nextRef : p'.nextRef = p.nextRef + n
  length_code : p'.code.length = p.code.length + m

namespace Moved

variable {n : UInt64} {m : Nat}

theorem words (h : Moved n m p p') (s : Step) :
    s.words p' = (s.words p).map (CodeWord.relocate n) := by
  cases s with
  | opcode | operand | named => rfl
  | string | pack =>
    simp only [Step.words, h.nextRef]
    rfl

theorem nextRef_apply (p : Program) (s : Step) :
    (p.apply s).nextRef = p.nextRef + .ofNat s.texts.length := by
  rw [Program.nextRef, Program.nextRef, data_apply, List.length_append, UInt64.ofNat_add,
    UInt64.add_assoc, UInt64.add_assoc, UInt64.add_comm 1]

theorem length_bytes (s : Step) (p p' : Program) : (s.bytes p').length = (s.bytes p).length := by
  cases s with
  | opcode word => rw [Step.bytes, Step.bytes, ByteOrder.length_write16, ByteOrder.length_write16]
  | operand | string | named | pack =>
    rw [Step.bytes_of_not_isCall rfl, Step.bytes_of_not_isCall rfl,
      ByteOrder.length_flatMap_write64, ByteOrder.length_flatMap_write64]
    rfl

theorem apply (h : Moved n m p p') (s : Step) : Moved n m (p.apply s) (p'.apply s) where
  order := by rw [order_apply, order_apply, h.order]
  nextRef := by
    rw [nextRef_apply, nextRef_apply, h.nextRef, UInt64.add_assoc, UInt64.add_assoc,
      UInt64.add_comm n]
  length_code := by
    rw [code_apply, code_apply, List.length_append, List.length_append, h.length_code,
      length_bytes s p p']
    omega

theorem mark (h : Moved n m p p') (line : Int) : Moved n m (p.mark line) (p'.mark line) where
  order := by rw [order_mark, order_mark, h.order]
  nextRef := by rw [Program.nextRef, Program.nextRef, data_mark, data_mark]; exact h.nextRef
  length_code := by rw [code_mark, code_mark, h.length_code]

theorem run (h : Moved n m p p') (ss : List Step) : Moved n m (p.run ss) (p'.run ss) := by
  induction ss generalizing p p' with
  | nil => exact h
  | cons s ss ih => exact ih (h.apply s)

theorem words_eventsOf (h : Moved n m p p') (i : Instruction) (ss : List Step) :
    (p'.eventsOf i ss).flatMap (fun e => e.step.words e.program) =
      ((p.eventsOf i ss).flatMap fun e => e.step.words e.program).map
        (CodeWord.relocate n) := by
  induction ss generalizing p p' with
  | nil => rfl
  | cons s ss ih =>
    rw [eventsOf, eventsOf, List.flatMap_cons, List.flatMap_cons, List.map_append, h.words,
      ih (h.apply s)]

/-- The words of the same instructions differ in the numbers of their texts only. -/
theorem words_instructions (h : Moved n m p p') (is : List Instruction) :
    p'.words is = (p.words is).map (CodeWord.relocate n) := by
  induction is generalizing p p' with
  | nil => rfl
  | cons i is ih =>
    cases hss : i.steps with
    | error fault => simp only [Program.words, events, hss, List.flatMap_nil, List.map_nil]
    | ok ss =>
      have hmark := h.mark i.line
      rw [words_cons hss, words_cons hss, List.map_append, hmark.words_eventsOf,
        ih (hmark.run ss)]

theorem foldlM_add {q' : Program} (h : Moved n m p p') (hq : is.foldlM add p = .ok q)
    (hq' : is.foldlM add p' = .ok q') : Moved n m q q' := by
  induction is generalizing p p' with
  | nil =>
    cases hq
    cases hq'
    exact h
  | cons i is ih =>
    obtain ⟨ss, hss, hq⟩ := foldlM_add_cons_eq_ok_iff.mp hq
    obtain ⟨ss', hss', hq'⟩ := foldlM_add_cons_eq_ok_iff.mp hq'
    rw [hss] at hss'
    cases hss'
    exact ih ((h.mark i.line).run ss) hq hq'

theorem marks (h : Moved n m p p') (is : List Instruction) :
    p'.marks is = (p.marks is).map fun e => (e.1 + .ofNat m, e.2) := by
  induction is generalizing p p' with
  | nil => rfl
  | cons i is ih =>
    cases hss : i.steps with
    | error fault => simp only [Program.marks, hss, List.map_nil]
    | ok ss =>
      rw [marks_cons hss, marks_cons hss, List.map_append, ih ((h.mark i.line).run ss),
        h.length_code, UInt64.ofNat_add]
      split
      · rfl
      · rfl

end Moved

/-! ## Offsets of source lines -/

theorem length_code_lt (h : i.steps = .ok ss) :
    p.code.length < ((p.mark i.line).run ss).code.length := by
  obtain ⟨word, later, rfl⟩ := Instruction.exists_opcode_of_steps h
  have hle := (extends_run ((p.mark i.line).apply (.opcode word)) later).code.length_le
  rw [code_apply, code_mark, List.length_append, Step.bytes, ByteOrder.length_write16] at hle
  rw [run_cons]
  omega

theorem length_offsets (hq : is.foldlM add p = .ok q) : (p.offsets is).length = is.length := by
  induction is generalizing p with
  | nil => rfl
  | cons i is ih =>
    obtain ⟨ss, hss, hq⟩ := foldlM_add_cons_eq_ok_iff.mp hq
    rw [offsets_cons hss, List.length_cons, List.length_cons, ih hq]

theorem mem_offsets_bounds (hq : is.foldlM add p = .ok q) {n : Nat} (hn : n ∈ p.offsets is) :
    p.code.length ≤ n ∧ n < q.code.length := by
  induction is generalizing p with
  | nil => cases hn
  | cons i is ih =>
    obtain ⟨ss, hss, hq⟩ := foldlM_add_cons_eq_ok_iff.mp hq
    have hlt := length_code_lt (p := p) hss
    have hle := (extends_of_foldlM_add hq).code.length_le
    rw [offsets_cons hss] at hn
    rcases List.mem_cons.mp hn with rfl | hn
    · omega
    · have hlater := ih hq hn
      omega

theorem pairwise_offsets (hq : is.foldlM add p = .ok q) : (p.offsets is).Pairwise (· < ·) := by
  induction is generalizing p with
  | nil => exact .nil
  | cons i is ih =>
    obtain ⟨ss, hss, hq⟩ := foldlM_add_cons_eq_ok_iff.mp hq
    rw [offsets_cons hss]
    refine List.pairwise_cons.mpr ⟨fun n hn => ?_, ih hq⟩
    exact Nat.lt_of_lt_of_le (length_code_lt hss) (mem_offsets_bounds hq hn).1

theorem marks_eq (hq : is.foldlM add p = .ok q) :
    p.marks is = ((is.zip (p.offsets is)).filter fun x => 0 < x.1.line).map
      fun x => (.ofNat x.2, x.1.line) := by
  induction is generalizing p with
  | nil => rfl
  | cons i is ih =>
    obtain ⟨ss, hss, hq⟩ := foldlM_add_cons_eq_ok_iff.mp hq
    rw [marks_cons hss, offsets_cons hss, ih hq, List.zip_cons_cons, List.filter_cons]
    by_cases hline : 0 < i.line
    · simp [hline]
    · simp [hline]

/-- Instructions mark ascending offsets, as long as offsets are words. -/
theorem pairwise_marks (hq : is.foldlM add p = .ok q) (hsize : q.code.length < 2 ^ 64) :
    (p.marks is).Pairwise fun a b => a.1 < b.1 := by
  have hpairs : (is.zip (p.offsets is)).Pairwise fun x y => x.2 < y.2 := by
    rw [← List.pairwise_map, List.map_snd_zip (Nat.le_of_eq (length_offsets hq))]
    exact pairwise_offsets hq
  rw [marks_eq hq, List.pairwise_map]
  refine (hpairs.filter _).imp_of_mem ?_
  intro x y hx hy hlt
  have hfit {z : Instruction × Nat}
      (hz : z ∈ (is.zip (p.offsets is)).filter fun x => 0 < x.1.line) :
      (UInt64.ofNat z.2).toNat = z.2 := by
    have hmem := (List.of_mem_zip (List.mem_of_mem_filter hz)).2
    exact UInt64.toNat_ofNat_of_lt' (Nat.lt_trans (mem_offsets_bounds hq hmem).2 hsize)
  rw [UInt64.lt_iff_toNat_lt, hfit hx, hfit hy]
  exact hlt

theorem marks_append (hq : is.foldlM add p = .ok q) (is' : List Instruction) :
    p.marks (is ++ is') = p.marks is ++ q.marks is' := by
  induction is generalizing p with
  | nil =>
    cases hq
    rfl
  | cons i is ih =>
    obtain ⟨ss, hss, hq⟩ := foldlM_add_cons_eq_ok_iff.mp hq
    rw [List.cons_append, marks_cons hss, marks_cons hss, ih hq, List.append_assoc]

theorem entries_sourceMap {order : Option ByteOrder} (hp : assemble order is = .ok p)
    (hsize : p.code.length < 2 ^ 64) : p.sourceMap.entries = (start order).marks is := by
  rw [sourceMap_foldlM_add hp]
  exact WordMap.entries_foldl_insert (pairwise_marks hp hsize)

/-! ## Errors -/

theorem exists_foldlM_add_iff :
    (∃ q, is.foldlM add p = .ok q) ↔ ∀ i ∈ is, ∃ ss, i.steps = .ok ss := by
  induction is generalizing p with
  | nil => exact iff_of_true ⟨p, rfl⟩ (List.forall_mem_nil _)
  | cons i is ih =>
    simp only [foldlM_add_cons_eq_ok_iff, List.forall_mem_cons]
    constructor
    · rintro ⟨q, ss, hss, hq⟩
      exact ⟨⟨ss, hss⟩, ih.mp ⟨q, hq⟩⟩
    · rintro ⟨⟨ss, hss⟩, his⟩
      obtain ⟨q, hq⟩ := ih.mpr his
      exact ⟨q, ss, hss, hq⟩

theorem add_eq_error_iff {e : EncodeError} :
    p.add i = .error e ↔ ∃ fault, i.steps = .error fault ∧ e = ⟨i.op, i.line, fault⟩ := by
  unfold add
  cases hss : i.steps with
  | ok ss => simp
  | error fault => simp [eq_comm]

/-- The first instruction without steps makes the error. -/
theorem foldlM_add_eq_error_iff {e : EncodeError} :
    is.foldlM add p = .error e ↔
      ∃ before i after, is = before ++ i :: after ∧ (∀ j ∈ before, ∃ ss, j.steps = .ok ss) ∧
        ∃ fault, i.steps = .error fault ∧ e = ⟨i.op, i.line, fault⟩ := by
  constructor
  · intro h
    induction is generalizing p with
    | nil => cases h
    | cons i is ih =>
      rw [List.foldlM_cons] at h
      cases hi : p.add i with
      | error e' =>
        rw [hi] at h
        cases h
        exact ⟨[], i, is, rfl, List.forall_mem_nil _, add_eq_error_iff.mp hi⟩
      | ok q =>
        rw [hi] at h
        obtain ⟨before, j, after, rfl, hbefore, hj⟩ := ih h
        obtain ⟨ss, hss, -⟩ := add_eq_ok_iff.mp hi
        exact ⟨i :: before, j, after, rfl, List.forall_mem_cons.mpr ⟨⟨ss, hss⟩, hbefore⟩, hj⟩
  · rintro ⟨before, i, after, rfl, hbefore, hi⟩
    obtain ⟨q, hq⟩ := exists_foldlM_add_iff.mpr hbefore
    rw [List.foldlM_append, hq]
    change (q.add i >>= fun r => after.foldlM add r) = .error e
    rw [add_eq_error_iff.mpr hi]
    rfl

/-- An error of a single instruction does not depend on the program in front of it. -/
theorem assemble_singleton_eq_error_iff {order : Option ByteOrder} {e : EncodeError} :
    assemble order [i] = .error e ↔
      ∃ fault, i.steps = .error fault ∧ e = ⟨i.op, i.line, fault⟩ := by
  rw [assemble, List.foldlM_cons, ← add_eq_error_iff (p := start order)]
  cases (start order).add i with
  | error e' => exact Iff.rfl
  | ok q => exact iff_of_false nofun nofun

end Program

/-! ## Two rows of instructions -/

namespace Program

variable {order : Option ByteOrder} {xs ys : List Instruction} {p q r : Program}

theorem two_le_length_data (hp : assemble order xs = .ok p) : 2 ≤ p.data.length :=
  (extends_of_foldlM_add hp).length_le

/-- The program that comes first moves what follows. -/
theorem moved_start (hp : assemble order xs = .ok p) :
    Moved (.ofNat (p.data.length - 2)) p.code.length (start order) p where
  order := order_assemble hp
  nextRef := by
    have hlength : p.data.length = 2 + (p.data.length - 2) := by
      have hle := two_le_length_data hp
      omega
    rw [nextRef, hlength, UInt64.ofNat_add, Nat.add_sub_cancel_left, UInt64.add_assoc,
      UInt64.add_comm _ 1, ← UInt64.add_assoc]
    rfl
  length_code := (Nat.zero_add _).symm

theorem assemble_append_eq (hp : assemble order xs = .ok p) :
    assemble order (xs ++ ys) = ys.foldlM add p := by
  rw [assemble, List.foldlM_append]
  change (assemble order xs >>= fun q => ys.foldlM add q) = _
  rw [hp]
  rfl

/-- Instructions put the same texts into any table. -/
theorem exists_texts {is : List Instruction} {p' q' : Program} (h : is.foldlM add p = .ok q)
    (h' : is.foldlM add p' = .ok q') :
    ∃ texts, q.data = p.data ++ texts ∧ q'.data = p'.data ++ texts := by
  induction is generalizing p p' with
  | nil =>
    have hpq : p = q := Result.pure_eq_ok_iff.mp h
    have hpq' : p' = q' := Result.pure_eq_ok_iff.mp h'
    refine ⟨[], ?_, ?_⟩
    · rw [hpq, List.append_nil]
    · rw [hpq', List.append_nil]
  | cons i is ih =>
    obtain ⟨ss, hss, hq⟩ := foldlM_add_cons_eq_ok_iff.mp h
    obtain ⟨ss', hss', hq'⟩ := foldlM_add_cons_eq_ok_iff.mp h'
    rw [hss] at hss'
    cases hss'
    obtain ⟨texts, hdata, hdata'⟩ := ih hq hq'
    refine ⟨ss.flatMap Step.texts ++ texts, ?_, ?_⟩
    · rw [hdata, data_run, data_mark, List.append_assoc]
    · rw [hdata', data_run, data_mark, List.append_assoc]

section

variable (hp : assemble order xs = .ok p) (hq : assemble order ys = .ok q)
  (hr : assemble order (xs ++ ys) = .ok r)

include hp hq hr

theorem data_append : r.data = p.data ++ q.data.drop 2 := by
  rw [assemble_append_eq hp] at hr
  obtain ⟨texts, hdata, hdata'⟩ := exists_texts hq hr
  rw [hdata, hdata']
  rfl

theorem code_append :
    r.code = p.code ++
      (((start order).words ys).map (.relocate (.ofNat (p.data.length - 2)))).flatMap
        (CodeWord.bytes q.order) := by
  rw [assemble_append_eq hp] at hr
  rw [code_foldlM_add hr, ← flatMap_bytes_words, (moved_start hp).words_instructions,
    order_assemble hp, order_assemble hq]

theorem sourceMap_append (offset : UInt64) :
    r.sourceMap.get? offset =
      (q.sourceMap.get? (offset - .ofNat p.code.length)).or (p.sourceMap.get? offset) := by
  rw [assemble_append_eq hp] at hr
  rw [sourceMap_foldlM_add hr, (moved_start hp).marks, sourceMap_foldlM_add hq]
  exact WordMap.get?_foldl_insert_add _ _ _ _

theorem entries_sourceMap_append (hsize : r.code.length < 2 ^ 64) :
    r.sourceMap.entries =
      p.sourceMap.entries ++
        q.sourceMap.entries.map fun e => (e.1 + .ofNat p.code.length, e.2) := by
  have hr' := hr
  rw [assemble_append_eq hp] at hr'
  have hlength : r.code.length = q.code.length + p.code.length :=
    ((moved_start hp).foldlM_add hq hr').length_code
  rw [entries_sourceMap hr hsize, entries_sourceMap hp (by omega), entries_sourceMap hq (by omega),
    marks_append hp, (moved_start hp).marks]

end

end Program

/-- Two rows of instructions can be assembled one behind the other if and only if each of them can
be assembled. The second one gives the texts and the code it gives alone, with the numbers of its
texts and the offsets of its lines moved, and an error is that of the first instruction that has
one. -/
theorem assemble_append (order : Option ByteOrder) (xs ys : List Instruction) :
    ((∃ r, Program.assemble order (xs ++ ys) = .ok r) ↔
      (∃ p, Program.assemble order xs = .ok p) ∧ ∃ q, Program.assemble order ys = .ok q) ∧
    (∀ p q r, Program.assemble order xs = .ok p → Program.assemble order ys = .ok q →
      Program.assemble order (xs ++ ys) = .ok r →
      r.data = p.data ++ q.data.drop 2 ∧
      q.code = ((Program.start order).words ys).flatMap (CodeWord.bytes q.order) ∧
      r.code = p.code ++
        (((Program.start order).words ys).map (.relocate (.ofNat (p.data.length - 2)))).flatMap
          (CodeWord.bytes q.order) ∧
      (∀ offset, r.sourceMap.get? offset =
        (q.sourceMap.get? (offset - .ofNat p.code.length)).or (p.sourceMap.get? offset)) ∧
      (r.code.length < 2 ^ 64 →
        r.sourceMap.entries = p.sourceMap.entries ++
          q.sourceMap.entries.map fun e => (e.1 + .ofNat p.code.length, e.2))) ∧
    ∀ e, Program.assemble order (xs ++ ys) = .error e ↔
      ∃ before i after, xs ++ ys = before ++ i :: after ∧
        (∃ p, Program.assemble order before = .ok p) ∧ Program.assemble order [i] = .error e := by
  refine ⟨?_, ?_, ?_⟩
  · simp only [Program.assemble, Program.exists_foldlM_add_iff, List.forall_mem_append]
  · intro p q r hp hq hr
    have hcode : q.code = ((Program.start order).words ys).flatMap (CodeWord.bytes q.order) := by
      rw [Program.order_assemble hq]
      exact (Program.code_foldlM_add hq).trans (Program.flatMap_bytes_words _ ys).symm
    exact ⟨Program.data_append hp hq hr, hcode, Program.code_append hp hq hr,
      Program.sourceMap_append hp hq hr, Program.entries_sourceMap_append hp hq hr⟩
  · intro e
    simp only [Program.assemble_singleton_eq_error_iff]
    simp only [Program.assemble, Program.exists_foldlM_add_iff, Program.foldlM_add_eq_error_iff]

/-- Instructions that put a text into the table, and a name that is not put there. -/
def opening : List Instruction :=
  [{ op := Operation.line.code, params := [.text (Text.utf8 "hello")], line := 1 },
   { op := Operation.emotion.code, name := Text.utf8 "glad" }]

/-- Instructions with a pack, a text, a number and a truth value. -/
def closing : List Instruction :=
  [{ op := Operation.action.code, params := [.text (Text.utf8 "both"), .int 2], line := 4 },
   { op := Operation.line.code, params := [.text (Text.utf8 "bye")] },
   { op := Operation.wait.code, params := [.int 3], line := 5 },
   { op := Operation.namedCall.code, params := [.bool true], line := 5 }]

/-- Two instructions that cannot be encoded. -/
def unfinished : List Instruction :=
  [{ op := Operation.wait.code, line := 8 }, { op := Operation.line.code, line := 9 }]

theorem assemble_append_opening :
    (∃ p q r, Program.assemble (some .big) opening = .ok p ∧
      Program.assemble (some .big) closing = .ok q ∧
      Program.assemble (some .big) (opening ++ closing) = .ok r ∧ r.code.length < 2 ^ 64 ∧
      r.data = p.data ++ [Text.utf8 "both", Text.utf8 "2", Text.utf8 "bye"] ∧
      r.sourceMap.entries = [(0, 1), (20, 4), (48, 5), (58, 5)]) ∧
    Program.assemble (some .big) (opening ++ unfinished) =
      .error ⟨Operation.wait.code, 8, .notNumeric⟩ := by
  have hxs : (Program.assemble (some .big) opening).map
      (fun p => (p.code.length, p.sourceMap.entries)) = .ok (20, [(0, 1)]) := by decide +kernel
  have hys : (Program.assemble (some .big) closing).map
      (fun q => (q.data.drop 2, q.sourceMap.entries))
      = .ok ([Text.utf8 "both", Text.utf8 "2", Text.utf8 "bye"], [(0, 4), (28, 5), (38, 5)]) := by
    decide +kernel
  have hboth :
      (Program.assemble (some .big) (opening ++ closing)).map (·.code.length) = .ok 68 := by
    decide +kernel
  obtain ⟨p, hp, hpview⟩ := Result.map_eq_ok_iff.mp hxs
  obtain ⟨q, hq, hqview⟩ := Result.map_eq_ok_iff.mp hys
  obtain ⟨r, hr, hrview⟩ := Result.map_eq_ok_iff.mp hboth
  obtain ⟨hlength, hlines⟩ := Prod.mk.inj hpview
  obtain ⟨htexts, hlines'⟩ := Prod.mk.inj hqview
  have hsize : r.code.length < 2 ^ 64 := by
    rw [hrview]
    decide
  obtain ⟨-, hjoined, -⟩ := assemble_append (some .big) opening closing
  obtain ⟨hdata, -, -, -, hentries⟩ := hjoined p q r hp hq hr
  obtain ⟨-, -, herror⟩ := assemble_append (some .big) opening unfinished
  refine ⟨⟨p, q, r, hp, hq, hr, hsize, ?_, ?_⟩, ?_⟩
  · rw [hdata, htexts]
  · rw [hentries hsize, hlines, hlines', hlength]
    rfl
  · exact (herror _).mpr ⟨opening, _, _, rfl, ⟨p, hp⟩, rfl⟩

end Dialogue
