import Dialogue.Proofs.DataReferences
import Dialogue.Proofs.InstructionFrames

/-!
# Comments of packs

The operands of a pack may be any words. The loop over its texts stops at the first number that has
no text, so it has at most one round more than there are texts, and no number of a round has wrapped
around. The comment of the pack lists the texts that its numbers stand for as if numbers had no
upper end.
-/

namespace Dialogue

/-! ## Rounds -/

/-- The loop over the texts of a pack from its place `j` on, with `ask` to look for a text. -/
def packLoop {m : Type → Type} [Monad m] (ask : UInt64 → m (Option Bytes)) (v n j : UInt64) :
    m (List Bytes) :=
  if j < n then do
    match ← ask (v + j) with
    | none => return []
    | some text => return text :: (← packLoop ask v n (j + 1))
  else return []
termination_by n.toNat - j.toNat
decreasing_by
  have hlt : j < n := by assumption
  have hnext := toNat_add_one_of_lt hlt
  have hlt := UInt64.lt_iff_toNat_lt.mp hlt
  omega

/-- A look-up that notes the number it is asked for. -/
def noted (data : List Bytes) (w : UInt64) : StateM (List UInt64) (Option Bytes) := do
  modify (· ++ [w])
  return ref? data w

section

variable {data : List Bytes} {v n j : UInt64}

theorem run_packLoop_of_not_lt (h : ¬ j < n) (log : List UInt64) :
    (packLoop (noted data) v n j).run log = ([], log) := by
  rw [packLoop, if_neg h]
  rfl

theorem run_packLoop_of_none (hlt : j < n) (h : ref? data (v + j) = none) (log : List UInt64) :
    (packLoop (noted data) v n j).run log = ([], log ++ [v + j]) := by
  have hask : (noted data (v + j)).run log = (none, log ++ [v + j]) := by
    rw [← h]
    rfl
  rw [packLoop, if_pos hlt, StateT.run_bind, hask]
  rfl

theorem run_packLoop_of_some (hlt : j < n) {text : Bytes} (h : ref? data (v + j) = some text)
    (log : List UInt64) :
    (packLoop (noted data) v n j).run log =
      ((packLoop (noted data) v n (j + 1)).run (log ++ [v + j])).map (text :: ·) id := by
  have hask : (noted data (v + j)).run log = (some text, log ++ [v + j]) := by
    rw [← h]
    rfl
  rw [packLoop, if_pos hlt, StateT.run_bind, hask]
  rfl

end

/-- Whether numbers are those that the rounds of a loop ask for, from `w` on: each is one more than
the number before it, and there is a text for each but the last. -/
structure Asked (data : List Bytes) (w : UInt64) (numbers : List UInt64) : Prop where
  toNat : numbers.map UInt64.toNat = List.range' w.toNat numbers.length
  found : ∀ u ∈ numbers.dropLast, ∃ text, ref? data u = some text

namespace Asked

variable {data : List Bytes} {w : UInt64} {numbers : List UInt64}

theorem nil (data : List Bytes) (w : UInt64) : Asked data w [] :=
  ⟨rfl, fun _ hu => absurd hu List.not_mem_nil⟩

theorem singleton (data : List Bytes) (w : UInt64) : Asked data w [w] :=
  ⟨rfl, fun _ hu => absurd hu List.not_mem_nil⟩

/-- The number behind that of a text has not wrapped around. -/
theorem cons (hsize : data.length + 1 < 2 ^ 64) {text : Bytes} (htext : ref? data w = some text)
    (h : Asked data (w + 1) numbers) : Asked data w (w :: numbers) := by
  have hwithin := (ref?_within htext).2
  have hnext : (w + 1).toNat = w.toNat + 1 := by
    rw [UInt64.toNat_add]
    exact Nat.mod_eq_of_lt (by change w.toNat + 1 < 2 ^ 64; omega)
  constructor
  · rw [List.map_cons, h.toNat, hnext, List.length_cons, List.range'_succ]
  · cases numbers with
    | nil => exact fun _ hu => absurd hu List.not_mem_nil
    | cons next numbers => exact List.forall_mem_cons.mpr ⟨⟨text, htext⟩, h.found⟩

theorem toNat_getElem (h : Asked data w numbers) {i : Nat} (hi : i < numbers.length) :
    numbers[i].toNat = w.toNat + i := by
  have hget := congrArg (·[i]?) h.toNat
  simpa [hi] using hget

theorem within (h : Asked data w numbers) {i : Nat} (hi : i + 1 < numbers.length) :
    0 < w.toNat + i ∧ w.toNat + i ≤ data.length := by
  have hfront : i < numbers.dropLast.length := by
    rw [List.length_dropLast]
    omega
  obtain ⟨text, htext⟩ := h.found _ (List.getElem_mem hfront)
  rw [List.getElem_dropLast] at htext
  obtain ⟨hne, hle⟩ := ref?_within htext
  have hpos := toNat_pos hne
  rw [h.toNat_getElem (by omega)] at hpos hle
  exact ⟨hpos, hle⟩

theorem length_le (h : Asked data w numbers) : numbers.length ≤ data.length + 1 := by
  by_contra hlong
  have hfirst := (h.within (i := 0) (by omega)).1
  have hlast := (h.within (i := data.length) (by omega)).2
  omega

end Asked

/-- The rounds of the loop, by induction on how many of them may still come. -/
theorem exists_run_packLoop {data : List Bytes} (hsize : data.length + 1 < 2 ^ 64) (v : UInt64)
    {n j : UInt64} (hj : j ≤ n) :
    ∃ numbers, Asked data (v + j) numbers ∧
      ∀ log, (packLoop (noted data) v n j).run log =
        (refs data (v + j) (n - j), log ++ numbers) := by
  induction hk : n.toNat - j.toNat generalizing j with
  | zero =>
    have hend : ¬ j < n := by
      rw [UInt64.lt_iff_toNat_lt]
      omega
    refine ⟨[], .nil data _, fun log => ?_⟩
    rw [run_packLoop_of_not_lt hend, refs_of_not_lt hj hend, List.append_nil]
  | succ k ih =>
    have hlt : j < n := by
      rw [UInt64.lt_iff_toNat_lt]
      omega
    cases htext : ref? data (v + j) with
    | none =>
      rw [refs_of_none hlt htext]
      exact ⟨[v + j], .singleton data _, run_packLoop_of_none hlt htext⟩
    | some text =>
      have hsucc := toNat_add_one_of_lt hlt
      have hle : j + 1 ≤ n := by
        rw [UInt64.le_iff_toNat_le, hsucc]
        omega
      obtain ⟨numbers, hasked, hrun⟩ := ih hle (by omega)
      rw [← UInt64.add_assoc] at hasked
      refine ⟨(v + j) :: numbers, hasked.cons hsize htext, fun log => ?_⟩
      rw [run_packLoop_of_some hlt htext, hrun, refs_of_some hlt htext, List.append_assoc]
      rfl

/-! ## Comments -/

/-- The numbers of the texts of a pack in a table of `count` texts: from `v` on, `n` of them or up
to the last. -/
def packNumbers (count v n : Nat) : List Nat :=
  if v = 0 then [] else List.range' v (min (v + n - 1) count + 1 - v)

theorem packNumbers_eq_nil {count v : Nat} (h : v = 0 ∨ count < v) (n : Nat) :
    packNumbers count v n = [] := by
  rw [packNumbers]
  split
  · rfl
  · have hnone : min (v + n - 1) count + 1 - v = 0 := by omega
    rw [hnone, List.range'_zero]

/-- The texts found by words are those with the numbers of the pack. -/
theorem map_some_refs {data : List Bytes} (hsize : data.length < 2 ^ 64) (v n : UInt64) :
    (refs data v n).map some =
      (packNumbers data.length v.toNat n.toNat).map fun i => data[i - 1]? := by
  by_cases hv : v = 0
  · rw [hv, refs_zero]
    rfl
  · have hpos := toNat_pos hv
    rw [refs_eq_take_drop hsize hv, packNumbers, if_neg (by omega)]
    apply List.ext_getElem
    · simp only [List.length_map, List.length_take, List.length_drop, List.length_range']
      omega
    · intro k hk _
      simp only [List.length_map, List.length_take, List.length_drop] at hk
      have hplace : v.toNat + 1 * k - 1 = v.toNat - 1 + k := by omega
      rw [List.getElem_map, List.getElem_take, List.getElem_drop, List.getElem_map,
        List.getElem_range', hplace, List.getElem?_eq_getElem]

theorem Frame.exists_of_mem_entries {data : List Bytes} {offset : Nat} {fs : List Frame}
    {e : CodeEntry} (he : e ∈ entries data offset fs) : ∃ f k, e = Frame.entry data k f := by
  induction fs generalizing offset with
  | nil => cases he
  | cons f fs ih =>
    rcases List.mem_cons.mp he with rfl | he
    · exact ⟨f, offset, rfl⟩
    · exact ih he

/-- A pack is commented with the texts that its numbers stand for, whatever its operands are. The
loop that collects them has at most one round more than there are texts, and asks in each round for
the number that follows that of the round before. Every table in memory is small enough for the
number behind its last text to be a word. -/
theorem pack_comment_exact (m : Module) (hsize : m.data.length + 1 < 2 ^ 64) (v n : UInt64) :
    (∃ (texts : List Bytes) (numbers : List UInt64),
      (packLoop (noted m.data) v n 0).run [] = (texts, numbers) ∧
      numbers.length ≤ m.data.length + 1 ∧
      numbers.map UInt64.toNat = List.range' v.toNat numbers.length ∧
      annotate m.data [.packRef, .literal] [v, n] =
        "(" ++ ", ".intercalate (texts.map Quoted.text) ++ ")" ∧
      texts.map some =
        (packNumbers m.data.length v.toNat n.toNat).map fun i => m.data[i - 1]?) ∧
    (v = 0 ∨ m.data.length < v.toNat → annotate m.data [.packRef, .literal] [v, n] = "()") ∧
    ∀ es, m.disassemble = .ok es → ∀ e ∈ es, e.op.operands e.mode = [.packRef, .literal] →
      e.operands = [v, n] → e.comment = annotate m.data [.packRef, .literal] [v, n] := by
  have htexts := map_some_refs (Nat.lt_of_succ_lt hsize) v n
  refine ⟨?_, ?_, ?_⟩
  · have hleast : (0 : UInt64) ≤ n := UInt64.le_iff_toNat_le.mpr (Nat.zero_le _)
    obtain ⟨numbers, hasked, hrun⟩ := exists_run_packLoop hsize v hleast
    rw [UInt64.add_zero] at hasked
    refine ⟨refs m.data v n, numbers, ?_, hasked.length_le, hasked.toNat, rfl, htexts⟩
    rw [hrun, UInt64.add_zero, UInt64.sub_zero, List.nil_append]
  · intro hout
    have hout : v.toNat = 0 ∨ m.data.length < v.toNat := hout.imp_left (congrArg UInt64.toNat)
    rw [packNumbers_eq_nil hout, List.map_nil, List.map_eq_nil_iff] at htexts
    rw [annotate, htexts]
    rfl
  · intro es hes e he hkinds hoperands
    obtain ⟨fs, -, rfl⟩ := entriesFrom_eq_ok_iff.mp hes
    obtain ⟨f, k, rfl⟩ := Frame.exists_of_mem_entries he
    rw [← hkinds, ← hoperands]
    rfl

/-- An action whose pack starts at the second of two texts and has no end. -/
def greedyFrame : Frame :=
  .pack .action (.inl rfl) 2 0xFFFFFFFFFFFFFFFF

def greedy : Module where
  header := Header.read .little []
  data := [Text.utf8 "a", Text.utf8 "b"]
  jumps := .empty
  code := greedyFrame.bytes .little
  order := .little

theorem pack_comment_exact_greedy :
    greedy.data.length + 1 < 2 ^ 64 ∧
      greedy.disassemble = .ok [greedyFrame.entry greedy.data 0] ∧
      (greedyFrame.entry greedy.data 0).comment = "(\"b\")" ∧
      ∃ numbers, (packLoop (noted greedy.data) 2 0xFFFFFFFFFFFFFFFF 0).run [] =
          ([Text.utf8 "b"], numbers) ∧
        numbers.length ≤ 3 ∧ numbers.map UInt64.toNat = List.range' 2 numbers.length := by
  have hsize : greedy.data.length + 1 < 2 ^ 64 := by decide
  have hes : greedy.disassemble = .ok [greedyFrame.entry greedy.data 0] :=
    entriesFrom_eq_ok_iff.mpr ⟨[greedyFrame], List.flatMap_singleton _ _, rfl⟩
  obtain ⟨⟨texts, numbers, hrun, hlength, hcount, hcomment, htexts⟩, -, hentry⟩ :=
    pack_comment_exact greedy hsize 2 0xFFFFFFFFFFFFFFFF
  have hnumbers : packNumbers 2 2 0xFFFFFFFFFFFFFFFF = [2] := by decide +kernel
  have htexts : texts.map some = [Text.utf8 "b"].map some :=
    htexts.trans (congrArg (List.map fun i => greedy.data[i - 1]?) hnumbers)
  cases (List.map_inj_right fun _ _ => Option.some.inj).mp htexts
  refine ⟨hsize, hes, ?_, numbers, hrun, hlength, hcount⟩
  rw [hentry _ hes _ List.mem_cons_self rfl rfl, hcomment]
  decide +kernel

end Dialogue
