import Dialogue.Script.Literal
import Dialogue.Text.NameTable

/-!
# Parameter groups

A group is a list of parameters between parentheses or brackets, with commas between them. Groups
nest, and the parameters of an inner group take its place. Reading a group calls itself on shorter
groups only.
-/

namespace Dialogue.Script.ParamGroup

/-- Where a scan stands with respect to strings: outside, inside, or inside after a backslash. -/
inductive Quoting where
  | outside
  | inside
  | escaped
  deriving DecidableEq

structure Scan where
  /-- The number of groups that are open. -/
  depth : Nat := 0
  quoting : Quoting := .outside
  deriving DecidableEq

namespace Scan

/-- The state after one more byte. A closing sign without an open group counts for nothing. -/
def step (s : Scan) (b : UInt8) : Scan :=
  match s.quoting, Char.ofUInt8 b with
  | .escaped, _ => { s with quoting := .inside }
  | .inside, '\\' => { s with quoting := .escaped }
  | .inside, '"' => { s with quoting := .outside }
  | .inside, _ => s
  | .outside, '"' => { s with quoting := .inside }
  | .outside, '(' | .outside, '[' => { s with depth := s.depth + 1 }
  | .outside, ')' | .outside, ']' => { s with depth := s.depth - 1 }
  | .outside, _ => s

/-- Whether a scan stands outside of all strings and groups. -/
def isTop (s : Scan) : Bool :=
  s.quoting == .outside && s.depth == 0

end Scan

/-- The pieces of a text between the commas that stand outside of strings and groups, for a scan
that has come to state `s`. -/
def piecesFrom (s : Scan) : Bytes → List Bytes
  | [] => [[]]
  | b :: bs =>
    if s.isTop ∧ b = 0x2C then [] :: piecesFrom s bs
    else (piecesFrom (s.step b) bs).modifyHead (b :: ·)

/-- The pieces of a text between its outer commas. -/
def pieces (bs : Bytes) : List Bytes :=
  piecesFrom {} bs

/-- The sign that closes a group, by the one that opens it. -/
def closer? (b : UInt8) : Option UInt8 :=
  match Char.ofUInt8 b with
  | '(' => some 0x29
  | '[' => some 0x5D
  | _ => none

def inner? : Bytes → Option Bytes
  | [] => none
  | b :: rest =>
    match closer? b with
    | some close => if rest.getLast? = some close then some rest.dropLast else none
    | none => none

theorem length_modifyHead_cons_le {n : Nat} {b : UInt8} {parts : List Bytes}
    (h : ∀ p ∈ parts, p.length ≤ n) : ∀ p ∈ parts.modifyHead (b :: ·), p.length ≤ n + 1 := by
  intro p hp
  match parts, hp with
  | q :: qs, hp =>
    rcases List.mem_cons.mp hp with rfl | hp
    · simpa using h q (by simp)
    · exact Nat.le_succ_of_le (h p (List.mem_cons_of_mem _ hp))

theorem length_le_of_mem_piecesFrom (s : Scan) (bs : Bytes) :
    ∀ p ∈ piecesFrom s bs, p.length ≤ bs.length := by
  induction bs generalizing s with
  | nil => simp [piecesFrom]
  | cons b bs ih =>
    intro p hp
    rw [piecesFrom] at hp
    split at hp
    · rcases List.mem_cons.mp hp with rfl | hp
      · simp
      · exact Nat.le_succ_of_le (ih s p hp)
    · exact length_modifyHead_cons_le (ih _) p hp

/-- No piece is longer than the text it is taken from. -/
theorem length_le_of_mem_pieces {bs p : Bytes} (h : p ∈ pieces bs) : p.length ≤ bs.length :=
  length_le_of_mem_piecesFrom {} bs p h

theorem length_inner?_lt {group inner : Bytes} (h : inner? group = some inner) :
    inner.length < group.length := by
  match group, h with
  | b :: rest, h =>
    simp only [inner?] at h
    split at h
    · split at h
      · simp only [Option.some.injEq] at h
        subst h
        simp only [List.length_dropLast, List.length_cons]
        omega
      · simp at h
    · simp at h

/-- The parameters of a group, those of inner groups in their place. Pieces that are blank count for
nothing. -/
def read (group : Bytes) : Except Fault (List Bytes) :=
  match h : inner? group with
  | none => .error (.malformedGroup group)
  | some inner => do
    let parts ← (pieces inner).attach.mapM fun ⟨p, hp⟩ =>
      have _hlt : (Text.trim p).length < group.length :=
        Nat.lt_of_le_of_lt (Nat.le_trans (Text.length_trim_le p) (length_le_of_mem_pieces hp))
          (length_inner?_lt h)
      let piece := Text.trim p
      match piece.head?.map Char.ofUInt8 with
      | none => .ok []
      | some '"' => (Literal.read piece).map ([·])
      | some '(' | some '[' => read piece
      | some _ => if Text.hasSpace piece then .error (.spaceInBare piece) else .ok [piece]
    return parts.flatten
termination_by group.length

end Dialogue.Script.ParamGroup
