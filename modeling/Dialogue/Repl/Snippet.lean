import Dialogue.Text.Utf8

/-!
# Snippets

Lines typed one after the other make a snippet as soon as no string, group or block comment is left
open.
-/

namespace Dialogue.Repl

/-- What follows the quote that ends a string. A backslash takes the byte after it along. -/
def afterString? : Bytes → Option Bytes
  | [] => none
  | 0x22 :: rest => some rest
  | [0x5C] => none
  | 0x5C :: _ :: rest => afterString? rest
  | _ :: rest => afterString? rest

/-- What follows the first `*/`. -/
def afterComment? : Bytes → Option Bytes
  | [] => none
  | 0x2A :: 0x2F :: rest => some rest
  | _ :: rest => afterComment? rest

theorem length_afterString?_le {bs rest : Bytes} (h : afterString? bs = some rest) :
    rest.length ≤ bs.length := by
  fun_induction afterString? bs with
  | case1 => simp at h
  | case2 => simp_all
  | case3 => simp at h
  | case4 _ _ ih => exact Nat.le_succ_of_le (Nat.le_succ_of_le (ih h))
  | case5 _ _ _ _ _ ih => exact Nat.le_succ_of_le (ih h)

theorem length_afterComment?_le {bs rest : Bytes} (h : afterComment? bs = some rest) :
    rest.length ≤ bs.length := by
  fun_induction afterComment? bs with
  | case1 => simp at h
  | case2 =>
    simp only [Option.some.injEq] at h
    subst h
    simp only [List.length_cons]
    omega
  | case3 _ _ _ ih => exact Nat.le_succ_of_le (ih h)

/-- Whether a text with `depth` open groups before it ends inside a string, a group or a block
comment. -/
def isOpen (depth : Nat) (bs : Bytes) : Bool :=
  match bs with
  | [] => 0 < depth
  | 0x22 :: rest =>
    match h : afterString? rest with
    | none => true
    | some behind =>
      have := length_afterString?_le h
      isOpen depth behind
  | 0x2F :: 0x2F :: rest => isOpen depth (rest.dropWhile (· != 0x0A))
  | 0x2F :: 0x2A :: rest =>
    match h : afterComment? rest with
    | none => true
    | some behind =>
      have := length_afterComment?_le h
      isOpen depth behind
  | b :: rest =>
    if b = 0x28 ∨ b = 0x5B then isOpen (depth + 1) rest
    else if b = 0x29 ∨ b = 0x5D then isOpen (depth - 1) rest
    else isOpen depth rest
termination_by bs.length
decreasing_by
  all_goals simp only [List.length_cons]
  any_goals omega
  have := (List.dropWhile_sublist (fun b : UInt8 => b != 0x0A) (l := rest)).length_le
  omega

/-- Whether a text ends inside a string, a group or a block comment. -/
def isIncomplete (bs : Bytes) : Bool :=
  isOpen 0 bs

def extend (pending line : Bytes) : Bytes :=
  if pending.isEmpty then line else pending ++ 0x0A :: line

/-- Reads lines behind the text `pending` until they make a snippet. The lines left over come with
it; there is none if the lines run out. -/
def readSnippet (pending : Bytes) : List Bytes → Option (Bytes × List Bytes)
  | [] => none
  | line :: lines =>
    let text := extend pending line
    if isIncomplete text then readSnippet text lines else some (text, lines)

theorem length_readSnippet_lt {pending snippet : Bytes} {lines rest : List Bytes}
    (h : readSnippet pending lines = some (snippet, rest)) : rest.length < lines.length := by
  induction lines generalizing pending with
  | nil => simp [readSnippet] at h
  | cons line lines ih =>
    simp only [readSnippet] at h
    split at h
    · exact Nat.lt_succ_of_lt (ih h)
    · simp_all

end Dialogue.Repl
