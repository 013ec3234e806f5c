import Dialogue.Text.Utf8

/-!
# Lines of input

Input is read line by line through a buffer of fixed size. A line that does not fit comes in pieces.
-/

namespace Dialogue.Repl

/-- A line, or a piece of one that is longer than the buffer. -/
structure InputLine where
  text : Bytes
  isPiece : Bool := false
  deriving DecidableEq

/-- A text without the carriage return at its end. -/
def chomp (bs : Bytes) : Bytes :=
  if bs.getLast? = some 0x0D then bs.dropLast else bs

/-- The first line of an input that is read through a buffer of `size + 1` bytes, and the input
behind it. A carriage return before a line end belongs to it, and one at the end of a piece is left
for the next. -/
def firstLine? (size : Nat) : Bytes → Option (InputLine × Bytes)
  | [] => none
  | b :: rest =>
    let buffer := b :: rest.take size
    let line := buffer.takeWhile (· != 0x0A)
    if line.length < buffer.length then some (⟨chomp line, false⟩, rest.drop line.length)
    else if buffer.length ≤ size then some (⟨line, false⟩, [])
    else if 0 < size ∧ line.getLast? = some 0x0D then
      some (⟨line.dropLast, true⟩, rest.drop (size - 1))
    else some (⟨line, true⟩, rest.drop size)

theorem length_firstLine?_lt {size : Nat} {bs rest : Bytes} {line : InputLine}
    (h : firstLine? size bs = some (line, rest)) : rest.length < bs.length := by
  cases bs with
  | nil => simp [firstLine?] at h
  | cons b bs =>
    simp only [firstLine?] at h
    split at h
    · simp only [Option.some.injEq, Prod.mk.injEq] at h
      simp only [← h.2, List.length_drop, List.length_cons]
      omega
    · split at h
      · simp only [Option.some.injEq, Prod.mk.injEq] at h
        simp [← h.2]
      · split at h
        all_goals
          simp only [Option.some.injEq, Prod.mk.injEq] at h
          simp only [← h.2, List.length_drop, List.length_cons]
          omega

/-- The lines of an input that is read through a buffer of `size + 1` bytes. -/
def inputLines (size : Nat) (bs : Bytes) : List InputLine :=
  match h : firstLine? size bs with
  | none => []
  | some (line, rest) =>
    have := length_firstLine?_lt h
    line :: inputLines size rest
termination_by bs.length

/-- The size of the buffer that terminals and files are read through, less one. -/
def bufferSize : Nat := 4095

end Dialogue.Repl
