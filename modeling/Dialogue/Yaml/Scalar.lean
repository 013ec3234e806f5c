import Dialogue.Text.Base64
import Dialogue.Yaml.Resolve

/-!
# Scalars

How a text is written in a YAML document: as it is where that is read back as the same text, as a
literal block if it has several lines, and otherwise between quotes.
-/

namespace Dialogue.Yaml

def isBreak (c : Char) : Bool :=
  c ∈ ['\n', '\r', '\u0085', '\u2028', '\u2029']

def isBlankOrBreak (c : Char) : Bool :=
  c == ' ' || c == '\t' || c == '\x00' || isBreak c

def isSpecial (c : Char) : Bool :=
  let n := c.toNat
  !(n == 0x0A || n == 0x09 || (0x20 ≤ n && n ≤ 0x7E) || (0xA0 ≤ n && n ≤ 0xD7FF)
    || (0xE000 ≤ n && n ≤ 0xFFFD && n != 0xFEFF))

/-- Whether a character that satisfies `p` is followed by one that satisfies `q`. -/
def hasPair (p q : Char → Bool) : List Char → Bool
  | a :: b :: cs => (p a && q b) || hasPair p q (b :: cs)
  | _ => false

/-- Whether a text could be taken for something else by its first characters. -/
def startsAsIndicator : List Char → Bool
  | [] => false
  | '-' :: '-' :: '-' :: _ | '.' :: '.' :: '.' :: _ => true
  | c :: cs =>
    c ∈ ['#', ',', '[', ']', '{', '}', '&', '*', '!', '|', '>', '\'', '"', '%', '@', '`']
      || (c ∈ ['?', ':', '-'] && (cs.head?.map isBlankOrBreak).getD true)

/-- Whether a text has a colon at its end or before a blank, or a comment sign behind a blank. -/
def hasIndicator (cs : List Char) : Bool :=
  hasPair (· == ':') isBlankOrBreak cs || cs.getLast? == some ':'
    || hasPair isBlankOrBreak (· == '#') cs

def blankMeetsBreak (cs : List Char) : Bool :=
  hasPair (· == ' ') isBreak cs || hasPair isBreak (· == ' ') cs

def plainAllowed (cs : List Char) : Bool :=
  !(cs.head? == some ' ' || cs.getLast? == some ' ' || startsAsIndicator cs || hasIndicator cs
    || cs.any fun c => c == '\t' || isBreak c || isSpecial c)

def singleAllowed (cs : List Char) : Bool :=
  !(blankMeetsBreak cs || cs.any fun c => c == '\t' || isSpecial c)

def blockAllowed (cs : List Char) : Bool :=
  !(cs.getLast? == some ' ' || hasPair (· == ' ') isBreak cs || cs.any isSpecial)

def escapeLetter? (c : Char) : Option Char :=
  match c.toNat with
  | 0x00 => some '0'
  | 0x07 => some 'a'
  | 0x08 => some 'b'
  | 0x09 => some 't'
  | 0x0A => some 'n'
  | 0x0B => some 'v'
  | 0x0C => some 'f'
  | 0x0D => some 'r'
  | 0x1B => some 'e'
  | 0x22 => some '"'
  | 0x5C => some '\\'
  | 0x85 => some 'N'
  | 0xA0 => some '_'
  | 0x2028 => some 'L'
  | 0x2029 => some 'P'
  | _ => none

def escaped (c : Char) : String :=
  match escapeLetter? c with
  | some letter => String.ofList ['\\', letter]
  | none =>
    if c.toNat ≤ 0xFF then "\\x" ++ Numeral.upperHex 2 c.toNat
    else if c.toNat ≤ 0xFFFF then "\\u" ++ Numeral.upperHex 4 c.toNat
    else "\\U" ++ Numeral.upperHex 8 c.toNat

def needsEscape (c : Char) : Bool :=
  c == '"' || c == '\\' || c == '\t' || isBreak c || isSpecial c

def startsWithMark (cs : List Char) : Bool :=
  cs.head? == some '\uFEFF'

/-- A text between double quotes. Behind a byte order mark at its start all characters are
escaped. -/
def doubleQuoted (cs : List Char) : String :=
  let write (c : Char) := if startsWithMark cs || needsEscape c then escaped c else c.toString
  "\"" ++ String.join (cs.map write) ++ "\""

/-- The indentation of the further lines of a scalar. -/
def indentation : String := "      "

/-- A text between single quotes, in which a single quote is written twice. -/
def singleQuoted (cs : List Char) : String :=
  let rec go : (fresh : Bool) → List Char → String
    | _, [] => ""
    | fresh, c :: cs =>
      if isBreak c then c.toString ++ go true cs
      else
        (if fresh then indentation else "") ++ (if c = '\'' then "''" else c.toString)
          ++ go false cs
  "'" ++ go false cs ++ "'"

/-- What the header of a literal block says about the line ends at the end of the text: `-` for
none, `+` for several or nothing else, and nothing for one. -/
def chomping (cs : List Char) : String :=
  match cs.reverse with
  | [] => "-"
  | [c] => if isBreak c then "+" else "-"
  | c :: d :: _ => if !isBreak c then "-" else if isBreak d then "+" else ""

/-- The lines of a literal block, each indented unless it is empty. A line end at the start of the
text takes the place of the one after the header. -/
def blockBody : (first fresh : Bool) → List Char → String
  | _, _, [] => ""
  | first, fresh, c :: cs =>
    if isBreak c then c.toString ++ blockBody false true cs
    else
      (if first then "\n" else "") ++ (if fresh then indentation else "") ++ c.toString
        ++ blockBody false false cs

def block (cs : List Char) : String :=
  let hint := if (cs.head?.map fun c => c == ' ' || isBreak c).getD false then "4" else ""
  "|" ++ hint ++ chomping cs ++ blockBody true true cs
    ++ (if (cs.getLast?.map isBreak).getD false then "" else "\n")

/-- A text that is well-formed, up to the end of its last line. -/
def stringScalar (cs : List Char) : String :=
  if cs.contains '\n' then if blockAllowed cs then block cs else doubleQuoted cs ++ "\n"
  else if isReserved cs then doubleQuoted cs ++ "\n"
  else if plainAllowed cs then String.ofList cs ++ "\n"
  else if singleAllowed cs then singleQuoted cs ++ "\n"
  else doubleQuoted cs ++ "\n"

/-- Cuts a list into lines of `n` items, each ended by a line end. -/
def foldLines (n : Nat) (cs : List Char) : List Char :=
  if n = 0 ∨ cs.isEmpty then []
  else cs.take n ++ '\n' :: foldLines n (cs.drop n)
termination_by cs.length
decreasing_by
  have h : ¬ (n = 0 ∨ cs.isEmpty = true) := by assumption
  have hlen : 0 < cs.length :=
    List.length_pos_iff.mpr fun hnil => h (Or.inr (by simp [hnil]))
  simp only [List.length_drop]
  omega

/-- Bytes that are no text, in Base64, up to the end of their last line. From seventy characters on
they are a block of lines of seventy. -/
def binaryScalar (bs : Bytes) : String :=
  let cs := Base64.encode bs
  "!!binary " ++
    if cs.length < 70 then String.ofList cs ++ "\n" else block (foldLines 70 cs)

def scalar (bs : Bytes) : String :=
  if Text.isWellFormed bs then stringScalar (Text.decode bs) else binaryScalar bs

end Dialogue.Yaml
