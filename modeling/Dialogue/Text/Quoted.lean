import Dialogue.Text.Utf8
import Dialogue.Text.Numeral
import Dialogue.Text.Printable

/-!
# Quoted texts

A text between quotation marks in which every character is visible: printable characters stand for
themselves, all others and stray bytes are written as escapes.
-/

namespace Dialogue.Quoted

def controlLetter? (c : Char) : Option Char :=
  match c.toNat with
  | 0x07 => some 'a'
  | 0x08 => some 'b'
  | 0x09 => some 't'
  | 0x0A => some 'n'
  | 0x0B => some 'v'
  | 0x0C => some 'f'
  | 0x0D => some 'r'
  | _ => none

/-- A character as it stands between two marks `mark`. -/
def char (mark c : Char) : String :=
  if c = mark ∨ c = '\\' then String.ofList ['\\', c]
  else if Text.isPrintable c then c.toString
  else match controlLetter? c with
    | some letter => String.ofList ['\\', letter]
    | none =>
      if c.toNat < 0x80 then "\\x" ++ Numeral.lowerHex 2 c.toNat
      else if c.toNat < 0x10000 then "\\u" ++ Numeral.lowerHex 4 c.toNat
      else "\\U" ++ Numeral.lowerHex 8 c.toNat

def glyph (mark : Char) : Glyph → String
  | .char c => char mark c
  | .stray b => "\\x" ++ Numeral.lowerHex 2 b.toNat

def text (bs : Bytes) : String :=
  "\"" ++ String.join ((Text.glyphs bs).map (glyph '"')) ++ "\""

def single (c : Char) : String :=
  "'" ++ char '\'' c ++ "'"

end Dialogue.Quoted
