import Dialogue.Text.Numeral
import Dialogue.Text.Ranges
import Dialogue.Text.Space

/-!
# Names of characters

Characters can be written by their Unicode name. Which character a name belongs to is up to a table
of names, but for the unified ideographs, whose names are their numbers.
-/

namespace Dialogue.CharName

/-- A table of names: the character that a name in capitals belongs to. -/
class Names where
  char? : List Char → Option Char

def hanRanges : List (Nat × Nat) :=
  [(0x2E80, 0x2E99), (0x2E9B, 0x2EF3), (0x2F00, 0x2FD5), (0x3005, 0x3005), (0x3007, 0x3007),
    (0x3021, 0x3029), (0x3038, 0x303B), (0x3400, 0x4DBF), (0x4E00, 0x9FFF), (0xF900, 0xFA6D),
    (0xFA70, 0xFAD9), (0x16FE2, 0x16FE3), (0x16FF0, 0x16FF6), (0x20000, 0x2A6DF),
    (0x2A700, 0x2B81D), (0x2B820, 0x2CEAD), (0x2CEB0, 0x2EBE0), (0x2EBF0, 0x2EE5D),
    (0x2F800, 0x2FA1D), (0x30000, 0x3134A), (0x31350, 0x33479)]

/-- The start of the name of an ideograph. Its number in hexadecimal follows. -/
def ideographStem : List Char :=
  "CJK UNIFIED IDEOGRAPH-".toList

/-- The capital form of a character, as far as it is an ASCII letter. Beside the small ASCII letters
these are the dotless i and the long s. -/
def capital (c : Char) : Char :=
  if c = '\u0131' then 'I' else if c = '\u017f' then 'S' else c.toUpper

/-- A name as it is looked up: without white space at its ends, in capitals. -/
def normalize (name : List Char) : List Char :=
  (Text.strip Text.isSpace name).map capital

def ideograph? (digits : List Char) : Option Nat :=
  (Numeral.read? 16 (UInt32.size - 1) digits).filter (Text.inRanges hanRanges)

/-- The character with the given name. Case does not matter. -/
def lookup? [Names] (name : List Char) : Option Char :=
  let name := normalize name
  if ideographStem.isPrefixOf name then
    (ideograph? (name.drop ideographStem.length)).bind (Text.scalar? 0)
  else Names.char? name

end Dialogue.CharName
