import Dialogue.Listing.Basic
import Dialogue.Yaml.Scalar

/-!
# Listings as YAML

A listing as a YAML document. What is empty or zero is left out of the entries of the code.
-/

namespace Dialogue.Listing

def numberField (indent key : String) (n : Int) : String :=
  indent ++ key ++ ": " ++ Numeral.signed n ++ "\n"

def sectionField (key : String) (s : Section) : String :=
  "    " ++ key ++ ":\n" ++ numberField "        " "start" s.start.toNat
    ++ numberField "        " "size" s.size.toNat

def headerYaml (h : Header) : String :=
  "header:\n" ++ numberField "    " "header_size" h.headerSize.toNat
    ++ numberField "    " "version" h.version.toNat
    ++ numberField "    " "min_version" h.minVersion.toNat
    ++ numberField "    " "flags" h.flags.toNat
    ++ sectionField "data" h.data ++ sectionField "jumps" h.jumps ++ sectionField "code" h.code

/-- A key and a list of items, each given with its line end. -/
def listYaml (key : String) (items : List String) : String :=
  if items.isEmpty then key ++ ": []\n"
  else key ++ ":\n" ++ String.join (items.map ("    - " ++ ·))

/-- An entry of the code behind its dash. -/
def entryYaml (e : CodeEntry) : String :=
  let operand (v : UInt64) := "        - " ++ Numeral.decimal v.toNat ++ "\n"
  numberField "" "offset" e.offset ++ "      op: " ++ e.op.name ++ "\n"
    ++ numberField "      " "mode" e.mode.toNat
    ++ (if e.operands.isEmpty then ""
        else "      operands:\n" ++ String.join (e.operands.map operand))
    ++ (if e.comment.isEmpty then "" else "      comment: " ++ Yaml.scalar (Text.utf8 e.comment))
    ++ (if e.line = 0 then "" else numberField "      " "line" e.line)

def yaml (l : Listing) : String :=
  let jump (e : UInt64 × UInt64) := numberField "    " (Numeral.decimal e.1.toNat) e.2.toNat
  headerYaml l.header ++ listYaml "data" (l.data.map Yaml.scalar)
    ++ (if l.jumps.entries.isEmpty then ""
        else "jumps:\n" ++ String.join (l.jumps.entries.map jump))
    ++ listYaml "code" (l.code.map entryYaml)

end Dialogue.Listing
