import Dialogue.Text.Utf8
import Dialogue.Toml.Event

/-!
# TOML documents

The tables and values of a TOML text, each with the line it stands on. Tables may be opened once,
and keys may be given once.
-/

namespace Dialogue.Toml

/-- A value of a document. The items of arrays are not kept. -/
inductive Value where
  | integer (digits : List Char)
  | float (text : List Char)
  | datetime (text : List Char)
  | boolean (b : Bool)
  | string (text : List Char)
  | array
  deriving DecidableEq

/-- A step from a table to one of its parts: a name, and which of the tables with this name. -/
abbrev Path := List (List Char × Nat)

inductive Node where
  | value (line : Nat) (v : Value)
  /-- A table, and whether it has a header of its own. -/
  | table (line : Nat) (hasHeader : Bool)
  /-- An array of tables: the line of the first, and how many there are. -/
  | tables (line count : Nat)
  deriving DecidableEq

def Node.line : Node → Nat
  | value line _ | table line _ | tables line _ => line

inductive Fault where
  | grammar
  /-- An escape of a string stands for no character. -/
  | badEscape
  | tableMeetsTables (name : List Char) (line : Nat)
  | tableMeetsTable (name : List Char) (line : Nat)
  | tableMeetsValue (name : List Char) (line : Nat)
  | tablesMeetTable (name : List Char) (line : Nat)
  | tablesMeetValue (name : List Char) (line : Nat)
  | keyMeetsTable (name : List Char) (line : Nat)
  | keyMeetsTables (name : List Char)
  | keyMeetsKey (name : List Char) (line : Nat)
  /-- A part of a table header is the name of a value. -/
  | pathMeetsValue (name : List Char) (line : Nat)
  deriving DecidableEq

def Fault.message : Fault → String
  | grammar => "invalid TOML syntax"
  | badEscape => "invalid syntax"
  | tableMeetsTables name line => conflict "table" name "array table in line " line
  | tableMeetsTable name line => conflict "table" name "table in line " line
  | tableMeetsValue name line => conflict "table" name "line " line
  | tablesMeetTable name line => conflict "array table" name "table in line " line
  | tablesMeetValue name line => conflict "array table" name "line " line
  | keyMeetsTable name line => conflict "key" name "table in line " line
  | keyMeetsTables name =>
    "BUG: key `" ++ String.ofList name
      ++ "' is in conflict but it's unknown type `[]*ast.Table'"
  | keyMeetsKey name line =>
    "key `" ++ String.ofList name ++ "' is in conflict with line " ++ Numeral.lowerHex 1 line ++ "d"
  | pathMeetsValue name line => conflict "key" name "line " line
where
  conflict (what : String) (name : List Char) (other : String) (line : Nat) : String :=
    what ++ " `" ++ String.ofList name ++ "' is in conflict with " ++ other ++ Numeral.decimal line

/-- A fault with the line it stands on. Faults of the grammar have no line. -/
structure Error where
  line : Option Nat
  fault : Fault
  deriving DecidableEq

/-- A text with its escapes replaced. The first `skip` characters belong to the escape before. -/
def unescape? : (skip : Nat) → List Char → Option (List Char)
  | _, [] => some []
  | skip + 1, _ :: cs => unescape? skip cs
  | 0, '\\' :: c :: cs =>
    let numbered (k : Nat) := do
      let n ← Numeral.read? 16 (UInt32.size - 1) (cs.take k)
      let char ← Text.scalar? 0 n
      (unescape? (k + 1) (c :: cs)).map (char :: ·)
    let single (char : Char) := (unescape? 1 (c :: cs)).map (char :: ·)
    match c with
    | 'b' => single '\x08'
    | 't' => single '\t'
    | 'n' => single '\n'
    | 'f' => single '\x0c'
    | 'r' => single '\r'
    | '"' => single '"'
    | '\\' => single '\\'
    | 'u' => numbered 4
    | 'U' => numbered 8
    | _ => none
  | 0, c :: cs => (unescape? 0 cs).map (c :: ·)

structure Builder where
  line : Nat := 1
  nodes : List (Path × Node) := []
  /-- The table that keys belong to. -/
  current : Path := []
  key : List Char := []
  value : Value := .array
  /-- The number of arrays that are open. -/
  arrays : Nat := 0
  /-- The keys and tables around the inline tables that are open. -/
  outer : List (List Char × Path) := []
  /-- The value was an inline table, which is a node already. -/
  isPlaced : Bool := false

namespace Builder

def fail {α : Type} (b : Builder) (fault : Fault) : Except Error α :=
  .error ⟨some b.line, fault⟩

def node? (b : Builder) (table : Path) (name : List Char) : Option Node :=
  (b.nodes.find? fun e => e.1 == table ++ [(name, 0)]).map Prod.snd

def put (b : Builder) (table : Path) (name : List Char) (node : Node) : Builder :=
  let path := table ++ [(name, 0)]
  if b.nodes.any (·.1 == path) then
    { b with nodes := b.nodes.map fun e => if e.1 == path then (path, node) else e }
  else { b with nodes := b.nodes ++ [(path, node)] }

/-- The table at the end of a row of names. Tables that are missing are made. -/
def descend (b : Builder) (table : Path) : List (List Char) → Except Error (Builder × Path)
  | [] => .ok (b, table)
  | name :: names =>
    match b.node? table name with
    | none => (b.put table name (.table b.line false)).descend (table ++ [(name, 0)]) names
    | some (.table _ _) => b.descend (table ++ [(name, 0)]) names
    | some (.tables _ count) => b.descend (table ++ [(name, count - 1)]) names
    | some (.value line _) => b.fail (.pathMeetsValue name line)

/-- Opens a table in the table `parent`. One that was only made on the way to another is taken
over. -/
def openTable (b : Builder) (parent : Path) (name written : List Char) (hasHeader : Bool) :
    Except Error Builder :=
  let opened : Builder :=
    { b.put parent name (.table b.line hasHeader) with current := parent ++ [(name, 0)] }
  match b.node? parent name with
  | none | some (.table _ false) => .ok opened
  | some (.table line true) => b.fail (.tableMeetsTable written line)
  | some (.tables line _) => b.fail (.tableMeetsTables written line)
  | some (.value line _) => b.fail (.tableMeetsValue written line)

def openArrayTable (b : Builder) (parent : Path) (name written : List Char) :
    Except Error Builder :=
  let opened (line count : Nat) : Builder :=
    { b.put parent name (.tables line (count + 1)) with current := parent ++ [(name, count)] }
  match b.node? parent name with
  | none => .ok (opened b.line 0)
  | some (.tables line count) => .ok (opened line count)
  | some (.table line _) => b.fail (.tablesMeetTable written line)
  | some (.value line _) => b.fail (.tablesMeetValue written line)

def text (b : Builder) (raw : List Char) : Except Error (List Char) :=
  match unescape? 0 raw with
  | some cs => .ok cs
  | none => b.fail .badEscape

def name (b : Builder) (raw : List Char) : Except Error (List Char) :=
  match raw with
  | '"' :: rest => b.text rest.dropLast
  | _ => .ok raw

def scalarValue (b : Builder) : Scalar → Except Error Value
  | .integer digits => .ok (.integer digits)
  | .float text => .ok (.float text)
  | .datetime text => .ok (.datetime text)
  | .boolean v => .ok (.boolean v)
  | .literal cs => .ok (.string cs)
  | .escaped raw => (b.text raw).map .string

/-- Adds the key with its value to the current table, unless it is there as an inline table. -/
def addPair (b : Builder) : Except Error Builder :=
  if b.isPlaced then .ok { b with isPlaced := false }
  else match b.node? b.current b.key with
    | none => .ok (b.put b.current b.key (.value b.line b.value))
    | some (.table line _) => b.fail (.keyMeetsTable b.key line)
    | some (.tables _ _) => b.fail (.keyMeetsTables b.key)
    | some (.value line _) => b.fail (.keyMeetsKey b.key line)

/-- Finds the table that a header is about: the one it is a part of, and its own name. -/
def locate (b : Builder) (keys : List (List Char)) :
    Except Error (Builder × Path × List Char) := do
  let names ← keys.mapM b.name
  let (b, parent) ← b.descend [] names.dropLast
  return (b, parent, names.getLast?.getD [])

def step (b : Builder) : Event → Except Error Builder
  | .lines n => .ok { b with line := b.line + n }
  | .key raw => (b.name raw).map fun key => { b with key := key }
  | .scalar v => (b.scalarValue v).map fun value => { b with value := value }
  | .arrayStart => .ok { b with arrays := b.arrays + 1 }
  | .arrayEnd => .ok { b with arrays := b.arrays - 1, value := .array }
  | .inlineStart =>
    let b := { b with outer := (b.key, b.current) :: b.outer, isPlaced := false }
    if b.arrays = 0 then b.openTable b.current b.key b.key false
    else b.openArrayTable b.current b.key b.key
  | .inlineEnd =>
    match b.outer with
    | (key, table) :: outer =>
      .ok { b with key := key, current := table, outer := outer, isPlaced := true }
    | [] => .ok b
  | .pair => b.addPair
  | .table keys written => do
    let (b, parent, name) ← b.locate keys
    b.openTable parent name written true
  | .arrayTable keys written => do
    let (b, parent, name) ← b.locate keys
    b.openArrayTable parent name written

end Builder

/-- A document: the nodes by their paths, in the order in which they were made. -/
abbrev Document := List (Path × Node)

def parse (cs : List Char) : Except Error Document :=
  match events? cs with
  | none => .error ⟨none, .grammar⟩
  | some events => do
    let b ← events.foldlM Builder.step {}
    return b.nodes

def Document.fields (d : Document) (table : Path) : List (List Char × Node) :=
  d.filterMap fun (path, node) =>
    match path.getLast? with
    | some (name, _) => if path == table ++ [(name, 0)] then some (name, node) else none
    | none => none

end Dialogue.Toml
