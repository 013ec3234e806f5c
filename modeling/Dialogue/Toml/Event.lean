import Dialogue.Text.Numeral

/-!
# The grammar of TOML

A TOML text is read into a row of events: keys, values, the openings of tables, and the line ends
passed on the way. Choices are ordered, and a repetition takes all it can. A rule gives what it has
found together with the text behind it.
-/

namespace Dialogue.Toml

inductive Scalar where
  /-- The digits with their sign, without underscores. -/
  | integer (digits : List Char)
  /-- A number with a fraction or an exponent, without underscores. -/
  | float (text : List Char)
  | datetime (text : List Char)
  | boolean (b : Bool)
  /-- A string that stands for itself. -/
  | literal (text : List Char)
  /-- A string in which escapes have to be replaced. -/
  | escaped (raw : List Char)
  deriving DecidableEq

inductive Event where
  /-- A number of line ends. -/
  | lines (n : Nat)
  /-- The key of the value that follows. A key between quotes is still escaped. -/
  | key (raw : List Char)
  | scalar (v : Scalar)
  | arrayStart
  | arrayEnd
  | inlineStart
  | inlineEnd
  /-- The end of a key with its value. -/
  | pair
  /-- A table header: the keys, and the text between the brackets. -/
  | table (keys : List (List Char)) (written : List Char)
  /-- The header of a further table of an array. -/
  | arrayTable (keys : List (List Char)) (written : List Char)
  deriving DecidableEq

/-! ## Blanks and comments -/

def isBlank (c : Char) : Bool :=
  c == ' ' || c == '\t'

def isLineEnd (c : Char) : Bool :=
  c == '\r' || c == '\n'

def blanks (cs : List Char) : List Char :=
  cs.dropWhile isBlank

def lineEnds? (cs : List Char) : Option (Nat × List Char) :=
  match cs.takeWhile isLineEnd with
  | [] => none
  | ends => some (ends.length, cs.dropWhile isLineEnd)

/-- Skips blanks and line ends, and tells the number of the latter. -/
def blankLines (cs : List Char) : Nat × List Char :=
  let isSkipped (c : Char) := isBlank c || isLineEnd c
  (((cs.takeWhile isSkipped).filter isLineEnd).length, cs.dropWhile isSkipped)

def comment : List Char → List Char
  | '#' :: cs => cs.dropWhile fun c => c == '\t' || 0x20 ≤ c.toNat
  | cs => cs

def lineRest (cs : List Char) : List Char :=
  comment (blanks cs)

/-! ## Strings and keys -/

def isHex (c : Char) : Bool :=
  c.isDigit || ('a' ≤ c && c ≤ 'f') || ('A' ≤ c && c ≤ 'F')

/-- The length of a character between double quotes, which may be an escape. -/
def basicLength? : List Char → Option Nat
  | '\\' :: 'u' :: cs => if (cs.take 4).length = 4 ∧ (cs.take 4).all isHex then some 6 else none
  | '\\' :: 'U' :: cs => if (cs.take 8).length = 8 ∧ (cs.take 8).all isHex then some 10 else none
  | '\\' :: c :: _ => if c ∈ ['b', 't', 'n', 'f', 'r', '"', '/', '\\'] then some 2 else none
  | c :: _ => if 0x20 ≤ c.toNat ∧ c ≠ '"' ∧ c ≠ '\\' then some 1 else none
  | [] => none

/-- The number of characters that can stand between double quotes. The first `skip` of them belong
to an escape. -/
def basicRun : (skip : Nat) → List Char → Nat
  | _, [] => 0
  | skip + 1, _ :: cs => basicRun skip cs + 1
  | 0, c :: cs =>
    match basicLength? (c :: cs) with
    | none => 0
    | some n => basicRun (n - 1) cs + 1

def basicString? (cs : List Char) : Option (List Char × List Char) :=
  let n := basicRun 0 cs
  match cs.drop n with
  | '"' :: rest => some (cs.take n, rest)
  | _ => none

def literalString? (cs : List Char) : Option (List Char × List Char) :=
  let inside (c : Char) := c == '\t' || (0x20 ≤ c.toNat && c != '\'')
  match cs.dropWhile inside with
  | '\'' :: rest => some (cs.takeWhile inside, rest)
  | _ => none

/-- The text before three single quotes, and the number of line ends in it. -/
def longLiteral? : List Char → Option ((List Char × Nat) × List Char)
  | '\'' :: '\'' :: '\'' :: rest => some (([], 0), rest)
  | c :: cs =>
    if c == '\t' || 0x20 ≤ c.toNat || isLineEnd c then do
      let ((text, n), rest) ← longLiteral? cs
      some ((c :: text, if isLineEnd c then n + 1 else n), rest)
    else none
  | [] => none

/-- One item of a text between three double quotes: what is kept of it, the number of its line ends,
and its length less one. A backslash at the end of a line takes the blanks and line ends after it
along. -/
def longBasicItem? (cs : List Char) : Option (List Char × Nat × Nat) :=
  match basicLength? cs with
  | some n => some (cs.take n, 0, n - 1)
  | none =>
    match lineEnds? cs with
    | some (n, _) => some (cs.take n, n, n - 1)
    | none =>
      match cs with
      | '\\' :: rest =>
        (lineEnds? rest).map fun (_, _) =>
          let (n, behind) := blankLines rest
          ([], n, rest.length - behind.length)
      | _ => none

/-- The text before three double quotes, still escaped, and the number of line ends in it. -/
def longBasic? : List Char → Option ((List Char × Nat) × List Char)
  | [] => none
  | c :: cs =>
    match longBasicItem? (c :: cs) with
    | some (kept, n, skip) => do
      let ((text, m), rest) ← longBasic? (cs.drop skip)
      some ((kept ++ text, n + m), rest)
    | none =>
      match c :: cs with
      | '"' :: '"' :: '"' :: rest => some (([], 0), rest)
      | _ => none
termination_by cs => cs.length
decreasing_by
  simp only [List.length_drop, List.length_cons]
  omega

/-- A string. Line ends right behind the opening of a long one are dropped. -/
def string? (cs : List Char) : Option (List Event × List Char) :=
  let long (r : Option ((List Char × Nat) × List Char)) (f : List Char → Scalar) :=
    r.map fun ((text, n), rest) => ([Event.lines n, .scalar (f (text.dropWhile isLineEnd))], rest)
  let short (r : Option (List Char × List Char)) (f : List Char → Scalar) :=
    r.map fun (text, rest) => ([Event.scalar (f text)], rest)
  match cs with
  | '\'' :: '\'' :: '\'' :: rest =>
    long (longLiteral? rest) .literal <|> short (literalString? (cs.drop 1)) .literal
  | '\'' :: rest => short (literalString? rest) .literal
  | '"' :: '"' :: '"' :: rest =>
    long (longBasic? rest) .escaped <|> short (basicString? (cs.drop 1)) .escaped
  | '"' :: rest => short (basicString? rest) .escaped
  | _ => none

def isBareKey (c : Char) : Bool :=
  c.isAlphanum || c == '-' || c == '_'

/-- A key, as it is written. -/
def key? (cs : List Char) : Option (List Char × List Char) :=
  match cs.takeWhile isBareKey with
  | [] =>
    match cs with
    | '"' :: rest => (basicString? rest).map fun (text, rest) => ('"' :: text ++ ['"'], rest)
    | _ => none
  | name => some (name, cs.dropWhile isBareKey)

/-! ## Numbers and dates -/

def digits? : (n : Nat) → List Char → Option (List Char)
  | 0, cs => some cs
  | n + 1, c :: cs => if c.isDigit then digits? n cs else none
  | _ + 1, [] => none

def sign? (c : Char) : List Char → Option (List Char)
  | d :: cs => if d = c then some cs else none
  | [] => none

/-- Skips digits that may have single underscores between them. -/
def moreDigits : List Char → List Char
  | '_' :: c :: cs => if c.isDigit then moreDigits cs else '_' :: c :: cs
  | c :: cs => if c.isDigit then moreDigits cs else c :: cs
  | [] => []

def optionalSign : List Char → List Char
  | '+' :: cs | '-' :: cs => cs
  | cs => cs

/-- Skips an integer: a single digit, or more of them without a leading zero. -/
def integer? (cs : List Char) : Option (List Char) :=
  match optionalSign cs with
  | c :: rest =>
    if !c.isDigit then none
    else if c ≠ '0' ∧ (moreDigits rest).length < rest.length then some (moreDigits rest)
    else some rest
  | [] => none

def someDigits? (cs : List Char) : Option (List Char) :=
  (digits? 1 cs).map moreDigits

def fraction? (cs : List Char) : Option (List Char) :=
  (sign? '.' cs).bind someDigits?

def exponent? (cs : List Char) : Option (List Char) :=
  ((sign? 'e' cs <|> sign? 'E' cs).map optionalSign).bind someDigits?

/-- Skips a number with a fraction, an exponent, or both. -/
def float? (cs : List Char) : Option (List Char) := do
  let rest ← integer? cs
  match fraction? rest with
  | some rest => some ((exponent? rest).getD rest)
  | none => exponent? rest

/-- Skips hours, minutes and seconds, and a fraction of the seconds if there is one. -/
def clock? (cs : List Char) : Option (List Char) := do
  let cs ← digits? 2 cs >>= sign? ':' >>= digits? 2 >>= sign? ':' >>= digits? 2
  let fraction := do
    let rest ← sign? '.' cs >>= digits? 1
    some (rest.dropWhile Char.isDigit)
  some (fraction.getD cs)

def zone? (cs : List Char) : Option (List Char) :=
  sign? 'Z' cs <|>
    ((sign? '-' cs <|> sign? '+' cs) >>= digits? 2 >>= sign? ':' >>= digits? 2)

def datetime? (cs : List Char) : Option (List Char) :=
  let date := digits? 4 cs >>= sign? '-' >>= digits? 2 >>= sign? '-' >>= digits? 2
  match date with
  | some rest =>
    match sign? 'T' rest >>= clock? with
    | some rest => some ((zone? rest).getD rest)
    | none => some rest
  | none => clock? cs

/-! ## Values -/

def taken (cs rest : List Char) : List Char :=
  cs.take (cs.length - rest.length)

def scalar? (cs : List Char) : Option (List Event × List Char) :=
  match datetime? cs with
  | some rest => some ([.scalar (.datetime (taken cs rest))], rest)
  | none =>
    match float? cs with
    | some rest => some ([.scalar (.float ((taken cs rest).filter (· != '_')))], rest)
    | none =>
      match integer? cs with
      | some rest =>
        some ([.scalar (.integer ((taken cs rest).filter (· != '_')))], rest)
      | none =>
        match cs with
        | 't' :: 'r' :: 'u' :: 'e' :: rest => some ([.scalar (.boolean true)], rest)
        | 'f' :: 'a' :: 'l' :: 's' :: 'e' :: rest => some ([.scalar (.boolean false)], rest)
        | _ => string? cs

/-- What may stand around a comma of an array: blanks and line ends, and a comment. -/
def arrayBlanks (cs : List Char) : Nat × List Char :=
  let (n, cs) := blankLines cs
  let (m, cs) := blankLines (comment cs)
  (n + m, cs)

mutual

/-- A value. The number bounds the depth of the search. -/
def value? : Nat → List Char → Option (List Event × List Char)
  | 0, _ => none
  | depth + 1, cs =>
    match cs with
    | '[' :: rest => do
      let (n, rest) := blankLines rest
      let (items, rest) := (items? depth rest).getD ([], rest)
      let (m, rest) := blankLines rest
      let rest ← sign? ']' rest
      some (.arrayStart :: .lines n :: items ++ [.lines m, .arrayEnd], rest)
    | '{' :: rest => do
      let (pairs, rest) := pairs depth (blanks rest)
      let rest ← sign? '}' (blanks rest)
      some (.inlineStart :: pairs ++ [.inlineEnd], rest)
    | _ => scalar? cs

/-- The items of an array, with a comma after the last if there is one. -/
def items? : Nat → List Char → Option (List Event × List Char)
  | 0, _ => none
  | depth + 1, cs => do
    let (first, rest) ← value? depth cs
    let (more, rest) := moreItems depth rest
    let (n, rest) := blankLines rest
    let (m, rest) := blankLines ((sign? ',' rest).getD rest)
    some (first ++ more ++ [.lines (n + m)], comment rest)

def moreItems : Nat → List Char → List Event × List Char
  | 0, cs => ([], cs)
  | depth + 1, cs =>
    let item := do
      let (n, rest) := arrayBlanks cs
      let rest ← sign? ',' rest
      let (m, rest) := arrayBlanks rest
      let (events, rest) ← value? depth rest
      some (.lines (n + m) :: events, rest)
    match item with
    | some (events, rest) =>
      let (more, rest) := moreItems depth rest
      (events ++ more, rest)
    | none => ([], cs)

/-- The pairs of an inline table, with or without commas between them. -/
def pairs : Nat → List Char → List Event × List Char
  | 0, cs => ([], cs)
  | depth + 1, cs =>
    match pair? depth cs with
    | some (events, rest) =>
      let behind := ((sign? ',' (blanks rest)).map blanks).getD rest
      let (more, rest) := pairs depth behind
      (events ++ more, rest)
    | none => ([], cs)

def pair? : Nat → List Char → Option (List Event × List Char)
  | 0, _ => none
  | depth + 1, cs => do
    let (key, rest) ← key? cs
    let rest ← sign? '=' (blanks rest)
    let (events, rest) ← value? depth (blanks rest)
    some (.key key :: events ++ [.pair], rest)

end

/-! ## Tables and whole texts -/

def moreKeys : Nat → List Char → List (List Char) × List Char
  | 0, cs => ([], cs)
  | bound + 1, cs =>
    match (sign? '.' (blanks cs)).map blanks >>= key? with
    | some (key, rest) =>
      let (keys, rest) := moreKeys bound rest
      (key :: keys, rest)
    | none => ([], cs)

def tableKeys? (cs : List Char) : Option ((List (List Char) × List Char) × List Char) := do
  let (key, rest) ← key? cs
  let (keys, rest) := moreKeys rest.length rest
  some ((key :: keys, taken cs rest), rest)

def header? (cs : List Char) : Option (Event × List Char) :=
  let table := do
    let cs ← sign? '[' cs
    let ((keys, written), rest) ← tableKeys? (blanks cs)
    let rest ← sign? ']' (blanks rest)
    some (Event.table keys written, rest)
  let arrayTable := do
    let cs ← sign? '[' cs >>= sign? '['
    let ((keys, written), rest) ← tableKeys? (blanks cs)
    let rest ← sign? ']' (blanks rest) >>= sign? ']'
    some (Event.arrayTable keys written, rest)
  table <|> arrayTable

/-- The pairs below a table header, on lines of their own or not. -/
def tablePairs : Nat → List Char → List Event × List Char
  | 0, cs => ([], cs)
  | bound + 1, cs =>
    let (n, rest) := blankLines cs
    match pair? (2 * rest.length + 2) rest with
    | some (events, rest) =>
      let (more, rest) := tablePairs bound (lineRest rest)
      (.lines n :: events ++ more, rest)
    | none => ([], cs)

def expression (cs : List Char) : List Event × List Char :=
  let cs := blanks cs
  match header? cs with
  | some (header, rest) =>
    let rest := lineRest rest
    let (pairs, rest) := tablePairs rest.length rest
    (header :: pairs, rest)
  | none =>
    match pair? (2 * cs.length + 2) cs with
    | some (events, rest) => (events, lineRest rest)
    | none => ([], comment cs)

def moreExpressions : Nat → List Char → List Event × List Char
  | 0, cs => ([], cs)
  | bound + 1, cs =>
    match lineEnds? cs with
    | some (n, rest) =>
      let (events, rest) := expression rest
      let (more, rest) := moreExpressions bound rest
      (.lines n :: events ++ more, rest)
    | none => ([], cs)

def events? (cs : List Char) : Option (List Event) :=
  let (first, rest) := expression cs
  let (more, rest) := moreExpressions rest.length rest
  if rest.isEmpty then some (first ++ more) else none

end Dialogue.Toml
