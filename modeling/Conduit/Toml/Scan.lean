/-
# Reading the pieces of a document

A scanner reads something from the front of the characters that are left, or
refuses them. Here are the scanners of blanks, comments, keys, strings and
values. Arrays and inline tables may be nested to a certain depth, and a key may
have a certain number of parts.
-/

import Conduit.Toml.Scalar

namespace Conduit.Toml

/-- Reads something from the front of the characters that are left. -/
abbrev Scan := StateT (List Char) Option

namespace Scan

variable {α : Type}

/-- The next character, if there is one. -/
def peek : Scan (Option Char) := do return (← get).head?

/-- The characters up to the first one that does not pass. -/
def run (p : Char → Bool) : Scan (List Char) := fun cs => some (cs.takeWhile p, cs.dropWhile p)

/-- Reads this character. -/
def char (c : Char) : Scan Unit := fun cs =>
  match cs with
  | [] => none
  | d :: rest => if d = c then some ((), rest) else none

/-- Reads these characters, if they are next; tells whether they were. -/
def tryChars (expected : List Char) : Scan Bool := fun cs =>
  if expected.isPrefixOf cs then some (true, cs.drop expected.length) else some (false, cs)

/-- Reads pieces as long as a test of the next character asks for one, each of which
must take at least one character. -/
def whileNext (wanted : Option Char → Bool) (piece : Scan α) : Scan (List α) := fun cs =>
  go cs.length cs
where
  /-- The pieces, of which there are no more than characters. -/
  go : Nat → Scan (List α)
    | 0 => return []
    | bound + 1 => do
        if wanted (← peek) then
          let a ← piece
          return a :: (← go bound)
        else return []

/-! ### Blanks, line ends and comments -/

/-- Tells whether a character is a blank. -/
def isSpace (c : Char) : Bool := c = ' ' || c = '\t'

/-- Tells whether a character may stand in comments and strings: no control
character but the tab. -/
def isText (c : Char) : Bool := c = '\t' || (0x20 ≤ c.toNat && c.toNat ≠ 0x7F)

/-- Skips blanks. -/
def spaces : Scan Unit := do let _ ← run isSpace

/-- Reads the end of a line. -/
def newline : Scan Unit := do
  if ← tryChars ['\r', '\n'] then return () else char '\n'

/-- Reads a comment up to the end of its line. -/
def comment : Scan Unit := do
  char '#'
  let _ ← run isText

/-- Skips what may follow a statement on its line, and ends the line. -/
def lineEnd : Scan Unit := do
  spaces
  if (← peek) = some '#' then comment
  if (← peek).isSome then newline

/-- Tells whether a blank, a line end or a comment comes next. -/
def isGap : Option Char → Bool
  | some c => isSpace c || c = '\n' || c = '\r' || c = '#'
  | none => false

/-- Skips blanks, line ends, and comments with their line ends. -/
def gap : Scan Unit := do
  let _ ← whileNext isGap do
    match ← peek with
    | some '#' =>
        comment
        newline
    | some c => if isSpace c then spaces else newline
    | none => failure

/-! ### Strings -/

/-- The character with the code that these digits are. -/
def scalarOf (cs : List Char) : Option Char := do
  let ds ← cs.mapM digit?
  let code := number 16 ds
  if h : code.isValidChar then some (Char.ofNatAux code h) else none

/-- The character that follows a backslash with a meaning of its own. -/
def escape : Scan Char := fun cs =>
  match cs with
  | [] => none
  | c :: rest =>
      match c with
      | 'b' => some ('\x08', rest)
      | 't' => some ('\t', rest)
      | 'n' => some ('\n', rest)
      | 'f' => some ('\x0C', rest)
      | 'r' => some ('\r', rest)
      | '"' => some ('"', rest)
      | '\\' => some ('\\', rest)
      | 'u' =>
          if rest.length < 4 then none
          else (scalarOf (rest.take 4)).map fun c => (c, rest.drop 4)
      | 'U' =>
          if rest.length < 8 then none
          else (scalarOf (rest.take 8)).map fun c => (c, rest.drop 8)
      | _ => none

/-- One piece of a string on one line between double quotes. -/
def basicPiece : Scan Char := do
  match ← peek with
  | some '\\' =>
      char '\\'
      escape
  | some c =>
      if isText c then
        char c
        return c
      else failure
  | none => failure

/-- A string on one line between double quotes. -/
def basicString : Scan String := do
  char '"'
  let cs ← whileNext (· ≠ some '"') basicPiece
  char '"'
  return String.ofList cs

/-- A string on one line between single quotes, taken as it is. -/
def literalString : Scan String := do
  char '\''
  let cs ← run fun c => isText c && c ≠ '\''
  char '\''
  return String.ofList cs

/-- Three times the quote. -/
def fence (quote : Char) : List Char := [quote, quote, quote]

/-- Tells whether a character may stand in a blank line. -/
def isSpaceOrNewline : Option Char → Bool
  | some c => isSpace c || c = '\n' || c = '\r'
  | none => false

/-- Skips blanks and line ends. -/
def blankLines : Scan Unit := do
  let _ ← whileNext isSpaceOrNewline do
    match ← peek with
    | some c => if isSpace c then spaces else newline
    | none => failure

/-- What follows a backslash in a string of several lines: an escape, or the end of
the line, which is skipped with the blanks and lines behind it. -/
def longEscape : Scan (List Char) := do
  match ← peek with
  | some c =>
      if isSpace c || c = '\n' || c = '\r' then
        spaces
        newline
        blankLines
        return []
      else return [← escape]
  | none => failure

/-- One piece of a string of several lines. Quotes are pieces of their own. -/
def longPiece (quote : Char) : Scan (List Char) := do
  match ← peek with
  | some c =>
      if c = '\n' || c = '\r' then
        newline
        return ['\n']
      else if c = '\\' && quote = '"' then
        char '\\'
        longEscape
      else if isText c then
        char c
        return [c]
      else failure
  | none => failure

/-- The rest of a string of several lines. Three quotes end it; of up to two more
before them each is part of the string. -/
def longBody (quote : Char) : Nat → Scan (List Char)
  | 0 => failure
  | bound + 1 => do
      let quotes ← run (· = quote)
      let count := quotes.length
      if count ≥ 3 then
        modify (List.replicate (count - 5) quote ++ ·)
        return List.replicate (min count 5 - 3) quote
      else
        let piece ← longPiece quote
        return quotes ++ piece ++ (← longBody quote bound)

/-- A string of several lines. A line end right behind the opening quotes does not
count. -/
def longString (quote : Char) : Scan String := do
  if ← tryChars (fence quote) then
    if !(← tryChars ['\r', '\n']) then
      let _ ← tryChars ['\n']
    let left := (← get).length
    return String.ofList (← longBody quote (left + 1))
  else failure

/-- A string of either quote, on one line or several. -/
def string : Scan String := do
  let cs ← get
  if (fence '"').isPrefixOf cs then longString '"'
  else if (fence '\'').isPrefixOf cs then longString '\''
  else if cs.head? = some '"' then basicString
  else literalString

/-! ### Keys -/

/-- Tells whether a character may stand in a key without quotes. -/
def isBare (c : Char) : Bool := c.isAlphanum || c = '_' || c = '-'

/-- One part of a key. -/
def keyPart : Scan String := do
  match ← peek with
  | some '"' => basicString
  | some '\'' => literalString
  | _ =>
      let cs ← run isBare
      if cs.isEmpty then failure
      return String.ofList cs

/-- The number of parts from which on a key is refused. -/
def partLimit : Nat := 80

/-- A key: parts between dots. -/
def key : Scan Path := do
  spaces
  let first ← keyPart
  spaces
  let more ← whileNext (· = some '.') do
    char '.'
    spaces
    let part ← keyPart
    spaces
    return part
  if more.length + 1 ≥ partLimit then failure
  let parts := first :: more
  return { way := parts.dropLast, last := more.getLast?.getD first }

/-! ### Values -/

/-- Tells whether a character may stand in a value that is one run. -/
def isRunChar (c : Char) : Bool :=
  c.isAlphanum || c = '_' || c = '+' || c = '-' || c = '.' || c = ':'

/-- A number, a truth value, a date or a time. A date and a time may have a blank
between them. -/
def scalar : Scan Value := do
  let cs ← run isRunChar
  let rest ← get
  match rest with
  | ' ' :: c :: _ =>
      if isDate cs && c.isDigit then
        char ' '
        let time ← run isRunChar
        StateT.lift (scalar? (cs ++ ' ' :: time))
      else StateT.lift (scalar? cs)
  | _ => StateT.lift (scalar? cs)

/-- The items of an array, each followed by a comma unless it is the last. -/
def items (item : Scan α) : Nat → Scan (List α)
  | 0 => failure
  | bound + 1 => do
      gap
      if ← tryChars [']'] then return []
      let a ← item
      gap
      if ← tryChars [','] then return a :: (← items item bound)
      char ']'
      return [a]

/-- A key and its value. -/
def pair (value : Scan Value) : Scan (Path × Value) := do
  let path ← key
  char '='
  spaces
  return (path, ← value)

/-- The further keys of an inline table, after a comma each. -/
def morePairs (value : Scan Value) : Scan (List (Path × Value)) := do
  let pairs ← whileNext (· = some ',') do
    char ','
    let p ← pair value
    spaces
    return p
  char '\x7d'
  return pairs

/-- The keys of an inline table, all on one line. -/
def pairs (value : Scan Value) : Scan (List (Path × Value)) := do
  spaces
  if ← tryChars ['\x7d'] then return []
  let first ← pair value
  spaces
  return first :: (← morePairs value)

/-- A value, given how to read the values inside arrays and inline tables, unless
there must be none. -/
def valueAround (inner : Option (Scan Value)) : Scan Value := do
  match ← peek with
  | some '"' => return .string (← string)
  | some '\'' => return .string (← string)
  | some '[' =>
      match inner with
      | none => failure
      | some inner =>
          char '['
          let left := (← get).length
          return .array (← items inner (left + 1))
  | some '\x7b' =>
      match inner with
      | none => failure
      | some inner =>
          char '\x7b'
          StateT.lift (inlineTable (← pairs inner))
  | _ => scalar

/-- A value in which arrays and inline tables are nested at most to this depth. -/
def value : (depth : Nat) → Scan Value
  | 0 => valueAround none
  | depth + 1 => valueAround (some (value depth))

/-- The greatest depth of arrays and inline tables. -/
def depthLimit : Nat := 79

/-! ### Documents -/

/-- The header of a table or of an element of an array of tables. -/
def header : Scan Statement := do
  char '['
  if ← tryChars ['['] then
    let path ← key
    char ']'
    char ']'
    return .element path
  else
    let path ← key
    char ']'
    return .header path

/-- What begins at this place of a document: a statement, or an empty line. -/
def line : Scan (Option Statement) := do
  spaces
  match ← peek with
  | none => return none
  | some c =>
      if c = '#' || c = '\n' || c = '\r' then
        lineEnd
        return none
      else if c = '[' then
        let statement ← header
        lineEnd
        return some statement
      else
        let (path, v) ← pair (value depthLimit)
        lineEnd
        return some (.pair path v)

/-- All statements of a document. A byte order mark in front does not count. -/
def document : Scan (List Statement) := do
  let _ ← tryChars ['\uFEFF']
  let lines ← whileNext Option.isSome line
  return lines.filterMap id

end Scan

/-- The table that a document is. -/
def parse? (text : String) : Option Entries := do
  let (statements, rest) ← Scan.document text.toList
  if rest.isEmpty then build statements else none

end Conduit.Toml
