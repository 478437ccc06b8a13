/-
# TOML values

The values of TOML 1.0, and the rules for building up a table from its written
parts. A table remembers how it was written, because that decides what may be
added to it later: a table with a header of its own is not reopened by a header
or by dotted keys, one that dotted keys made is extended by dotted keys only, and
an inline table is complete.
-/

namespace Conduit.Toml

/-- A real number as it is written. -/
inductive Real where
  /-- A sign, and digits times a power of ten. -/
  | finite (negative : Bool) (digits : Nat) (exponent : Int)
  /-- Infinity, with a sign. -/
  | infinite (negative : Bool)
  /-- Not a number. -/
  | nan
  deriving DecidableEq

/-- How a table was written. -/
inductive Origin where
  /-- In braces. -/
  | inline
  /-- With a header of its own. -/
  | header
  /-- Only as a part of the header of another table. -/
  | implied
  /-- By dotted keys. -/
  | dotted
  deriving DecidableEq

/-- A TOML value. -/
inductive Value where
  /-- A string. -/
  | string (s : String)
  /-- An integer. -/
  | integer (n : Int)
  /-- A real number. -/
  | real (r : Real)
  /-- A truth value. -/
  | boolean (b : Bool)
  /-- A date, a time, or both, as it is written. -/
  | moment (text : String)
  /-- An array. -/
  | array (items : List Value)
  /-- A table. -/
  | table (origin : Origin) (entries : List (String × Value))
  /-- An array of tables with headers. -/
  | tables (all : List (List (String × Value)))

/-- The entries of a table, in the order of their keys. -/
abbrev Entries := List (String × Value)

namespace Entries

/-- The value of a key. -/
def get? (key : String) : Entries → Option Value
  | [] => none
  | entry :: rest => if entry.1 = key then some entry.2 else get? key rest

/-- The entries with the value of a key replaced or added. -/
def put (key : String) (value : Value) : Entries → Entries
  | [] => [(key, value)]
  | entry :: rest => if entry.1 = key then (key, value) :: rest else entry :: put key value rest

end Entries

/-- A change of a table, which the rules may forbid. -/
abbrev Edit := Origin → Entries → Option (Origin × Entries)

/-- Changes the table at the end of a path, and makes the tables on the way that
are missing. Of an array of tables the last one is meant. -/
def reach (dotted : Bool) (edit : Edit) : (path : List String) → Edit
  | [], origin, entries => edit origin entries
  | key :: path, origin, entries =>
      match Entries.get? key entries with
      | none => do
          let (o, es) ← reach dotted edit path (if dotted then .dotted else .implied) []
          return (origin, Entries.put key (.table o es) entries)
      | some (.table .inline _) => none
      | some (.table o es) =>
          if dotted && o = .header then none
          else do
            let (o, es) ← reach dotted edit path o es
            return (origin, Entries.put key (.table o es) entries)
      | some (.tables all) => do
          let (_, es) ← reach dotted edit path .header (all.getLast?.getD [])
          return (origin, Entries.put key (.tables (all.dropLast ++ [es])) entries)
      | some _ => none

/-- Adds a key that the table does not have. A dotted path must have ended in a
table of dotted keys. -/
def addPair (dotted : Bool) (key : String) (value : Value) : Edit := fun origin entries =>
  if dotted ≠ (origin = .dotted : Bool) then none
  else if (Entries.get? key entries).isSome then none
  else some (origin, Entries.put key value entries)

/-- Gives a table its header, which it must not have yet. -/
def openTable (key : String) : Edit := fun origin entries =>
  match Entries.get? key entries with
  | none => some (origin, Entries.put key (.table .header []) entries)
  | some (.table .implied es) => some (origin, Entries.put key (.table .header es) entries)
  | some _ => none

/-- Adds a table to an array of tables. -/
def openElement (key : String) : Edit := fun origin entries =>
  match Entries.get? key entries with
  | none => some (origin, Entries.put key (.tables [[]]) entries)
  | some (.tables all) => some (origin, Entries.put key (.tables (all ++ [[]])) entries)
  | some _ => none

/-- A key as it is written: the parts between dots, of which there is at least
one. -/
structure Path where
  /-- All parts but the last. -/
  way : List String
  /-- The last part. -/
  last : String

/-- All parts of a key. -/
def Path.parts (p : Path) : List String := p.way ++ [p.last]

/-- The table with the value of a key added. -/
def addKey (path : Path) (value : Value) : Edit :=
  reach true (addPair (!path.way.isEmpty) path.last value) path.way

/-- The inline table with these keys. -/
def inlineTable (pairs : List (Path × Value)) : Option Value := do
  let (_, entries) ← pairs.foldlM
    (fun (origin, entries) (pair : Path × Value) => addKey pair.1 pair.2 origin entries)
    (Origin.header, ([] : Entries))
  return .table .inline entries

/-- A statement of a document. -/
inductive Statement where
  /-- The header of a table. -/
  | header (path : Path)
  /-- The header of an element of an array of tables. -/
  | element (path : Path)
  /-- A key and its value. -/
  | pair (path : Path) (value : Value)

/-- What the statements so far made: the document, and the table that is open. -/
structure Draft where
  /-- The document. -/
  entries : Entries := []
  /-- The parts of the key of the open table. -/
  current : List String := []

/-- Runs a change from the top of the document. -/
def Draft.edit (d : Draft) (change : Edit) : Option Draft := do
  let (_, entries) ← change .header d.entries
  return { d with entries }

/-- The document after one more statement. -/
def Draft.state (d : Draft) : Statement → Option Draft
  | .header path => do
      let d ← d.edit (reach false (openTable path.last) path.way)
      return { d with current := path.parts }
  | .element path => do
      let d ← d.edit (reach false (openElement path.last) path.way)
      return { d with current := path.parts }
  | .pair path value => d.edit (reach false (addKey path value) d.current)

/-- The document that the statements make. -/
def build (statements : List Statement) : Option Entries := do
  return (← statements.foldlM Draft.state {}).entries

end Conduit.Toml
