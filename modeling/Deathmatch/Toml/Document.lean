import Deathmatch.Toml.Lexeme
import Deathmatch.Toml.Value

/-!
# Reading a document

A document is a sequence of lines: blank lines and comments, headers, and keys with their values.
`read?` gives the table that they define together, or nothing if a line is malformed or defines
what is already defined.
-/

namespace Deathmatch.Toml

open Scan

/-! ## Keys -/

def isBareKey (c : Char) : Bool :=
  c.isAlphanum || c = '-' || c = '_'

def simpleKey : Scan String :=
  basicText <|> literalText <|> (String.ofList <$> some1 isBareKey)

/-- A key with blanks around it. -/
def paddedKey : Scan String := do
  blanks
  let key ← simpleKey
  blanks
  return key

/-- A dotted key has fewer steps than this, and fewer brackets are open at once. -/
def maxDepth : Nat := 80

/-- The steps of a dotted key: those before the last, and the last. -/
def dottedKey : Scan (List String × String) := do
  let first ← paddedKey
  let more ← collect do
    match ← maybe (char '.') with
    | some () => some <$> paddedKey
    | none => return none
  let steps := first :: more
  if maxDepth ≤ steps.length then failure
  return (steps.dropLast, steps.getLastD first)

/-! ## Values -/

/-- Blanks, breaks and whole comments. -/
def spaces : Scan Unit := do
  let _ ← collect do
    match ← peek with
    | some ' ' | some '\t' => some <$> blanks
    | some '\n' | some '\r' => some <$> newline
    | some '#' => do comment; newline; return some ()
    | _ => return none

/-- A value that holds no others. -/
def plainValue : Scan Value := do
  match ← peek with
  | some '"' | some '\'' => .text <$> anyText
  | some 't' => do text "true"; return .boolean true
  | some 'f' => do text "false"; return .boolean false
  | _ => (do moment; return .moment) <|> (do float; return .float) <|> (.integer <$> integer)

/-- The table that braces with these dotted keys and values make. -/
def braced (pairs : List ((List String × String) × Value)) : Option Value := do
  let entries ← pairs.foldlM (fun (entries : Entries) ((path, key), v) =>
    entries.defineDotted v key path) []
  return .table .braces entries

/-- Items with commas between them, up to and with `close`. Only with `trailing` may a comma stand
after the last. -/
def separated {α : Type} (item : Scan α) (space : Scan Unit) (close : Char) (trailing : Bool) :
    Scan (List α) := do
  space
  if (← peek) = some close then
    char close
    return []
  let first ← item
  let more ← collect do
    space
    if (← peek) = some ',' then
      char ','
      space
      if trailing && (← peek) = some close then return none
      some <$> item
    else return none
  space
  char close
  return first :: more

/-- A dotted key, its value, and blanks around all of them. -/
def pairOf (value : Scan Value) : Scan ((List String × String) × Value) := do
  let key ← dottedKey
  char '='
  blanks
  let v ← value
  blanks
  return (key, v)

/-- A value in which at most `depth` brackets are open at once. -/
def value : Nat → Scan Value
  | 0 => plainValue
  | depth + 1 => do
    match ← peek with
    | some '[' => do
      char '['
      .array <$> separated (value depth) spaces ']' true
    | some '\x7b' => do
      char '\x7b'
      let pairs ← separated (pairOf (value depth)) blanks '\x7d' false
      StateT.lift (braced pairs)
    | _ => plainValue

/-! ## Lines -/

inductive Line where
  | pair (path : List String) (key : String) (v : Value)
  /-- The header of a table. -/
  | table (path : List String) (key : String)
  /-- The header of a row of an array of tables. -/
  | row (path : List String) (key : String)

/-- The rest of a line: blanks, perhaps a comment, and the end of the line or the document. -/
def lineEnd : Scan Unit := do
  blanks
  let _ ← maybe comment
  newline <|> atEnd

def header : Scan Line :=
  (do
    text "[["
    let (path, key) ← dottedKey
    text "]]"
    return .row path key)
  <|> (do
    char '['
    let (path, key) ← dottedKey
    char ']'
    return .table path key)

/-- The next line that defines something, with nothing but blank lines and comments before it. -/
def nextLine : Scan (Option (Option Line)) := do
  blanks
  match ← peek with
  | none => return none
  | some '\n' | some '\r' | some '#' => do lineEnd; return some none
  | some '[' => do
    let line ← header
    lineEnd
    return some (some line)
  | some _ => do
    let ((path, key), v) ← pairOf (value (maxDepth - 1))
    lineEnd
    return some (some (.pair path key v))

/-- All lines that define something. -/
def lines : Scan (List Line) := do
  let _ ← maybe (char '\ufeff')
  let found ← collect nextLine
  return found.filterMap id

/-- The document with one more line. `current` is the path of the table whose header came last. -/
def define (document : Entries) (current : List String) : Line → Option (Entries × List String)
  | .pair path key v => do
    let document ← Entries.descend (fun _ => Entries.defineDotted v key path) current .header document
    return (document, current)
  | .table path key => do return (← document.openTable path key, path ++ [key])
  | .row path key => do return (← document.openRow path key, path ++ [key])

/-- The table that a document defines, if it is well formed. -/
def read? (s : String) : Option Entries := do
  let found ← Scan.whole lines s
  let (document, _) ← found.foldlM (fun (document, current) line => define document current line)
    (([], []) : Entries × List String)
  return document

end Deathmatch.Toml
