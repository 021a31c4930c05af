/-!
# TOML documents

A document is a table of keys and values. How a table came about decides what may still be added
to it: one with a header of its own is defined once, one that only a longer header or a dotted key
implies may still grow in the same way, and one written in braces is closed.
-/

namespace Deathmatch.Toml

/-- How a table came about. -/
inductive Origin where
  /-- The document itself, a table with a header, or a row of an array of tables. -/
  | header
  /-- Named as part of a longer header only. -/
  | implied
  /-- Named as part of a dotted key only. -/
  | dotted
  /-- Written in braces. -/
  | braces
  deriving DecidableEq

/-- A value. Of numbers with a fraction and of dates and times only the kind is kept. -/
inductive Value where
  | text (s : String)
  | integer (n : Int)
  | boolean (b : Bool)
  | float
  | moment
  | array (items : List Value)
  | table (origin : Origin) (entries : List (String × Value))
  /-- The rows of an array of tables, last first. -/
  | rows (tables : List (List (String × Value)))

abbrev Entries := List (String × Value)

namespace Entries

/-- Gives `key` the value `v`. -/
def set (key : String) (v : Value) : Entries → Entries
  | [] => [(key, v)]
  | (k, w) :: rest => if k = key then (k, v) :: rest else (k, w) :: set key v rest

/-- Adds a key that is not there yet. -/
def define (entries : Entries) (key : String) (v : Value) : Option Entries :=
  match entries.lookup key with
  | none => some (entries ++ [(key, v)])
  | some _ => none

/-- Changes the table at the end of the path of a header. Tables on the way that are missing are
implied; a row of tables leads into its last row. -/
def descend (change : Origin → Entries → Option Entries) :
    List String → Origin → Entries → Option Entries
  | [], origin, entries => change origin entries
  | key :: path, _, entries =>
    match entries.lookup key with
    | none => do
      let inner ← descend change path .implied []
      return entries ++ [(key, .table .implied inner)]
    | some (.table .braces _) => none
    | some (.table origin inner) => do
      let inner' ← descend change path origin inner
      return set key (.table origin inner') entries
    | some (.rows (last :: earlier)) => do
      let last' ← descend change path .header last
      return set key (.rows (last' :: earlier)) entries
    | some _ => none

/-- Defines a key by a dotted path, relative to a table. The table that takes the key belongs to
dotted keys alone; on the way there, tables that a header implies and rows are passed through. -/
def defineDotted (v : Value) (key : String) : List String → Entries → Option Entries
  | [], entries => entries.define key v
  | step :: path, entries =>
    match entries.lookup step with
    | none => do
      let inner ← defineDotted v key path []
      return entries ++ [(step, .table .dotted inner)]
    | some (.table origin inner) =>
      if origin = .dotted ∨ (origin = .implied ∧ path ≠ []) then do
        let inner' ← defineDotted v key path inner
        return set step (.table origin inner') entries
      else none
    | some (.rows (last :: earlier)) =>
      if path ≠ [] then do
        let last' ← defineDotted v key path last
        return set step (.rows (last' :: earlier)) entries
      else none
    | some _ => none

/-- Opens a table by its header. A table that so far is only implied becomes one of its own. -/
def openTable (path : List String) (key : String) (document : Entries) : Option Entries :=
  descend (fun _ entries =>
    match entries.lookup key with
    | none => some (entries ++ [(key, .table .header [])])
    | some (.table .implied inner) => some (set key (.table .header inner) entries)
    | some _ => none) path .header document

/-- Opens a row of an array of tables by its header. -/
def openRow (path : List String) (key : String) (document : Entries) : Option Entries :=
  descend (fun _ entries =>
    match entries.lookup key with
    | none => some (entries ++ [(key, .rows [[]])])
    | some (.rows tables) => some (set key (.rows ([] :: tables)) entries)
    | some _ => none) path .header document

end Entries

end Deathmatch.Toml
