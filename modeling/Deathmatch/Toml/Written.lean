import Deathmatch.Digits

/-!
# Writing TOML

A text is written in the first spelling that shows it unchanged: between double quotes, between
single quotes, between three double quotes, between three single quotes. A text that no spelling
shows unchanged is written with escapes, over several lines if it has any. A list of two or more
items takes a line for each.
-/

namespace Deathmatch.Toml

/-- The length of the longest run of `c` in a text; `run` is the length of the run at hand. -/
def longestRun (c : Char) (run : Nat) : List Char → Nat
  | [] => run
  | d :: rest => if d = c then longestRun c (run + 1) rest else max run (longestRun c 0 rest)

/-- A control character that only an escape can show. Tabs and line feeds are none. -/
def needsEscape (c : Char) : Bool :=
  (decide (c < ' ') && c ≠ '\t' && c ≠ '\n') || c = '\x7f'

/-- A character between double quotes, apart from double quotes. -/
def spelled (long : Bool) (c : Char) : List Char :=
  match c with
  | '\x08' => ['\\', 'b']
  | '\t' => ['\\', 't']
  | '\n' => if long then ['\n'] else ['\\', 'n']
  | '\x0c' => ['\\', 'f']
  | '\r' => ['\\', 'r']
  | '\\' => ['\\', '\\']
  | _ => if needsEscape c then '\\' :: 'u' :: (hexDigits 4 c.toNat).map Char.toUpper else [c]

/-- Characters between double quotes. Up to `allowed` quotes in a row stand as they are; `run` of
them stand right before. -/
def spellAll (long : Bool) (allowed run : Nat) : List Char → List Char
  | [] => []
  | c :: rest =>
    if c = '"' then
      if run < allowed then '"' :: spellAll long allowed (run + 1) rest
      else '\\' :: '"' :: spellAll long allowed 0 rest
    else spelled long c ++ spellAll long allowed 0 rest

/-- A text as a value. -/
def writtenText (s : String) : String :=
  let cs := s.toList
  let hasBreak := cs.contains '\n'
  let escapes := cs.any needsEscape
  let backslash := cs.contains '\\'
  let doubles := longestRun '"' 0 cs
  let singles := longestRun '\'' 0 cs
  let opening := if hasBreak then ['\n'] else []
  let fence (c : Char) (body : List Char) : List Char :=
    [c, c, c] ++ opening ++ body ++ [c, c, c]
  let basic := '"' :: spellAll false 0 0 cs ++ ['"']
  let long := fence '"' (spellAll true 2 0 cs)
  String.ofList <|
    if !escapes && !backslash && doubles = 0 && !hasBreak then basic
    else if !escapes && singles = 0 && !hasBreak then '\'' :: cs ++ ['\'']
    else if !escapes && !backslash && decide (doubles ≤ 2) then long
    else if !escapes && decide (singles ≤ 2) then fence '\'' cs
    else if hasBreak then long
    else basic

/-- A list of texts as a value. -/
def writtenTexts (items : List String) : String :=
  match items.map writtenText with
  | [] => "[]"
  | [item] => "[" ++ item ++ "]"
  | items => "[\n" ++ String.join (items.map fun item => "    " ++ item ++ ",\n") ++ "]"

def writtenBool (b : Bool) : String :=
  if b then "true" else "false"

/-- A line with a key and a value. -/
def writtenLine (key written : String) : String :=
  key ++ " = " ++ written ++ "\n"

end Deathmatch.Toml
