import Deathmatch.Digits

/-!
# Writing JSON

Objects are written without blanks. In texts, quotes, backslashes and control characters are
escaped.
-/

namespace Deathmatch.Json

/-- A character between quotes. -/
def spelled (c : Char) : List Char :=
  match c with
  | '"' => ['\\', '"']
  | '\\' => ['\\', '\\']
  | '\x08' => ['\\', 'b']
  | '\x0c' => ['\\', 'f']
  | '\n' => ['\\', 'n']
  | '\r' => ['\\', 'r']
  | '\t' => ['\\', 't']
  | _ => if c < ' ' then '\\' :: 'u' :: hexDigits 4 c.toNat else [c]

def writtenText (s : String) : String :=
  String.ofList ('"' :: s.toList.flatMap spelled ++ ['"'])

/-- An object, from the names of its members and their written values. -/
def writtenObject (members : List (String × String)) : String :=
  "\x7b" ++ ",".intercalate (members.map fun (name, v) => writtenText name ++ ":" ++ v) ++ "\x7d"

end Deathmatch.Json
