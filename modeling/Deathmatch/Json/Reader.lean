import Deathmatch.Digits
import Deathmatch.Json.Value
import Deathmatch.Scan

/-!
# Reading JSON

`Json.read?` reads a text that is one value with nothing but blanks around it.
-/

namespace Deathmatch.Json

open Scan

def blanks : Scan Unit := do
  let _ ← many fun c => [' ', '\t', '\n', '\r'].contains c

/-! ## Texts -/

/-- A number of four hexadecimal digits. -/
def word : Scan Nat
  | cs =>
    let digits := cs.take 4
    if digits.length = 4 ∧ digits.all isHexDigit then some (ofDigits 16 digits, cs.drop 4) else none

/-- The character of a word, or of two that make a pair. A word that is half of a pair stands for
no character of its own. -/
def escapedWord : Scan Char := do
  let high ← word
  let code ← if 0xd800 ≤ high ∧ high < 0xdc00 then do
      text "\\u"
      let low ← word
      if 0xdc00 ≤ low ∧ low < 0xe000 then
        pure (0x10000 + (high - 0xd800) * 1024 + (low - 0xdc00))
      else failure
    else pure high
  if h : code.isValidChar then return Char.ofNatAux code h else failure

/-- The character that an escape stands for, after the backslash. -/
def escaped : Scan Char := do
  match ← one fun _ => true with
  | '"' => return '"'
  | '\\' => return '\\'
  | '/' => return '/'
  | 'b' => return '\x08'
  | 'f' => return '\x0c'
  | 'n' => return '\n'
  | 'r' => return '\r'
  | 't' => return '\t'
  | 'u' => escapedWord
  | _ => failure

def string : Scan String := do
  char '"'
  let cs ← collect do
    match ← one fun c => decide (' ' ≤ c) with
    | '"' => return none
    | '\\' => some <$> escaped
    | c => return some c
  return String.ofList cs

/-! ## Numbers -/

/-- A number: digits without superfluous zeros, perhaps a fraction, perhaps an exponent. -/
def number : Scan Unit := do
  let _ ← maybe (char '-')
  (char '0') <|> (do
    let _ ← one fun c => c.isDigit && c ≠ '0'
    let _ ← many Char.isDigit)
  let _ ← maybeThen '.' (pure ())
  let _ ← maybeThen 'e' exponentSign <|> maybeThen 'E' exponentSign
where
  exponentSign : Scan Unit := do
    let _ ← maybe (char '+' <|> char '-')
  /-- Digits after a mark and what `lead` reads, if the mark is there. -/
  maybeThen (mark : Char) (lead : Scan Unit) : Scan Unit := do
    match ← peek with
    | some c =>
      if c = mark then do
        char mark
        lead
        let _ ← some1 Char.isDigit
    | none => pure ()

/-! ## Values -/

/-- Items with commas between them, up to `close`. -/
def separated {α : Type} (item : Scan α) (close : Char) : Scan (List α) := do
  blanks
  (do char close; return []) <|> (do
    let first ← item
    let rest ← collect do
      blanks
      match ← one fun c => c = ',' || c = close with
      | ',' => blanks; some <$> item
      | _ => return none
    return first :: rest)

/-- A name, a colon and what `value` reads. -/
def member {α : Type} (value : Scan α) : Scan (String × α) := do
  let name ← string
  blanks
  char ':'
  blanks
  return (name, ← value)

/-- A value in which fewer than `depth` brackets are open at once. -/
def value : Nat → Scan Value
  | 0 => failure
  | depth + 1 => do
    match ← peek with
    | some '\x7b' => do
      char '\x7b'
      .object <$> separated (member (value depth)) '\x7d'
    | some '[' => do
      char '['
      .array <$> separated (value depth) ']'
    | some '"' => .text <$> string
    | some 't' => do text "true"; return .boolean true
    | some 'f' => do text "false"; return .boolean false
    | some 'n' => do text "null"; return .null
    | _ => do number; return .number

/-- The value that a text spells. -/
def read? (s : String) : Option Value :=
  Scan.whole (do
    blanks
    let v ← value (s.length + 1)
    blanks
    return v) s

end Deathmatch.Json
