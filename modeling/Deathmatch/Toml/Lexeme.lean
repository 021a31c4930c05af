import Deathmatch.Digits
import Deathmatch.Scan

/-!
# The words of a TOML document

Texts in their four spellings, numbers, and dates and times. A text spelled in double quotes may
hold escapes, one in single quotes holds what stands there; with three quotes it may run over
several lines.
-/

namespace Deathmatch.Toml

open Scan

/-! ## Characters -/

def isBlank (c : Char) : Bool :=
  c = ' ' || c = '\t'

/-- A character that may stand in a line as it is: a tab, or any that is no control character. -/
def isPlain (c : Char) : Bool :=
  c = '\t' || (decide (' ' ≤ c) && c ≠ '\x7f')

def blanks : Scan Unit := do
  let _ ← many isBlank

/-- The end of a line. -/
def newline : Scan Unit :=
  text "\n" <|> text "\r\n"

def comment : Scan Unit := do
  char '#'
  let _ ← many isPlain

/-! ## Texts -/

/-- The character with a number written in `n` hexadecimal digits. -/
def codePoint (n : Nat) : Scan Char
  | cs =>
    let digits := cs.take n
    let code := ofDigits 16 digits
    if digits.length = n ∧ digits.all isHexDigit then
      if h : code.isValidChar then some (Char.ofNatAux code h, cs.drop n) else none
    else none

/-- The character that an escape stands for, after the backslash. -/
def escaped : Scan Char := do
  match ← one fun _ => true with
  | 'b' => return '\x08'
  | 't' => return '\t'
  | 'n' => return '\n'
  | 'f' => return '\x0c'
  | 'r' => return '\r'
  | '"' => return '"'
  | '\\' => return '\\'
  | 'u' => codePoint 4
  | 'U' => codePoint 8
  | _ => failure

/-- A text between double quotes. -/
def basicText : Scan String := do
  char '"'
  let cs ← collect do
    match ← one isPlain with
    | '"' => return none
    | '\\' => some <$> escaped
    | c => return some c
  return String.ofList cs

/-- A text between single quotes. -/
def literalText : Scan String := do
  char '\''
  let cs ← many fun c => isPlain c && c ≠ '\''
  char '\''
  return String.ofList cs

/-- A run of at most two quotes, which belongs to the text. The run that ends the text has three
quotes, after at most two that belong to it; the three are left unread. -/
def quoteRun (quote : Char) : Scan (Option (List Char))
  | cs =>
    let n := (cs.takeWhile (· == quote)).length
    let kept := if n < 3 then n else n - 3
    if n = 0 || decide (5 < n) then none
    else if n = 3 then some (none, cs)
    else some (some (List.replicate kept quote), cs.drop kept)

/-- The rest of a line that ends in a backslash: the break, and all blanks and breaks after it. -/
def joinedLine : Scan Unit := do
  blanks
  newline
  let _ ← collect do
    match ← maybe (newline <|> (do let _ ← some1 isBlank)) with
    | some () => return some ()
    | none => return none

/-- A text between triple quotes of characters that `isText` accepts; `inner` reads what is special
in it. A break right after the opening quotes does not count, and every other counts as one line
feed. -/
def longText (quote : Char) (isText : Char → Bool) (inner : Scan (List Char)) : Scan String := do
  let fence := String.ofList [quote, quote, quote]
  text fence
  let _ ← maybe newline
  let cs ← collect do
    quoteRun quote
      <|> (do newline; return some ['\n'])
      <|> (some <$> inner)
      <|> (do return some [← one fun c => isText c && c ≠ quote])
  text fence
  return String.ofList cs.flatten

def longBasicText : Scan String :=
  longText '"' (fun c => isPlain c && c ≠ '\\') do
    char '\\'
    (do return [← escaped]) <|> (do joinedLine; return [])

def longLiteralText : Scan String :=
  longText '\'' isPlain failure

/-- A text in any spelling. -/
def anyText : Scan String :=
  longBasicText <|> basicText <|> longLiteralText <|> literalText

/-! ## Numbers -/

/-- Digits, with single underscores between them. -/
def digitRun (isDigit : Char → Bool) : Scan (List Char) := do
  let first ← one isDigit
  let more ← collect do
    match ← maybe (one isDigit <|> (do char '_'; one isDigit)) with
    | some c => return some c
    | none => return none
  return first :: more

/-- A plus or a minus, if there is one; whether the number is negative. -/
def sign : Scan Bool := do
  match ← maybe (one fun c => c = '+' || c = '-') with
  | some c => return c = '-'
  | none => return false

/-- A decimal number without superfluous zeros in front: its sign and its digits. -/
def decimal : Scan (Bool × List Char) := do
  let negative ← sign
  match ← peek with
  | some '0' => do char '0'; return (negative, ['0'])
  | _ => return (negative, ← digitRun Char.isDigit)

/-- The integers of a document are those of 64 bits. -/
def bounded (n : Int) : Option Int :=
  if -9223372036854775808 ≤ n ∧ n ≤ 9223372036854775807 then some n else none

def integer : Scan Int := do
  let inBase (mark : String) (base : Nat) (isDigit : Char → Bool) : Scan Int := do
    text mark
    return ofDigits base (← digitRun isDigit)
  let n ← inBase "0x" 16 isHexDigit
    <|> inBase "0o" 8 isOctalDigit
    <|> inBase "0b" 2 (fun c => c = '0' || c = '1')
    <|> (do
      let (negative, digits) ← decimal
      let n : Int := ofDigits 10 digits
      return if negative then -n else n)
  StateT.lift (bounded n)

/-- Whether `digits` times ten to the power of `exponent` is too large for a double: it is nearer
to 2^1024 than to the largest double, or halfway. -/
def overflows (digits : List Char) (exponent : Int) : Bool :=
  let significant := digits.dropWhile (· == '0')
  let magnitude := (significant.length : Int) + exponent
  if significant.isEmpty || decide (magnitude < 300) then false
  else if 320 < magnitude then true
  else
    let limit := Nat.pow 2 1024 - Nat.pow 2 970
    let n := ofDigits 10 significant
    if 0 ≤ exponent then decide (limit ≤ n * Nat.pow 10 exponent.toNat)
    else decide (limit * Nat.pow 10 (-exponent).toNat ≤ n)

/-- A number with a fraction or an exponent, or one of the words for infinity and no number. A
positive number too large for a double is none. -/
def float : Scan Unit := do
  let exponent : Scan Int := do
    let _ ← one fun c => c = 'e' || c = 'E'
    let negative ← sign
    let n : Int := ofDigits 10 (← digitRun Char.isDigit)
    return if negative then -n else n
  let fraction : Scan (List Char) := do
    char '.'
    digitRun Char.isDigit
  let number : Scan Unit := do
    let (negative, digits) ← decimal
    let part ← maybe fraction
    let power ← maybe exponent
    if part.isNone && power.isNone then failure
    let tail := part.getD []
    if !negative && overflows (digits ++ tail) (power.getD 0 - tail.length) then failure
  number <|> (do let _ ← sign; text "inf" <|> text "nan")

/-! ## Dates and times -/

/-- A number of exactly `n` digits from `low` to `high`. -/
def fixedNumber (n low high : Nat) : Scan Nat
  | cs =>
    let digits := cs.take n
    let value := ofDigits 10 digits
    if digits.length = n ∧ digits.all Char.isDigit ∧ low ≤ value ∧ value ≤ high then
      some (value, cs.drop n)
    else none

def daysInMonth (year month : Nat) : Nat :=
  if month = 2 then
    if year % 4 = 0 ∧ (year % 100 ≠ 0 ∨ year % 400 = 0) then 29 else 28
  else if month = 4 ∨ month = 6 ∨ month = 9 ∨ month = 11 then 30
  else 31

def date : Scan Unit := do
  let year ← fixedNumber 4 0 9999
  char '-'
  let month ← fixedNumber 2 1 12
  char '-'
  let _ ← fixedNumber 2 1 (daysInMonth year month)

def timeOfDay : Scan Unit := do
  let _ ← fixedNumber 2 0 23
  char ':'
  let _ ← fixedNumber 2 0 59
  char ':'
  let _ ← fixedNumber 2 0 60
  let _ ← maybe do
    char '.'
    some1 Char.isDigit

def zone : Scan Unit :=
  (do let _ ← one fun c => c = 'Z' || c = 'z')
    <|> (do
      let _ ← one fun c => c = '+' || c = '-'
      let _ ← fixedNumber 2 0 23
      char ':'
      let _ ← fixedNumber 2 0 59)

/-- A date, a time, or a date with a time and perhaps a zone. -/
def moment : Scan Unit :=
  (do
    date
    let _ ← maybe do
      let _ ← one fun c => c = 'T' || c = 't' || c = ' '
      timeOfDay
      maybe zone)
    <|> timeOfDay

end Deathmatch.Toml
