import Deathmatch.Url.Escape

/-!
# Hosts in URLs

A host is a name or an address. The hosts of web schemes are read in full: escapes are resolved,
capitals become small letters, and a name whose last part is a number has to be an address of
four bytes. The hosts of other schemes stand as they are.
-/

namespace Deathmatch

inductive Host where
  | name (text : String)
  | v4 (address : UInt32)
  /-- Eight words. -/
  | v6 (words : List Nat)
  deriving DecidableEq

namespace Host

/-! ## Addresses of four bytes -/

/-- A number in base 8, 10 or 16, as its beginning says; a mere beginning counts as zero. -/
def number? (part : List Char) : Option Nat :=
  let inBase (base : Nat) (isDigit : Char → Bool) (digits : List Char) : Option Nat :=
    if digits.all isDigit then some (ofDigits base digits) else none
  match part with
  | [] => none
  | '0' :: 'x' :: digits | '0' :: 'X' :: digits => inBase 16 isHexDigit digits
  | '0' :: d :: digits => inBase 8 isOctalDigit (d :: digits)
  | digits => inBase 10 Char.isDigit digits

/-- The parts of a name between its dots. A dot at the end adds no part. -/
def parts (name : List Char) : List (List Char) :=
  let all := name.splitOn '.'
  if all.getLast? = some [] then all.dropLast else all

/-- Whether the last part of a name is a number, or consists of digits. -/
def endsInNumber (name : List Char) : Bool :=
  match (parts name).getLast? with
  | some last => (number? last).isSome || (!last.isEmpty && last.all Char.isDigit)
  | none => false

/-- The address that up to four numbers name: all but the last are its leading bytes, the last is
the rest of it. -/
def ofNumbers? (leading : List Nat) (last : Nat) : Option UInt32 :=
  let space := Nat.pow 256 (4 - leading.length)
  if leading.length < 4 ∧ leading.all (· < 256) ∧ last < space then
    some (UInt32.ofNat (leading.foldl (fun n byte => n * 256 + byte) 0 * space + last))
  else none

def v4? (name : List Char) : Option Host := do
  let numbers ← (parts name).mapM number?
  let last ← numbers.getLast?
  return .v4 (← ofNumbers? numbers.dropLast last)

/-! ## Addresses of eight words -/

/-- The two words that four decimal bytes between dots make. -/
def dottedWords? (text : List Char) : Option (List Nat) :=
  let byte? (part : List Char) : Option Nat :=
    let plain := !part.isEmpty && part.all Char.isDigit && (part.head? ≠ some '0' || part.length = 1)
    if plain && decide (ofDigits 10 part < 256) then some (ofDigits 10 part) else none
  match (text.splitOn '.').mapM byte? with
  | some [a, b, c, d] => some [a * 256 + b, c * 256 + d]
  | _ => none

/-- The words that a text with colons between them names; the last two may be written as four
bytes. The empty text names none. -/
def words? (text : List Char) : Option (List Nat) :=
  let word? (part : List Char) : Option Nat :=
    if !part.isEmpty && decide (part.length ≤ 4) && part.all isHexDigit then
      some (ofDigits 16 part)
    else none
  if text.isEmpty then some []
  else do
    let pieces := text.splitOn ':'
    let leading ← pieces.dropLast.mapM word?
    let last := pieces.getLastD []
    return leading ++ (← if last.contains '.' then dottedWords? last else (word? last).map ([·]))

/-- The ways to read a text as what stands before and after a pair of colons. -/
def cuts : List Char → List (List Char × List Char)
  | ':' :: ':' :: rest =>
    ([], rest) :: (cuts (':' :: rest)).map fun (before, after) => (':' :: before, after)
  | c :: rest => (cuts rest).map fun (before, after) => (c :: before, after)
  | [] => []

/-- An address of eight words, of which one run of zeros may be left out between two colons. -/
def v6? (text : List Char) : Option Host :=
  let whole := (words? text).filter fun words => words.length = 8
  let shortened := (cuts text).findSome? fun (before, after) => do
    if before.contains '.' then failure
    let leading ← words? before
    let trailing ← words? after
    let known := leading.length + trailing.length
    if 8 ≤ known then failure
    return leading ++ List.replicate (8 - known) 0 ++ trailing
  (whole.or shortened).map v6

/-! ## Names -/

/-- What no host may hold. -/
def isForbidden (c : Char) : Bool :=
  ['\x00', '\t', '\n', '\r', ' ', '#', '/', ':', '<', '>', '?', '@', '[', '\\', ']', '^',
    '|'].contains c

/-- What the name of a host of a web scheme may not hold. -/
def isForbiddenInName (c : Char) : Bool :=
  isForbidden c || decide (c < ' ') || c = '%' || c = '\x7f'

/-- The address between square brackets. -/
def bracketed? (text : List Char) : Option Host :=
  if text.getLast? = some ']' then v6? text.dropLast else none

/-- The host of a URL with a web scheme. Letters outside ASCII stand for themselves. -/
def ofText? (text : List Char) : Option Host :=
  match text with
  | '[' :: rest => bracketed? rest
  | _ => do
    let name := (← Text.ofBytes? (Url.unescape text)).toList.map Char.toLower
    if name.isEmpty || name.any isForbiddenInName then none
    else if endsInNumber name then v4? name
    else some (.name (String.ofList name))

/-- The host of a URL with another scheme; it may be empty. -/
def verbatim? (text : List Char) : Option Host :=
  match text with
  | '[' :: rest => bracketed? rest
  | _ =>
    if text.any isForbidden then none else some (.name (Url.escape Url.isControl text))

/-! ## Writing -/

/-- The length of the run of zeros that starts each suffix of a list. -/
def zeroRuns : List Nat → List Nat
  | [] => []
  | w :: rest => (if w = 0 then 1 + (zeroRuns rest).headD 0 else 0) :: zeroRuns rest

/-- A word in hexadecimal digits, without zeros in front. -/
def wordText (w : Nat) : String :=
  String.ofList (Nat.toDigits 16 w)

/-- An address of eight words. The first of its longest runs of two or more zeros is left out. -/
def v6Text (words : List Nat) : String :=
  let joined (ws : List Nat) : String := ":".intercalate (ws.map wordText)
  let runs := zeroRuns words
  let longest := runs.foldl max 0
  if longest < 2 then joined words
  else
    let start := runs.findIdx (· == longest)
    joined (words.take start) ++ "::" ++ joined (words.drop (start + longest))

def text : Host → String
  | name s => s
  | v4 a =>
    let byte (unit : Nat) : String := toString (a.toNat / unit % 256)
    ".".intercalate [byte 16777216, byte 65536, byte 256, byte 1]
  | v6 words => "[" ++ v6Text words ++ "]"

end Host

end Deathmatch
