import Deathmatch.Digits
import Deathmatch.Text

/-!
# Escapes in URLs

A byte that cannot stand in some place of a URL is written as a percent sign and two hexadecimal
digits. Each place has its own set of characters that are escaped; characters outside ASCII always
are.
-/

namespace Deathmatch.Url

/-! ## What is escaped where -/

def isControl (c : Char) : Bool :=
  decide (c < ' ') || decide ('\x7f' ≤ c)

def escapedInFragment (c : Char) : Bool :=
  isControl c || [' ', '"', '<', '>', '`'].contains c

def escapedInQuery (special : Bool) (c : Char) : Bool :=
  isControl c || [' ', '"', '#', '<', '>'].contains c || (special && c = '\'')

def escapedInPath (c : Char) : Bool :=
  escapedInFragment c || ['#', '?', '\x7b', '\x7d'].contains c

/-- What is escaped in a text that is to be one segment of a path. -/
def escapedInSegment (special : Bool) (c : Char) : Bool :=
  escapedInPath c || ['/', '%'].contains c || (special && c = '\\')

/-- What is escaped in a name or a password. -/
def escapedInCredentials (c : Char) : Bool :=
  escapedInPath c || ['/', ':', ';', '=', '@', '[', '\\', ']', '^', '|'].contains c

/-! ## Writing and reading -/

def escapeByte (b : UInt8) : List Char :=
  '%' :: (hexDigits 2 b.toNat).map Char.toUpper

/-- A text in which the characters that `isEscaped` names are escaped. -/
def escape (isEscaped : Char → Bool) (cs : List Char) : String :=
  String.ofList <| cs.flatMap fun c =>
    if isEscaped c then (Text.bytes (String.singleton c)).flatMap escapeByte else [c]

/-- The bytes of a text whose escapes are resolved. A percent sign that starts none stands for
itself. -/
def unescape : List Char → Bytes
  | [] => []
  | '%' :: a :: b :: rest =>
    if isHexDigit a && isHexDigit b then
      UInt8.ofNat (ofDigits 16 [a, b]) :: unescape rest
    else Text.bytes "%" ++ unescape (a :: b :: rest)
  | c :: rest => Text.bytes (String.singleton c) ++ unescape rest

end Deathmatch.Url
