/-!
# Digits

Numbers as their digits spell them, in any base up to 16.
-/

namespace Deathmatch

def isHexDigit (c : Char) : Bool :=
  c.isDigit || (decide ('a' ≤ c) && decide (c ≤ 'f')) || (decide ('A' ≤ c) && decide (c ≤ 'F'))

def isOctalDigit (c : Char) : Bool :=
  decide ('0' ≤ c) && decide (c ≤ '7')

/-- The number that a digit stands for. -/
def digitValue (c : Char) : Nat :=
  if c.isDigit then c.toNat - '0'.toNat
  else if 'a' ≤ c then c.toNat - 'a'.toNat + 10
  else c.toNat - 'A'.toNat + 10

/-- The number that digits spell. -/
def ofDigits (base : Nat) (digits : List Char) : Nat :=
  digits.foldl (fun n c => n * base + digitValue c) 0

/-- The last `count` hexadecimal digits of a number, in small letters. -/
def hexDigits (count n : Nat) : List Char :=
  (List.range count).reverse.map fun place => Nat.digitChar (n / Nat.pow 16 place % 16)

end Deathmatch
