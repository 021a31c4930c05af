/-!
# Scanners

A scanner reads a beginning of a text, or fails. Alternatives start again from the same place.
-/

namespace Deathmatch

/-- Reads a beginning of the text and leaves the rest. -/
abbrev Scan (α : Type) := StateT (List Char) Option α

namespace Scan

variable {α : Type}

/-- One character that `p` accepts. -/
def one (p : Char → Bool) : Scan Char
  | c :: cs => if p c then some (c, cs) else none
  | [] => none

/-- The character `c`. -/
def char (c : Char) : Scan Unit := do
  let _ ← one (· == c)

/-- The text `s`. -/
def text (s : String) : Scan Unit
  | cs => if s.toList.isPrefixOf cs then some ((), cs.drop s.length) else none

/-- All characters up to the first that `p` does not accept. -/
def many (p : Char → Bool) : Scan (List Char)
  | cs => some (cs.span p)

/-- As `many`, and at least one. -/
def some1 (p : Char → Bool) : Scan (List Char) := do
  let c ← one p
  return c :: (← many p)

/-- The next character, which stays in the text. -/
def peek : Scan (Option Char)
  | cs => some (cs.head?, cs)

/-- What `scan` reads, if it does not fail. -/
def maybe (scan : Scan α) : Scan (Option α) :=
  (some <$> scan) <|> pure none

def atEnd : Scan Unit
  | [] => some ((), [])
  | _ :: _ => none

/-- Repeats `step` until it yields nothing, at most `fuel` times; the yield, last first, before
`found`. -/
def collectOnto (step : Scan (Option α)) : Nat → List α → Scan (List α)
  | 0, _, _ => none
  | fuel + 1, found, cs =>
    match step cs with
    | none => none
    | some (none, rest) => some (found, rest)
    | some (some a, rest) => collectOnto step fuel (a :: found) rest

/-- Repeats `step`, which reads something each time, until it yields nothing. -/
def collect (step : Scan (Option α)) : Scan (List α)
  | cs => (collectOnto step (cs.length + 1) [] cs).map fun (found, rest) => (found.reverse, rest)

/-- What `scan` makes of a whole text. -/
def whole (scan : Scan α) (s : String) : Option α :=
  (scan s.toList).bind fun (a, rest) => if rest.isEmpty then some a else none

end Scan

end Deathmatch
