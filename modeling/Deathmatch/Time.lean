/-!
# Moments and spans

The server reads a clock that counts nanoseconds. The age of a moment is never negative: a
moment that lies ahead has age zero.
-/

namespace Deathmatch

/-- A moment, in nanoseconds since the clock started. -/
abbrev Time := Nat

/-- A length of time, in nanoseconds. -/
abbrev Span := Nat

namespace Span

def millis (n : Nat) : Span := n * 1000000

def seconds (n : Nat) : Span := n * 1000000000

end Span

/-- How long ago `since` was at `now`. -/
def Time.age (now since : Time) : Span :=
  now - since

end Deathmatch
