import Deathmatch.Time

/-!
# Keeping up

A tick that takes longer than its interval puts the server behind. Only the change is reported:
the first tick that is over and the first that is back within its interval.
-/

namespace Deathmatch

inductive TickAlert where
  | overrun (elapsed interval : Span)
  | resynchronized
  deriving DecidableEq

structure KeepUpMonitor where
  behind : Bool
  deriving DecidableEq

namespace KeepUpMonitor

def start : KeepUpMonitor := ⟨false⟩

/-- Records how long a tick took. -/
def record (m : KeepUpMonitor) (elapsed interval : Span) : KeepUpMonitor × Option TickAlert :=
  let isLate := decide (interval < elapsed)
  (⟨isLate⟩,
    match m.behind, isLate with
    | false, true => some (.overrun elapsed interval)
    | true, false => some .resynchronized
    | _, _ => none)

end KeepUpMonitor

end Deathmatch
