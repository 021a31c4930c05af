import Deathmatch.World

/-!
# Ticks

A tick carries players and entities on, brings back those who have been dead long enough, takes a
snapshot, and tells every endpoint what changed since the snapshot that it acknowledged.
-/

namespace Deathmatch

/-- A span in seconds, as a scalar: whole seconds and the fraction are rounded apart and then
added. -/
def Span.toScalar (s : Span) : Scalar :=
  (Scalar.ofNat (s / 1000000000)).add
    ((Scalar.ofNat (s % 1000000000)).div (Scalar.ofNat 1000000000))

/-- A player after `dt` seconds: respawned at `spawn` once the delay is over, carried on if alive
and without a fresh report. -/
def Player.integrate (p : Player) (now : Time) (dt : Scalar) (spawn : Vec3) : Player :=
  match p.life, p.diedAt with
  | .dead, some diedAt =>
    if World.respawnDelay ≤ now.age diedAt then p.respawn spawn else p
  | .dead, none => p
  | .alive, _ => if p.needsExtrapolation now then p.extrapolate dt else p

namespace World

/-- Carries the world on by `dt` seconds. -/
def integrate (w : World) (now : Time) (dt : Scalar) : World :=
  { w with
    players := w.players.map fun p => p.integrate now dt w.spawns.current
    entities := w.entities.map fun e => e.extrapolate dt
    spawns := w.spawns.advance }

/-- Drops expired snapshots, and with them the acknowledgements of snapshots no longer kept. -/
def prune (w : World) (now : Time) : World :=
  let history := w.history.prune now
  if history.size < w.history.size then
    { w with
      history
      players := w.players.map fun p =>
        { p with acknowledged := p.acknowledged.filter history.contains } }
  else w

/-- The snapshot of the world as it stands. -/
def freeze (w : World) (now : Time) : Snapshot :=
  w.history.next w.players.values w.entities now

def keep (w : World) (s : Snapshot) : World :=
  { w with history := w.history.push s }

/-- The snapshot that a player's next update builds on. -/
def baseline? (w : World) (p : Player) : Option Snapshot :=
  p.acknowledged.bind w.history.find?

/-- The packets that bring every endpoint up to `s`, in slot order. -/
def updates (w : World) (s : Snapshot) : List Outbound :=
  w.endpoints.toList.flatMap fun (slot, target) =>
    match w.players.get? slot with
    | none => []
    | some receiver =>
      (s.broadcast receiver.account (w.baseline? receiver)).map fun packet => ⟨target, packet⟩

/-- One step of the simulation and the packets that it sends. -/
def tick (w : World) (now : Time) : World × List Outbound :=
  let moved := (w.integrate now w.tickInterval.toScalar).prune now
  let taken := moved.freeze now
  let kept := moved.keep taken
  (kept, kept.updates taken)

end World

end Deathmatch
