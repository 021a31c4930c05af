import Deathmatch.Motion
import Deathmatch.Text
import Deathmatch.Time

/-!
# Players

What the match knows about one player. A player who is killed lies where they fell, without
health and without speed, until they respawn.
-/

namespace Deathmatch

inductive Life where
  | alive
  | dead
  deriving DecidableEq, Inhabited

/-- The byte that shows on the wire. -/
def Life.toByte : Life → UInt8
  | alive => 0
  | dead => 1

structure Player where
  slot : UInt8
  /-- Who plays; slots are given out again, accounts are not. -/
  account : String
  name : String
  motion : Motion
  score : UInt8
  /-- Kills since the last death. -/
  streak : UInt8
  /-- Kills since joining. -/
  victims : UInt32
  weapon : UInt8
  model : UInt8
  health : UInt8
  life : Life
  diedAt : Option Time
  /-- When the client last reported its motion. -/
  lastUpdate : Option Time
  /-- The snapshot that the client is known to have. -/
  acknowledged : Option UInt32
  deriving DecidableEq, Inhabited

/-- Stops at 255. -/
def saturatingSucc (b : UInt8) : UInt8 :=
  if b = 255 then 255 else b + 1

/-- Stops at 0. -/
def saturatingSub (a b : UInt8) : UInt8 :=
  if a ≤ b then 0 else a - b

namespace Player

def maxHealth : UInt8 := 100

/-- The most bytes of a display name, so that all fields of a player fit into one datagram. -/
def maxNameBytes : Nat := 32

/-- A report younger than this speaks for itself: the server does not carry the player on. -/
def reportFreshness : Span := Span.millis 15

/-- Cuts a name to `maxNameBytes` between characters. -/
def clampName (name : String) : String :=
  Text.clamp maxNameBytes name

/-- A player who has just joined. -/
def join (slot : UInt8) (account name : String) (spawn : Vec3) : Player :=
  { slot, account
    name := clampName name
    motion := Motion.rest spawn
    score := 0
    streak := 0
    victims := 0
    weapon := 0
    model := 0
    health := maxHealth
    life := .alive
    diedAt := none
    lastUpdate := none
    acknowledged := none }

/-- Whether the server has to carry the player on at `now`. -/
def needsExtrapolation (p : Player) (now : Time) : Bool :=
  match p.lastUpdate with
  | some at_ => decide (reportFreshness ≤ now.age at_)
  | none => true

def kill (p : Player) (now : Time) : Player :=
  { p with
    health := 0
    life := .dead
    diedAt := some now
    streak := 0
    motion := p.motion.halted }

def respawn (p : Player) (spawn : Vec3) : Player :=
  { p with
    health := maxHealth
    life := .alive
    diedAt := none
    motion := Motion.rest spawn }

def extrapolate (p : Player) (dt : Scalar) : Player :=
  { p with motion := p.motion.extrapolate dt }

end Player

end Deathmatch
