import Deathmatch.Achievement
import Deathmatch.ByteMap
import Deathmatch.Endpoint
import Deathmatch.Snapshot.Broadcast

/-!
# The world

The state of the match, and the commands that change it. Players are kept under their slots. A
command answers with events: packets for one player's control channel and achievements to unlock.
-/

namespace Deathmatch

/-- What network peers want changed. -/
inductive Command where
  /-- An authenticated player enters; snapshots go to `udp`. -/
  | join (slot : UInt8) (account name : String) (udp : Option Endpoint)
  | leave (slot : UInt8)
  /-- The client's own report of its motion. -/
  | move (slot : UInt8) (motion : Motion) (receivedAt : Time)
  | infoChange (slot weapon model : UInt8)
  | damage (attacker victim amount : UInt8)
  /-- The client has received the snapshot. -/
  | acknowledge (slot : UInt8) (snapshot : UInt32)
  deriving DecidableEq

/-- What a command leads to outside the world. -/
inductive Event where
  | reply (slot : UInt8) (packet : Packet)
  | achievement (unlock : Unlock)
  deriving DecidableEq

/-- A packet on its way to an endpoint. -/
structure Outbound where
  target : Endpoint
  packet : Packet
  deriving DecidableEq

/-- The places where players appear. Each draw takes the next of an endless row of random
numbers. -/
structure Spawns where
  points : List Vec3
  rolls : Nat → Nat
  drawn : Nat

namespace Spawns

/-- The point that the next draw gives; without points, the origin. -/
def current (s : Spawns) : Vec3 :=
  s.points[s.rolls s.drawn % s.points.length]?.getD .zero

def advance (s : Spawns) : Spawns :=
  { s with drawn := s.drawn + 1 }

end Spawns

structure World where
  players : ByteMap Player
  /-- Where the snapshots of a slot go. -/
  endpoints : ByteMap Endpoint
  entities : List Entity
  history : History
  spawns : Spawns
  tickInterval : Span

namespace World

/-- How long a killed player waits. -/
def respawnDelay : Span := Span.seconds 3

/-- A world without players. -/
def empty (tickInterval : Span) (points : List Vec3) (rolls : Nat → Nat) : World :=
  { players := .empty
    endpoints := .empty
    entities := []
    history := .empty History.defaultRetention
    spawns := ⟨points, rolls, 0⟩
    tickInterval }

def setPlayer (w : World) (slot : UInt8) (p : Player) : World :=
  { w with players := w.players.insert slot p }

/-! ## Commands -/

def join (w : World) (slot : UInt8) (account name : String) (udp : Option Endpoint) :
    World × List Event :=
  ({ w with
      players := w.players.insert slot (Player.join slot account name w.spawns.current)
      endpoints := w.endpoints.put slot udp
      spawns := w.spawns.advance },
    [.achievement ⟨account, Achievement.firstConnection.id⟩])

def leave (w : World) (slot : UInt8) : World :=
  { w with players := w.players.erase slot, endpoints := w.endpoints.erase slot }

/-- Only the living move. -/
def move (w : World) (slot : UInt8) (motion : Motion) (receivedAt : Time) : World :=
  match w.players.get? slot with
  | some p =>
    if p.life = .alive then
      w.setPlayer slot { p with motion, lastUpdate := some receivedAt }
    else w
  | none => w

def changeInfo (w : World) (slot weapon model : UInt8) : World :=
  { w with players := w.players.modify slot fun p => { p with weapon, model } }

/-- Takes health from a living player. One left without health is dead: by their own hand, or
killed by the attacker, who need not be in the match any more. -/
def damage (w : World) (attacker victim amount : UInt8) (now : Time) : World × List Event :=
  match w.players.get? victim with
  | none => (w, [])
  | some target =>
    if target.life = .dead then (w, [])
    else
      let hurt := { target with health := saturatingSub target.health amount }
      if hurt.health ≠ 0 then (w.setPlayer victim hurt, [])
      else
        let dead := hurt.kill now
        if attacker = victim then
          let (loser, unlocks) := dead.suicide
          (w.setPlayer victim loser, unlocks.map .achievement)
        else
          let w' := w.setPlayer victim dead
          match w'.players.get? attacker with
          | none => (w', [])
          | some killer =>
            let (winner, unlocks) := killer.killed dead
            (w'.setPlayer attacker winner, unlocks.map .achievement)

/-- The answer to the acknowledgement of a snapshot that is no longer kept. -/
def staleReply : Packet :=
  .tcp PacketId.snapshot [0]

def acknowledge (w : World) (slot : UInt8) (snapshot : UInt32) : World × List Event :=
  match w.players.get? slot with
  | none => (w, [])
  | some p =>
    if w.history.contains snapshot then
      (w.setPlayer slot { p with acknowledged := some snapshot }, [])
    else
      (w.setPlayer slot { p with acknowledged := none }, [.reply slot staleReply])

def apply (w : World) (command : Command) (now : Time) : World × List Event :=
  match command with
  | .join slot account name udp => w.join slot account name udp
  | .leave slot => (w.leave slot, [])
  | .move slot motion receivedAt => (w.move slot motion receivedAt, [])
  | .infoChange slot weapon model => (w.changeInfo slot weapon model, [])
  | .damage attacker victim amount => w.damage attacker victim amount now
  | .acknowledge slot snapshot => w.acknowledge slot snapshot

/-- Applies commands one after the other; the events of all of them, in order. -/
def applyAll (w : World) (now : Time) : List Command → World × List Event
  | [] => (w, [])
  | command :: rest =>
    let (w', events) := w.apply command now
    let (w'', later) := applyAll w' now rest
    (w'', events ++ later)

end World

end Deathmatch
