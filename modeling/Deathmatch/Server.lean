import Deathmatch.Outlets
import Deathmatch.Settings
import Deathmatch.World.Tick

/-!
# The server

Sessions, queues and the world together, and what handlers do with them: submit a command, answer
the origin of a packet, and send a line of chat to everyone who is logged in.
-/

namespace Deathmatch

structure Server where
  settings : Settings
  policy : AuthPolicy
  sessions : SessionTable
  outlets : Outlets
  /-- Commands on their way to the world. -/
  commands : Mailbox Command
  world : World

/-- A line of chat. -/
def chatPacket (line : String) : Packet :=
  .tcp PacketId.chat (Text.terminated line)

/-- Sends a client away, with the reason. -/
def kickPacket (reason : String) : Packet :=
  .tcp PacketId.disconnect (Text.terminated reason)

/-- The answer to a packet that failed or was refused. -/
def errorPacket (id : UInt8) : Packet :=
  .tcp id [0]

namespace Server

/-- A server without sessions, whose players appear at one of `points`. -/
def start (settings : Settings) (points : List Vec3) (rolls : Nat → Nat) : Server :=
  { settings
    policy := settings.policy
    sessions := .empty settings.capacity
    outlets := ⟨[], .empty settings.channelSize⟩
    commands := .empty settings.channelSize
    world := .empty settings.tickInterval points rolls }

/-- Opens a session for a new control connection in the lowest free slot. -/
def openSession (s : Server) (address : Address) (capacity : Nat) : Except Fault (UInt8 × Server) :=
  match s.sessions.allocate address s.outlets.nextConnection with
  | some (slot, sessions) =>
    .ok (slot, { s with sessions, outlets := s.outlets.openControl capacity })
  | none => .error .serverFull

/-- Hands a command to the simulation. -/
def submit (s : Server) (command : Command) : Except Fault Server :=
  match s.commands.post command with
  | some commands => .ok { s with commands }
  | none => .error (.channelClosed .gameCommand)

/-- Sends a packet back to where another came from. -/
def answer (s : Server) (origin : Address) (peer : Option Session) (packet : Packet) :
    Except Fault Server := do
  let route ← origin.route peer packet
  let outlets ← s.outlets.send packet route
  return { s with outlets }

/-- Offers a packet to everyone who is logged in, in slot order. -/
def broadcast (s : Server) (packet : Packet) : Server :=
  let outlets := s.sessions.authenticated.foldl
    (fun outlets session => outlets.offerControl session.connection packet) s.outlets
  { s with outlets }

def broadcastChat (s : Server) (line : String) : Server :=
  s.broadcast (chatPacket line)

/-- Tells everyone about a confirmed achievement, under the name of whoever is logged in with the
account. -/
def announce (s : Server) (account title : String) : Server :=
  let name := (s.sessions.findByAccount? account).elim account (·.name)
  s.broadcastChat ("> " ++ name ++ " has unlocked the achievement " ++ title ++ "!")

/-- Whether the origin belongs to a session. -/
def isKnown (s : Server) (origin : Address) : Bool :=
  (s.sessions.findByAddress? origin).isSome

end Server

end Deathmatch
