import Deathmatch.Server.Login
import Deathmatch.Server.Release

/-!
# Dispatch

Each packet id has at most one handler. A packet is handled on behalf of the session that its
origin meets: the one in the connection's own slot, or, for a datagram, the first that meets its
endpoint. Only a login may come from a session that is not logged in. A handler that fails answers
on the control channel, with the packet's id and a zero byte; what came as a datagram gets no
answer.
-/

namespace Deathmatch

/-- What a packet asks for. -/
inductive Handler where
  | connect
  | disconnect
  | chat
  | acknowledge
  | movement
  | infoChange
  | damage
  deriving DecidableEq

/-- The handler of each packet id. -/
abbrev Registry := ByteMap Handler

namespace Registry

/-- The handlers of all packets that follow the handshake. -/
def game : Registry :=
  (((((((ByteMap.empty.insert PacketId.connect .connect).insert
    PacketId.disconnect .disconnect).insert
    PacketId.chat .chat).insert
    PacketId.snapshot .acknowledge).insert
    PacketId.movement .movement).insert
    PacketId.infoChange .infoChange).insert
    PacketId.damage .damage)

end Registry

/-! ## Payloads -/

namespace Packet

/-- The bytes of a motion report. -/
def motionLength : Nat := 40

/-- The bytes of a change of weapon and model, of which the first two count. -/
def infoLength : Nat := 4

/-- A motion report: position, pitch and yaw, velocity, and the rates of pitch and yaw. -/
def motionReport (p : Packet) : Except PacketFault Motion := do
  let _ ← p.field 0 motionLength
  return {
    position := ⟨← p.scalarAt 0, ← p.scalarAt 4, ← p.scalarAt 8⟩
    rotation := ⟨← p.scalarAt 12, ← p.scalarAt 16, .zero⟩
    velocity := ⟨← p.scalarAt 20, ← p.scalarAt 24, ← p.scalarAt 28⟩
    angularVelocity := ⟨← p.scalarAt 32, ← p.scalarAt 36, .zero⟩ }

/-- The command that a packet of the player in `slot` asks for. -/
def gameCommand (p : Packet) (slot : UInt8) (now : Time) : Handler → Except PacketFault (Option Command)
  | .movement => do return some (.move slot (← p.motionReport) now)
  | .infoChange => do
    let _ ← p.field 0 infoLength
    return some (.infoChange slot (← p.byteAt 0) (← p.byteAt 1))
  | .damage => do return some (.damage slot (← p.byteAt 0) (← p.byteAt 1))
  | .acknowledge => do return some (.acknowledge slot (← p.wordAt 0))
  | .connect | .disconnect | .chat => .ok none

end Packet

namespace Server

/-! ## Handlers -/

/-- Passes a line of chat on; an empty one is let drop. -/
def chat (s : Server) (player : Session) (packet : Packet) : Server × Except Fault Unit :=
  match packet.textAt 0 with
  | .error fault => (s, .error (.packet fault))
  | .ok message =>
    if message = "" then (s, .ok ())
    else (s.broadcastChat (player.name ++ ": " ++ message), .ok ())

/-- Submits the command that a packet asks for. -/
def play (s : Server) (handler : Handler) (player : Session) (packet : Packet) (now : Time) :
    Server × Except Fault Unit :=
  match packet.gameCommand player.slot now handler with
  | .error fault => (s, .error (.packet fault))
  | .ok none => (s, .ok ())
  | .ok (some command) =>
    match s.submit command with
    | .ok s' => (s', .ok ())
    | .error fault => (s, .error fault)

/-- Runs a handler on behalf of `player`. -/
def runHandler (s : Server) (service : AccountService) (handler : Handler) (origin : Address)
    (player : Session) (packet : Packet) (now : Time) : Server × Except Fault Unit :=
  match handler with
  | .connect => s.connect service origin player packet
  | .disconnect => ((s.release player.slot player.address.tcp).2, .ok ())
  | .chat => s.chat player packet
  | .acknowledge | .movement | .infoChange | .damage => s.play handler player packet now

/-! ## Dispatch -/

/-- The session on whose behalf a packet is handled. -/
def resolve (s : Server) (origin : Address) : Option UInt8 → Option Session
  | some slot => (s.sessions.get? slot).filter fun session => session.address.meets origin
  | none => s.sessions.findByAddress? origin

/-- Answers a packet that failed, if it came over the control channel from a session. -/
def fail (s : Server) (origin : Address) (peer : Option Session) (packet : Packet) : Server :=
  if packet.transport = .tcp ∧ peer.isSome then
    match s.answer origin peer (errorPacket packet.id) with
    | .ok s' => s'
    | .error _ => s
  else s

/-- Whether a packet of this id may come from `peer`. -/
def mayHandle (id : UInt8) (peer : Session) : Bool :=
  id = PacketId.connect || peer.initialized

/-- Handles a packet. Nothing happens if its id has no handler. -/
def handleWith (registry : Registry) (s : Server) (service : AccountService) (origin : Address)
    (packet : Packet) (slot : Option UInt8) (now : Time) : Server :=
  match registry.get? packet.id with
  | none => s
  | some handler =>
    match (s.resolve origin slot).filter (mayHandle packet.id) with
    | none => s.fail origin (s.resolve origin slot) packet
    | some player =>
      match s.runHandler service handler origin player packet now with
      | (s', .ok ()) => s'
      | (s', .error _) => s'.fail origin (some player) packet

/-- Handles a packet of the game. -/
def handle (s : Server) (service : AccountService) (origin : Address) (packet : Packet)
    (slot : Option UInt8) (now : Time) : Server :=
  handleWith Registry.game s service origin packet slot now

/-- Whether packets of this id are handled at all. -/
def handles (id : UInt8) : Bool :=
  Registry.game.contains id

end Server

end Deathmatch
