import Deathmatch.Packet

/-!
# The handshake

The first packet of a control connection names the protocol version and the port on which the
client receives datagrams, as a word. The reply repeats the version, or is a zero byte.
-/

namespace Deathmatch

def protocolVersion : UInt8 := 1

/-- The port that a handshake announces: a number from 1 to 65535. -/
def announcedPort? (p : Packet) : Option UInt16 :=
  match p.wordAt 1 with
  | .ok w => if w ≠ 0 ∧ w.toNat < 65536 then some w.toUInt16 else none
  | .error _ => none

/-- The reply to a handshake, and the client's port if it was accepted. -/
def handshake (p : Packet) : Packet × Option UInt16 :=
  match p.byteAt 0, announcedPort? p with
  | .ok version, some port =>
    if p.id = PacketId.handshake ∧ version = protocolVersion then
      (.tcp PacketId.handshake [protocolVersion], some port)
    else
      (.tcp PacketId.handshake [0], none)
  | _, _ => (.tcp PacketId.handshake [0], none)

end Deathmatch
