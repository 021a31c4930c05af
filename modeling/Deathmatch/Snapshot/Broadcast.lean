import Deathmatch.Packet.Datagram
import Deathmatch.Snapshot.Field

/-!
# Broadcasts

A snapshot goes to a receiver as blocks, one for each other player with something to report: a
marker, the slot, and the changed fields. Blocks are packed in slot order into packets that start
with the number of the snapshot, so that each packet can be read alone. A block that does not fit
into the packet at hand opens the next one. A block larger than any packet is left out, and
nothing is packed after the 255th packet is full.
-/

namespace Deathmatch

namespace Player

/-- What a block starts with. -/
def blockMarker : UInt8 := 'A'.toUInt8

/-- The block that tells a client who knows `baseline` about the player; nothing to report, no
block. -/
def block? (p : Player) (baseline : Option Player) : Option Bytes :=
  if p.changedFields baseline = [] then none
  else some (blockMarker :: p.slot :: p.fieldBytes baseline)

end Player

namespace Snapshot

/-- The bytes before the blocks of a packet: the number of the snapshot. -/
def headerLength : Nat := 4

/-- The most bytes of blocks in one packet. -/
def maxBlocks : Nat := maxPayload - headerLength

/-- The most packets of a broadcast. -/
def maxPackets : Nat := 255

/-- The blocks for the client of `receiver`, in slot order, less those that fit in no packet. -/
def blocks (s : Snapshot) (receiver : String) (baseline : Option Snapshot) : List Bytes :=
  (s.players.filter fun p => p.account ≠ receiver).filterMap fun p =>
    (p.block? (baseline.bind fun b => b.playerOf? p.account)).filter fun block =>
      block.length ≤ maxBlocks

/-- Packs blocks behind `current`, the blocks of the packet at hand. `left` packets may still be
opened. -/
def pack (left : Nat) (current : Bytes) : List Bytes → List Bytes
  | [] => [current]
  | block :: rest =>
    if current.length + block.length ≤ maxBlocks then pack left (current ++ block) rest
    else
      match left with
      | 0 => [current]
      | left + 1 => current :: pack left block rest

/-- The packets that tell the client of `receiver`, who has `baseline`, about the snapshot. -/
def broadcast (s : Snapshot) (receiver : String) (baseline : Option Snapshot) : List Packet :=
  let payloads := pack (maxPackets - 1) [] (s.blocks receiver baseline)
  payloads.zipIdx.map fun (payload, i) =>
    { id := PacketId.snapshot
      index := UInt8.ofNat i
      total := UInt8.ofNat payloads.length
      transport := .udp
      data := le32 s.id ++ payload }

end Snapshot

end Deathmatch
