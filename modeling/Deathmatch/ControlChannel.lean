import Deathmatch.Packet.Frame
import Deathmatch.Reassembler

/-!
# The control channel

The datagrams of a control connection arrive in order, each in a frame. Split packets are put
together again; a datagram that does not decode ends the channel, and so does a split packet that
cannot be assembled.
-/

namespace Deathmatch.ControlChannel

/-- Takes one datagram of the connection from `peer`. The answer is the whole packet once it is
there, and the fragments that still wait. -/
def receive (pending : Reassembler) (peer : Endpoint) (datagram : Bytes) (now : Time) :
    Except PacketFault (Option Packet × Reassembler) :=
  match Packet.decode datagram with
  | .error fault => .error fault
  | .ok fragment =>
    match pending.push peer { fragment with transport := .tcp } now with
    | (.ok packet, pending') => .ok (packet, pending')
    | (.error fault, _) => .error fault

/-- The whole packets among datagrams that arrive at the given times, and the fragments that wait
after the last, or else what ended the channel. -/
def receiveAll (pending : Reassembler) (peer : Endpoint) :
    List (Time × Bytes) → List Packet × Except PacketFault Reassembler
  | [] => ([], .ok pending)
  | (now, datagram) :: rest =>
    match receive pending peer datagram now with
    | .error fault => ([], .error fault)
    | .ok (whole, pending') =>
      let (packets, ending) := receiveAll pending' peer rest
      (whole.toList ++ packets, ending)

/-- The whole packets in a finished stream whose datagram number `i` arrives at `clock i`, and how
the channel stands after the last datagram. -/
def receiveStream (peer : Endpoint) (clock : Nat → Time) (stream : Bytes) :
    List Packet × Except PacketFault Reassembler :=
  let (datagrams, _, _) := Frame.readAll stream
  receiveAll (.empty Reassembler.defaultTimeout) peer
    (datagrams.mapIdx fun i datagram => (clock i, datagram))

end Deathmatch.ControlChannel
