import Deathmatch.Fault
import Deathmatch.Mailbox
import Deathmatch.Session
import Deathmatch.World

/-!
# Outlets

The queues through which packets leave: one for each control connection, and one that all
datagrams share. A packet for the control channel needs a session to go to; one for the datagram
channel needs an endpoint, of the origin or else of the session.
-/

namespace Deathmatch

/-- Where a packet goes. -/
inductive Route where
  | control (connection : Nat)
  | datagram (target : Endpoint)
  deriving DecidableEq

namespace Address

/-- The endpoint for datagrams: the address's own, or else the one that the peer announced. -/
def udpEndpoint (a : Address) (peer : Option Session) : Option Endpoint :=
  a.udp.or (peer.bind fun s => s.address.udp)

def route (a : Address) (peer : Option Session) (packet : Packet) : Except Fault Route :=
  match packet.transport with
  | .udp =>
    match a.udpEndpoint peer with
    | some target => .ok (.datagram target)
    | none => .error (.unresolvedPeer packet.id)
  | .tcp =>
    match peer with
    | some s => .ok (.control s.connection)
    | none => .error (.unresolvedPeer packet.id)

end Address

structure Outlets where
  /-- The queues of the control connections, by number. -/
  controls : List (Mailbox Packet)
  datagrams : Mailbox Outbound

namespace Outlets

def control? (o : Outlets) (connection : Nat) : Option (Mailbox Packet) :=
  o.controls[connection]?

/-- The number of the next control connection. -/
def nextConnection (o : Outlets) : Nat :=
  o.controls.length

/-- Opens the queue of the next control connection. -/
def openControl (o : Outlets) (capacity : Nat) : Outlets :=
  { o with controls := o.controls ++ [.empty capacity] }

/-- Puts a packet into the queue of a control connection, unless that is full or gone. -/
def offerControl (o : Outlets) (connection : Nat) (packet : Packet) : Outlets :=
  { o with controls := o.controls.modify connection fun m => m.offer packet }

def offerDatagram (o : Outlets) (out : Outbound) : Outlets :=
  { o with datagrams := o.datagrams.offer out }

/-- Takes out all datagrams that wait. -/
def takeDatagrams (o : Outlets) : List Outbound × Outlets :=
  (o.datagrams.items, { o with datagrams := o.datagrams.drained })

/-- The outlets once nobody takes packets out of the queue of a control connection. -/
def hangUpControl (o : Outlets) (connection : Nat) : Outlets :=
  { o with controls := o.controls.modify connection fun m => m.hungUp }

/-- The outlets once nobody takes datagrams out. -/
def hangUpDatagrams (o : Outlets) : Outlets :=
  { o with datagrams := o.datagrams.hungUp }

/-- Puts a packet into the queue of its route and waits for room if necessary. -/
def send (o : Outlets) (packet : Packet) : Route → Except Fault Outlets
  | .control connection =>
    match (o.control? connection).bind fun m => m.post packet with
    | some m => .ok { o with controls := o.controls.set connection m }
    | none => .error (.channelClosed .tcpOutbound)
  | .datagram target =>
    match o.datagrams.post ⟨target, packet⟩ with
    | some m => .ok { o with datagrams := m }
    | none => .error (.channelClosed .udpOutbound)

end Outlets

end Deathmatch
