import Deathmatch.ControlChannel
import Deathmatch.Handshake
import Deathmatch.Server.Dispatch

/-!
# Control connections

A connection begins with the handshake, which gives it a session; after that its packets are
handled in order, on behalf of that session only. Anything that is no frame or no datagram ends
it, and then the session is released. What waits in the session's queue is written to the client,
whose side is closed once the session is gone.
-/

namespace Deathmatch

inductive Stage where
  /-- The handshake is still to come. -/
  | greeting
  | seated (slot : UInt8) (address : Address) (pending : Reassembler)
  /-- Nothing more is read. -/
  | ended

structure Connection where
  peer : Endpoint
  stage : Stage
  /-- The number of the session's queue, from the handshake on. -/
  queue : Option Nat
  /-- Received bytes that are not a whole frame yet. -/
  unread : Bytes
  /-- The stream to the client so far. -/
  written : Bytes
  /-- Whether the stream to the client is still open. -/
  isOpen : Bool

namespace Connection

def start (peer : Endpoint) : Connection :=
  ⟨peer, .greeting, none, [], [], true⟩

/-- The datagrams in the stream to the client. -/
def datagrams (c : Connection) : List Bytes :=
  (Frame.readAll c.written).1

/-! ## Writing -/

/-- Writes a packet. One that cannot be encoded closes the stream. -/
def write (c : Connection) (packet : Packet) : Connection :=
  if c.isOpen then
    match Frame.write packet with
    | .ok bytes => { c with written := c.written ++ bytes }
    | .error _ => { c with isOpen := false }
  else c

/-- Writes what waits in the session's queue, and closes the stream when the session is gone. -/
def flush (c : Connection) (s : Server) : Connection × Server :=
  match c.queue.bind fun n => (s.outlets.control? n).map fun m => (n, m) with
  | none => (c, s)
  | some (n, m) =>
    let c' := m.items.foldl write c
    let m' := if c'.isOpen then m.drained else m.hungUp
    let isLive := s.sessions.toList.any fun session => session.connection = n
    ({ c' with isOpen := c'.isOpen && isLive },
      { s with outlets := { s.outlets with controls := s.outlets.controls.set n m' } })

/-! ## Reading -/

/-- Stops reading and gives the slot back. -/
def finish (c : Connection) (s : Server) : Connection × Server :=
  match c.stage with
  | .greeting => ({ c with stage := .ended, isOpen := false }, s)
  | .seated slot _ _ => ({ c with stage := .ended }, (s.release slot (some c.peer)).2)
  | .ended => (c, s)

/-- Takes the first datagram. A client that the handshake does not accept, or for which there is no
slot, is told so and its connection ended. -/
def greet (c : Connection) (s : Server) (datagram : Bytes) : Connection × Server :=
  match Packet.decode datagram with
  | .error _ => c.finish s
  | .ok first =>
    match handshake { first with transport := .tcp } with
    | (reply, none) => (c.write reply).finish s
    | (reply, some port) =>
      let address : Address := ⟨some c.peer, some ⟨c.peer.host, port⟩⟩
      match s.openSession address s.settings.channelSize with
      | .ok (slot, s') =>
        ({ c.write reply with
            stage := .seated slot address (.empty Reassembler.defaultTimeout)
            queue := some s.outlets.nextConnection }, s')
      | .error _ => ((c.write reply).write (kickPacket "Server is full")).finish s

/-- Takes one datagram. -/
def receive (c : Connection) (s : Server) (service : AccountService) (datagram : Bytes)
    (now : Time) : Connection × Server :=
  match c.stage with
  | .greeting => c.greet s datagram
  | .seated slot address pending =>
    match ControlChannel.receive pending c.peer datagram now with
    | .error _ => c.finish s
    | .ok (none, pending') => ({ c with stage := .seated slot address pending' }, s)
    | .ok (some packet, pending') =>
      ({ c with stage := .seated slot address pending' },
        s.handle service address packet (some slot) now)
  | .ended => (c, s)

/-- Takes all datagrams of a stream; what is not a whole frame yet stays unread. -/
def receiveAll (c : Connection) (s : Server) (service : AccountService) (stream : Bytes)
    (now : Time) : Connection × Server :=
  match h : Frame.lead stream with
  | .incomplete => ({ c with unread := stream }, s)
  | .oversized rest => { c with unread := rest }.finish s
  | .frame datagram rest =>
    have : rest.length < stream.length := Frame.length_lead h
    let (c', s') := c.receive s service datagram now
    receiveAll c' s' service rest now
termination_by stream.length

end Connection

end Deathmatch
