import Deathmatch.Connection
import Deathmatch.Server.Step
import Deathmatch.Web

/-!
# The gateway

The server behind its two sockets: control connections on the one, datagrams on the other, both at
one port. Split packets that come as datagrams are collected for known clients only, all in one
place.
-/

namespace Deathmatch

/-- What a machine offers a server. -/
structure Network where
  /-- Whether a port can be opened. -/
  canListen : Bool
  web : Web

namespace Network

/-- A machine without a network. -/
def absent : Network :=
  ⟨false, .unreachable⟩

end Network

structure Gateway where
  server : Server
  /-- By number, in the order in which they were accepted. -/
  connections : List Connection
  /-- Fragments that came as datagrams. -/
  fragments : Reassembler

namespace Gateway

/-- The most bytes of a received datagram that are looked at. -/
def receiveLimit : Nat := 2048

/-- Opens the port. -/
def listen (network : Network) (settings : Settings) (points : List Vec3) (rolls : Nat → Nat) :
    Except Fault Gateway :=
  match settings.problem? with
  | some fault => .error (.settings fault)
  | none =>
    if network.canListen then
      .ok ⟨.start settings points rolls, [], .empty Reassembler.defaultTimeout⟩
    else .error (.stream .unavailable)

/-- Writes what waits in the queues of all connections. -/
def flush (g : Gateway) : Gateway :=
  let (connections, server) := g.connections.foldl
    (fun (done, server) c =>
      let (c', server') := c.flush server
      (done ++ [c'], server'))
    ([], g.server)
  { g with connections, server }

def accept (g : Gateway) (peer : Endpoint) : Gateway :=
  { g with connections := g.connections ++ [.start peer] }

/-- Lets a connection do something, and writes what comes of it. -/
def withConnection (g : Gateway) (n : Nat)
    (act : Connection → Server → Connection × Server) : Gateway :=
  match g.connections[n]? with
  | none => g
  | some c =>
    let (c', server) := act c g.server
    { g with connections := g.connections.set n c', server }.flush

/-- Takes bytes that arrive on a connection. -/
def receiveStream (g : Gateway) (service : AccountService) (n : Nat) (bytes : Bytes) (now : Time) :
    Gateway :=
  g.withConnection n fun c s => c.receiveAll s service (c.unread ++ bytes) now

/-- Takes the news that a client sends nothing more. -/
def endStream (g : Gateway) (n : Nat) : Gateway :=
  g.withConnection n Connection.finish

/-- Takes a datagram. -/
def receiveDatagram (g : Gateway) (service : AccountService) (origin : Endpoint) (bytes : Bytes)
    (now : Time) : Gateway :=
  match Packet.decode (bytes.take receiveLimit) with
  | .error _ => g
  | .ok fragment =>
    let address := Address.ofUdp origin
    if 1 < fragment.total ∧ !g.server.isKnown address then g
    else
      match g.fragments.push origin fragment now with
      | (.ok (some packet), fragments) =>
        { g with fragments, server := g.server.handle service address packet none now }.flush
      | (_, fragments) => { g with fragments }

/-- Drops fragments that have waited too long. -/
def sweep (g : Gateway) (now : Time) : Gateway :=
  { g with fragments := g.fragments.expire now }

/-- Announces an achievement that the account service has confirmed. -/
def announce (g : Gateway) (account title : String) : Gateway :=
  { g with server := g.server.announce account title }.flush

/-- One step of the simulation. What goes out as datagrams and what the account service is to
unlock are returned. -/
def step (g : Gateway) (now : Time) : Gateway × List Outbound × List Unlock :=
  let stepped := g.server.step now
  let (datagrams, outlets) := stepped.server.outlets.takeDatagrams
  ({ g with server := { stepped.server with outlets } }.flush, datagrams, stepped.unlocks)

end Gateway

end Deathmatch
