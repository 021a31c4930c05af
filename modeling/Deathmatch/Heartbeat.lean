import Deathmatch.Json.Written
import Deathmatch.Settings
import Deathmatch.Url.Reader
import Deathmatch.Web

/-!
# Heartbeats

What a server reports about itself to the master server, and how the master server's answer is
understood: it acknowledges the report if `true` occurs anywhere in it.
-/

namespace Deathmatch

structure HeartbeatReport where
  ip : String
  port : UInt16
  name : String
  map : String
  /-- The display names, with commas between them. -/
  players : String
  maxPlayers : Nat
  deriving DecidableEq

namespace HeartbeatReport

def ofSettings (s : Settings) (names : List String) : HeartbeatReport :=
  { ip := s.host
    port := s.port
    name := s.name
    map := s.currentMap
    players := ", ".intercalate names
    maxPlayers := s.capacity }

/-- The report as it is sent. -/
def written (r : HeartbeatReport) : String :=
  Json.writtenObject [
    ("ip", Json.writtenText r.ip),
    ("port", toString r.port.toNat),
    ("name", Json.writtenText r.name),
    ("map", Json.writtenText r.map),
    ("players", Json.writtenText r.players),
    ("maxplayers", toString r.maxPlayers)]

end HeartbeatReport

/-- Whether `part` occurs somewhere in `cs`. -/
def occursIn (part : List Char) : List Char → Bool
  | [] => part.isEmpty
  | c :: cs => part.isPrefixOf (c :: cs) || occursIn part cs

/-- Whether an answer of the master server acknowledges a report. -/
def isAcknowledged (body : String) : Bool :=
  occursIn "true".toList body.toList

/-- Sends a report to the master server. -/
def HeartbeatReport.send (r : HeartbeatReport) (web : Web) (masterServer : String) :
    Except Fault Unit :=
  match (Url.read? masterServer).bind fun url => web (.post url r.written) with
  | none => .error .http
  | some body => if isAcknowledged body then .ok () else .error (.masterServer body)

end Deathmatch
