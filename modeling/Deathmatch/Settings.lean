import Deathmatch.Account
import Deathmatch.Fault
import Deathmatch.Session
import Deathmatch.Time

/-!
# Settings

What an operator decides about a server. Settings can be used when there is a map to play, a tick
takes time and the queues hold something.
-/

namespace Deathmatch

structure Settings where
  /-- The name in the server browser. -/
  name : String
  /-- The address to listen on and to report. -/
  host : String
  port : UInt16
  maxPlayers : Nat
  /-- The rotation of maps; the first is played. -/
  maps : List String
  verbose : Bool
  tickMillis : Nat
  /-- Accept every token without asking. -/
  insecure : Bool
  /-- Accept every token while the account service fails. -/
  autoInsecure : Bool
  /-- Report to the master server. -/
  registerServer : Bool
  /-- The accounts with operator rights. -/
  operators : List String
  apiServer : String
  masterServer : String
  /-- The capacity of every queue. -/
  channelSize : Nat
  deriving DecidableEq

namespace Settings

def default : Settings where
  name := "Arena Server"
  host := "0.0.0.0"
  port := 1518
  maxPlayers := 16
  maps := ["map1", "map2", "map3"]
  verbose := false
  tickMillis := 15
  insecure := false
  autoInsecure := false
  registerServer := true
  operators := []
  apiServer := "https://api.arena.invalid/api"
  masterServer := "https://master.arena.invalid"
  channelSize := 64

/-- The first thing that makes settings unusable. -/
def problem? (s : Settings) : Option SettingsFault :=
  if s.maps = [] then some .emptyRotation
  else if s.tickMillis = 0 then some .zeroTickInterval
  else if s.channelSize = 0 then some .zeroChannelSize
  else none

def validate (s : Settings) : Except SettingsFault Unit :=
  match s.problem? with
  | none => .ok ()
  | some fault => .error fault

def tickInterval (s : Settings) : Span :=
  Span.millis s.tickMillis

/-- The number of players, limited by the number of slots. -/
def capacity (s : Settings) : Nat :=
  min s.maxPlayers SessionTable.maxSlots

/-- The map that is played; the empty text without maps. -/
def currentMap (s : Settings) : String :=
  s.maps.head?.getD ""

/-- An ASCII capital as a small letter; every other character as it is. -/
def foldAscii (c : Char) : Char :=
  if 'A' ≤ c ∧ c ≤ 'Z' then Char.ofNat (c.toNat + 32) else c

/-- Whether two texts differ in the case of ASCII letters at most. -/
def sameLetters (s t : String) : Bool :=
  s.toList.map foldAscii = t.toList.map foldAscii

def isOperator (s : Settings) (account : String) : Bool :=
  s.operators.any fun operator => sameLetters operator account

def policy (s : Settings) : AuthPolicy :=
  .start s.insecure s.autoInsecure

end Settings

end Deathmatch
