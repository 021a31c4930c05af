import Deathmatch.Address
import Deathmatch.ByteMap

/-!
# Sessions

A session is the network side of a player: the slot, the address and, after login, who it is. The
table gives out the lowest free slot. The simulation knows nothing of it; the table changes with a
handshake, a login and the end of a connection only.
-/

namespace Deathmatch

structure Session where
  slot : UInt8
  address : Address
  /-- Empty until login. -/
  account : String
  /-- Empty until login. -/
  name : String
  /-- Whether the login succeeded. -/
  initialized : Bool
  /-- The number of the control connection, which finds its queue. -/
  connection : Nat
  deriving DecidableEq, Inhabited

namespace Session

/-- A session right after the handshake. -/
def stub (slot : UInt8) (address : Address) (connection : Nat) : Session :=
  ⟨slot, address, "", "", false, connection⟩

end Session

structure SessionTable where
  capacity : Nat
  sessions : ByteMap Session

namespace SessionTable

/-- The number of slots. -/
def maxSlots : Nat := 256

/-- A table with room for `capacity` sessions, at most one for each slot. -/
def empty (capacity : Nat) : SessionTable :=
  ⟨min capacity maxSlots, .empty⟩

def get? (t : SessionTable) (slot : UInt8) : Option Session :=
  t.sessions.get? slot

/-- All sessions in slot order. -/
def toList (t : SessionTable) : List Session :=
  t.sessions.values

def size (t : SessionTable) : Nat :=
  t.sessions.size

/-- The lowest free slot. -/
def freeSlot? (t : SessionTable) : Option UInt8 :=
  ((List.range t.capacity).map UInt8.ofNat).find? fun slot => !t.sessions.contains slot

/-- Gives the lowest free slot to a new session, if there is one. -/
def allocate (t : SessionTable) (address : Address) (connection : Nat) :
    Option (UInt8 × SessionTable) :=
  t.freeSlot?.map fun slot =>
    (slot, { t with sessions := t.sessions.insert slot (.stub slot address connection) })

def remove (t : SessionTable) (slot : UInt8) : SessionTable :=
  { t with sessions := t.sessions.erase slot }

/-- The first session in slot order that an address meets. -/
def findByAddress? (t : SessionTable) (address : Address) : Option Session :=
  t.toList.find? fun s => s.address.meets address

/-- The session that is logged in with `account`. -/
def findByAccount? (t : SessionTable) (account : String) : Option Session :=
  t.toList.find? fun s => s.initialized && s.account = account

/-- Logs the session of a slot in. Without one nothing happens. -/
def authenticate (t : SessionTable) (slot : UInt8) (account name : String) : SessionTable :=
  { t with sessions := t.sessions.modify slot fun s =>
      { s with account, name, initialized := true } }

/-- The sessions that are logged in, in slot order. -/
def authenticated (t : SessionTable) : List Session :=
  t.toList.filter (·.initialized)

def playerNames (t : SessionTable) : List String :=
  t.authenticated.map (·.name)

/-- The session of a slot, if it belongs to the connection from `tcp`. -/
def owned? (t : SessionTable) (slot : UInt8) (tcp : Option Endpoint) : Option Session :=
  (t.get? slot).filter fun s => s.address.tcp = tcp

end SessionTable

end Deathmatch
