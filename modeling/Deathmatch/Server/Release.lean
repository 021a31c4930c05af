import Deathmatch.Server

/-!
# Releasing a slot

A connection gives its slot back when it ends, and only if the slot is still its own. This takes
two steps: the session leaves the table at once, and the world and the others hear of it after.
-/

namespace Deathmatch.Server

/-- The first step: takes the session of a slot out of the table, if it belongs to the connection
from `tcp`. -/
def takeSession? (s : Server) (slot : UInt8) (tcp : Option Endpoint) : Option (Session × Server) :=
  (s.sessions.owned? slot tcp).map fun session =>
    (session, { s with sessions := s.sessions.remove slot })

/-- The second step: removes the player of a session that was logged in, and tells the others. A
closed command queue does not keep the news from them. -/
def farewell (s : Server) (slot : UInt8) (session : Session) : Server :=
  if session.initialized then
    let told := match s.submit (.leave slot) with
      | .ok s' => s'
      | .error _ => s
    told.broadcastChat (session.name ++ " has left the game")
  else s

/-- Releases a slot. The answer says whether there was anything to release. -/
def release (s : Server) (slot : UInt8) (tcp : Option Endpoint) : Bool × Server :=
  match s.takeSession? slot tcp with
  | some (session, s') => (true, s'.farewell slot session)
  | none => (false, s)

end Deathmatch.Server
