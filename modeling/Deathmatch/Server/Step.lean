import Deathmatch.Server

/-!
# Steps of the simulation

A step applies every waiting command, ticks the world, offers the updates to the datagram queue,
and passes on what the commands led to: replies go to their player's control queue, achievements
to the account service.
-/

namespace Deathmatch.Server

/-- Passes an event on. What the account service is to unlock is returned. -/
def deliver (s : Server) : Event → Server × List Unlock
  | .reply slot packet =>
    match s.sessions.get? slot with
    | some session =>
      ({ s with outlets := s.outlets.offerControl session.connection packet }, [])
    | none => (s, [])
  | .achievement unlock => (s, [unlock])

/-- Passes events on, in order. -/
def deliverAll (s : Server) : List Event → Server × List Unlock
  | [] => (s, [])
  | event :: rest =>
    let (s', unlocks) := s.deliver event
    let (s'', later) := deliverAll s' rest
    (s'', unlocks ++ later)

/-- What a step leaves behind: the server, whether there may be further commands, and the
achievements to unlock. -/
structure Stepped where
  server : Server
  isOpen : Bool
  unlocks : List Unlock

/-- One step of the simulation. -/
def step (s : Server) (now : Time) : Stepped :=
  let (commanded, events) := s.world.applyAll now s.commands.items
  let (world, updates) := commanded.tick now
  let outlets := updates.foldl Outlets.offerDatagram s.outlets
  let (server, unlocks) :=
    { s with world, outlets, commands := s.commands.drained }.deliverAll events
  ⟨server, s.commands.sending, unlocks⟩

end Deathmatch.Server
