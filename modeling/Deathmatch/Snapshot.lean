import Deathmatch.Player

/-!
# Snapshots

Each tick freezes the players and entities under a new number. The history keeps the snapshots of
the last seconds, oldest first; a client's next update is computed against the snapshot that it
acknowledged, as long as the history still holds it.
-/

namespace Deathmatch

structure Snapshot where
  id : UInt32
  takenAt : Time
  players : List Player
  entities : List Entity

namespace Snapshot

/-- The player of an account, whatever slot it has. -/
def playerOf? (s : Snapshot) (account : String) : Option Player :=
  s.players.find? fun p => p.account = account

end Snapshot

structure History where
  retention : Span
  nextId : UInt32
  /-- Oldest first. -/
  snapshots : List Snapshot

namespace History

/-- How long a snapshot may serve as a baseline. -/
def defaultRetention : Span := Span.seconds 10

def empty (retention : Span) : History :=
  ⟨retention, 0, []⟩

/-- The snapshot that is taken next. -/
def next (h : History) (players : List Player) (entities : List Entity) (now : Time) : Snapshot :=
  ⟨h.nextId, now, players, entities⟩

/-- Adds a snapshot under the next number; numbers wrap at 2^32. -/
def push (h : History) (s : Snapshot) : History :=
  { h with nextId := h.nextId + 1, snapshots := h.snapshots ++ [s] }

/-- Whether a snapshot is too old to keep. -/
def isExpired (h : History) (now : Time) (s : Snapshot) : Bool :=
  decide (h.retention < now.age s.takenAt)

/-- Drops expired snapshots from the old end, up to the first that is not expired. -/
def prune (h : History) (now : Time) : History :=
  { h with snapshots := h.snapshots.dropWhile (h.isExpired now) }

/-- The latest snapshot of that number. -/
def find? (h : History) (id : UInt32) : Option Snapshot :=
  h.snapshots.reverse.find? fun s => s.id = id

def contains (h : History) (id : UInt32) : Bool :=
  h.snapshots.any fun s => s.id = id

def latest? (h : History) : Option Snapshot :=
  h.snapshots.getLast?

def size (h : History) : Nat :=
  h.snapshots.length

/-- How many snapshots pruning drops. -/
def evicted (h : History) (now : Time) : Nat :=
  h.size - (h.prune now).size

end History

end Deathmatch
