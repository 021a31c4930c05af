import Deathmatch.ByteMap
import Deathmatch.Endpoint
import Deathmatch.Packet.Datagram
import Deathmatch.Time

/-!
# Reassembler

Fragments of split packets wait in groups, one for each source and packet id. A group that holds
as many numbers as its packet has fragments is assembled and leaves. A group older than the
timeout counts for nothing: the next fragment starts it again, and it gives up its place when
room is short. One source may keep 4 groups waiting and all sources together 256; a fragment
that would open one more is dropped.
-/

namespace Deathmatch

structure Group where
  total : UInt8
  firstSeen : Time
  fragments : ByteMap Packet

namespace Group

/-- A group without fragments. -/
def fresh (total : UInt8) (now : Time) : Group :=
  ⟨total, now, .empty⟩

/-- Whether the group has waited longer than `timeout`. -/
def isStale (g : Group) (timeout : Span) (now : Time) : Bool :=
  decide (timeout < now.age g.firstSeen)

/-- The group that a fragment joins: this one, or one started again because this one is stale or
expects another number of fragments. -/
def renewed (g : Group) (timeout : Span) (total : UInt8) (now : Time) : Group :=
  if g.isStale timeout now ∨ g.total ≠ total then fresh total now else g

/-- Adds a fragment; it takes the place of an earlier one with its number. -/
def add (g : Group) (fragment : Packet) : Group :=
  { g with fragments := g.fragments.insert fragment.index fragment }

def isComplete (g : Group) : Bool :=
  decide (g.total.toNat ≤ g.fragments.size)

end Group

/-- Which packet a group collects. -/
structure GroupKey where
  source : Endpoint
  id : UInt8
  deriving DecidableEq

/-- The waiting groups, at most one for each key. -/
structure Reassembler where
  timeout : Span
  pending : List (GroupKey × Group)

namespace Reassembler

/-- How long a group may wait. -/
def defaultTimeout : Span := Span.seconds 2

/-- The most waiting groups of one source. -/
def maxPerSource : Nat := 4

/-- The most waiting groups. -/
def maxPending : Nat := 256

def empty (timeout : Span) : Reassembler :=
  ⟨timeout, []⟩

def find? (r : Reassembler) (key : GroupKey) : Option Group :=
  (r.pending.find? fun entry => entry.1 = key).map (·.2)

def remove (r : Reassembler) (key : GroupKey) : Reassembler :=
  { r with pending := r.pending.filter fun entry => entry.1 ≠ key }

/-- Makes `g` the group of `key`. -/
def keep (r : Reassembler) (key : GroupKey) (g : Group) : Reassembler :=
  { r with pending := (key, g) :: (r.remove key).pending }

/-- Drops the stale groups. -/
def expire (r : Reassembler) (now : Time) : Reassembler :=
  { r with pending := r.pending.filter fun entry => !entry.2.isStale r.timeout now }

/-- The number of groups that wait for fragments of `source`. -/
def countFrom (r : Reassembler) (source : Endpoint) : Nat :=
  r.pending.countP fun entry => entry.1.source = source

/-- Whether `source` may open another group. -/
def hasRoom (r : Reassembler) (source : Endpoint) : Bool :=
  decide (r.pending.length < maxPending ∧ r.countFrom source < maxPerSource)

/-- The table in which `source` opens a group: as it is if there is room, else without its stale
groups. -/
def makeRoom (r : Reassembler) (source : Endpoint) (now : Time) : Reassembler :=
  if r.hasRoom source then r else r.expire now

/-- Adds a fragment to a group of `key`, and assembles the packet if that completes it. -/
def accept (r : Reassembler) (key : GroupKey) (g : Group) (fragment : Packet) :
    Except PacketFault (Option Packet) × Reassembler :=
  let grown := g.add fragment
  if grown.isComplete then
    ((Packet.assemble grown.fragments.values).map some, r.remove key)
  else
    (.ok none, r.keep key grown)

/-- Takes one decoded datagram. The answer is the whole packet once it is there; a packet that is
no fragment passes straight through. -/
def push (r : Reassembler) (source : Endpoint) (fragment : Packet) (now : Time) :
    Except PacketFault (Option Packet) × Reassembler :=
  if fragment.total ≤ 1 then (.ok (some fragment), r)
  else
    let key : GroupKey := ⟨source, fragment.id⟩
    match r.find? key with
    | some g => r.accept key (g.renewed r.timeout fragment.total now) fragment
    | none =>
      let roomy := r.makeRoom source now
      if roomy.hasRoom source then
        roomy.accept key (Group.fresh fragment.total now) fragment
      else
        (.ok none, roomy)

end Reassembler

end Deathmatch
