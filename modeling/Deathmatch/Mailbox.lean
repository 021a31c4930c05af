/-!
# Mailboxes

A bounded queue between two parts of the server. Who may not wait `offer`s an item, which is
dropped when the queue is full; who may wait `post`s it, behind all that wait already. Nothing can
be put in once nobody receives.
-/

namespace Deathmatch

structure Mailbox (α : Type) where
  capacity : Nat
  /-- Oldest first. -/
  items : List α
  /-- Whether someone may still take items out. -/
  receiving : Bool
  /-- Whether someone may still put items in. -/
  sending : Bool
  deriving DecidableEq

namespace Mailbox

variable {α : Type}

def empty (capacity : Nat) : Mailbox α :=
  ⟨capacity, [], true, true⟩

/-- Puts an item in if there is room. -/
def offer (m : Mailbox α) (a : α) : Mailbox α :=
  if m.receiving ∧ m.items.length < m.capacity then { m with items := m.items ++ [a] } else m

/-- Puts an item in, when necessary after a wait; impossible once nobody receives. -/
def post (m : Mailbox α) (a : α) : Option (Mailbox α) :=
  if m.receiving then some { m with items := m.items ++ [a] } else none

def drained (m : Mailbox α) : Mailbox α :=
  { m with items := [] }

/-- The queue once its receiver is gone. What waits in it is lost. -/
def hungUp (m : Mailbox α) : Mailbox α :=
  { m with items := [], receiving := false }

end Mailbox

end Deathmatch
