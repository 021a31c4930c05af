import Deathmatch.Endpoint

/-!
# Addresses

A peer is reached over a control connection and, once its handshake announced one, at a datagram
endpoint. An address carries whichever of the two is known. Two addresses meet when either
endpoint is known to both and the same; the relation is symmetric, but neither reflexive, for the
unbound address, nor transitive.
-/

namespace Deathmatch

structure Address where
  tcp : Option Endpoint
  udp : Option Endpoint
  deriving DecidableEq, Inhabited

/-- Whether both are known and equal. -/
def sameEndpoint : Option Endpoint → Option Endpoint → Bool
  | some a, some b => decide (a = b)
  | _, _ => false

namespace Address

def ofUdp (e : Endpoint) : Address :=
  ⟨none, some e⟩

/-- Whether the two are the same peer. -/
def meets (a b : Address) : Bool :=
  sameEndpoint a.tcp b.tcp || sameEndpoint a.udp b.udp

def text (a : Address) : String :=
  match a.tcp, a.udp with
  | some tcp, some udp => "tcp://" ++ tcp.text ++ " udp://" ++ udp.text
  | some tcp, none => "tcp://" ++ tcp.text
  | none, some udp => "udp://" ++ udp.text
  | none, none => "<unbound>"

theorem meets_comm (a b : Address) : a.meets b = b.meets a := by
  have same_comm (x y : Option Endpoint) : sameEndpoint x y = sameEndpoint y x := by
    cases x <;> cases y <;> simp [sameEndpoint, eq_comm]
  rw [meets, meets, same_comm a.tcp, same_comm a.udp]

end Address

end Deathmatch
