/-!
# Endpoints

An endpoint is a host and a port of it. Two endpoints are the same exactly when their texts are.
-/

namespace Deathmatch

structure Endpoint where
  host : String
  port : UInt16
  deriving DecidableEq, Inhabited

namespace Endpoint

/-- The host and the port, with a colon between them. -/
def text (e : Endpoint) : String :=
  e.host ++ ":" ++ toString e.port.toNat

end Endpoint

end Deathmatch
