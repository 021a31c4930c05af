import Deathmatch.Url

/-!
# Web requests

What is asked of the web, and what comes back: the body of the answer, whatever its status, or
nothing when there is none.
-/

namespace Deathmatch

inductive WebRequest where
  | get (url : Url)
  /-- A request that brings a JSON text with it. -/
  | post (url : Url) (body : String)
  deriving DecidableEq

/-- How requests are answered. -/
abbrev Web := WebRequest → Option String

namespace Web

/-- A web that no request reaches. -/
def unreachable : Web :=
  fun _ => none

end Web

end Deathmatch
