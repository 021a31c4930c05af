import Deathmatch.Account
import Deathmatch.Achievement
import Deathmatch.Fault
import Deathmatch.Json.Reader
import Deathmatch.Url.Reader
import Deathmatch.Web

/-!
# The account service on the web

The service is asked by requests for URLs below the one that the settings name. It answers with
records; one that is no such record counts as a failure to answer.
-/

namespace Deathmatch.RemoteAccounts

/-- The URL of the service in the settings. -/
def base (address : String) : Except SettingsFault Url :=
  match Url.read? address with
  | none => .error (.invalidApiServer address)
  | some url => if url.isPathless then .error (.pathlessApiServer url.text) else .ok url

/-! ## Requests -/

def validateRequest (base : Url) (account token : String) : WebRequest :=
  .get (base.below ["validate-token", account, token])

def nameRequest (base : Url) (account : String) : WebRequest :=
  .get (base.below ["get-name", account])

def unlockRequest (base : Url) (u : Unlock) : WebRequest :=
  .get (base.below ["unlock-achievements", u.account, toString u.id.toNat])

/-! ## Answers -/

/-- Whether a request succeeded, as its answer says. -/
def success? (body : String) : Option Bool := do
  let [some success] ← (← Json.read? body).record? ["Success"] | none
  success.asBool?

/-- Whether a request succeeded, and the text in `field`, empty if it is missing. -/
def successWith? (field body : String) : Option (Bool × String) := do
  let [some success, entry] ← (← Json.read? body).record? ["Success", field] | none
  return (← success.asBool?, ← entry.elim (some "") Json.Value.asText?)

/-! ## The service -/

/-- The account service at `base`. A name that is empty is none. -/
def service (base : Url) (web : Web) : AccountService where
  validate account token := (web (validateRequest base account token)).bind success?
  displayName account := do
    let (success, name) ← successWith? "Name" (← web (nameRequest base account))
    return if success ∧ name ≠ "" then some name else none

/-- The title of an achievement, once the service has confirmed that it is unlocked. -/
def unlock (base : Url) (web : Web) (u : Unlock) : Option String := do
  let (success, title) ← successWith? "Message" (← web (unlockRequest base u))
  if success then some title else none

end Deathmatch.RemoteAccounts
