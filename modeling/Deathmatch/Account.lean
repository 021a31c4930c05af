/-!
# Accounts

An account service knows which tokens are valid and what an account is called; it may fail to
answer. The policy decides who may log in: everyone when the server is insecure, else whom the
service accepts. When the service fails, a policy that turns insecure by itself lets everyone in
and stays degraded until the service answers again.
-/

namespace Deathmatch

/-- The answers of an account service; `none` where it fails. -/
structure AccountService where
  validate : String → String → Option Bool
  /-- The display name of an account, if the service knows one. -/
  displayName : String → Option (Option String)

namespace AccountService

/-- Accepts every token and knows no names. -/
def allowAll : AccountService :=
  ⟨fun _ _ => some true, fun _ => some none⟩

end AccountService

structure AuthPolicy where
  insecure : Bool
  autoInsecure : Bool
  /-- Whether tokens are accepted blindly because the service fails. -/
  degraded : Bool
  deriving DecidableEq

namespace AuthPolicy

def start (insecure autoInsecure : Bool) : AuthPolicy :=
  ⟨insecure, autoInsecure, false⟩

/-- Whether `account` may log in with `token`, and the policy afterwards. -/
def check (policy : AuthPolicy) (service : AccountService) (account token : String) :
    Bool × AuthPolicy :=
  if policy.insecure then (true, policy)
  else
    match service.validate account token with
    | some valid => (valid, { policy with degraded := false })
    | none =>
      if policy.autoInsecure then (true, { policy with degraded := true }) else (false, policy)

end AuthPolicy

/-- The name under which an account plays: its display name, or else the account itself. -/
def AccountService.nameOf (service : AccountService) (account : String) : String :=
  match service.displayName account with
  | some (some name) => name
  | _ => account

end Deathmatch
