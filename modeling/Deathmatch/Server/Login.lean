import Deathmatch.Server

/-!
# Login

A client that has shaken hands names its account and a token. The login is refused when the id is
unusable, when the account is already playing, or when the policy turns the token down. Asking
the account service takes time, so the table is looked at twice: before asking, and once more in
the step that logs the session in.
-/

namespace Deathmatch

structure Credentials where
  account : String
  token : String
  deriving DecidableEq

namespace Credentials

/-- The most bytes of an account id. -/
def maxAccountBytes : Nat := 64

/-- The account and the token, the one after the other. -/
def ofPacket (p : Packet) : Except PacketFault Credentials := do
  let account ← p.textAt 0
  let token ← p.textAt (account.utf8ByteSize + 1)
  return ⟨account, token⟩

/-- Whether the account id has a length that can be used. -/
def isUsable (c : Credentials) : Bool :=
  decide (0 < c.account.utf8ByteSize ∧ c.account.utf8ByteSize ≤ maxAccountBytes)

end Credentials

/-- What comes of seating an account in a slot. -/
inductive Seating where
  /-- Someone is logged in with the account. -/
  | taken
  /-- The slot has no session. -/
  | vacant
  /-- The session is logged in; its datagrams go to `udp`. -/
  | seated (udp : Option Endpoint) (sessions : SessionTable)

/-- Logs the session of a slot in, unless the account is already playing. -/
def SessionTable.seat (t : SessionTable) (slot : UInt8) (account name : String) : Seating :=
  if (t.findByAccount? account).isSome then .taken
  else
    match t.get? slot with
    | none => .vacant
    | some session => .seated session.address.udp (t.authenticate slot account name)

namespace Server

/-- Refuses a login. -/
def deny (s : Server) (origin : Address) (stub : Session) : Server × Except Fault Unit :=
  match s.answer origin (some stub) (errorPacket PacketId.connect) with
  | .ok s' => (s', .ok ())
  | .error fault => (s, .error fault)

/-- The answer to a login: yes, and the map that is played. -/
def acceptance (s : Server) : Packet :=
  .tcp PacketId.connect (1 :: Text.terminated s.settings.currentMap)

/-- What follows once a session is logged in: the player joins the world, the client gets its
answer, and everyone is told. -/
def welcome (s : Server) (origin : Address) (stub : Session) (account name : String)
    (udp : Option Endpoint) : Server × Except Fault Unit :=
  match s.submit (.join stub.slot account name udp) with
  | .error fault => (s, .error fault)
  | .ok joined =>
    match joined.answer origin (some stub) s.acceptance with
    | .error fault => (joined, .error fault)
    | .ok answered => (answered.broadcastChat (name ++ " has joined the game"), .ok ())

/-- The second half of a login, after the account service has spoken. `stub` is the session as it
was when the packet arrived. -/
def enter (s : Server) (origin : Address) (stub : Session) (account name : String) :
    Server × Except Fault Unit :=
  match s.sessions.seat stub.slot account name with
  | .taken => s.deny origin stub
  | .vacant => (s, .error .unknownPeer)
  | .seated udp sessions => { s with sessions }.welcome origin stub account name udp

/-- Handles a login packet. -/
def connect (s : Server) (service : AccountService) (origin : Address) (stub : Session)
    (packet : Packet) : Server × Except Fault Unit :=
  if stub.initialized then (s, .error (.handshakeRejected "already connected"))
  else
    match Credentials.ofPacket packet with
    | .error fault => (s, .error (.packet fault))
    | .ok credentials =>
      if !credentials.isUsable || (s.sessions.findByAccount? credentials.account).isSome then
        s.deny origin stub
      else
        let (accepted, policy) := s.policy.check service credentials.account credentials.token
        let asked := { s with policy }
        if accepted then
          asked.enter origin stub credentials.account
            (Player.clampName (service.nameOf credentials.account))
        else
          asked.deny origin stub

end Server

end Deathmatch
