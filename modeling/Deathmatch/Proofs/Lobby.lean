import Deathmatch.Proofs.Agreement

/-!
# Handlers side by side

A login and the release of a slot take several steps, and others come in between: whoever looks at
the table has to give it back before the account service is asked, before a command is submitted
and before a line of chat goes out. `Errand` is what a handler still has to do, and `Errand.advance`
its next step, which nothing interrupts. A `Lobby` is a server with the errands that are under way;
its moves come in any order.

Run alone, the errands are the handlers: `Server.leads_connect` for a login, `Server.leads_release`
for the release of a slot. What one step of an errand can do to the table and the queue is said by
`Errand.steps_advance`, what a move can do to the table by `Lobby.Becomes.changes`.
-/

namespace Deathmatch

/-- A login packet, with the session on whose behalf it is handled as that was when it came. -/
structure Request where
  origin : Address
  stub : Session
  packet : Packet

/-- What a handler has to do next. -/
inductive Errand where
  /-- To read the packet, and to look whether the account is playing. -/
  | look (r : Request)
  /-- To ask the account service about the token. -/
  | ask (r : Request) (credentials : Credentials)
  /-- To ask the account service for the name. -/
  | identify (r : Request) (account : String)
  /-- To log the session in, unless the account is playing by now. -/
  | seat (r : Request) (account name : String)
  /-- To submit the player. -/
  | join (r : Request) (account name : String) (udp : Option Endpoint)
  /-- To answer that the login succeeded. -/
  | accept (r : Request) (name : String)
  /-- To answer that the login is refused. -/
  | deny (r : Request)
  /-- To answer that the packet failed. -/
  | fail (r : Request)
  /-- To submit that the player of a session which was taken out of the table leaves. -/
  | leave (slot : UInt8) (session : Session)
  /-- To tell everyone. -/
  | tell (line : String)
  | done

namespace Errand

/-- The next step of an errand, which nothing interrupts, and what is to do after it. -/
def advance (service : AccountService) (s : Server) : Errand → Server × Errand
  | .look r =>
    if r.stub.initialized then (s, .fail r)
    else
      match Credentials.ofPacket r.packet with
      | .error _ => (s, .fail r)
      | .ok credentials =>
        if !credentials.isUsable || (s.sessions.findByAccount? credentials.account).isSome then
          (s, .deny r)
        else (s, .ask r credentials)
  | .ask r credentials =>
    let (accepted, policy) := s.policy.check service credentials.account credentials.token
    ({ s with policy }, if accepted then .identify r credentials.account else .deny r)
  | .identify r account => (s, .seat r account (Player.clampName (service.nameOf account)))
  | .seat r account name =>
    match s.sessions.seat r.stub.slot account name with
    | .taken => (s, .deny r)
    | .vacant => (s, .fail r)
    | .seated udp sessions => ({ s with sessions }, .join r account name udp)
  | .join r account name udp =>
    match s.submit (.join r.stub.slot account name udp) with
    | .error _ => (s, .fail r)
    | .ok joined => (joined, .accept r name)
  | .accept r name =>
    match s.answer r.origin (some r.stub) s.acceptance with
    | .error _ => (s, .fail r)
    | .ok answered => (answered, .tell (name ++ " has joined the game"))
  | .deny r =>
    match s.answer r.origin (some r.stub) (errorPacket PacketId.connect) with
    | .error _ => (s, .fail r)
    | .ok answered => (answered, .done)
  | .fail r => (s.fail r.origin (some r.stub) r.packet, .done)
  | .leave slot session =>
    let told := match s.submit (.leave slot) with
      | .ok s' => s'
      | .error _ => s
    (told, .tell (session.name ++ " has left the game"))
  | .tell line => (s.broadcastChat line, .done)
  | .done => (s, .done)

/-- What is to do once a session has been taken out of the table. -/
def farewell (slot : UInt8) (session : Session) : Errand :=
  if session.initialized then .leave slot session else .done

/-- The command that comes next, of an errand that has changed the table and has to submit it. -/
def command? : Errand → Option Command
  | .join r account name udp => some (.join r.stub.slot account name udp)
  | .leave slot _ => some (.leave slot)
  | .look _ | .ask .. | .identify .. | .seat .. => none
  | .accept .. | .deny _ | .fail _ | .tell _ | .done => none

/-! ## Errands that run alone -/

/-- Without anything in between, and with one account service throughout, the errand leaves the
server as `s'`. -/
inductive Leads (service : AccountService) : Server → Errand → Server → Prop
  | done (s : Server) : Leads service s .done s
  | step {s s' : Server} {t : Errand} :
    Leads service (t.advance service s).1 (t.advance service s).2 s' → Leads service s t s'

end Errand

/-- What a handler leaves behind, and the answer if it failed. -/
def Request.concluded (r : Request) : Server × Except Fault Unit → Server
  | (s, .ok ()) => s
  | (s, .error _) => s.fail r.origin (some r.stub) r.packet

namespace Server

variable {s : Server} {r : Request} {service : AccountService}

theorem leads_fail (s : Server) (r : Request) (fault : Fault) :
    Errand.Leads service s (.fail r) (r.concluded (s, .error fault)) :=
  .step (.done _)

theorem leads_tell (s : Server) (line : String) :
    Errand.Leads service s (.tell line) (s.broadcastChat line) :=
  .step (.done _)

theorem leads_deny (s : Server) (r : Request) :
    Errand.Leads service s (.deny r) (r.concluded (s.deny r.origin r.stub)) := by
  refine .step ?_
  unfold Errand.advance deny
  dsimp only
  cases s.answer r.origin (some r.stub) (errorPacket PacketId.connect) with
  | error fault => exact leads_fail s r fault
  | ok answered => exact .done answered

theorem leads_welcome (s : Server) (r : Request) (account name : String) (udp : Option Endpoint) :
    Errand.Leads service s (.join r account name udp)
      (r.concluded (s.welcome r.origin r.stub account name udp)) := by
  refine .step ?_
  unfold Errand.advance welcome
  dsimp only
  cases submitted : s.submit (.join r.stub.slot account name udp) with
  | error fault => exact leads_fail s r fault
  | ok joined =>
    have acceptance : joined.acceptance = s.acceptance := by
      rcases submit_ok submitted with ⟨commands, rfl⟩
      rfl
    refine .step ?_
    unfold Errand.advance
    dsimp only
    rw [← acceptance]
    cases joined.answer r.origin (some r.stub) joined.acceptance with
    | error fault => exact leads_fail joined r fault
    | ok answered => exact leads_tell answered _

theorem leads_enter (s : Server) (r : Request) (account name : String) :
    Errand.Leads service s (.seat r account name)
      (r.concluded (s.enter r.origin r.stub account name)) := by
  refine .step ?_
  unfold Errand.advance enter
  dsimp only
  cases s.sessions.seat r.stub.slot account name with
  | taken => exact leads_deny s r
  | vacant => exact leads_fail s r _
  | seated udp sessions => exact leads_welcome { s with sessions } r account name udp

/-- A login whose steps nothing interrupts is the handler of the login packet. -/
theorem leads_connect (s : Server) (r : Request) :
    Errand.Leads service s (.look r)
      (r.concluded (s.connect service r.origin r.stub r.packet)) := by
  refine .step ?_
  unfold Errand.advance connect
  dsimp only
  split
  · exact leads_fail s r _
  · cases Credentials.ofPacket r.packet with
    | error fault => exact leads_fail s r _
    | ok credentials =>
      dsimp only
      split
      · exact leads_deny s r
      · refine .step ?_
        unfold Errand.advance
        dsimp only
        split
        · exact .step (leads_enter _ r _ _)
        · exact leads_deny _ r

/-- A login packet that belongs to a session starts a login, and another is dropped. -/
theorem leads_handle {packet : Packet} (login : packet.id = PacketId.connect) (origin : Address)
    (slot : Option UInt8) (now : Time) :
    (∀ stub, s.resolve origin slot = some stub →
      Errand.Leads service s (.look ⟨origin, stub, packet⟩)
        (s.handle service origin packet slot now)) ∧
    (s.resolve origin slot = none → s.handle service origin packet slot now = s) := by
  have registered : Registry.game.get? packet.id = some .connect := by
    rw [login]
    decide
  refine ⟨fun stub resolved => ?_, fun unresolved => ?_⟩
  · have allowed : (s.resolve origin slot).filter (mayHandle packet.id) = some stub := by
      rw [resolved, Option.filter_some, mayHandle, login]
      rfl
    have handled : s.handle service origin packet slot now =
        Request.concluded ⟨origin, stub, packet⟩ (s.connect service origin stub packet) := by
      rw [handle, handleWith, registered]
      dsimp only
      rw [allowed]
      rfl
    rw [handled]
    exact leads_connect s ⟨origin, stub, packet⟩
  · rw [handle, handleWith, registered, unresolved]
    dsimp only
    rw [Option.filter_none]
    exact if_neg fun both => Bool.false_ne_true both.2

/-- So is the release of a slot, after the step that takes the session out of the table. -/
theorem leads_release {slot : UInt8} {tcp : Option Endpoint} {session : Session}
    {vacated : Server} (taken : s.takeSession? slot tcp = some (session, vacated)) :
    Errand.Leads service vacated (.farewell slot session) (s.release slot tcp).2 := by
  rw [release, taken]
  show Errand.Leads service vacated (Errand.farewell slot session) (vacated.farewell slot session)
  unfold Errand.farewell farewell
  split
  · exact .step (leads_tell _ _)
  · exact .done vacated

end Server

/-! ## What a step of an errand does -/

/-- What a step may do to the table and the queue, with the errand before and after it. -/
inductive Errand.Steps (s : Server) : Errand → Server → Errand → Prop
  /-- Nothing. -/
  | quiet {t t' : Errand} {s' : Server} :
    s'.core = s.core → t.command? = none → t'.command? = none → Steps s t s' t'
  /-- It logs a session in, and has to submit the player. -/
  | seat {r : Request} {account name : String} {udp : Option Endpoint} {sessions : SessionTable} :
    s.sessions.seat r.stub.slot account name = .seated udp sessions →
    Steps s (.seat r account name) { s with sessions } (.join r account name udp)
  /-- It submits the command that it had to. -/
  | submit {t t' : Errand} {s' : Server} {command : Command} :
    t.command? = some command → s'.core = (s.queueing command).core → t'.command? = none →
    Steps s t s' t'

theorem Errand.steps_advance {s : Server} (receiving : s.commands.receiving = true)
    (service : AccountService) (t : Errand) :
    Steps s t (t.advance service s).1 (t.advance service s).2 := by
  cases t with
  | look r =>
    unfold advance
    dsimp only
    repeat' split
    all_goals exact .quiet rfl rfl rfl
  | ask r credentials =>
    unfold advance
    dsimp only
    split <;> exact .quiet rfl rfl rfl
  | identify r account => exact .quiet rfl rfl rfl
  | seat r account name =>
    unfold advance
    dsimp only
    split
    · exact .quiet rfl rfl rfl
    · exact .quiet rfl rfl rfl
    · next seated => exact .seat seated
  | join r account name udp =>
    unfold advance
    dsimp only
    rw [Server.submit_open receiving]
    exact .submit rfl rfl rfl
  | accept r name =>
    unfold advance
    dsimp only
    split
    · exact .quiet rfl rfl rfl
    · next answered => exact .quiet (Server.core_answer answered) rfl rfl
  | deny r =>
    unfold advance
    dsimp only
    split
    · exact .quiet rfl rfl rfl
    · next answered => exact .quiet (Server.core_answer answered) rfl rfl
  | fail r => exact .quiet (Server.core_fail _ _ _) rfl rfl
  | leave slot session =>
    unfold advance
    dsimp only
    rw [Server.submit_open receiving]
    exact .submit rfl rfl rfl
  | tell line => exact .quiet rfl rfl rfl
  | done => exact .quiet rfl rfl rfl

namespace Errand.Steps

variable {s s' : Server} {t t' : Errand}

theorem receiving (steps : Steps s t s' t') : s'.commands.receiving = s.commands.receiving := by
  cases steps with
  | quiet core _ _ => exact congrArg (·.2.1.receiving) core
  | seat _ => rfl
  | submit _ core _ => exact congrArg (·.2.1.receiving) core

/-- Only a login changes the table. -/
theorem sessions (steps : Steps s t s' t') :
    s'.sessions = s.sessions ∨
    ∃ r account name udp, t = .seat r account name ∧
      s.sessions.seat r.stub.slot account name = .seated udp s'.sessions := by
  cases steps with
  | quiet core _ _ => exact .inl (congrArg (·.1) core)
  | seat seated => exact .inr ⟨_, _, _, _, rfl, seated⟩
  | submit _ core _ => exact .inl (congrArg (·.1) core)

end Errand.Steps

/-! ## What errands know -/

/-- Whether the packet of a session that was not logged in names usable credentials. -/
structure Request.Names (r : Request) (credentials : Credentials) : Prop where
  stub : r.stub.initialized = false
  read : Credentials.ofPacket r.packet = .ok credentials
  usable : credentials.isUsable = true

namespace Errand

/-- What an errand knows of its packet. A name that it seats has been cut. -/
def Sound : Errand → Prop
  | .ask r credentials => r.Names credentials
  | .identify r account => ∃ token, r.Names ⟨account, token⟩
  | .seat r account name =>
    (∃ token, r.Names ⟨account, token⟩) ∧ Player.clampName name = name
  | .look _ | .join .. | .accept .. | .deny _ | .fail _ | .leave .. | .tell _ | .done => True

theorem sound_farewell (slot : UInt8) (session : Session) : (farewell slot session).Sound := by
  unfold farewell
  split <;> trivial

theorem Sound.advance {t : Errand} (sound : t.Sound) (service : AccountService) (s : Server) :
    (t.advance service s).2.Sound := by
  cases t with
  | look r =>
    unfold Errand.advance
    dsimp only
    split
    · trivial
    · next stub =>
      split
      · trivial
      · next credentials read =>
        split
        · trivial
        · next unrefused =>
          refine ⟨Bool.eq_false_iff.mpr stub, read, ?_⟩
          cases usable : credentials.isUsable with
          | true => rfl
          | false => exact absurd (by rw [usable]; rfl) unrefused
  | ask r credentials =>
    unfold Errand.advance
    dsimp only
    split
    · exact ⟨credentials.token, sound⟩
    · trivial
  | identify r account => exact ⟨sound, Player.clampName_clampName _⟩
  | seat | join | accept | deny | fail | leave | tell | done =>
    unfold Errand.advance
    dsimp only
    repeat' split
    all_goals trivial

end Errand

/-! ## The lobby -/

/-- A server, and the errands that handlers have started, first to last. -/
structure Lobby where
  server : Server
  errands : List Errand

namespace Lobby

/-- What may happen next in a lobby. -/
inductive Move where
  /-- A client has shaken hands. -/
  | allocate (address : Address) (capacity : Nat)
  /-- A packet comes; if it is a login, its handler starts. -/
  | arrive (origin : Address) (packet : Packet) (slot : Option UInt8)
  /-- A session is taken out of the table, if it belongs to the connection. -/
  | release (slot : UInt8) (tcp : Option Endpoint)
  /-- The errand of this number goes on by a step. -/
  | advance (number : Nat) (service : AccountService)
  /-- A step of the simulation. -/
  | step (now : Time)

/-- A lobby without sessions. -/
def start (settings : Settings) (points : List Vec3) (rolls : Nat → Nat) : Lobby :=
  ⟨.start settings points rolls, []⟩

def after (l : Lobby) : Move → Lobby
  | .allocate address capacity =>
    match l.server.openSession address capacity with
    | .ok (_, server) => { l with server }
    | .error _ => l
  | .arrive origin packet slot =>
    if packet.id = PacketId.connect then
      match l.server.resolve origin slot with
      | some stub => { l with errands := l.errands ++ [.look ⟨origin, stub, packet⟩] }
      | none => l
    else l
  | .release slot tcp =>
    match l.server.takeSession? slot tcp with
    | some (session, server) => ⟨server, l.errands ++ [.farewell slot session]⟩
    | none => l
  | .advance number service =>
    match l.errands[number]? with
    | some errand =>
      let (server, next) := errand.advance service l.server
      ⟨server, l.errands.set number next⟩
    | none => l
  | .step now => { l with server := (l.server.step now).server }

/-- The lobby after the moves, first to last. -/
def run (l : Lobby) (moves : List Move) : Lobby :=
  moves.foldl after l

variable {l : Lobby}

theorem run_append (xs ys : List Move) : l.run (xs ++ ys) = (l.run xs).run ys :=
  List.foldl_append

theorem run_concat (moves : List Move) (m : Move) :
    l.run (moves ++ [m]) = (l.run moves).after m := by
  rw [run_append]
  rfl

/-! ## What a move does -/

/-- What comes of a move. -/
inductive Becomes (l : Lobby) : Move → Lobby → Prop
  /-- There is no free slot. -/
  | full {address : Address} {capacity : Nat} : Becomes l (.allocate address capacity) l
  /-- The packet is no login, or of no session. -/
  | ignored {origin : Address} {packet : Packet} {slot : Option UInt8} :
    Becomes l (.arrive origin packet slot) l
  | foreign {slot : UInt8} {tcp : Option Endpoint} :
    l.server.sessions.owned? slot tcp = none → Becomes l (.release slot tcp) l
  | absent {number : Nat} {service : AccountService} :
    l.errands[number]? = none → Becomes l (.advance number service) l
  | allocate {address : Address} {capacity : Nat} {slot : UInt8} {sessions : SessionTable} :
    l.server.sessions.allocate address l.server.outlets.nextConnection = some (slot, sessions) →
    Becomes l (.allocate address capacity)
      ⟨{ l.server with sessions, outlets := l.server.outlets.openControl capacity }, l.errands⟩
  | arrive {origin : Address} {packet : Packet} {slot : Option UInt8} {stub : Session} :
    packet.id = PacketId.connect → l.server.resolve origin slot = some stub →
    Becomes l (.arrive origin packet slot) ⟨l.server, l.errands ++ [.look ⟨origin, stub, packet⟩]⟩
  | release {slot : UInt8} {tcp : Option Endpoint} {x : Session} :
    l.server.sessions.owned? slot tcp = some x →
    Becomes l (.release slot tcp)
      ⟨{ l.server with sessions := l.server.sessions.remove slot },
        l.errands ++ [.farewell slot x]⟩
  | advance {number : Nat} {service : AccountService} {t : Errand} :
    l.errands[number]? = some t →
    Becomes l (.advance number service)
      ⟨(t.advance service l.server).1, l.errands.set number (t.advance service l.server).2⟩
  | step (now : Time) : Becomes l (.step now) ⟨(l.server.step now).server, l.errands⟩

theorem becomes_after (l : Lobby) (m : Move) : l.Becomes m (l.after m) := by
  cases m with
  | allocate address capacity =>
    unfold after Server.openSession
    dsimp only
    cases allocated : l.server.sessions.allocate address l.server.outlets.nextConnection with
    | none => exact .full
    | some opened => exact .allocate allocated
  | arrive origin packet slot =>
    unfold after
    dsimp only
    split
    · next login =>
      split
      · next resolved => exact .arrive login resolved
      · exact .ignored
    · exact .ignored
  | release slot tcp =>
    unfold after Server.takeSession?
    dsimp only
    cases owned : l.server.sessions.owned? slot tcp with
    | none => exact .foreign owned
    | some x => exact .release owned
  | advance number service =>
    unfold after
    dsimp only
    split
    · next found => exact .advance found
    · next absent => exact .absent absent
  | step now => exact .step now

/-- What holds all along: the simulation takes commands, sessions are kept under their slots, and
errands are sound. -/
structure Proper (l : Lobby) : Prop where
  receiving : l.server.commands.receiving = true
  indexed : l.server.sessions.Indexed
  sound : ∀ t ∈ l.errands, t.Sound

/-- What a move may make of the table. -/
inductive Changes (l : Lobby) : SessionTable → Prop
  | none {sessions : SessionTable} : sessions = l.server.sessions → Changes l sessions
  | allocate {address : Address} {slot : UInt8} {sessions : SessionTable} :
    l.server.sessions.allocate address l.server.outlets.nextConnection = some (slot, sessions) →
    Changes l sessions
  | remove (slot : UInt8) : Changes l (l.server.sessions.remove slot)
  | seat {r : Request} {account name : String} {udp : Option Endpoint} {sessions : SessionTable} :
    .seat r account name ∈ l.errands →
    l.server.sessions.seat r.stub.slot account name = .seated udp sessions →
    Changes l sessions

variable {l' : Lobby} {m : Move}

theorem Becomes.changes (turn : l.Becomes m l') (proper : l.Proper) :
    l.Changes l'.server.sessions := by
  cases turn with
  | full | ignored | foreign | absent | arrive => exact .none rfl
  | allocate allocated => exact .allocate allocated
  | release _ => exact .remove _
  | @advance number service t found =>
    rcases (t.steps_advance proper.receiving service).sessions with
      same | ⟨r, account, name, udp, rfl, seated⟩
    · exact .none same
    · exact .seat (List.mem_of_getElem? found) seated
  | step now => exact .none (Server.sessions_step now)

theorem Changes.indexed {sessions : SessionTable} (changes : l.Changes sessions)
    (indexed : l.server.sessions.Indexed) : sessions.Indexed := by
  cases changes with
  | none same => exact same ▸ indexed
  | allocate allocated => exact indexed.allocate allocated
  | remove slot => exact indexed.remove slot
  | seat _ seated => exact indexed.seat seated

theorem Becomes.receiving (turn : l.Becomes m l') (proper : l.Proper) :
    l'.server.commands.receiving = true := by
  cases turn with
  | full | ignored | foreign | absent | allocate | arrive | release => exact proper.receiving
  | @advance number service t _ =>
    exact (t.steps_advance proper.receiving service).receiving.trans proper.receiving
  | step now =>
    exact (congrArg (·.2.1.receiving) (Server.core_step now) :).trans proper.receiving

theorem Becomes.sound (turn : l.Becomes m l') (proper : l.Proper) : ∀ t ∈ l'.errands, t.Sound := by
  cases turn with
  | full | ignored | foreign | absent | allocate | step => exact proper.sound
  | arrive => exact List.forall_mem_append.mpr ⟨proper.sound, List.forall_mem_singleton.mpr trivial⟩
  | release _ =>
    exact List.forall_mem_append.mpr
      ⟨proper.sound, List.forall_mem_singleton.mpr (Errand.sound_farewell _ _)⟩
  | advance found =>
    intro t here
    rcases List.mem_or_eq_of_mem_set here with old | rfl
    · exact proper.sound t old
    · exact (proper.sound _ (List.mem_of_getElem? found)).advance _ _

theorem proper_start (settings : Settings) (points : List Vec3) (rolls : Nat → Nat) :
    (Lobby.start settings points rolls).Proper where
  receiving := rfl
  indexed := SessionTable.indexed_empty settings.capacity
  sound := List.forall_mem_nil _

theorem Proper.after (proper : l.Proper) (m : Move) : (l.after m).Proper where
  receiving := (l.becomes_after m).receiving proper
  indexed := ((l.becomes_after m).changes proper).indexed proper.indexed
  sound := (l.becomes_after m).sound proper

theorem Proper.run (proper : l.Proper) (moves : List Move) : (l.run moves).Proper := by
  induction moves generalizing l with
  | nil => exact proper
  | cons m rest ih => exact ih (proper.after m)

/-! ## A login on its way -/

/-- An errand goes on by three steps: in a login, as far as the name. -/
def thinking (number : Nat) (service : AccountService) : List Move :=
  [.advance number service, .advance number service, .advance number service]

theorem after_advance {number : Nat} {t : Errand} (found : l.errands[number]? = some t)
    (service : AccountService) :
    l.after (.advance number service) =
      ⟨(t.advance service l.server).1, l.errands.set number (t.advance service l.server).2⟩ := by
  rw [after, found]

theorem after_look {number : Nat} {r : Request} {credentials : Credentials}
    (found : l.errands[number]? = some (.look r)) (names : r.Names credentials)
    (free : l.server.sessions.findByAccount? credentials.account = none)
    (service : AccountService) :
    l.after (.advance number service) =
      ⟨l.server, l.errands.set number (.ask r credentials)⟩ := by
  have looked : (Errand.look r).advance service l.server = (l.server, .ask r credentials) := by
    rw [Errand.advance, if_neg (Bool.eq_false_iff.mp names.stub), names.read]
    dsimp only
    rw [names.usable, free]
    rfl
  rw [after_advance found, looked]

theorem after_ask {number : Nat} {r : Request} {credentials : Credentials} {policy : AuthPolicy}
    {service : AccountService} (found : l.errands[number]? = some (.ask r credentials))
    (accepted : l.server.policy.check service credentials.account credentials.token =
      (true, policy)) :
    l.after (.advance number service) =
      ⟨{ l.server with policy }, l.errands.set number (.identify r credentials.account)⟩ := by
  rw [after_advance found, Errand.advance, accepted]
  rfl

theorem after_identify {number : Nat} {r : Request} {account : String}
    (found : l.errands[number]? = some (.identify r account)) (service : AccountService) :
    l.after (.advance number service) = ⟨l.server, l.errands.set number
      (.seat r account (Player.clampName (service.nameOf account)))⟩ := by
  rw [after_advance found, Errand.advance]

/-- A login whose account is free, and which is accepted, gets as far as the name. -/
theorem run_thinking {number : Nat} {r : Request} {credentials : Credentials} {policy : AuthPolicy}
    {service : AccountService} (found : l.errands[number]? = some (.look r))
    (names : r.Names credentials)
    (free : l.server.sessions.findByAccount? credentials.account = none)
    (accepted : l.server.policy.check service credentials.account credentials.token =
      (true, policy)) :
    l.run (thinking number service) =
      ⟨{ l.server with policy }, l.errands.set number (.seat r credentials.account
        (Player.clampName (service.nameOf credentials.account)))⟩ := by
  have inside : number < l.errands.length := (List.getElem?_eq_some_iff.mp found).1
  have asked := after_ask (l := ⟨l.server, l.errands.set number (.ask r credentials)⟩)
    (List.getElem?_set_self inside) accepted
  rw [List.set_set] at asked
  have identified := after_identify
    (l := ⟨{ l.server with policy }, l.errands.set number (.identify r credentials.account)⟩)
    (List.getElem?_set_self inside) service
  rw [List.set_set] at identified
  rw [thinking, run, List.foldl_cons, List.foldl_cons, List.foldl_cons, List.foldl_nil,
    after_look found names free, asked, identified]

/-- With the account still free and a session in the slot, the login takes place. -/
theorem after_seat {number : Nat} {r : Request} {account name : String} {x : Session}
    (found : l.errands[number]? = some (.seat r account name))
    (free : l.server.sessions.findByAccount? account = none)
    (current : l.server.sessions.get? r.stub.slot = some x) (service : AccountService) :
    l.after (.advance number service) =
      ⟨{ l.server with sessions := l.server.sessions.authenticate r.stub.slot account name },
        l.errands.set number (.join r account name x.address.udp)⟩ := by
  have seated : l.server.sessions.seat r.stub.slot account name =
      .seated x.address.udp (l.server.sessions.authenticate r.stub.slot account name) := by
    rw [SessionTable.seat, free, current]
    rfl
  rw [after_advance found, Errand.advance, seated]

end Lobby

end Deathmatch
