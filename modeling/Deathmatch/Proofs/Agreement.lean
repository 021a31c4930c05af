import Deathmatch.Proofs.ControlQueues
import Deathmatch.Proofs.Roster

/-!
# The table of sessions and the world

The table of sessions and the world change apart from each other: a handler changes the table and
puts a command into the queue, and a step of the simulation applies what waits there.
`Server.Relays` says what all handlers have in common: the commands that they place fit the roster
of the table, and bring it to what it is afterwards. A handler that runs to its end places a join
just when it logs a session in, and a leave just when it takes one out that was logged in
(`Server.relays_handle`, `Server.relays_release`).

So along a run, one thing after the other, the world lags behind the table by the commands that wait
(`Server.Agrees.act`), and `Server.run_agrees` says what follows for slots, accounts and endpoints.
-/

namespace Deathmatch

/-- The commands of play neither seat anyone nor remove anyone. -/
theorem Packet.gameCommand_settled {p : Packet} {slot : UInt8} {now : Time} {handler : Handler}
    {command : Command} (asked : p.gameCommand slot now handler = .ok (some command))
    (r : Roster) : r.Fits command ∧ command.reseat r = r := by
  have settled : (World.Step.command command now).seats = false ∧ ∀ k, command.turn? k = none := by
    cases handler with
    | connect | disconnect | chat => cases asked
    | acknowledge | movement | infoChange | damage =>
      simp only [Packet.gameCommand, bind, Except.bind, pure, Except.pure] at asked
      repeat' split at asked
      all_goals cases asked
      all_goals exact ⟨rfl, fun _ => rfl⟩
  cases command with
  | join | leave => cases settled.1
  | move | infoChange | damage | acknowledge => exact ⟨trivial, rfl⟩

/-- A mailbox with another item behind those that wait. -/
def Mailbox.with {α : Type} (m : Mailbox α) (a : α) : Mailbox α :=
  { m with items := m.items ++ [a] }

namespace Server

variable {s s' s'' : Server}

/-- What no answer and no line of chat changes. -/
def core (s : Server) : SessionTable × Mailbox Command × World :=
  (s.sessions, s.commands, s.world)

/-- A server with another command in its queue. -/
def queueing (s : Server) (command : Command) : Server :=
  { s with commands := s.commands.with command }

/-- While the simulation takes commands, one can be submitted. -/
theorem submit_open (receiving : s.commands.receiving = true) (command : Command) :
    s.submit command = .ok (s.queueing command) := by
  rw [submit, Mailbox.post, if_pos receiving]
  rfl

theorem core_answer {origin : Address} {peer : Option Session} {p : Packet}
    (answered : s.answer origin peer p = .ok s') : s'.core = s.core := by
  rcases answer_ok answered with ⟨-, -, -, rfl⟩
  rfl

theorem core_fail (origin : Address) (peer : Option Session) (packet : Packet) :
    (s.fail origin peer packet).core = s.core := by
  unfold fail
  split
  · split
    · next answered => exact core_answer answered
    · rfl
  · rfl

theorem core_deny (origin : Address) (stub : Session) : (s.deny origin stub).1.core = s.core := by
  unfold deny
  split
  · next answered => exact core_answer answered
  · rfl

theorem core_chat (player : Session) (packet : Packet) :
    (s.chat player packet).1.core = s.core := by
  unfold chat
  split
  · rfl
  · split <;> rfl

theorem core_welcome (receiving : s.commands.receiving = true) (origin : Address) (stub : Session)
    (account name : String) (udp : Option Endpoint) :
    (s.welcome origin stub account name udp).1.core =
      (s.queueing (.join stub.slot account name udp)).core := by
  unfold welcome
  rw [submit_open receiving]
  dsimp only
  split
  · rfl
  · next answered => exact (core_answer answered :)

/-! ## What handlers do to the table and the queue -/

/-- The server becomes another by which commands are placed in the queue. They fit the roster of the
table, and bring it to what it is afterwards. -/
structure Relays (s : Server) (placed : List Command) (s' : Server) : Prop where
  world : s'.world = s.world
  queue : s'.commands.items = s.commands.items ++ placed
  receiving : s'.commands.receiving = s.commands.receiving
  indexed : s.sessions.Indexed → s'.sessions.Indexed
  admits : s.sessions.roster.Admits placed
  roster : s'.sessions.roster = s.sessions.roster.after placed

/-- Nothing is placed where neither the table nor the queue changes. -/
theorem Relays.of_core (same : s'.core = s.core) : s.Relays [] s' := by
  rcases Prod.mk.inj same with ⟨sessions, rest⟩
  rcases Prod.mk.inj rest with ⟨commands, world⟩
  refine ⟨world, ?_, congrArg _ commands, fun indexed => sessions ▸ indexed, trivial, ?_⟩
  · rw [commands, List.append_nil]
  · rw [sessions]
    rfl

theorem Relays.then_core {placed : List Command} (first : s.Relays placed s')
    (same : s''.core = s'.core) : s.Relays placed s'' := by
  rcases Prod.mk.inj same with ⟨sessions, rest⟩
  rcases Prod.mk.inj rest with ⟨commands, world⟩
  exact {
    world := world.trans first.world
    queue := (congrArg _ commands).trans first.queue
    receiving := (congrArg _ commands).trans first.receiving
    indexed := fun indexed => sessions ▸ first.indexed indexed
    admits := first.admits
    roster := (congrArg _ sessions).trans first.roster }

theorem Relays.from_core {placed : List Command} (relays : s'.Relays placed s'')
    (same : s'.core = s.core) : s.Relays placed s'' := by
  rcases Prod.mk.inj same with ⟨sessions, rest⟩
  rcases Prod.mk.inj rest with ⟨commands, world⟩
  exact {
    world := relays.world.trans world
    queue := commands ▸ relays.queue
    receiving := commands ▸ relays.receiving
    indexed := sessions ▸ relays.indexed
    admits := sessions ▸ relays.admits
    roster := sessions ▸ relays.roster }

/-- One command is placed, and the table changes as the command says. -/
theorem Relays.of_one {command : Command} {sessions : SessionTable}
    (indexed : s.sessions.Indexed → sessions.Indexed) (fits : s.sessions.roster.Fits command)
    (roster : sessions.roster = command.reseat s.sessions.roster) :
    s.Relays [command] ({ s with sessions }.queueing command) where
  world := rfl
  queue := rfl
  receiving := rfl
  indexed := indexed
  admits := ⟨fits, trivial⟩
  roster := roster

theorem relays_openSession {address : Address} {capacity : Nat} {slot : UInt8}
    (opened : s.openSession address capacity = .ok (slot, s')) : s.Relays [] s' := by
  rw [openSession] at opened
  split at opened
  · next free sessions allocated =>
    cases opened
    exact ⟨rfl, (List.append_nil _).symm, rfl, fun indexed => indexed.allocate allocated, trivial,
      SessionTable.roster_allocate allocated⟩
  · cases opened

/-- The second half of a login, on behalf of a session that is not logged in. -/
theorem relays_enter (receiving : s.commands.receiving = true) {stub : Session}
    (current : s.sessions.get? stub.slot = some stub) (fresh : stub.initialized = false)
    (origin : Address) (account : String) {name : String}
    (short : Player.clampName name = name) :
    ∃ placed, s.Relays placed (s.enter origin stub account name).1 := by
  unfold enter
  split
  · exact ⟨[], .of_core (core_deny origin stub)⟩
  · exact ⟨[], .of_core rfl⟩
  · next udp sessions seated =>
    have placed : s.Relays [.join stub.slot account name udp]
        ({ s with sessions }.queueing (.join stub.slot account name udp)) :=
      .of_one (fun indexed => indexed.seat seated) (SessionTable.fits_seat seated current fresh)
        (SessionTable.roster_seat seated short)
    exact ⟨_, placed.then_core
      (core_welcome (s := { s with sessions }) receiving origin stub account name udp)⟩

theorem relays_connect (receiving : s.commands.receiving = true) {stub : Session}
    (current : s.sessions.get? stub.slot = some stub) (service : AccountService)
    (origin : Address) (packet : Packet) :
    ∃ placed, s.Relays placed (s.connect service origin stub packet).1 := by
  unfold connect
  split
  · exact ⟨[], .of_core rfl⟩
  · next fresh =>
    split
    · exact ⟨[], .of_core rfl⟩
    · split
      · exact ⟨[], .of_core (core_deny origin stub)⟩
      · next credentials _ _ =>
        dsimp only
        split
        · -- What the policy has learned is no part of the core, so the login goes on as before.
          rcases relays_enter (s := { s with policy :=
              (s.policy.check service credentials.account credentials.token).2 })
            receiving current (Bool.eq_false_iff.mpr fresh) origin credentials.account
            (Player.clampName_clampName _) with ⟨placed, relays⟩
          exact ⟨placed, relays.from_core rfl⟩
        · exact ⟨[], .of_core (core_deny (s := { s with policy :=
            (s.policy.check service credentials.account credentials.token).2 }) origin stub)⟩

theorem relays_release (receiving : s.commands.receiving = true) (slot : UInt8)
    (tcp : Option Endpoint) : ∃ placed, s.Relays placed (s.release slot tcp).2 := by
  unfold release
  split
  · next session vacated taken =>
    rcases Option.map_eq_some_iff.mp taken with ⟨x, owned, same⟩
    cases same
    have roster := SessionTable.roster_owned owned
    have found : s.sessions.get? slot = some session := (Option.filter_eq_some_iff.mp owned).1
    unfold farewell
    dsimp only
    split
    · next playing =>
      rw [if_pos playing] at roster
      rw [submit_open (s := { s with sessions := s.sessions.remove slot }) receiving]
      have fits : s.sessions.roster.Fits (.leave slot) := by
        show (s.sessions.roster slot).who ≠ none
        rw [SessionTable.roster_of_get? found, Session.seat, if_pos playing]
        exact Option.some_ne_none _
      have placed : s.Relays [.leave slot]
          ({ s with sessions := s.sessions.remove slot }.queueing (.leave slot)) :=
        .of_one (fun indexed => indexed.remove slot) fits roster
      exact ⟨_, placed.then_core rfl⟩
    · next stub =>
      rw [if_neg stub] at roster
      exact ⟨[], rfl, (List.append_nil _).symm, rfl, fun indexed => indexed.remove slot, trivial,
        roster⟩
  · exact ⟨[], .of_core rfl⟩

theorem relays_play (receiving : s.commands.receiving = true) (handler : Handler)
    (player : Session) (packet : Packet) (now : Time) :
    ∃ placed, s.Relays placed (s.play handler player packet now).1 := by
  unfold play
  split
  · exact ⟨[], .of_core rfl⟩
  · exact ⟨[], .of_core rfl⟩
  · next command asked =>
    rcases Packet.gameCommand_settled asked s.sessions.roster with ⟨fits, same⟩
    rw [submit_open receiving]
    have placed : s.Relays [command] (s.queueing command) := .of_one id fits same.symm
    exact ⟨_, placed⟩

/-- A packet is handled on behalf of a session of the table, as it is. -/
theorem get?_of_resolve (indexed : s.sessions.Indexed) {origin : Address} {slot : Option UInt8}
    {player : Session} (resolved : s.resolve origin slot = some player) :
    s.sessions.get? player.slot = some player := by
  cases slot with
  | some k =>
    have found := (Option.filter_eq_some_iff.mp resolved).1
    rwa [indexed k player found]
  | none =>
    rcases ByteMap.mem_values.mp (List.mem_of_find?_eq_some resolved) with ⟨k, found⟩
    have here : s.sessions.get? k = some player := found
    rwa [indexed k player here]

theorem relays_handle (receiving : s.commands.receiving = true) (indexed : s.sessions.Indexed)
    (service : AccountService) (origin : Address) (packet : Packet) (slot : Option UInt8)
    (now : Time) : ∃ placed, s.Relays placed (s.handle service origin packet slot now) := by
  unfold handle handleWith
  split
  · exact ⟨[], .of_core rfl⟩
  · next handler _ =>
    split
    · exact ⟨[], .of_core (core_fail origin _ packet)⟩
    · next player allowed =>
      have current := get?_of_resolve indexed (Option.filter_eq_some_iff.mp allowed).1
      have ran : ∃ placed,
          s.Relays placed (s.runHandler service handler origin player packet now).1 := by
        cases handler with
        | connect => exact relays_connect receiving current service origin packet
        | disconnect => exact relays_release receiving player.slot player.address.tcp
        | chat => exact ⟨[], .of_core (core_chat player packet)⟩
        | acknowledge | movement | infoChange | damage =>
          exact relays_play receiving _ player packet now
      rcases ran with ⟨placed, relays⟩
      split
      · next done =>
        rw [done] at relays
        exact ⟨placed, relays⟩
      · next failed =>
        rw [failed] at relays
        exact ⟨placed, relays.then_core (core_fail origin _ packet)⟩

/-! ## Steps of the simulation -/

theorem core_deliverAll (events : List Event) (s : Server) :
    (s.deliverAll events).1.core = s.core := by
  induction events generalizing s with
  | nil => rfl
  | cons event rest ih =>
    have first : (s.deliver event).1.core = s.core := by
      cases event with
      | reply slot p =>
        rw [deliver]
        split <;> rfl
      | achievement unlock => rfl
    exact (ih _).trans first

/-- A step takes all commands out of the queue and applies them. The table stays. -/
theorem core_step (now : Time) : (s.step now).server.core =
    (s.sessions, s.commands.drained, ((s.world.applyAll now s.commands.items).1.tick now).1) :=
  core_deliverAll _ _

theorem sessions_step (now : Time) : (s.step now).server.sessions = s.sessions :=
  congrArg (·.1) (core_step now)

/-! ## Runs, one thing after the other -/

/-- What may happen to a server, each from beginning to end. -/
inductive Act where
  | openSession (address : Address) (capacity : Nat)
  | handle (service : AccountService) (origin : Address) (packet : Packet) (slot : Option UInt8)
    (now : Time)
  | release (slot : UInt8) (tcp : Option Endpoint)
  | step (now : Time)

/-- The server after an act. Where there is no free slot, no session is opened. -/
def act (s : Server) : Act → Server
  | .openSession address capacity =>
    match s.openSession address capacity with
    | .ok (_, s') => s'
    | .error _ => s
  | .handle service origin packet slot now => s.handle service origin packet slot now
  | .release slot tcp => (s.release slot tcp).2
  | .step now => (s.step now).server

/-- The server after the acts, first to last. -/
def run (s : Server) (acts : List Act) : Server :=
  acts.foldl act s

/-- The commands that the acts take out of the queue, in the order in which they are applied. -/
def drawn (s : Server) : List Act → List Command
  | [] => []
  | .step now :: rest => s.commands.items ++ drawn (s.act (.step now)) rest
  | a :: rest => drawn (s.act a) rest

/-- The commands that were submitted: those that have been taken out of the queue since, and those
that wait in it. -/
def submitted (s : Server) (acts : List Act) : List Command :=
  s.drawn acts ++ (s.run acts).commands.items

/-- The world has come as far as the commands that were drawn, the table as far as those that
wait. -/
structure Agrees (s : Server) (past : List Command) : Prop where
  receiving : s.commands.receiving = true
  indexed : s.sessions.Indexed
  world : s.world.roster = Roster.empty.after past
  admits : Roster.empty.Admits (past ++ s.commands.items)
  table : s.sessions.roster = Roster.empty.after (past ++ s.commands.items)

variable {past : List Command}

theorem agrees_start (settings : Settings) (points : List Vec3) (rolls : Nat → Nat) :
    (Server.start settings points rolls).Agrees [] where
  receiving := rfl
  indexed := SessionTable.indexed_empty settings.capacity
  world := World.roster_empty settings.tickInterval points rolls
  admits := trivial
  table := SessionTable.roster_empty settings.capacity

theorem Agrees.relays (agrees : s.Agrees past) {placed : List Command}
    (relays : s.Relays placed s') : s'.Agrees past where
  receiving := relays.receiving.trans agrees.receiving
  indexed := relays.indexed agrees.indexed
  world := relays.world ▸ agrees.world
  admits := by
    rw [relays.queue, ← List.append_assoc, Roster.admits_append, ← agrees.table]
    exact ⟨agrees.admits, relays.admits⟩
  table := by
    rw [relays.queue, ← List.append_assoc, Roster.after_append, ← agrees.table]
    exact relays.roster

theorem Agrees.step (agrees : s.Agrees past) (now : Time) :
    (s.step now).server.Agrees (past ++ s.commands.items) := by
  rcases Prod.mk.inj (core_step (s := s) now) with ⟨sessions, rest⟩
  rcases Prod.mk.inj rest with ⟨commands, world⟩
  have empty : (s.step now).server.commands.items = [] := by
    rw [commands]
    rfl
  constructor
  · rw [commands]
    exact agrees.receiving
  · rw [sessions]
    exact agrees.indexed
  · rw [world, World.roster_tick, World.roster_applyAll, agrees.world, Roster.after_append]
  · rw [empty, List.append_nil]
    exact agrees.admits
  · rw [empty, List.append_nil, sessions]
    exact agrees.table

/-- One act more. -/
theorem Agrees.act (agrees : s.Agrees past) (a : Act) : (s.act a).Agrees (past ++ s.drawn [a]) := by
  cases a with
  | openSession address capacity =>
    rw [show s.drawn [.openSession address capacity] = [] from rfl, List.append_nil, Server.act]
    split
    · next opened => exact agrees.relays (relays_openSession opened)
    · exact agrees
  | handle service origin packet slot now =>
    rcases relays_handle agrees.receiving agrees.indexed service origin packet slot now with
      ⟨placed, relays⟩
    rw [show s.drawn [.handle service origin packet slot now] = [] from rfl, List.append_nil]
    exact agrees.relays relays
  | release slot tcp =>
    rcases relays_release agrees.receiving slot tcp with ⟨placed, relays⟩
    rw [show s.drawn [.release slot tcp] = [] from rfl, List.append_nil]
    exact agrees.relays relays
  | step now =>
    rw [show s.drawn [.step now] = s.commands.items ++ [] from rfl, List.append_nil]
    exact agrees.step now

theorem drawn_cons (s : Server) (a : Act) (rest : List Act) :
    s.drawn (a :: rest) = s.drawn [a] ++ (s.act a).drawn rest := by
  cases a with
  | step now => rw [drawn, drawn, drawn, List.append_nil]
  | openSession | handle | release => rfl

theorem Agrees.run (agrees : s.Agrees past) (acts : List Act) :
    (s.run acts).Agrees (past ++ s.drawn acts) := by
  induction acts generalizing s past with
  | nil =>
    rw [show s.drawn [] = [] from rfl, List.append_nil]
    exact agrees
  | cons a rest ih =>
    rw [drawn_cons, ← List.append_assoc]
    exact ih (agrees.act a)

/-! ## What the world shows -/

/-- After a run, the world is as the table says once the commands that wait have been applied: the
players are those who are logged in, under their slots, with their accounts and names, and what they
see goes to the endpoints that they announced. In every slot, the joins and the leaves that were
ever submitted alternate, beginning with a join. However many of the commands that wait have been
applied, no account plays twice. -/
theorem run_agrees (settings : Settings) (points : List Vec3) (rolls : Nat → Nat)
    (acts : List Act) :
    let start := Server.start settings points rolls
    let s := start.run acts
    (∀ now slot,
      (((s.world.applyAll now s.commands.items).1.players.get? slot).map fun p =>
          (p.account, p.name)) =
        (((s.sessions.get? slot).filter (·.initialized)).map fun x => (x.account, x.name)) ∧
      (s.world.applyAll now s.commands.items).1.endpoints.get? slot =
        ((s.sessions.get? slot).filter (·.initialized)).bind (·.address.udp)) ∧
    (∀ slot, Alternate .enter ((start.submitted acts).filterMap (Command.turn? slot))) ∧
    ∀ now n, ((s.world.applyAll now (s.commands.items.take n)).1.players.values.map
      (·.account)).Nodup := by
  intro start s
  have agrees : s.Agrees (start.drawn acts) := (agrees_start settings points rolls).run acts
  refine ⟨fun now slot => ?_, fun slot => agrees.admits.alternate slot, fun now n => ?_⟩
  · have same : (s.world.applyAll now s.commands.items).1.roster = s.sessions.roster := by
      rw [World.roster_applyAll, agrees.world, agrees.table, Roster.after_append]
    have atSlot := congrFun same slot
    rw [SessionTable.roster_eq] at atSlot
    exact Seat.mk.inj atSlot
  · refine World.nodup_accounts ?_
    rw [World.roster_applyAll, agrees.world, ← Roster.after_append]
    -- The commands applied so far are the first of those that were submitted.
    have split : start.drawn acts ++ s.commands.items =
        (start.drawn acts ++ s.commands.items.take n) ++ s.commands.items.drop n := by
      rw [List.append_assoc, List.take_append_drop]
    have admits := agrees.admits
    rw [split, Roster.admits_append] at admits
    exact Roster.distinct_empty.after admits.1

end Server

end Deathmatch
