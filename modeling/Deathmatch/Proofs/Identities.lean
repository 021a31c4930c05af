import Deathmatch.Proofs.Admission
import Deathmatch.Proofs.Clamping
import Deathmatch.Proofs.Delta
import Deathmatch.Proofs.Layout

/-!
# Names on the wire

A name is written with a zero byte behind it. It is read back, and what follows after it, just when
it has no zero byte of its own, be it in a payload, a block or a line of chat (`readable_iff`).

Whoever plays has logged in: a packet named the account, and a service was asked for the name
(`AccountService.Introduces`). An account has been read up to a zero byte, so it has none, and
neither has a name for which the account stands in. What a service gives is only cut to its length.
So a name can be read just when no zero byte is left in what the service gave
(`AccountService.Introduces.zeroFree_iff`).

A `Happening` is something that takes place from beginning to end, or a step of a handler that
others interrupt. Whatever happens, and in whatever order, nobody gets into the table, the queue of
commands or the world but those whom a service introduces (`Lobby.Vouched.comeTo`).
-/

namespace Deathmatch

/-! ## Names that can be read -/

theorem Text.not_mem_bytes_clamp {s : String} (zeroFree : 0 ∉ bytes s) (limit : Nat) :
    0 ∉ bytes (clamp limit s) := by
  obtain ⟨rest, whole⟩ := clamp_append limit s
  intro member
  refine zeroFree ?_
  rw [← whole, bytes_append]
  exact List.mem_append_left _ member

/-- A text behind the payload, with more behind its end, is read as it is just when it has no zero
byte. Then the reader goes on where it ends. -/
theorem Packet.textAt_appendText_iff (q : Packet) (s : String) (back : Bytes) :
    let written := (q.appendText s).append back
    written.textAt q.data.length = .ok s ∧
      written.data.drop (q.data.length + (s.utf8ByteSize + 1)) = back ↔ 0 ∉ Text.bytes s := by
  intro written
  have whole : written.data = q.data ++ (Text.terminated s ++ back) := List.append_assoc _ _ _
  constructor
  · rintro ⟨read, -⟩
    obtain ⟨-, -, -, -, zeroFree, -⟩ := textAt_eq_ok_iff_data.mp read
    exact zeroFree
  · intro zeroFree
    have read : Item.ReadAt written q.data.length (.text s zeroFree) := Item.readAt_of_data whole
    refine ⟨read, ?_⟩
    have size : s.utf8ByteSize + 1 = (Text.terminated s).length := by
      rw [Text.terminated, List.length_append, Text.length_bytes, List.length_singleton]
    rw [whole, ← List.drop_drop, List.drop_left, size, List.drop_left]

/-- A line of chat with a name in it. -/
theorem textAt_chatPacket_iff {before after : String} (front : 0 ∉ Text.bytes before)
    (back : 0 ∉ Text.bytes after) (name : String) :
    (chatPacket (before ++ name ++ after)).textAt 0 = .ok (before ++ name ++ after) ↔
      0 ∉ Text.bytes name := by
  have line : 0 ∉ Text.bytes (before ++ name ++ after) ↔ 0 ∉ Text.bytes name := by
    rw [Text.bytes_append, Text.bytes_append, List.mem_append, List.mem_append]
    simp only [front, back, false_or, or_false]
  rw [← line]
  constructor
  · intro read
    obtain ⟨-, -, -, -, zeroFree, -⟩ := Packet.textAt_eq_ok_iff_data.mp read
    exact zeroFree
  · intro zeroFree
    refine Packet.textAt_eq_ok_iff_data.mpr ⟨[], [0], rfl, rfl, zeroFree, ?_⟩
    exact fun b first => (Option.some.inj first).symm

/-- A block is read as the fields that it is made of just when the name, if it is among them, has no
zero byte. -/
theorem Player.readEntries_fieldBytes_iff (p : Player) (baseline : Option Player) :
    readEntries (p.fieldBytes baseline) = some (p.report baseline).entries ↔
      (.name ∈ p.changedFields baseline → 0 ∉ Text.bytes p.name) := by
  rw [readEntries_eq_some_iff]
  constructor
  · rintro ⟨takes, -⟩ member
    exact takes (.name, .text p.name) (List.mem_map.mpr ⟨.name, member, rfl⟩)
  · intro readable
    refine ⟨fun e member => ?_, (List.flatMap_map ..).trans rfl⟩
    obtain ⟨f, changed, rfl⟩ := List.mem_map.mp member
    cases f
    case name => exact readable changed
    all_goals trivial

/-- A name ends at its first zero byte, and what stands behind is taken for the tag of a field. -/
theorem readEntries_of_not_tag {s : String} (zeroFree : 0 ∉ Text.bytes s) {b : UInt8}
    (unknown : Field.ofTag? b = none) (rest : Bytes) :
    readEntries (Field.name.tag :: (Text.terminated s ++ b :: rest)) = none := by
  cases read : readEntries (Field.name.tag :: (Text.terminated s ++ b :: rest)) with
  | none => rfl
  | some entries =>
    obtain ⟨f, v, behind, more, announced, value, others, -⟩ :=
      lists_cons.mp (readEntries_eq_some_iff.mp read)
    have isName : f = .name := Field.tag_injective (Field.ofTag?_eq_some_iff.mp announced)
    subst isName
    have cut : readValue Field.name.kind (Text.terminated s ++ b :: rest) =
        some (.text s, b :: rest) := readValue_eq_some_iff.mpr ⟨zeroFree, rfl⟩
    cases cut.symm.trans value
    obtain ⟨g, u, later, fields, known, -⟩ := lists_cons.mp others
    cases unknown.symm.trans known

/-- Whether the name is read back whole, and what comes behind it after it, wherever it is written:
behind a payload, in a block about a player, and in a line of chat. -/
structure Readable (name : String) : Prop where
  payload : ∀ (q : Packet) (back : Bytes),
    let written := (q.appendText name).append back
    written.textAt q.data.length = .ok name ∧
      written.data.drop (q.data.length + (name.utf8ByteSize + 1)) = back
  block : ∀ (p : Player) (baseline : Option Player), p.name = name →
    readEntries (p.fieldBytes baseline) = some (p.report baseline).entries
  chat : ∀ before after, 0 ∉ Text.bytes before → 0 ∉ Text.bytes after →
    (chatPacket (before ++ name ++ after)).textAt 0 = .ok (before ++ name ++ after)

theorem readable_iff {name : String} : Readable name ↔ 0 ∉ Text.bytes name := by
  constructor
  · intro readable
    exact (Packet.textAt_appendText_iff (.tcp PacketId.chat []) name []).mp (readable.payload _ _)
  · intro zeroFree
    refine ⟨fun q back => (q.textAt_appendText_iff name back).mpr zeroFree, ?_, ?_⟩
    · rintro p baseline rfl
      exact (p.readEntries_fieldBytes_iff baseline).mpr fun _ => zeroFree
    · intro before after front back
      exact (textAt_chatPacket_iff front back name).mpr zeroFree

/-! ## Who is let in under which name -/

namespace AccountService

/-- Whether the service lets somebody play under the name, with an account that a login packet can
name. -/
structure Introduces (service : AccountService) (account name : String) : Prop where
  size : 1 ≤ account.utf8ByteSize ∧ account.utf8ByteSize ≤ 64
  zeroFree : 0 ∉ Text.bytes account
  name : name = Player.clampName (service.nameOf account)

/-- Whether no zero byte is left in the name that the service gives for the account, if it gives
one. -/
def NamesPlainly (service : AccountService) (account : String) : Prop :=
  ∀ given, service.displayName account = some (some given) →
    0 ∉ Text.bytes (Player.clampName given)

variable {service : AccountService} {account name : String}

theorem Introduces.short (introduces : service.Introduces account name) :
    name.utf8ByteSize ≤ 32 := by
  rw [introduces.name]
  exact Player.size_clampName _

/-- The account itself has no zero byte, so the name has one only if the service gives it. -/
theorem Introduces.zeroFree_iff (introduces : service.Introduces account name) :
    0 ∉ Text.bytes name ↔ service.NamesPlainly account := by
  rw [introduces.name, nameOf, NamesPlainly]
  split
  · next given known => simp [known]
  · next unknown =>
    refine iff_of_true (Text.not_mem_bytes_clamp introduces.zeroFree _) fun given known => ?_
    exact absurd known (unknown given)

theorem Introduces.clampName (introduces : service.Introduces account name) :
    Player.clampName name = name := by
  rw [introduces.name, Player.clampName_clampName]

end AccountService

/-- Whether one of the services lets somebody play with the account under the name. -/
def Introduced (asked : AccountService → Prop) (account name : String) : Prop :=
  ∃ service, asked service ∧ service.Introduces account name

variable {asked : AccountService → Prop}

def Roster.Vouched (asked : AccountService → Prop) (r : Roster) : Prop :=
  ∀ slot who, (r slot).who = some who → Introduced asked who.1 who.2

def Command.Vouched (asked : AccountService → Prop) : Command → Prop
  | .join _ account name _ => Introduced asked account name
  | .leave _ | .move .. | .infoChange .. | .damage .. | .acknowledge .. => True

def Errand.Vouched (asked : AccountService → Prop) : Errand → Prop
  | .seat _ account name | .join _ account name _ => Introduced asked account name
  | .look _ | .ask .. | .identify .. | .accept .. | .deny _ | .fail _ | .leave .. | .tell _
  | .done => True

namespace Roster.Vouched

variable {r : Roster}

theorem update (vouched : r.Vouched asked) (slot : UInt8) {seat : Seat}
    (known : ∀ who, seat.who = some who → Introduced asked who.1 who.2) :
    Roster.Vouched asked (Function.update r slot seat) := by
  intro k who here
  rw [Function.update_apply] at here
  split at here
  · exact known who here
  · exact vouched k who here

theorem reseat (vouched : r.Vouched asked) {command : Command} (known : command.Vouched asked) :
    Roster.Vouched asked (command.reseat r) := by
  cases command with
  | join slot account name udp =>
    refine vouched.update slot fun who taken => ?_
    obtain ⟨service, asks, introduces⟩ := known
    cases taken
    rw [introduces.clampName]
    exact ⟨service, asks, introduces⟩
  | leave slot => exact vouched.update slot fun who taken => nomatch taken
  | move | infoChange | damage | acknowledge => exact vouched

theorem after (vouched : r.Vouched asked) {commands : List Command}
    (known : ∀ c ∈ commands, c.Vouched asked) : (r.after commands).Vouched asked := by
  induction commands generalizing r with
  | nil => exact vouched
  | cons command rest ih =>
    obtain ⟨first, others⟩ := List.forall_mem_cons.mp known
    exact ih (vouched.reseat first) others

end Roster.Vouched

/-! ## What handlers submit -/

namespace Server

variable {s : Server} {service : AccountService}

theorem commands_submit {s' : Server} {command : Command} (submitted : s.submit command = .ok s') :
    s'.commands = s.commands.with command := by
  rw [submit, Mailbox.post] at submitted
  split at submitted
  · next posted =>
    split at posted <;> cases posted
    cases submitted
    rfl
  · cases submitted

theorem welcome_places (s : Server) (origin : Address) (stub : Session) (account name : String)
    (udp : Option Endpoint) :
    let s' := (s.welcome origin stub account name udp).1
    s'.commands = s.commands ∨
      s'.commands = s.commands.with (.join stub.slot account name udp) := by
  unfold welcome
  split
  · exact .inl rfl
  · next joined submitted =>
    have placed := commands_submit submitted
    right
    split
    · exact placed
    · next answered => exact (congrArg (·.2.1) (core_answer answered)).trans placed

/-- A login submits nothing, or the join of a player whom the service introduces, with the account
that the payload names. -/
theorem connect_places (s : Server) (service : AccountService) (origin : Address) (stub : Session)
    (packet : Packet) :
    let s' := (s.connect service origin stub packet).1
    s'.commands = s.commands ∨ ∃ account token name udp,
      s'.commands = s.commands.with (.join stub.slot account name udp) ∧
      Credentials.WrittenIn ⟨account, token⟩ packet.data ∧ service.Introduces account name := by
  intro s'
  have denied (policy : AuthPolicy) :
      (({ s with policy } : Server).deny origin stub).1.commands = s.commands :=
    congrArg (·.2.1) (core_deny origin stub)
  rcases Bool.eq_false_or_eq_true stub.initialized with playing | fresh
  · left
    simp only [s', connect, playing, if_true]
  rcases s.connect_cases service origin packet fresh with
    ⟨c, grants, result⟩ | ⟨-, ⟨-, -, policy, result⟩ | ⟨-, fault, result⟩⟩
  · let policy := (s.policy.check service c.account c.token).2
    let name := Player.clampName (service.nameOf c.account)
    have entered : s' = (({ s with policy } : Server).enter origin stub c.account name).1 :=
      congrArg Prod.fst result
    rw [entered, enter]
    split
    · exact .inl (denied _)
    · exact .inl rfl
    · next udp sessions seated =>
      rcases welcome_places { s with policy, sessions } origin stub c.account name udp with
        same | placed
      · exact .inl same
      · exact .inr ⟨c.account, c.token, name, udp, placed, grants.written, grants.usable,
          grants.written.1, rfl⟩
  · left
    simp only [s', result]
    exact denied policy
  · left
    simp only [s', result]

/-- The queue has gained commands, and whoever joins by them is introduced. -/
def Places (asked : AccountService → Prop) (s s' : Server) : Prop :=
  ∃ placed, s'.commands.items = s.commands.items ++ placed ∧ ∀ c ∈ placed, c.Vouched asked

theorem Places.of_same {s' : Server} (same : s'.commands = s.commands) : s.Places asked s' :=
  ⟨[], by rw [same, List.append_nil], List.forall_mem_nil _⟩

theorem Places.of_core {s' : Server} (same : s'.core = s.core) : s.Places asked s' :=
  .of_same (congrArg (·.2.1) same)

theorem Places.of_with {s' : Server} {command : Command} (vouched : command.Vouched asked)
    (placed : s'.commands = s.commands.with command) : s.Places asked s' :=
  ⟨[command], congrArg (·.items) placed, List.forall_mem_singleton.mpr vouched⟩

theorem places_release (slot : UInt8) (tcp : Option Endpoint) :
    s.Places asked (s.release slot tcp).2 := by
  unfold release takeSession?
  cases s.sessions.owned? slot tcp with
  | none => exact .of_same rfl
  | some x =>
    dsimp only [Option.map_some]
    unfold farewell
    split
    · dsimp only
      split
      · next told submitted =>
        have placed := commands_submit submitted
        have vouched : (Command.leave slot).Vouched asked := trivial
        exact .of_with vouched placed
      · exact .of_same rfl
    · exact .of_same rfl

/-- Nobody joins by a command of play. -/
theorem vouched_gameCommand {p : Packet} {slot : UInt8} {now : Time} {handler : Handler}
    {command : Command} (read : p.gameCommand slot now handler = .ok (some command)) :
    command.Vouched asked := by
  cases command with
  | join k account name udp =>
    obtain ⟨-, same⟩ := Packet.gameCommand_settled read Roster.empty
    have taken := congrFun same k
    rw [Command.reseat, Function.update_self] at taken
    cases taken
  | leave | move | infoChange | damage | acknowledge => trivial

theorem places_play (handler : Handler) (player : Session) (packet : Packet) (now : Time) :
    s.Places asked (s.play handler player packet now).1 := by
  unfold play
  split
  · exact .of_same rfl
  · exact .of_same rfl
  · next command read =>
    split
    · next submitted => exact .of_with (vouched_gameCommand read) (commands_submit submitted)
    · exact .of_same rfl

theorem commands_concluded (r : Request) (result : Server × Except Fault Unit) :
    (r.concluded result).commands = result.1.commands := by
  obtain ⟨s', answer⟩ := result
  cases answer with
  | ok => rfl
  | error fault => exact congrArg (·.2.1) (core_fail r.origin (some r.stub) r.packet)

theorem places_handle (asks : asked service) (origin : Address) (packet : Packet)
    (slot : Option UInt8) (now : Time) :
    s.Places asked (s.handle service origin packet slot now) := by
  cases somebody : s.onBehalf? origin packet slot with
  | none =>
    rw [handle_of_onBehalf?_eq_none somebody]
    split
    · exact .of_core (core_fail origin _ packet)
    · exact .of_same rfl
  | some x =>
    obtain ⟨handler, -, result⟩ := handle_of_onBehalf?_eq_some somebody
    have ran : s.Places asked (s.runHandler service handler origin x packet now).1 := by
      cases handler with
      | connect =>
        rcases s.connect_places service origin x packet with
          same | ⟨account, -, name, udp, placed, -, introduces⟩
        · exact .of_same same
        · have vouched : (Command.join x.slot account name udp).Vouched asked :=
            ⟨service, asks, introduces⟩
          exact .of_with vouched placed
      | disconnect => exact places_release x.slot x.address.tcp
      | chat => exact .of_core (core_chat x packet)
      | acknowledge | movement | infoChange | damage => exact places_play _ x packet now
    rw [result]
    obtain ⟨placed, queue, vouched⟩ := ran
    refine ⟨placed, ?_, vouched⟩
    rw [commands_concluded, queue]

end Server

/-! ## Histories -/

/-- What may happen next: something from beginning to end, or a step of something that others may
interrupt. -/
inductive Happening where
  | whole (a : Server.Act)
  | part (m : Lobby.Move)

/-- Whether the service is asked about an account. -/
def Happening.Asks (service : AccountService) : Happening → Prop
  | .whole (.handle asked ..) | .part (.advance _ asked) => asked = service
  | .whole (.openSession ..) | .whole (.release ..) | .whole (.step _)
  | .part (.allocate ..) | .part (.arrive ..) | .part (.release ..) | .part (.step _) => False

namespace Errand

variable {t : Errand} {service : AccountService} {s : Server}

theorem vouched_farewell (slot : UInt8) (x : Session) : (farewell slot x).Vouched asked := by
  unfold farewell
  split <;> trivial

theorem Vouched.command (vouched : t.Vouched asked) {command : Command}
    (owes : t.command? = some command) : command.Vouched asked := by
  cases t with
  | join r account name udp =>
    cases owes
    exact vouched
  | leave slot x =>
    cases owes
    trivial
  | look | ask | identify | seat | accept | deny | fail | tell | done => cases owes

theorem Vouched.advance (vouched : t.Vouched asked) (sound : t.Sound) (asks : asked service) :
    (t.advance service s).2.Vouched asked := by
  cases t with
  | identify r account =>
    obtain ⟨token, names⟩ := sound
    obtain ⟨zeroFree, -⟩ := Credentials.ofPacket_eq_ok_iff.mp names.read
    exact ⟨service, asks, of_decide_eq_true names.usable, zeroFree, rfl⟩
  | seat r account name =>
    unfold Errand.advance
    dsimp only
    split
    · trivial
    · trivial
    · exact vouched
  | look | ask | join | accept | deny | fail | leave | tell | done =>
    unfold Errand.advance
    dsimp only
    repeat' split
    all_goals trivial

end Errand

/-! ## What a server knows of its players -/

namespace Server

variable {s s' : Server}

/-- Whoever is logged in or plays, or is about to play, is introduced by one of the services. -/
structure Vouched (asked : AccountService → Prop) (s : Server) : Prop where
  table : s.sessions.roster.Vouched asked
  queue : ∀ c ∈ s.commands.items, c.Vouched asked
  world : s.world.roster.Vouched asked

namespace Vouched

theorem of_core (vouched : s.Vouched asked) (same : s'.core = s.core) : s'.Vouched asked := by
  obtain ⟨sessions, rest⟩ := Prod.mk.inj same
  obtain ⟨commands, world⟩ := Prod.mk.inj rest
  exact ⟨sessions ▸ vouched.table, commands ▸ vouched.queue, world ▸ vouched.world⟩

/-- Commands are placed that fit the table, and the table becomes what they say. -/
theorem relays (vouched : s.Vouched asked) {placed : List Command} (relays : s.Relays placed s')
    (known : ∀ c ∈ placed, c.Vouched asked) : s'.Vouched asked where
  table := relays.roster ▸ vouched.table.after known
  queue := relays.queue ▸ List.forall_mem_append.mpr ⟨vouched.queue, known⟩
  world := relays.world ▸ vouched.world

theorem step (vouched : s.Vouched asked) (now : Time) : (s.step now).server.Vouched asked := by
  obtain ⟨sessions, rest⟩ := Prod.mk.inj (core_step (s := s) now)
  obtain ⟨commands, world⟩ := Prod.mk.inj rest
  constructor
  · rw [sessions]
    exact vouched.table
  · rw [commands]
    exact List.forall_mem_nil _
  · rw [world, World.roster_tick, World.roster_applyAll]
    exact vouched.world.after vouched.queue

/-- An errand seats and submits whom it knows. -/
theorem steps (vouched : s.Vouched asked) {t t' : Errand} (steps : Errand.Steps s t s' t')
    (known : t.Vouched asked) : s'.Vouched asked := by
  cases steps with
  | quiet core _ _ => exact vouched.of_core core
  | @seat r account name udp sessions seated =>
    have joins : (Command.join r.stub.slot account name udp).Vouched asked := known
    obtain ⟨service, -, introduces⟩ := known
    refine ⟨?_, vouched.queue, vouched.world⟩
    rw [SessionTable.roster_seat seated introduces.clampName]
    exact vouched.table.reseat joins
  | @submit _ _ _ command owes core _ =>
    have queued : (s.queueing command).Vouched asked := by
      refine ⟨vouched.table, List.forall_mem_append.mpr ⟨vouched.queue, ?_⟩, vouched.world⟩
      exact List.forall_mem_singleton.mpr (known.command owes)
    exact queued.of_core core

end Vouched

end Server

theorem World.who_roster (w : World) (slot : UInt8) : (w.roster slot).who = w.cast slot := rfl

namespace Lobby

/-- The lobby after something has happened. -/
def happen (l : Lobby) : Happening → Lobby
  | .whole a => ⟨l.server.act a, l.errands⟩
  | .part m => l.after m

/-- The lobby after all this, first to last. -/
def comeTo (l : Lobby) (hs : List Happening) : Lobby :=
  hs.foldl happen l

/-- What holds all along: the errands know whom they log in, and the server whom it has. -/
structure Vouched (asked : AccountService → Prop) (l : Lobby) : Prop where
  proper : l.Proper
  server : l.server.Vouched asked
  errands : ∀ t ∈ l.errands, t.Vouched asked

variable {l : Lobby}

theorem vouched_start (settings : Settings) (points : List Vec3) (rolls : Nat → Nat) :
    (Lobby.start settings points rolls).Vouched asked := by
  have nobody : Roster.empty.Vouched asked := fun slot who seat => nomatch seat
  exact {
    proper := proper_start settings points rolls
    server := {
      table := SessionTable.roster_empty settings.capacity ▸ nobody
      queue := List.forall_mem_nil _
      world := World.roster_empty settings.tickInterval points rolls ▸ nobody }
    errands := List.forall_mem_nil _ }

namespace Vouched

theorem step (vouched : l.Vouched asked) (now : Time) :
    Lobby.Vouched asked ⟨(l.server.step now).server, l.errands⟩ :=
  ⟨vouched.proper.after (.step now), vouched.server.step now, vouched.errands⟩

/-- What a handler does from beginning to end. -/
theorem relays (vouched : l.Vouched asked) {s' : Server}
    (relays : ∃ placed, l.server.Relays placed s') (places : l.server.Places asked s') :
    Lobby.Vouched asked ⟨s', l.errands⟩ := by
  obtain ⟨placed, relays⟩ := relays
  obtain ⟨found, queue, known⟩ := places
  have same : found = placed := List.append_cancel_left (queue.symm.trans relays.queue)
  rw [same] at known
  exact {
    proper := {
      receiving := relays.receiving.trans vouched.proper.receiving
      indexed := relays.indexed vouched.proper.indexed
      sound := vouched.proper.sound }
    server := vouched.server.relays relays known
    errands := vouched.errands }

theorem whole (vouched : l.Vouched asked) (a : Server.Act)
    (asks : ∀ service, (Happening.whole a).Asks service → asked service) :
    Lobby.Vouched asked ⟨l.server.act a, l.errands⟩ := by
  have receiving := vouched.proper.receiving
  cases a with
  | openSession address capacity =>
    unfold Server.act
    dsimp only
    split
    · next opened =>
      have relays := Server.relays_openSession opened
      exact vouched.relays ⟨[], relays⟩ ⟨[], relays.queue, List.forall_mem_nil _⟩
    · exact vouched
  | handle service origin packet slot now =>
    exact vouched.relays
      (Server.relays_handle receiving vouched.proper.indexed service origin packet slot now)
      (Server.places_handle (asks service rfl) origin packet slot now)
  | release slot tcp =>
    exact vouched.relays (Server.relays_release receiving slot tcp)
      (Server.places_release slot tcp)
  | step now => exact vouched.step now

theorem part (vouched : l.Vouched asked) (m : Move)
    (asks : ∀ service, (Happening.part m).Asks service → asked service) :
    (l.after m).Vouched asked := by
  have turn := l.becomes_after m
  have proper := vouched.proper.after m
  generalize l.after m = l' at turn proper
  cases turn with
  | full | ignored | foreign | absent => exact vouched
  | allocate allocated =>
    refine ⟨proper, ⟨?_, vouched.server.queue, vouched.server.world⟩, vouched.errands⟩
    rw [SessionTable.roster_allocate allocated]
    exact vouched.server.table
  | arrive =>
    refine ⟨proper, vouched.server, ?_⟩
    exact List.forall_mem_append.mpr ⟨vouched.errands, List.forall_mem_singleton.mpr trivial⟩
  | @release slot tcp x owned =>
    refine ⟨proper, ⟨?_, vouched.server.queue, vouched.server.world⟩, ?_⟩
    · rw [SessionTable.roster_remove]
      exact vouched.server.table.update slot fun who vacant => nomatch vacant
    · exact List.forall_mem_append.mpr
        ⟨vouched.errands, List.forall_mem_singleton.mpr (Errand.vouched_farewell slot x)⟩
  | @advance number service t found =>
    have member := List.mem_of_getElem? found
    have known := vouched.errands t member
    refine ⟨proper, vouched.server.steps (t.steps_advance vouched.proper.receiving service) known,
      fun u here => ?_⟩
    rcases List.mem_or_eq_of_mem_set here with old | rfl
    · exact vouched.errands u old
    · exact known.advance (vouched.proper.sound t member) (asks service rfl)
  | step now => exact vouched.step now

theorem comeTo (vouched : l.Vouched asked) {hs : List Happening}
    (asks : ∀ h ∈ hs, ∀ service, h.Asks service → asked service) :
    (l.comeTo hs).Vouched asked := by
  induction hs generalizing l with
  | nil => exact vouched
  | cons h rest ih =>
    obtain ⟨first, others⟩ := List.forall_mem_cons.mp asks
    refine ih ?_ others
    cases h with
    | whole a => exact vouched.whole a first
    | part m => exact vouched.part m first

end Vouched

/-! ## Who has which name -/

/-- Whatever has happened to a server, a service that was asked has introduced whoever plays or is
logged in, and whoever joins by a command that waits. A login submits such a join or nothing, and
the account is the one that its payload names. An account with which somebody is introduced has 1 to
64 bytes and no zero byte. The name has at most 32 bytes, and it is read back whole, with what
follows after it, just when no zero byte is left in the name that the service gives. So all players'
names are, as long as no service gives such a name. -/
theorem comeTo_identities (settings : Settings) (points : List Vec3) (rolls : Nat → Nat)
    (hs : List Happening) :
    let s := ((Lobby.start settings points rolls).comeTo hs).server
    let asked : AccountService → Prop := fun service => ∃ h ∈ hs, h.Asks service
    (∀ service origin stub packet,
      let s' := (s.connect service origin stub packet).1
      s'.commands = s.commands ∨ ∃ account token name udp,
        s'.commands = s.commands.with (.join stub.slot account name udp) ∧
        Credentials.WrittenIn ⟨account, token⟩ packet.data ∧ service.Introduces account name) ∧
    (∀ slot account name udp, .join slot account name udp ∈ s.commands.items →
      ∃ service, asked service ∧ service.Introduces account name) ∧
    (∀ slot p, s.world.players.get? slot = some p →
      ∃ service, asked service ∧ service.Introduces p.account p.name) ∧
    (∀ slot x, s.sessions.get? slot = some x → x.initialized = true →
      ∃ service, asked service ∧ service.Introduces x.account x.name) ∧
    (∀ (service : AccountService) account name, service.Introduces account name →
      1 ≤ account.utf8ByteSize ∧ account.utf8ByteSize ≤ 64 ∧ 0 ∉ Text.bytes account ∧
      name.utf8ByteSize ≤ 32 ∧ (Readable name ↔ service.NamesPlainly account)) ∧
    ((∀ service, asked service → ∀ account, service.NamesPlainly account) →
      ∀ slot p, s.world.players.get? slot = some p → Readable p.name) := by
  intro s asked
  have vouched : s.Vouched asked :=
    ((vouched_start settings points rolls).comeTo fun h member service asks =>
      ⟨h, member, asks⟩).server
  have players {slot : UInt8} {p : Player} (found : s.world.players.get? slot = some p) :
      ∃ service, asked service ∧ service.Introduces p.account p.name := by
    have seat : (s.world.roster slot).who = some (p.account, p.name) := by
      rw [World.who_roster, World.cast, found]
      rfl
    exact vouched.world slot _ seat
  refine ⟨s.connect_places, fun slot account name udp member => vouched.queue _ member,
    fun slot p => players, fun slot x found login => ?_,
    fun service account name introduces => ?_, fun plainly slot p found => ?_⟩
  · exact vouched.table slot _ (SessionTable.who_roster.mpr ⟨x, found, login, rfl⟩)
  · refine ⟨introduces.size.1, introduces.size.2, introduces.zeroFree, introduces.short, ?_⟩
    rw [readable_iff, introduces.zeroFree_iff]
  · obtain ⟨service, asks, introduces⟩ := players found
    exact readable_iff.mpr (introduces.zeroFree_iff.mpr (plainly service asks p.account))

/-- Steps of handlers that others interrupt, and nothing else. -/
theorem comeTo_parts (l : Lobby) (moves : List Move) :
    l.comeTo (moves.map .part) = l.run moves :=
  List.foldl_map

/-- A client asks to be logged in as `a`, is, and the world takes the player up. -/
def introducing (service : AccountService) : List Move :=
  [.allocate visitor 64, .arrive (visitorRequest 97).origin (visitorRequest 97).packet none] ++
    thinking 0 service ++ [.advance 0 service, .advance 0 service, .step 0]

/-- A service that accepts every token and has one name for everybody. -/
def naming (name : String) : AccountService :=
  ⟨fun _ _ => some true, fun _ => some (some name)⟩

/-- What comes of it, if this is the name. -/
def introduced (name : String) : Lobby :=
  (Lobby.start Settings.default [] fun _ => 0).comeTo ((introducing (naming name)).map .part)

/-- No other service is asked. -/
theorem asks_introducing {service other : AccountService}
    (asked : ∃ h ∈ (introducing service).map Happening.part, h.Asks other) : other = service := by
  obtain ⟨h, member, asks⟩ := asked
  obtain ⟨m, listed, rfl⟩ := List.mem_map.mp member
  simp only [introducing, thinking, List.cons_append, List.nil_append, List.mem_cons,
    List.not_mem_nil, or_false] at listed
  rcases listed with rfl | rfl | rfl | rfl | rfl | rfl | rfl | rfl
  all_goals first
    | exact asks.symm
    | exact asks.elim

theorem cast_introduced (name : String) :
    (introduced name).server.world.cast 0 = some ("a", Player.clampName name) := by
  have met : (Lobby.start Settings.default [] fun _ => 0).run
      [.allocate visitor 64, .arrive (visitorRequest 97).origin (visitorRequest 97).packet none] =
      ⟨visited, [.look (visitorRequest 97)]⟩ := rfl
  have thought : Lobby.run ⟨visited, [.look (visitorRequest 97)]⟩ (thinking 0 (naming name)) =
      ⟨visited, [.seat (visitorRequest 97) "a" (Player.clampName name)]⟩ :=
    run_thinking (l := ⟨visited, [.look (visitorRequest 97)]⟩) rfl names_visitorRequest.1
      (free_visited "a") rfl
  let there : Server :=
    { visited with sessions := visited.sessions.authenticate 0 "a" (Player.clampName name) }
  let joins : Command := .join 0 "a" (Player.clampName name) visitor.udp
  have seated : Lobby.after
      ⟨visited, [.seat (visitorRequest 97) "a" (Player.clampName name)]⟩
        (.advance 0 (naming name)) =
      ⟨there, [.join (visitorRequest 97) "a" (Player.clampName name) visitor.udp]⟩ :=
    after_seat (l := ⟨visited, [.seat (visitorRequest 97) "a" (Player.clampName name)]⟩)
      (r := visitorRequest 97) (x := visitorStub) rfl (free_visited "a") get?_visited (naming name)
  have submitted : Lobby.after
      ⟨there, [.join (visitorRequest 97) "a" (Player.clampName name) visitor.udp]⟩
        (.advance 0 (naming name)) =
      ⟨there.queueing joins, [.accept (visitorRequest 97) (Player.clampName name)]⟩ := rfl
  have ran : introduced name = Lobby.after
      ⟨there.queueing joins, [.accept (visitorRequest 97) (Player.clampName name)]⟩ (.step 0) := by
    rw [introduced, comeTo_parts, introducing, run_append, run_append, met, thought, run,
      List.foldl_cons, seated, List.foldl_cons, submitted]
    rfl
  have world : (introduced name).server.world =
      (((there.queueing joins).world.applyAll 0 [joins]).1.tick 0).1 := by
    rw [ran]
    exact (congrArg (·.2.2) (Server.core_step (s := there.queueing joins) 0) :)
  have roster : (introduced name).server.world.roster = joins.reseat Roster.empty := by
    rw [world, World.roster_tick, World.roster_applyAll]
    exact congrArg joins.reseat (World.roster_empty _ _ _)
  rw [← World.who_roster, roster, Command.reseat, Function.update_self,
    Player.clampName_clampName]

/-- The service names the client `Ann`, and that can be read. -/
theorem comeTo_identities_plain :
    ∃ p, (introduced "Ann").server.world.players.get? 0 = some p ∧ p.account = "a" ∧
      p.name = "Ann" ∧ Readable p.name := by
  obtain ⟨p, found, player⟩ := Option.map_eq_some_iff.mp (cast_introduced "Ann")
  obtain ⟨account, name⟩ := Prod.mk.inj player
  have uncut : Player.clampName "Ann" = "Ann" := by decide
  rw [uncut] at name
  obtain ⟨-, -, -, -, -, readable⟩ := comeTo_identities Settings.default [] (fun _ => 0)
    ((introducing (naming "Ann")).map .part)
  have plainly : ∀ service,
      (∃ h ∈ (introducing (naming "Ann")).map Happening.part, h.Asks service) →
      ∀ account, service.NamesPlainly account := by
    intro service asked account given known
    rw [asks_introducing asked] at known
    cases known
    decide
  rw [introduced] at found ⊢
  exact ⟨p, found, account, name, readable plainly 0 p found⟩

/-- The service gives a name with a zero byte. In a line of chat the rest of it is lost, and a block
about the player cannot be read. -/
theorem comeTo_misread :
    ∃ p, (introduced "A\x00B").server.world.players.get? 0 = some p ∧ p.account = "a" ∧
      p.name = "A\x00B" ∧ (chatPacket p.name).textAt 0 = .ok "A" ∧
      readEntries (p.fieldBytes none) = none := by
  obtain ⟨p, found, player⟩ := Option.map_eq_some_iff.mp (cast_introduced "A\x00B")
  obtain ⟨account, name⟩ := Prod.mk.inj player
  have uncut : Player.clampName "A\x00B" = "A\x00B" := by decide
  rw [uncut] at name
  refine ⟨p, found, account, name, ?_, ?_⟩
  · rw [name]
    refine Packet.textAt_eq_ok_iff_data.mpr ⟨[], [0, 66, 0], by decide, rfl, by decide, ?_⟩
    exact fun b first => (Option.some.inj first).symm
  · have front : ∃ rest, p.fieldBytes none =
        Field.name.tag :: (Text.terminated "A" ++ 66 :: rest) := by
      simp only [Player.fieldBytes, Player.changedFields, Field.all, List.flatMap_cons, Field.bytes,
        Field.value, FieldValue.bytes, name]
      exact ⟨_, rfl⟩
    obtain ⟨rest, front⟩ := front
    rw [front]
    exact readEntries_of_not_tag (by decide) (by decide) rest

end Lobby

end Deathmatch
