import Deathmatch.Connection
import Deathmatch.Proofs.ControlQueues
import Deathmatch.Proofs.Pieces
import Mathlib.Data.List.TakeWhile

/-!
# Whether queued packets can be sent

A packet has datagrams just when its payload is at most 145860 bytes long. What the server says of
itself is far shorter (`Server.texts_sendable`), for names and the map are. A line of chat need not
be: a client may send a message as long as 255 fragments allow, and the line has the sender's name
before it. So a packet that a client sends puts nothing into a control queue that cannot be sent,
unless it is such a message; then the line closes the stream of each client that it is queued for
(`Server.queues_sendable`).
-/

namespace Deathmatch

/-! ## Payloads that are short enough -/

/-- Whether a packet has datagrams. -/
def Packet.Sendable (p : Packet) : Prop :=
  ∃ datagrams, p.encode = .ok datagrams

theorem Packet.sendable_iff {p : Packet} : p.Sendable ↔ p.data.length ≤ 145860 :=
  exists_encode_iff p

theorem length_chatPacket (line : String) :
    (chatPacket line).data.length = line.utf8ByteSize + 1 := by
  show (Text.bytes line ++ [0]).length = _
  rw [List.length_append, Text.length_bytes]
  rfl

theorem length_chatLine (name message : String) :
    (chatPacket (name ++ ": " ++ message)).data.length =
      name.utf8ByteSize + message.utf8ByteSize + 3 := by
  rw [length_chatPacket, String.utf8ByteSize_append, String.utf8ByteSize_append]
  show name.utf8ByteSize + 2 + message.utf8ByteSize + 1 = _
  omega

theorem Text.bytes_replicate (n : Nat) :
    bytes (String.ofList (List.replicate n 'x')) = List.replicate n 120 := by
  induction n with
  | zero => exact bytes_empty
  | succ n ih =>
    rw [List.replicate_succ, ← List.singleton_append, String.ofList_append, bytes_append, ih,
      List.replicate_succ]
    rfl

/-- A text that is read from a payload is not longer than the payload. -/
theorem Packet.size_textAt {p : Packet} {message : String} (read : p.textAt 0 = .ok message) :
    message.utf8ByteSize ≤ p.data.length := by
  rw [textAt, if_pos (Nat.zero_le _), List.drop_zero] at read
  split at read
  · next found =>
    cases read
    rw [← Text.length_bytes, Text.ofBytes?_eq_some_iff.mp found]
    exact (List.takeWhile_sublist _).length_le
  · cases read

/-! ## Writing -/

namespace Connection

variable {p : Packet} {packets : List Packet}

theorem isOpen_write (sendable : p.Sendable) (c : Connection) : (c.write p).isOpen = c.isOpen := by
  obtain ⟨datagrams, encoded⟩ := sendable
  unfold write
  split
  · rw [Frame.write, encoded]
    rfl
  · rfl

theorem isOpen_write_of_not (unsendable : ¬ p.Sendable) (c : Connection) :
    (c.write p).isOpen = false := by
  unfold write
  split
  · split
    · next written =>
      cases encoded : p.encode with
      | ok datagrams => exact absurd ⟨datagrams, encoded⟩ unsendable
      | error fault =>
        rw [Frame.write, encoded] at written
        cases written
    · rfl
  · next shut => exact Bool.eq_false_iff.mpr shut

/-- A stream that is closed stays closed. -/
theorem closed_writes {c : Connection} (closed : c.isOpen = false) (packets : List Packet) :
    (packets.foldl write c).isOpen = false := by
  induction packets generalizing c with
  | nil => exact closed
  | cons p rest ih =>
    refine ih ?_
    rw [write, closed]
    exact closed

theorem isOpen_writes (sendable : ∀ p ∈ packets, p.Sendable) (c : Connection) :
    (packets.foldl write c).isOpen = c.isOpen := by
  induction packets generalizing c with
  | nil => rfl
  | cons p rest ih =>
    rw [List.foldl_cons, ih fun q member => sendable q (List.mem_cons_of_mem p member),
      isOpen_write (sendable p List.mem_cons_self)]

theorem isOpen_writes_of_not (among : p ∈ packets) (unsendable : ¬ p.Sendable) (c : Connection) :
    (packets.foldl write c).isOpen = false := by
  induction packets generalizing c with
  | nil => cases among
  | cons q rest ih =>
    rcases List.mem_cons.mp among with rfl | later
    · exact closed_writes (isOpen_write_of_not unsendable c) rest
    · exact ih later (c.write q)

end Connection

/-! ## What handling a packet puts into the queues -/

namespace Server

variable {s : Server} {settings : Settings}

theorem texts_sendable (map : settings.currentMap.utf8ByteSize ≤ 1024) :
    Texts Packet.Sendable settings where
  error id := Packet.sendable_iff.mpr (Nat.le_of_ble_eq_true rfl)
  accepted := by
    rw [Packet.sendable_iff]
    show (1 :: (Text.bytes settings.currentMap ++ [0])).length ≤ 145860
    rw [List.length_cons, List.length_append, Text.length_bytes]
    show settings.currentMap.utf8ByteSize + 1 + 1 ≤ 145860
    omega
  joined name short := by
    rw [Packet.sendable_iff, length_chatPacket, String.utf8ByteSize_append]
    have short : name.utf8ByteSize ≤ 32 := short
    show name.utf8ByteSize + 20 + 1 ≤ 145860
    omega
  left name short := by
    rw [Packet.sendable_iff, length_chatPacket, String.utf8ByteSize_append]
    have short : name.utf8ByteSize ≤ 32 := short
    show name.utf8ByteSize + 18 + 1 ≤ 145860
    omega

/-- Whether a packet asks for a line of chat that no 255 datagrams hold. -/
def Overlong (s : Server) (origin : Address) (packet : Packet) (slot : Option UInt8) : Prop :=
  packet.id = PacketId.chat ∧ ∃ player message, s.resolve origin slot = some player ∧
    player.initialized = true ∧ packet.textAt 0 = .ok message ∧
    145860 < player.name.utf8ByteSize + message.utf8ByteSize + 3

variable {service : AccountService} {origin : Address} {packet : Packet} {slot : Option UInt8}
  {now : Time}

theorem named_resolve (named : s.Named) {player : Session}
    (resolved : s.resolve origin slot = some player) :
    player.name.utf8ByteSize ≤ Player.maxNameBytes := by
  cases slot with
  | some k => exact named k player (Option.filter_eq_some_iff.mp resolved).1
  | none =>
    obtain ⟨k, found⟩ := ByteMap.mem_values.mp (List.mem_of_find?_eq_some resolved)
    exact named k player found

/-- No short message is overlong. -/
theorem not_overlong (named : s.Named) (short : packet.data.length ≤ 145825) :
    ¬ s.Overlong origin packet slot := by
  rintro ⟨-, player, message, resolved, -, read, long⟩
  have name : player.name.utf8ByteSize ≤ 32 := named_resolve named resolved
  have size := Packet.size_textAt read
  omega

/-- A message of someone who is logged in becomes a line that everyone is offered. -/
theorem handle_chat {player : Session} {message : String} (chat : packet.id = PacketId.chat)
    (resolved : s.resolve origin slot = some player) (initialized : player.initialized = true)
    (read : packet.textAt 0 = .ok message) (several : message ≠ "") :
    s.handle service origin packet slot now =
      s.broadcastChat (player.name ++ ": " ++ message) := by
  have allowed : (s.resolve origin slot).filter (mayHandle packet.id) = some player := by
    rw [resolved, Option.filter_some, mayHandle, initialized, Bool.or_true]
    rfl
  rw [handle, handleWith, Registry.get?_eq_chat.mpr chat]
  dsimp only
  rw [allowed]
  dsimp only
  rw [runHandler, Server.chat, read]
  dsimp only
  rw [if_neg several]

/-- What is broadcast is queued for everyone who is logged in and whose queue has room. -/
theorem waiting_broadcast {session : Session} (among : session ∈ s.sessions.authenticated)
    {m : Mailbox Packet} (queue : s.outlets.control? session.connection = some m)
    (room : m.HasRoom) (p : Packet) :
    ∃ more, (s.broadcast p).outlets.waiting session.connection =
      s.outlets.waiting session.connection ++ p :: more :=
  Outlets.waiting_offerAll among rfl s.outlets queue room p

/-- An overlong line is queued for everyone who is logged in and whose queue has room. -/
theorem handle_overlong (named : s.Named) (overlong : s.Overlong origin packet slot)
    {session : Session} (among : session ∈ s.sessions.authenticated) {m : Mailbox Packet}
    (queue : s.outlets.control? session.connection = some m) (room : m.HasRoom) :
    ∃ line more, ¬ line.Sendable ∧
      (s.handle service origin packet slot now).outlets.waiting session.connection =
        s.outlets.waiting session.connection ++ line :: more := by
  obtain ⟨chat, player, message, resolved, initialized, read, long⟩ := overlong
  have name : player.name.utf8ByteSize ≤ 32 := named_resolve named resolved
  have several : message ≠ "" := by
    rintro rfl
    rw [String.utf8ByteSize_empty] at long
    omega
  obtain ⟨more, waits⟩ := waiting_broadcast among queue room
    (chatPacket (player.name ++ ": " ++ message))
  refine ⟨chatPacket (player.name ++ ": " ++ message), more, ?_, ?_⟩
  · rw [Packet.sendable_iff, length_chatLine]
    exact Nat.not_le_of_lt long
  · rw [handle_chat chat resolved initialized read several]
    exact waits

/-- In every state of the server, a packet that is handled puts packets behind what waits in the
control queues. They can all be sent, and leave the stream of whoever takes them as it is, unless
the packet is an overlong message; that one closes the stream of each client who is logged in and
whose queue has room. A payload of 145825 bytes is not overlong. What the second half of a login,
the release of a slot and a step of the simulation put into the queues can be sent. -/
theorem queues_sendable (reach : Reach settings s)
    (map : settings.currentMap.utf8ByteSize ≤ 1024) :
    (∀ service origin packet slot now, ∃ placed : Nat → List Packet,
      (∀ n, (s.handle service origin packet slot now).outlets.waiting n =
        s.outlets.waiting n ++ placed n) ∧
      (¬ s.Overlong origin packet slot → ∀ n, (∀ p ∈ placed n, p.Sendable) ∧
        ∀ c : Connection, ((placed n).foldl Connection.write c).isOpen = c.isOpen) ∧
      (s.Overlong origin packet slot → ∀ session ∈ s.sessions.authenticated, ∀ m,
        s.outlets.control? session.connection = some m → m.HasRoom →
          (∃ line ∈ placed session.connection, ¬ line.Sendable) ∧
          ∀ c : Connection,
            ((placed session.connection).foldl Connection.write c).isOpen = false) ∧
      (packet.data.length ≤ 145825 → ¬ s.Overlong origin packet slot)) ∧
    (∀ origin stub account name, s.outlets.Gains Packet.Sendable
      (s.enter origin stub account (Player.clampName name)).1.outlets) ∧
    (∀ slot tcp, s.outlets.Gains Packet.Sendable (s.release slot tcp).2.outlets) ∧
    ∀ now, s.outlets.Gains Packet.Sendable (s.step now).server.outlets := by
  obtain ⟨same, named⟩ := reach.named
  have texts : Texts Packet.Sendable s.settings := texts_sendable (same ▸ map)
  refine ⟨fun service origin packet slot now => ?_,
    fun origin stub account name =>
      (evolves_enter texts origin stub account (Player.size_clampName name)).outlets,
    fun slot tcp => (evolves_release texts named slot tcp).outlets,
    fun now => (evolves_step (texts.error PacketId.snapshot) now).outlets⟩
  have grows := (evolves_handle (texts_true s.settings) named service origin packet slot now
    fun _ _ _ _ _ _ => trivial).outlets
  choose placed waits _ using grows
  refine ⟨placed, waits, fun short n => ?_, fun overlong session among m queue room => ?_,
    not_overlong named⟩
  · have chatting (player : Session) (message : String) (chat : packet.id = PacketId.chat)
        (resolved : s.resolve origin slot = some player) (initialized : player.initialized = true)
        (read : packet.textAt 0 = .ok message) :
        (chatPacket (player.name ++ ": " ++ message)).Sendable := by
      rw [Packet.sendable_iff, length_chatLine]
      exact Nat.le_of_not_lt fun long =>
        short ⟨chat, player, message, resolved, initialized, read, long⟩
    obtain ⟨sendable, waitsToo, good⟩ :=
      (evolves_handle texts named service origin packet slot now chatting).outlets n
    have all : ∀ p ∈ placed n, p.Sendable :=
      List.append_cancel_left ((waits n).symm.trans waitsToo) ▸ good
    exact ⟨all, Connection.isOpen_writes all⟩
  · obtain ⟨line, more, unsendable, waitsToo⟩ := handle_overlong named overlong among queue room
    have there : line ∈ placed session.connection := by
      rw [List.append_cancel_left ((waits _).symm.trans waitsToo)]
      exact List.mem_cons_self
    exact ⟨⟨line, there, unsendable⟩, Connection.isOpen_writes_of_not there unsendable⟩

/-! ## An overlong line -/

/-- Two clients, `a` and `b`, are logged in. -/
def duel : Server :=
  ((Server.start Settings.default [] fun _ => 0).withPlayer 0 "a").withPlayer 1 "b"

theorem reach_duel : Reach Settings.default duel := by
  have first : Reach Settings.default
      ((Server.start Settings.default [] fun _ => 0).withPlayer 0 "a") := by
    refine (Reach.start [] fun _ => 0).withPlayer rfl fun k session found => ?_
    cases (ByteMap.get?_empty k).symm.trans found
  refine first.withPlayer rfl fun k session found _ => ?_
  rw [withPlayer, SessionTable.get?, ByteMap.get?_insert] at found
  split at found
  · cases found
    decide
  · cases (ByteMap.get?_empty k).symm.trans found

/-- The longest message that fits under every name. -/
theorem queues_sendable_duel :
    Reach Settings.default duel ∧ Settings.default.currentMap.utf8ByteSize ≤ 1024 ∧
    ∃ placed : Nat → List Packet,
      (∀ n, (duel.handle .allowAll ⟨some ⟨"a", 1000⟩, none⟩
          (.tcp PacketId.chat (List.replicate 145825 120)) (some 0) 0).outlets.waiting n =
        duel.outlets.waiting n ++ placed n) ∧
      ∀ n, ∀ p ∈ placed n, p.Sendable := by
  have map : Settings.default.currentMap.utf8ByteSize ≤ 1024 := by decide
  obtain ⟨placed, waits, sendable, -, modest⟩ := (queues_sendable reach_duel map).1 .allowAll
    ⟨some ⟨"a", 1000⟩, none⟩ (.tcp PacketId.chat (List.replicate 145825 120)) (some 0) 0
  have short := modest (Nat.le_of_eq List.length_replicate)
  exact ⟨reach_duel, map, placed, waits, fun n => (sendable short n).1⟩

/-- Client `a` sends a message in 255 fragments. The line that is queued for `b` has no datagrams,
and closes the stream of `b`. -/
theorem chat_unsendable :
    let message : Packet := .tcp PacketId.chat (List.replicate 145860 120)
    Reach Settings.default duel ∧ Settings.default.currentMap.utf8ByteSize ≤ 1024 ∧
    (∃ datagrams, message.encode = .ok datagrams ∧ datagrams.length = 255) ∧
    duel.outlets.waiting 1 = [] ∧
    ∃ line more,
      (duel.handle .allowAll ⟨some ⟨"a", 1000⟩, none⟩ message (some 0) 0).outlets.waiting 1 =
        line :: more ∧
      line.encode = .error (.tooManyFragments 145864) ∧
      ∀ c : Connection, ((line :: more).foldl Connection.write c).isOpen = false := by
  intro message
  have length : message.data.length = 145860 := List.length_replicate
  have splits : Splits message.data := by
    rw [Splits, length]
    decide
  have fragments : (pieces message.data).length = 255 := by
    rw [length_pieces, length]
    rfl
  let text := String.ofList (List.replicate 145860 'x')
  have bytes : Text.bytes text = message.data := Text.bytes_replicate 145860
  have read : message.textAt 0 = .ok text := by
    have whole : message.data.takeWhile (· ≠ 0) = message.data :=
      List.takeWhile_eq_self_iff.mpr fun b member => by
        rw [List.eq_of_mem_replicate member]
        decide
    rw [Packet.textAt, if_pos (Nat.zero_le _), List.drop_zero, whole,
      Text.ofBytes?_eq_some_iff.mpr bytes]
  have size : text.utf8ByteSize = 145860 := by
    rw [← Text.length_bytes, bytes, length]
  have first : duel.sessions.get? 0 = some (player 0 "a" 0) := rfl
  have second : duel.sessions.get? 1 = some (player 1 "b" 1) := rfl
  have resolved : duel.resolve ⟨some ⟨"a", 1000⟩, none⟩ (some 0) = some (player 0 "a" 0) := by
    rw [resolve, first]
    rfl
  have several : text ≠ "" := by
    intro none
    rw [none] at size
    cases size
  have among : player 1 "b" 1 ∈ duel.sessions.authenticated :=
    List.mem_filter.mpr ⟨ByteMap.mem_values.mpr ⟨1, second⟩, rfl⟩
  obtain ⟨line, lineIs⟩ : ∃ line, line = chatPacket ((player 0 "a" 0).name ++ ": " ++ text) :=
    ⟨_, rfl⟩
  have long : line.data.length = 145864 := by
    rw [lineIs, length_chatLine, size]
    rfl
  have unsendable : ¬ line.Sendable := by
    rw [Packet.sendable_iff, long]
    decide
  have nothing : duel.outlets.waiting 1 = [] := rfl
  have queue : duel.outlets.control? (player 1 "b" 1).connection = some (.empty 64) := rfl
  obtain ⟨more, waits⟩ := waiting_broadcast among queue ⟨rfl, by decide⟩ line
  have own : (player 1 "b" 1).connection = 1 := rfl
  rw [own, nothing, List.nil_append] at waits
  refine ⟨reach_duel, by decide, ⟨_, Packet.encode_of_split splits, ?_⟩, nothing, line, more, ?_,
    ?_, Connection.isOpen_writes_of_not List.mem_cons_self unsendable⟩
  · rw [List.length_map, List.length_range, fragments]
  · rw [handle_chat rfl resolved rfl read several, broadcastChat, ← lineIs]
    exact waits
  · rw [Packet.encode_of_long (by rw [long]; decide), long]

end Server

end Deathmatch
