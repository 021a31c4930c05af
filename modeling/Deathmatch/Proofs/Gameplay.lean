import Deathmatch.Proofs.Admission
import Deathmatch.Proofs.Sendable

/-!
# Packets of play

What a packet of play asks for is said by its id and its payload, field by field from the left, and
nothing behind the last field counts (`Asked`). A payload asks for a command just when it is long
enough (`exists_asked_iff`), and the command is the one that its handler reads
(`Packet.gameCommand_of_asked`). A packet that asks for a command puts it into the command queue and
does nothing else (`Server.handle_of_asked`); one that cannot be read is answered at most
(`Server.refuses_unreadable`). A message is passed on as a line of chat (`Server.gets_chat`).
`Server.handle_played` says for every packet of someone who is logged in what comes of it.
-/

namespace Deathmatch

/-! ## Reading words and scalars -/

namespace Packet

variable {p : Packet} {offset : Nat} {rest : Bytes}

theorem wordAt_of_drop {w : UInt32} (here : p.data.drop offset = le32 w ++ rest) :
    p.wordAt offset = .ok w := by
  rw [wordAt, here]
  exact congrArg Except.ok (word32_le32 w)

theorem scalarAt_of_drop {x : Scalar} (here : p.data.drop offset = x.bytes ++ rest) :
    p.scalarAt offset = .ok x := by
  rw [scalarAt, wordAt_of_drop here]
  rfl

/-- Scalars that are written one behind the other stand four bytes apart. -/
theorem scalarAt_of_scalars {xs : List Scalar} (whole : p.data = xs.flatMap Scalar.bytes ++ rest)
    {i : Nat} (inside : i < xs.length) : p.scalarAt (4 * i) = .ok xs[i] := by
  have split : xs = xs.take i ++ xs[i] :: xs.drop (i + 1) := by
    rw [List.getElem_cons_drop, List.take_append_drop]
  have front : ((xs.take i).flatMap Scalar.bytes).length = 4 * i := by
    have each (ys : List Scalar) : (ys.flatMap Scalar.bytes).length = 4 * ys.length := by
      induction ys with
      | nil => rfl
      | cons y ys ih =>
        rw [List.flatMap_cons, List.length_append, ih, Scalar.length_bytes, List.length_cons]
        omega
    rw [each, List.length_take, Nat.min_eq_left (Nat.le_of_lt inside)]
  have here : p.data.drop (4 * i) =
      xs[i].bytes ++ ((xs.drop (i + 1)).flatMap Scalar.bytes ++ rest) := by
    rw [whole]
    conv => lhs; rw [split]
    rw [List.flatMap_append, List.flatMap_cons, List.append_assoc, List.drop_left' front,
      List.append_assoc]
  exact scalarAt_of_drop here

end Packet

/-- Every four bytes are the form of a scalar. -/
theorem exists_scalars (n : Nat) {data : Bytes} (long : 4 * n ≤ data.length) :
    ∃ (xs : List Scalar) (rest : Bytes),
      xs.length = n ∧ data = xs.flatMap Scalar.bytes ++ rest := by
  induction n generalizing data with
  | zero => exact ⟨[], data, rfl, rfl⟩
  | succ n ih =>
    rcases data with _ | ⟨b₀, _ | ⟨b₁, _ | ⟨b₂, _ | ⟨b₃, later⟩⟩⟩⟩
    · simp at long
    · simp at long; omega
    · simp at long; omega
    · simp at long; omega
    · have longLater : 4 * n ≤ later.length := by
        simp at long
        omega
      obtain ⟨xs, rest, count, whole⟩ := ih longLater
      refine ⟨⟨word32 b₀ b₁ b₂ b₃⟩ :: xs, rest, congrArg (· + 1) count, ?_⟩
      rw [List.flatMap_cons, Scalar.bytes, le32_word32, whole]
      rfl

/-! ## What a payload asks for -/

/-- What a packet of the player in `slot` asks for, by its id and its payload. Whatever stands
behind the fields does not count. -/
inductive Asked (slot : UInt8) (now : Time) : UInt8 → Bytes → Command → Prop
  | movement (x y z pitch yaw vx vy vz pitchRate yawRate : Scalar) (rest : Bytes) :
    Asked slot now PacketId.movement
      ([x, y, z, pitch, yaw, vx, vy, vz, pitchRate, yawRate].flatMap Scalar.bytes ++ rest)
      (.move slot ⟨⟨x, y, z⟩, ⟨pitch, yaw, .zero⟩, ⟨vx, vy, vz⟩, ⟨pitchRate, yawRate, .zero⟩⟩ now)
  | infoChange (weapon model unused unused' : UInt8) (rest : Bytes) :
    Asked slot now PacketId.infoChange (weapon :: model :: unused :: unused' :: rest)
      (.infoChange slot weapon model)
  | damage (victim amount : UInt8) (rest : Bytes) :
    Asked slot now PacketId.damage (victim :: amount :: rest) (.damage slot victim amount)
  | acknowledge (id : UInt32) (rest : Bytes) :
    Asked slot now PacketId.snapshot (le32 id ++ rest) (.acknowledge slot id)

/-- How many bytes the fields of a packet of play take, by its id. -/
def leastLength? (id : UInt8) : Option Nat :=
  if id = PacketId.movement then some 40
  else if id = PacketId.infoChange then some 4
  else if id = PacketId.damage then some 2
  else if id = PacketId.snapshot then some 4
  else none

section Asked

variable {slot id : UInt8} {now : Time} {data : Bytes} {command : Command} {least : Nat}

theorem leastLength?_eq_some_iff : leastLength? id = some least ↔
    (id = PacketId.movement ∧ least = 40) ∨ (id = PacketId.infoChange ∧ least = 4) ∨
      (id = PacketId.damage ∧ least = 2) ∨ (id = PacketId.snapshot ∧ least = 4) := by
  constructor
  · intro found
    rw [leastLength?] at found
    grind
  · rintro (⟨rfl, rfl⟩ | ⟨rfl, rfl⟩ | ⟨rfl, rfl⟩ | ⟨rfl, rfl⟩) <;> rfl

/-- The fields are what counts. -/
theorem Asked.take (asked : Asked slot now id data command) (needs : leastLength? id = some least)
    (more : Bytes) : least ≤ data.length ∧ Asked slot now id (data.take least ++ more) command := by
  cases asked with
  | movement x y z pitch yaw vx vy vz pitchRate yawRate rest =>
    cases needs
    exact ⟨Nat.le_add_left 40 rest.length,
      .movement x y z pitch yaw vx vy vz pitchRate yawRate more⟩
  | infoChange weapon model unused unused' rest =>
    cases needs
    exact ⟨Nat.le_add_left 4 rest.length, .infoChange weapon model unused unused' more⟩
  | damage victim amount rest =>
    cases needs
    exact ⟨Nat.le_add_left 2 rest.length, .damage victim amount more⟩
  | acknowledge number rest =>
    cases needs
    exact ⟨Nat.le_add_left 4 rest.length, .acknowledge number more⟩

/-- A payload asks for a command just when it is long enough. -/
theorem exists_asked_iff (needs : leastLength? id = some least) :
    (∃ command, Asked slot now id data command) ↔ least ≤ data.length := by
  refine ⟨fun ⟨command, asked⟩ => (asked.take needs []).1, fun long => ?_⟩
  rcases leastLength?_eq_some_iff.mp needs with
    ⟨rfl, rfl⟩ | ⟨rfl, rfl⟩ | ⟨rfl, rfl⟩ | ⟨rfl, rfl⟩
  · obtain ⟨xs, rest, count, rfl⟩ := exists_scalars 10 long
    match xs, count with
    | [x, y, z, pitch, yaw, vx, vy, vz, pitchRate, yawRate], _ =>
      exact ⟨_, .movement x y z pitch yaw vx vy vz pitchRate yawRate rest⟩
  · match data, long with
    | b₀ :: b₁ :: b₂ :: b₃ :: rest, _ => exact ⟨_, .infoChange b₀ b₁ b₂ b₃ rest⟩
  · match data, long with
    | b₀ :: b₁ :: rest, _ => exact ⟨_, .damage b₀ b₁ rest⟩
  · obtain ⟨xs, rest, count, rfl⟩ := exists_scalars 1 long
    match xs, count with
    | [x], _ => exact ⟨_, .acknowledge x.bits rest⟩

end Asked

/-! ## What handlers read -/

namespace Packet

variable {p : Packet} {slot : UInt8} {now : Time} {handler : Handler} {command : Command}
  {least : Nat}

/-- A packet of play has a handler, which can read just those payloads that are long enough. -/
theorem exists_handler (needs : leastLength? p.id = some least) :
    ∃ handler, Registry.game.get? p.id = some handler ∧
      (handler.Unreadable p ↔ p.data.length < least) := by
  rcases leastLength?_eq_some_iff.mp needs with
    ⟨same, rfl⟩ | ⟨same, rfl⟩ | ⟨same, rfl⟩ | ⟨same, rfl⟩
  · exact ⟨.movement, by rw [same]; decide, Iff.rfl⟩
  · exact ⟨.infoChange, by rw [same]; decide, Iff.rfl⟩
  · exact ⟨.damage, by rw [same]; decide, Iff.rfl⟩
  · exact ⟨.acknowledge, by rw [same]; decide, Iff.rfl⟩

theorem motionReport_of_scalars {x y z pitch yaw vx vy vz pitchRate yawRate : Scalar} {rest : Bytes}
    (whole : p.data =
      [x, y, z, pitch, yaw, vx, vy, vz, pitchRate, yawRate].flatMap Scalar.bytes ++ rest) :
    p.motionReport =
      .ok ⟨⟨x, y, z⟩, ⟨pitch, yaw, .zero⟩, ⟨vx, vy, vz⟩, ⟨pitchRate, yawRate, .zero⟩⟩ := by
  have long : 0 + motionLength ≤ p.data.length := by
    rw [whole]
    exact Nat.le_add_left 40 rest.length
  have read (i : Nat) (inside : i < 10) := scalarAt_of_scalars whole inside
  rw [motionReport, field, if_pos long,
    show p.scalarAt 0 = .ok x from read 0 (by decide),
    show p.scalarAt 4 = .ok y from read 1 (by decide),
    show p.scalarAt 8 = .ok z from read 2 (by decide),
    show p.scalarAt 12 = .ok pitch from read 3 (by decide),
    show p.scalarAt 16 = .ok yaw from read 4 (by decide),
    show p.scalarAt 20 = .ok vx from read 5 (by decide),
    show p.scalarAt 24 = .ok vy from read 6 (by decide),
    show p.scalarAt 28 = .ok vz from read 7 (by decide),
    show p.scalarAt 32 = .ok pitchRate from read 8 (by decide),
    show p.scalarAt 36 = .ok yawRate from read 9 (by decide)]
  rfl

/-- The handler of a packet reads the command that the packet asks for. -/
theorem gameCommand_of_asked (asked : Asked slot now p.id p.data command)
    (registered : Registry.game.get? p.id = some handler) :
    p.gameCommand slot now handler = .ok (some command) := by
  obtain ⟨id, index, total, transport, data⟩ := p
  dsimp only at asked registered
  cases asked with
  | movement =>
    cases (show Registry.game.get? PacketId.movement = some .movement by decide).symm.trans
      registered
    rw [gameCommand, motionReport_of_scalars rfl]
    rfl
  | infoChange weapon model unused unused' rest =>
    cases (show Registry.game.get? PacketId.infoChange = some .infoChange by decide).symm.trans
      registered
    have long : 0 + infoLength ≤ (weapon :: model :: unused :: unused' :: rest).length :=
      Nat.le_add_left 4 rest.length
    rw [gameCommand, field, if_pos long]
    rfl
  | damage =>
    cases (show Registry.game.get? PacketId.damage = some .damage by decide).symm.trans registered
    rfl
  | acknowledge number rest =>
    cases (show Registry.game.get? PacketId.snapshot = some .acknowledge by decide).symm.trans
      registered
    have read : wordAt ⟨PacketId.snapshot, index, total, transport, le32 number ++ rest⟩ 0 =
        .ok number :=
      wordAt_of_drop rfl
    rw [gameCommand, read]
    rfl

end Packet

/-! ## What handling does -/

namespace Server

variable {s : Server} {service : AccountService} {origin : Address} {packet : Packet}
  {slot : Option UInt8} {now : Time} {handler : Handler} {x : Session} {command : Command}
  {least : Nat}

theorem runHandler_of_gameCommand
    (read : packet.gameCommand x.slot now handler = .ok (some command))
    (receiving : s.commands.receiving = true) :
    s.runHandler service handler origin x packet now = (s.queueing command, .ok ()) := by
  cases handler with
  | connect | disconnect | chat => cases read
  | acknowledge | movement | infoChange | damage =>
    simp only [runHandler, play, read, submit_open receiving]

/-- A packet that asks for a command puts it behind those that wait, and does nothing else. -/
theorem handle_of_asked (asked : Asked x.slot now packet.id packet.data command)
    (needs : leastLength? packet.id = some least) (sender : s.resolve origin slot = some x)
    (initialized : x.initialized = true) (receiving : s.commands.receiving = true) :
    s.handle service origin packet slot now = s.queueing command := by
  obtain ⟨handler, registered, -⟩ := packet.exists_handler needs
  rw [handle_of_get? registered sender (mayHandle_of_initialized initialized _),
    runHandler_of_gameCommand (packet.gameCommand_of_asked asked registered) receiving]
  rfl

/-- What comes of a packet that its handler cannot read: a datagram leaves no trace, and over the
control channel its sender gets one answer. -/
structure Refuses (s : Server) (x : Session) (packet : Packet) (s' : Server) : Prop where
  datagram : packet.transport = .udp → s' = s
  control : packet.transport = .tcp →
    s.Gets (fun n => if x.connection = n then [.tcp packet.id [0]] else []) s'

theorem refuses_unreadable (registered : Registry.game.get? packet.id = some handler)
    (unreadable : handler.Unreadable packet) (sender : s.resolve origin slot = some x)
    (initialized : x.initialized = true) {m : Mailbox Packet}
    (queue : s.outlets.control? x.connection = some m) (room : m.HasRoom) :
    s.Refuses x packet (s.handle service origin packet slot now) := by
  obtain ⟨fault, ran⟩ : ∃ fault, s.runHandler service handler origin x packet now =
      (s, .error (.packet fault)) :=
    runHandler_of_unreadable unreadable
  rw [handle_of_get? registered sender (mayHandle_of_initialized initialized _), ran]
  show s.Refuses x packet (s.fail origin (some x) packet)
  have gets := s.gets_fail origin packet queue room
  refine ⟨fun channel => ?_, fun channel => ?_⟩
  · have other : packet.transport ≠ .tcp := by
      rw [channel]
      decide
    rw [fail, if_neg fun told => other told.1]
  · simpa only [channel, if_true] using gets

/-- A message gets to everybody who is logged in, as one line under the name of its sender. -/
theorem gets_chat (chat : packet.id = PacketId.chat) (sender : s.resolve origin slot = some x)
    (initialized : x.initialized = true) (tidy : s.sessions.Tidy)
    (accepting : ∀ k y, s.sessions.get? k = some y → y.initialized = true →
      ∃ m, s.outlets.control? y.connection = some m ∧ m.HasRoom)
    {message : String} (several : message ≠ "")
    (written : packet.data.takeWhile (· ≠ 0) = Text.bytes message) :
    s.Gets (fun n => if n ∈ s.sessions.authenticated.map (·.connection) then
      [chatPacket (x.name ++ ": " ++ message)] else [])
      (s.handle service origin packet slot now) := by
  have read : packet.textAt 0 = .ok message :=
    Packet.textAt_eq_ok_iff.mpr ⟨Nat.zero_le _, written⟩
  rw [handle_chat chat sender initialized read several]
  exact gets_broadcast tidy accepting _

theorem handle_chat_empty (chat : packet.id = PacketId.chat)
    (sender : s.resolve origin slot = some x) (initialized : x.initialized = true)
    (nothing : packet.data.takeWhile (· ≠ 0) = []) :
    s.handle service origin packet slot now = s := by
  have read : packet.textAt 0 = .ok "" := Packet.textAt_eq_ok_iff.mpr ⟨Nat.zero_le _, nothing⟩
  rw [handle_of_get? (Registry.get?_eq_chat.mpr chat) sender
    (mayHandle_of_initialized initialized _), runHandler, Server.chat, read]
  rfl

/-- What comes of a packet of somebody who is logged in, when queues are open and have room.

A packet of play asks for a command just when it is long enough, and then puts that one command
behind those that wait, on behalf of its sender's slot; nothing else happens, and nothing behind the
fields counts. A message that is not empty gets to everybody who is logged in, and to nobody else,
as one line under the name of its sender. A packet that cannot be read is refused. -/
theorem handle_played (s : Server) (service : AccountService) (origin : Address) (packet : Packet)
    (slot : Option UInt8) (now : Time) (x : Session) (sender : s.resolve origin slot = some x)
    (initialized : x.initialized = true) (tidy : s.sessions.Tidy)
    (receiving : s.commands.receiving = true)
    (accepting : ∀ k y, s.sessions.get? k = some y → y.initialized = true →
      ∃ m, s.outlets.control? y.connection = some m ∧ m.HasRoom) :
    let s' := s.handle service origin packet slot now
    (∀ least, leastLength? packet.id = some least →
      ((∃ command, s'.commands.items = s.commands.items ++ [command]) ↔
        least ≤ packet.data.length) ∧
      ((∃ command, Asked x.slot now packet.id packet.data command) ↔
        least ≤ packet.data.length) ∧
      (∀ command, Asked x.slot now packet.id packet.data command →
        s' = s.queueing command ∧
        ∀ more, s.handle service origin { packet with data := packet.data.take least ++ more }
          slot now = s.queueing command) ∧
      (packet.data.length < least → s.Refuses x packet s')) ∧
    (packet.id = PacketId.chat →
      (∀ message, message ≠ "" → packet.data.takeWhile (· ≠ 0) = Text.bytes message →
        ∃ placed, s.Gets placed s' ∧
          (∀ k y, s.sessions.get? k = some y → placed y.connection =
            if y.initialized then
              [.tcp PacketId.chat (Text.terminated (x.name ++ ": " ++ message))]
            else []) ∧
          ∀ n, (∀ k y, s.sessions.get? k = some y → y.connection ≠ n) → placed n = []) ∧
      (packet.data.takeWhile (· ≠ 0) = [] → s' = s) ∧
      ((∀ message, Text.bytes message ≠ packet.data.takeWhile (· ≠ 0)) →
        s.Refuses x packet s')) := by
  intro s'
  obtain ⟨m, queue, room⟩ := accepting _ x (get?_of_resolve tidy.indexed sender) initialized
  refine ⟨fun least needs => ?_, fun chat => ⟨fun message several written => ?_,
    handle_chat_empty chat sender initialized, fun unreadable => ?_⟩⟩
  · have carried (command : Command) (asked : Asked x.slot now packet.id packet.data command) :
        s' = s.queueing command :=
      handle_of_asked asked needs sender initialized receiving
    have refused (short : packet.data.length < least) : s.Refuses x packet s' := by
      obtain ⟨handler, registered, unreadable⟩ := packet.exists_handler needs
      exact refuses_unreadable registered (unreadable.mpr short) sender initialized queue room
    refine ⟨⟨fun ⟨command, queued⟩ => ?_, fun long => ?_⟩, exists_asked_iff needs,
      fun command asked => ⟨carried command asked, fun more => ?_⟩, refused⟩
    · refine Nat.le_of_not_lt fun short => ?_
      have same : s'.commands = s.commands := by
        cases channel : packet.transport with
        | udp => exact congrArg (·.commands) ((refused short).datagram channel)
        | tcp => exact congrArg (·.commands) ((refused short).control channel).rest
      rw [same] at queued
      exact absurd (congrArg List.length queued) (by simp)
    · obtain ⟨command, asked⟩ := (exists_asked_iff needs).mpr long
      exact ⟨command, congrArg (·.commands.items) (carried command asked)⟩
    · exact handle_of_asked (asked.take needs more).2 needs sender initialized receiving
  · refine ⟨_, gets_chat chat sender initialized tidy accepting several written,
      fun k y found => ?_, fun n nobody => if_neg fun among => ?_⟩
    · simp only [tidy.mem_connections_iff found]
      rfl
    · obtain ⟨k, y, found, -, same⟩ := SessionTable.mem_connections.mp among
      exact nobody k y found same
  · exact refuses_unreadable (Registry.get?_eq_chat.mpr chat) unreadable sender initialized queue
      room

/-- The one who plays reports their motion, with a byte too much, and says something. The two who
only have shaken hands do not hear it. -/
theorem handle_played_threshold :
    let origin : Address := ⟨some ⟨"b", 1000⟩, none⟩
    let report : Packet := .tcp PacketId.movement
      (([1, 2, 3, 4, 5, 6, 7, 8, 9, 10].map Scalar.mk).flatMap Scalar.bytes ++ [255])
    let said := threshold.handle .allowAll origin (.tcp PacketId.chat [104, 105, 0, 106]) (some 1) 0
    threshold.resolve origin (some 1) = some (player 1 "b" 1) ∧
    (player 1 "b" 1).initialized = true ∧ threshold.sessions.Tidy ∧
    threshold.commands.receiving = true ∧
    (∀ k y, threshold.sessions.get? k = some y → y.initialized = true →
      ∃ m, threshold.outlets.control? y.connection = some m ∧ m.HasRoom) ∧
    threshold.handle .allowAll origin report (some 1) 5 = threshold.queueing (.move 1
      ⟨⟨⟨1⟩, ⟨2⟩, ⟨3⟩⟩, ⟨⟨4⟩, ⟨5⟩, .zero⟩, ⟨⟨6⟩, ⟨7⟩, ⟨8⟩⟩, ⟨⟨9⟩, ⟨10⟩, .zero⟩⟩ 5) ∧
    said.outlets.waiting 0 = [] ∧ said.outlets.waiting 1 = [chatPacket ("b" ++ ": " ++ "hi")] ∧
    said.outlets.waiting 2 = [] := by
  intro origin report said
  have sender : threshold.resolve origin (some 1) = some (player 1 "b" 1) := rfl
  have accepting : ∀ k y, threshold.sessions.get? k = some y → y.initialized = true →
      ∃ m, threshold.outlets.control? y.connection = some m ∧ m.HasRoom :=
    fun k y found _ => (threshold_cases found).2.2
  have played (packet : Packet) (now : Time) := handle_played threshold .allowAll origin packet
    (some 1) now (player 1 "b" 1) sender rfl tidy_threshold rfl accepting
  obtain ⟨reported, -⟩ := played report 5
  obtain ⟨-, -, carried, -⟩ := reported 40 rfl
  obtain ⟨-, chat⟩ := played (.tcp PacketId.chat [104, 105, 0, 106]) 0
  obtain ⟨placed, gets, each, -⟩ := (chat rfl).1 "hi" (by decide) (by decide)
  have handled : threshold.handle .allowAll origin (.tcp PacketId.chat [104, 105, 0, 106]) (some 1)
    0 = said := rfl
  rw [handled] at gets
  clear_value said
  refine ⟨sender, rfl, tidy_threshold, rfl, accepting,
    (carried _ (.movement _ _ _ _ _ _ _ _ _ _ [255])).1, ?_, ?_, ?_⟩
  · rw [Outlets.waiting, gets.control?, show placed 0 = [] from each 0 _ (get?_threshold 0)]
    rfl
  · rw [Outlets.waiting, gets.control?, show placed 1 = _ from each 1 _ (get?_threshold 1)]
    rfl
  · rw [Outlets.waiting, gets.control?, show placed 2 = [] from each 2 _ (get?_threshold 2)]
    rfl

/-- The one who plays sends a motion report of one byte over the control channel. No command is
queued, but the report does not go without an answer. -/
theorem short_report_answered :
    let origin : Address := ⟨some ⟨"b", 1000⟩, none⟩
    let short : Packet := .tcp PacketId.movement [1]
    let s' := threshold.handle .allowAll origin short (some 1) 0
    threshold.resolve origin (some 1) = some (player 1 "b" 1) ∧
    (player 1 "b" 1).initialized = true ∧ threshold.sessions.Tidy ∧
    threshold.commands.receiving = true ∧
    (∀ k y, threshold.sessions.get? k = some y → y.initialized = true →
      ∃ m, threshold.outlets.control? y.connection = some m ∧ m.HasRoom) ∧
    short.data.length < 40 ∧ s'.commands = threshold.commands ∧
    threshold.outlets.waiting 1 = [] ∧
    s'.outlets.waiting 1 = [.tcp PacketId.movement [0]] := by
  intro origin short s'
  have sender : threshold.resolve origin (some 1) = some (player 1 "b" 1) := rfl
  have unreadable : Handler.Unreadable short .movement := show 1 < 40 by decide
  have queue : threshold.outlets.control? (player 1 "b" 1).connection = some (.empty 64) := rfl
  have refused : threshold.Refuses (player 1 "b" 1) short s' :=
    refuses_unreadable (by decide) unreadable sender rfl queue ⟨rfl, by decide⟩
  have gets := refused.control rfl
  clear_value s'
  refine ⟨sender, rfl, tidy_threshold, rfl, fun k y found _ => (threshold_cases found).2.2,
    by decide, congrArg (·.commands) gets.rest, rfl, ?_⟩
  rw [Outlets.waiting, gets.control?]
  rfl

end Server

end Deathmatch
