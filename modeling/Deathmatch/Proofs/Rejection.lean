import Deathmatch.Proofs.Lobby

/-!
# Packets that come to nothing

A packet is rejected when its id has no handler, when it comes from nobody or from somebody who is
not logged in, or when its handler cannot read the payload (`Server.Rejects`). What a handler cannot
read is said by the payload alone (`Handler.Unreadable`), and handlers read before they do anything
(`Server.runHandler_of_unreadable`). For whom a handler is run, if for anybody, is said by
`Server.onBehalf?`. So of all queues and tables a rejected packet can only reach the control queue
of its sender, which gets one answer (`Server.handle_rejected`).
-/

namespace Deathmatch

/-! ## Reads that fail -/

/-- Whether a computation ends in a fault. -/
def Fails {ε α : Type} (x : Except ε α) : Prop :=
  ∃ fault, x = .error fault

section Fails

variable {ε α β : Type}

@[simp] theorem fails_error (fault : ε) : Fails (.error fault : Except ε α) :=
  ⟨fault, rfl⟩

@[simp] theorem not_fails_ok (a : α) : ¬ Fails (.ok a : Except ε α) := nofun

@[simp] theorem not_fails_pure (a : α) : ¬ Fails (pure a : Except ε α) := nofun

/-- A chain fails at its first failing part. -/
@[simp] theorem fails_bind {x : Except ε α} {f : α → Except ε β} :
    Fails (x >>= f) ↔ Fails x ∨ ∃ a, x = .ok a ∧ Fails (f a) := by
  cases x with
  | error fault => exact iff_of_true ⟨fault, rfl⟩ (Or.inl ⟨fault, rfl⟩)
  | ok a => simp [bind, Except.bind]

@[simp] theorem fails_map {x : Except ε α} {f : α → β} : Fails (x.map f) ↔ Fails x := by
  cases x <;> simp [Except.map]

theorem exists_ok_iff {x : Except ε α} : (∃ a, x = .ok a) ↔ ¬ Fails x := by
  cases x <;> simp

end Fails

namespace Packet

variable {p : Packet} {offset : Nat}

theorem fails_field {length : Nat} :
    Fails (p.field offset length) ↔ p.data.length < offset + length := by
  rw [field]
  split
  · next fits => simpa using fits
  · next beyond => simpa using beyond

theorem fails_byteAt : Fails (p.byteAt offset) ↔ p.data.length < offset + 1 := by
  rw [byteAt, ← Nat.not_le, Nat.succ_le_iff, ← Nat.sub_pos_iff_lt, ← List.length_drop]
  cases p.data.drop offset <;> simp

theorem fails_wordAt : Fails (p.wordAt offset) ↔ p.data.length < offset + 4 := by
  have size : p.data.length < offset + 4 ↔ (p.data.drop offset).length < 4 := by
    rw [List.length_drop]
    omega
  rw [wordAt, size]
  rcases p.data.drop offset with _ | ⟨b₀, _ | ⟨b₁, _ | ⟨b₂, _ | ⟨b₃, rest⟩⟩⟩⟩ <;> simp

theorem fails_scalarAt : Fails (p.scalarAt offset) ↔ p.data.length < offset + 4 := by
  rw [scalarAt, fails_map, fails_wordAt]

/-- The text at the start cannot be read just when its bytes are the form of none. -/
theorem fails_textAt_zero :
    Fails (p.textAt 0) ↔ ∀ text, Text.bytes text ≠ p.data.takeWhile (· ≠ 0) := by
  rw [textAt, if_pos (Nat.zero_le _), List.drop_zero]
  cases found : Text.ofBytes? (p.data.takeWhile (· ≠ 0)) with
  | none =>
    refine iff_of_true (fails_error _) fun text same => ?_
    cases found.symm.trans (Text.ofBytes?_eq_some_iff.mpr same)
  | some text =>
    refine iff_of_false (not_fails_ok text) fun different => ?_
    exact different text (Text.ofBytes?_eq_some_iff.mp found)

/-- Forty bytes hold all ten scalars. -/
theorem fails_motionReport : Fails p.motionReport ↔ p.data.length < 40 := by
  simp only [motionReport, fails_bind, fails_field, fails_scalarAt, not_fails_pure, motionLength,
    and_false, exists_false, or_false, exists_and_right]
  omega

end Packet

/-! ## Handlers that cannot read a payload -/

/-- Whether the payload is not one for the handler: too short, or no text. -/
def Handler.Unreadable (packet : Packet) : Handler → Prop
  | .chat => ∀ text, Text.bytes text ≠ packet.data.takeWhile (· ≠ 0)
  | .acknowledge => packet.data.length < 4
  | .movement => packet.data.length < 40
  | .infoChange => packet.data.length < 4
  | .damage => packet.data.length < 2
  | .connect | .disconnect => False

theorem Packet.fails_gameCommand {packet : Packet} {handler : Handler} (other : handler ≠ .chat)
    (slot : UInt8) (now : Time) :
    Fails (packet.gameCommand slot now handler) ↔ handler.Unreadable packet := by
  cases handler with
  | chat => exact absurd rfl other
  | connect | disconnect => exact iff_of_false (not_fails_ok _) not_false
  | movement =>
    simp only [gameCommand, fails_bind, fails_motionReport, not_fails_pure, and_false,
      exists_false, or_false, Handler.Unreadable]
  | acknowledge =>
    simp only [gameCommand, fails_bind, fails_wordAt, not_fails_pure, and_false,
      exists_false, or_false, Handler.Unreadable, Nat.zero_add]
  | infoChange | damage =>
    simp only [gameCommand, fails_bind, fails_field, fails_byteAt, not_fails_pure, and_false,
      exists_false, or_false, exists_and_right, exists_ok_iff, infoLength, Handler.Unreadable]
    omega

namespace Server

variable {s : Server} {service : AccountService} {origin : Address} {packet : Packet}
  {slot : Option UInt8} {now : Time} {handler : Handler} {player x : Session}

/-- A handler that cannot read the payload has done nothing. -/
theorem runHandler_of_unreadable (unreadable : handler.Unreadable packet) :
    ∃ fault, s.runHandler service handler origin player packet now =
      (s, .error (.packet fault)) := by
  cases handler with
  | connect | disconnect => exact unreadable.elim
  | chat =>
    obtain ⟨fault, read⟩ := Packet.fails_textAt_zero.mpr unreadable
    refine ⟨fault, ?_⟩
    rw [runHandler, chat, read]
  | acknowledge | movement | infoChange | damage =>
    obtain ⟨fault, read⟩ := (Packet.fails_gameCommand (by decide) player.slot now).mpr unreadable
    refine ⟨fault, ?_⟩
    simp only [runHandler, play, read]

/-- A handler other than that of logins fails on what it cannot read, and on nothing else in the
payload. -/
theorem runHandler_fails_iff (other : handler ≠ .connect) :
    (∃ fault, (s.runHandler service handler origin player packet now).2 =
      .error (.packet fault)) ↔ handler.Unreadable packet := by
  constructor
  · rintro ⟨fault, failed⟩
    cases handler with
    | connect => exact absurd rfl other
    | disconnect => cases failed
    | chat =>
      rw [runHandler, chat] at failed
      split at failed
      · next read => exact Packet.fails_textAt_zero.mp ⟨_, read⟩
      · split at failed <;> cases failed
    | acknowledge | movement | infoChange | damage =>
      simp only [runHandler, play] at failed
      split at failed
      · next read => exact (Packet.fails_gameCommand (by decide) player.slot now).mp ⟨_, read⟩
      · cases failed
      · split at failed
        · cases failed
        · next refused =>
          cases failed
          rw [submit] at refused
          split at refused <;> cases refused
  · intro unreadable
    obtain ⟨fault, ran⟩ := runHandler_of_unreadable unreadable
    exact ⟨fault, congrArg Prod.snd ran⟩

/-! ## Whose handler is run -/

/-- The session on whose behalf the handler of a packet is run. -/
def onBehalf? (s : Server) (origin : Address) (packet : Packet) (slot : Option UInt8) :
    Option Session :=
  if handles packet.id then (s.resolve origin slot).filter (mayHandle packet.id) else none

/-- Without such a session no handler is run. -/
theorem handle_of_onBehalf?_eq_none (nobody : s.onBehalf? origin packet slot = none) :
    s.handle service origin packet slot now =
      if handles packet.id then s.fail origin (s.resolve origin slot) packet else s := by
  rw [onBehalf?, handles, ByteMap.contains] at nobody
  rw [handle, handleWith, handles, ByteMap.contains]
  cases registered : Registry.game.get? packet.id with
  | none => rfl
  | some handler =>
    rw [registered, Option.isSome_some, if_pos rfl] at nobody
    dsimp only
    rw [nobody, Option.isSome_some, if_pos rfl]

theorem onBehalf?_eq_some_iff :
    s.onBehalf? origin packet slot = some x ↔
      handles packet.id = true ∧ mayHandle packet.id x = true ∧
        s.resolve origin slot = some x := by
  rw [onBehalf?]
  split
  · next handled => simp [handled, Option.filter_eq_some_iff, and_comm]
  · next unhandled => simp [unhandled]

theorem mayHandle_of_initialized (initialized : x.initialized = true) (id : UInt8) :
    mayHandle id x = true := by
  rw [mayHandle, initialized, Bool.or_true]

/-- A packet that has a handler, from somebody it may come from, is handled on their behalf. -/
theorem handle_of_get? (registered : Registry.game.get? packet.id = some handler)
    (sender : s.resolve origin slot = some x) (may : mayHandle packet.id x = true) :
    s.handle service origin packet slot now = Request.concluded ⟨origin, x, packet⟩
      (s.runHandler service handler origin x packet now) := by
  have allowed : (s.resolve origin slot).filter (mayHandle packet.id) = some x := by
    rw [sender, Option.filter_some, may]
    rfl
  rw [handle, handleWith, registered]
  dsimp only
  rw [allowed]
  rfl

/-- The handler is run on behalf of that session. -/
theorem handle_of_onBehalf?_eq_some (somebody : s.onBehalf? origin packet slot = some x) :
    ∃ handler, Registry.game.get? packet.id = some handler ∧
      s.handle service origin packet slot now =
        Request.concluded ⟨origin, x, packet⟩
          (s.runHandler service handler origin x packet now) := by
  obtain ⟨handled, may, sender⟩ := onBehalf?_eq_some_iff.mp somebody
  obtain ⟨handler, registered⟩ := Option.isSome_iff_exists.mp handled
  exact ⟨handler, registered, handle_of_get? registered sender may⟩

/-! ## What is left of a rejected packet -/

/-- Whether a packet is rejected. -/
def Rejects (s : Server) (origin : Address) (packet : Packet) (slot : Option UInt8) : Prop :=
  Registry.game.get? packet.id = none ∨
  (∀ x, s.resolve origin slot = some x → x.initialized = false) ∨
  ∃ handler, Registry.game.get? packet.id = some handler ∧ handler.Unreadable packet

/-- A rejected packet is only answered, and that if its id has a handler. -/
theorem handle_of_rejects (other : packet.id ≠ PacketId.connect)
    (rejects : s.Rejects origin packet slot) :
    s.handle service origin packet slot now =
      if handles packet.id then s.fail origin (s.resolve origin slot) packet else s := by
  cases somebody : s.onBehalf? origin packet slot with
  | none => exact handle_of_onBehalf?_eq_none somebody
  | some x =>
    obtain ⟨handled, may, resolved⟩ := onBehalf?_eq_some_iff.mp somebody
    obtain ⟨handler, registered, result⟩ := handle_of_onBehalf?_eq_some somebody
    have initialized : x.initialized = true := by simpa [mayHandle, other] using may
    rcases rejects with none | nobody | ⟨handler', same, unreadable⟩
    · cases registered.symm.trans none
    · cases initialized.symm.trans (nobody x resolved)
    · cases Option.some.inj (registered.symm.trans same)
      obtain ⟨fault, ran⟩ := s.runHandler_of_unreadable unreadable
      rw [result, ran, if_pos handled, resolved]
      rfl

/-- An answer on the control channel takes the queue of the peer. -/
theorem answer_control (origin : Address) {m : Mailbox Packet} {p : Packet}
    (queue : s.outlets.control? player.connection = some m) (receiving : m.receiving = true)
    (channel : p.transport = .tcp) :
    s.answer origin (some player) p =
      .ok { s with outlets := { s.outlets with
        controls := s.outlets.controls.set player.connection
          { m with items := m.items ++ [p] } } } := by
  simp only [answer, Address.route, channel, bind, Except.bind, Outlets.send, queue,
    Option.bind_some, Mailbox.post, receiving, if_true, pure, Except.pure]

/-- A packet of the control channel that fails is answered behind what waits for its peer, and
nothing else happens. -/
theorem fail_spec (s : Server) (origin : Address) (peer : Option Session) (packet : Packet)
    (accepting : ∀ x, peer = some x →
      ∃ m, s.outlets.control? x.connection = some m ∧ m.HasRoom) :
    ∃ controls, s.fail origin peer packet = { s with outlets := { s.outlets with controls } } ∧
      ∀ n : Nat, controls[n]? = (s.outlets.control? n).map fun m => { m with
        items := m.items ++
          if packet.transport = .tcp ∧ peer.map (·.connection) = some n then
            [.tcp packet.id [0]]
          else [] } := by
  have still (m : Option (Mailbox Packet)) :
      m.map (fun m => { m with items := m.items ++ [] }) = m := by
    cases m <;> simp
  cases peer with
  | none =>
    refine ⟨s.outlets.controls, ?_, fun n => ?_⟩
    · rw [fail, if_neg fun told => Bool.false_ne_true told.2]
    · rw [if_neg (fun told => Option.some_ne_none n told.2.symm), still]
      rfl
  | some x =>
    by_cases channel : packet.transport = .tcp
    · obtain ⟨m, queue, receiving, -⟩ := accepting x rfl
      refine ⟨s.outlets.controls.set x.connection
        { m with items := m.items ++ [errorPacket packet.id] }, ?_, fun n => ?_⟩
      · rw [fail, if_pos ⟨channel, rfl⟩, answer_control origin queue receiving rfl]
      · by_cases own : x.connection = n
        · subst own
          rw [List.getElem?_set_self (List.getElem?_eq_some_iff.mp queue).1, queue,
            Option.map_some, if_pos ⟨channel, rfl⟩]
          rfl
        · rw [List.getElem?_set_ne own, if_neg (by simp [own]), still]
          rfl
    · refine ⟨s.outlets.controls, ?_, fun n => ?_⟩
      · rw [fail, if_neg fun told => channel told.1]
      · rw [if_neg (fun told => channel told.1), still]
        rfl

theorem Registry.get?_eq_connect {id : UInt8}
    (registered : Registry.game.get? id = some .connect) : id = PacketId.connect := by
  simp only [Registry.game, ByteMap.get?_insert, ByteMap.get?_empty] at registered
  grind

/-- A packet that is rejected, and is no login, changes nothing but the control queue of its sender.
If its id has a handler and it came over the control channel from a session, that queue gains one
answer: the id and a zero byte. Else no queue gains anything. A handler is unable to read a payload
just when it fails on it. -/
theorem handle_rejected (s : Server) (service : AccountService) (origin : Address)
    (packet : Packet) (slot : Option UInt8) (now : Time) (other : packet.id ≠ PacketId.connect)
    (rejects : s.Rejects origin packet slot)
    (accepting : ∀ x, s.resolve origin slot = some x →
      ∃ m, s.outlets.control? x.connection = some m ∧ m.HasRoom) :
    let s' := s.handle service origin packet slot now
    s'.sessions = s.sessions ∧ s'.commands = s.commands ∧
    s'.outlets.datagrams = s.outlets.datagrams ∧
    s'.settings = s.settings ∧ s'.policy = s.policy ∧ s'.world = s.world ∧
    (∀ n, s'.outlets.control? n = (s.outlets.control? n).map fun m => { m with
      items := m.items ++
        if handles packet.id ∧ packet.transport = .tcp ∧
          (s.resolve origin slot).map (·.connection) = some n then [.tcp packet.id [0]]
        else [] }) ∧
    ∀ handler player, Registry.game.get? packet.id = some handler →
      ((∃ fault, (s.runHandler service handler origin player packet now).2 =
        .error (.packet fault)) ↔ handler.Unreadable packet) := by
  intro s'
  have handled : s' = _ := handle_of_rejects other rejects
  have criterion (handler : Handler) (player : Session)
      (registered : Registry.game.get? packet.id = some handler) :
      (∃ fault, (s.runHandler service handler origin player packet now).2 =
        .error (.packet fault)) ↔ handler.Unreadable packet := by
    refine runHandler_fails_iff ?_
    rintro rfl
    exact other (Registry.get?_eq_connect registered)
  by_cases registered : handles packet.id = true
  · obtain ⟨controls, failed, queues⟩ := s.fail_spec origin (s.resolve origin slot) packet accepting
    rw [if_pos registered, failed] at handled
    rw [handled]
    refine ⟨rfl, rfl, rfl, rfl, rfl, rfl, fun n => ?_, criterion⟩
    simp only [registered, true_and]
    exact queues n
  · rw [if_neg registered] at handled
    rw [handled]
    refine ⟨rfl, rfl, rfl, rfl, rfl, rfl, fun n => ?_, criterion⟩
    simp [registered]

/-- A motion report of one byte over the control channel of client `a`, who is logged in as is
`b`. -/
theorem handle_rejected_short :
    let s := ((Server.start Settings.default [] fun _ => 0).withPlayer 0 "a").withPlayer 1 "b"
    let origin : Address := ⟨some ⟨"a", 1000⟩, none⟩
    let short : Packet := .tcp PacketId.movement [1]
    short.id ≠ PacketId.connect ∧ s.Rejects origin short (some 0) ∧
    (∀ x, s.resolve origin (some 0) = some x →
      ∃ m, s.outlets.control? x.connection = some m ∧ m.HasRoom) ∧
    let s' := s.handle .allowAll origin short (some 0) 0
    s'.commands.items = [] ∧ s'.outlets.waiting 0 = [.tcp PacketId.movement [0]] ∧
    s'.outlets.waiting 1 = [] := by
  intro s origin short
  have other : short.id ≠ PacketId.connect := by decide
  have rejects : s.Rejects origin short (some 0) :=
    Or.inr (Or.inr ⟨.movement, by decide, show 1 < 40 by decide⟩)
  have sender : s.resolve origin (some 0) = some (player 0 "a" 0) := rfl
  have accepting (x : Session) (resolved : s.resolve origin (some 0) = some x) :
      ∃ m, s.outlets.control? x.connection = some m ∧ m.HasRoom := by
    cases sender.symm.trans resolved
    exact ⟨.empty 64, rfl, rfl, by decide⟩
  obtain ⟨-, commands, -, -, -, -, queues, -⟩ :=
    handle_rejected s .allowAll origin short (some 0) 0 other rejects accepting
  refine ⟨other, rejects, accepting, ?_, ?_, ?_⟩
  · rw [commands]
    rfl
  · rw [Outlets.waiting, queues, sender]
    rfl
  · rw [Outlets.waiting, queues, sender]
    rfl

end Server

end Deathmatch
