import Deathmatch.Server.Dispatch
import Deathmatch.Server.Step
import Deathmatch.Proofs.WorldRun

/-!
# How the control queues grow

Whatever the server does with a packet, the queue of each control connection stays as it is, with
some packets put behind what waits already (`Outlets.Gains`). `Server.Evolves P s s'` says this of
two states of the server for packets of a kind `P`, and besides that the settings are the same and
that nobody has got a long name. It is reflexive and transitive, so each handler is a chain of such
steps (`Server.evolves_handle`), as are the release of a slot and a step of the simulation.

What a server can have come to is `Server.Reach`. All names in it are short (`Server.Reach.named`).
-/

namespace Deathmatch

/-! ## Mailboxes -/

namespace Mailbox

variable {α : Type} {m m' : Mailbox α}

/-- Whether someone takes items out and there is room for another. -/
def HasRoom (m : Mailbox α) : Prop :=
  m.receiving = true ∧ m.items.length < m.capacity

theorem items_offer (m : Mailbox α) (a : α) :
    (m.offer a).items = m.items ∨ (m.offer a).items = m.items ++ [a] := by
  unfold offer
  split
  · exact Or.inr rfl
  · exact Or.inl rfl

theorem offer_of_room (room : m.HasRoom) (a : α) :
    m.offer a = { m with items := m.items ++ [a] } :=
  if_pos room

theorem items_offer_of_room (room : m.HasRoom) (a : α) : (m.offer a).items = m.items ++ [a] :=
  congrArg (·.items) (offer_of_room room a)

theorem items_post {a : α} (posted : m.post a = some m') : m'.items = m.items ++ [a] := by
  unfold post at posted
  split at posted
  · cases posted
    rfl
  · cases posted

end Mailbox

/-! ## Tables of sessions -/

theorem ByteMap.modify_insert {α : Type} (m : ByteMap α) (k : UInt8) (a : α) (f : α → α) :
    (m.insert k a).modify k f = m.insert k (f a) := by
  refine ByteMap.ext_get? fun j => ?_
  rw [get?_modify, get?_insert, get?_insert, get?_insert, if_pos rfl]
  split
  · rfl
  · rfl

theorem SessionTable.findByAccount?_eq_none {t : SessionTable} {account : String}
    (nobody : ∀ slot session, t.get? slot = some session → session.initialized = true →
      session.account ≠ account) : t.findByAccount? account = none := by
  refine List.find?_eq_none.mpr fun session member playing => ?_
  obtain ⟨slot, found⟩ := ByteMap.mem_values.mp member
  obtain ⟨initialized, same⟩ := Bool.and_eq_true_iff.mp playing
  exact nobody slot session found initialized (of_decide_eq_true same)

/-! ## Outlets -/

namespace Outlets

variable {P Q : Packet → Prop} {o o' o'' : Outlets} {p : Packet}

/-- What waits in the queue of a control connection, oldest first. -/
def waiting (o : Outlets) (n : Nat) : List Packet :=
  (o.control? n).elim [] (·.items)

/-- Every control queue is as it was, with packets of a kind put behind. -/
def Gains (P : Packet → Prop) (o o' : Outlets) : Prop :=
  ∀ n, ∃ placed, o'.waiting n = o.waiting n ++ placed ∧ ∀ p ∈ placed, P p

theorem Gains.of_waiting (same : ∀ n, o'.waiting n = o.waiting n) : Gains P o o' := by
  intro n
  exact ⟨[], by rw [same n, List.append_nil], fun p member => nomatch member⟩

theorem Gains.refl (o : Outlets) : Gains P o o :=
  .of_waiting fun _ => rfl

theorem Gains.trans (first : Gains P o o') (second : Gains P o' o'') : Gains P o o'' := by
  intro n
  obtain ⟨placed, waits, good⟩ := first n
  obtain ⟨later, waitsLater, goodLater⟩ := second n
  refine ⟨placed ++ later, by rw [waitsLater, waits, List.append_assoc], ?_⟩
  intro p member
  rcases List.mem_append.mp member with here | there
  · exact good p here
  · exact goodLater p there

/-- One queue gets a packet or stays as it is, and the others stay as they are. -/
theorem Gains.of_one {n : Nat} (holds : P p)
    (here : o'.waiting n = o.waiting n ∨ o'.waiting n = o.waiting n ++ [p])
    (others : ∀ k ≠ n, o'.waiting k = o.waiting k) : Gains P o o' := by
  intro k
  by_cases at_ : k = n
  · subst at_
    rcases here with same | more
    · exact ⟨[], by rw [same, List.append_nil], fun q member => nomatch member⟩
    · exact ⟨[p], more, fun q member => List.mem_singleton.mp member ▸ holds⟩
  · exact ⟨[], by rw [others k at_, List.append_nil], fun q member => nomatch member⟩

theorem control?_offerControl (o : Outlets) (n : Nat) (p : Packet) (k : Nat) :
    (o.offerControl n p).control? k =
      if n = k then (o.control? k).map (·.offer p) else o.control? k := by
  rw [control?, control?, offerControl, List.getElem?_modify]
  split <;> simp

theorem gains_offerControl (holds : P p) (o : Outlets) (n : Nat) :
    Gains P o (o.offerControl n p) := by
  refine .of_one (n := n) holds ?_ fun k other => ?_
  · rw [waiting, waiting, control?_offerControl, if_pos rfl]
    cases o.control? n with
    | none => exact Or.inl rfl
    | some m => exact m.items_offer p
  · rw [waiting, waiting, control?_offerControl, if_neg (Ne.symm other)]

theorem gains_send {route : Route} (holds : P p) (sent : o.send p route = .ok o') :
    Gains P o o' := by
  cases route with
  | control n =>
    rw [send] at sent
    cases posted : (o.control? n).bind fun m => m.post p with
    | none =>
      rw [posted] at sent
      cases sent
    | some m' =>
      rw [posted] at sent
      cases sent
      obtain ⟨m, found, put⟩ := Option.bind_eq_some_iff.mp posted
      have inside : n < o.controls.length := (List.getElem?_eq_some_iff.mp found).1
      refine .of_one (n := n) holds (Or.inr ?_) fun k other => ?_
      · rw [waiting, waiting, found, control?, List.getElem?_set_self inside]
        exact Mailbox.items_post put
      · rw [waiting, waiting, control?, control?, List.getElem?_set_ne (Ne.symm other)]
  | datagram target =>
    rw [send] at sent
    cases posted : o.datagrams.post ⟨target, p⟩ with
    | none =>
      rw [posted] at sent
      cases sent
    | some m =>
      rw [posted] at sent
      cases sent
      exact .of_waiting fun _ => rfl

theorem waiting_openControl (o : Outlets) (capacity n : Nat) :
    (o.openControl capacity).waiting n = o.waiting n := by
  rw [waiting, waiting, control?, control?, openControl]
  dsimp only
  rcases Nat.lt_trichotomy n o.controls.length with inside | rfl | beyond
  · rw [List.getElem?_append_left inside]
  · rw [List.getElem?_concat_length, List.getElem?_eq_none (Nat.le_refl _)]
    rfl
  · rw [List.getElem?_eq_none (by rw [List.length_append]; exact beyond),
      List.getElem?_eq_none (Nat.le_of_lt beyond)]

/-- Offering a packet to several connections. -/
theorem gains_offerAll (holds : P p) (sessions : List Session) (o : Outlets) :
    Gains P o (sessions.foldl (fun o session => o.offerControl session.connection p) o) := by
  induction sessions generalizing o with
  | nil => exact .refl o
  | cons session rest ih => exact (gains_offerControl holds o session.connection).trans (ih _)

/-- Each of them whose queue has room gets it. -/
theorem waiting_offerAll {n : Nat} {m : Mailbox Packet} {session : Session}
    {sessions : List Session} (among : session ∈ sessions) (own : session.connection = n)
    (o : Outlets) (queue : o.control? n = some m) (room : m.HasRoom) (p : Packet) :
    ∃ more, (sessions.foldl (fun o session => o.offerControl session.connection p) o).waiting n =
      o.waiting n ++ p :: more := by
  -- Until the first session of the connection, its queue is left alone.
  induction sessions generalizing o with
  | nil => cases among
  | cons first rest ih =>
    by_cases here : first.connection = n
    · obtain ⟨more, waits, -⟩ := gains_offerAll (P := fun _ => True) (p := p) trivial rest
        (o.offerControl first.connection p) n
      refine ⟨more, ?_⟩
      rw [List.foldl_cons, waits, waiting, control?_offerControl, if_pos here, queue, waiting,
        queue]
      show (m.offer p).items ++ more = m.items ++ p :: more
      rw [Mailbox.items_offer_of_room room, List.append_assoc]
      rfl
    · have later : session ∈ rest := by
        rcases List.mem_cons.mp among with rfl | later
        · exact absurd own here
        · exact later
      have untouched : (o.offerControl first.connection p).control? n = o.control? n := by
        rw [control?_offerControl, if_neg here]
      obtain ⟨more, waits⟩ := ih later (o.offerControl first.connection p) (untouched.trans queue)
      refine ⟨more, waits.trans ?_⟩
      rw [waiting, waiting, untouched]

end Outlets

/-! ## What a server does -/

namespace Server

variable {P : Packet → Prop} {s s' s'' : Server}

/-- All names are short. -/
def Named (s : Server) : Prop :=
  ∀ slot session, s.sessions.get? slot = some session →
    session.name.utf8ByteSize ≤ Player.maxNameBytes

/-- What happens to a server while packets of a kind are put into control queues. A session that is
new or has changed has a short name. -/
structure Evolves (P : Packet → Prop) (s s' : Server) : Prop where
  settings : s'.settings = s.settings
  sessions : ∀ slot session, s'.sessions.get? slot = some session →
    s.sessions.get? slot = some session ∨ session.name.utf8ByteSize ≤ Player.maxNameBytes
  outlets : s.outlets.Gains P s'.outlets

theorem Evolves.of_sessions (settings : s'.settings = s.settings)
    (sessions : s'.sessions = s.sessions) (outlets : s.outlets.Gains P s'.outlets) :
    Evolves P s s' :=
  ⟨settings, fun _ _ found => Or.inl (sessions ▸ found), outlets⟩

theorem Evolves.refl (s : Server) : Evolves P s s :=
  .of_sessions rfl rfl (.refl s.outlets)

theorem Evolves.trans (first : Evolves P s s') (second : Evolves P s' s'') : Evolves P s s'' where
  settings := second.settings.trans first.settings
  sessions slot session found := by
    rcases second.sessions slot session found with earlier | short
    · exact first.sessions slot session earlier
    · exact Or.inr short
  outlets := first.outlets.trans second.outlets

theorem Evolves.named (evolves : Evolves P s s') (named : s.Named) : s'.Named := by
  intro slot session found
  rcases evolves.sessions slot session found with earlier | short
  · exact named slot session earlier
  · exact short

/-- A submitted command changes the command queue only. -/
theorem submit_ok {command : Command} (submitted : s.submit command = .ok s') :
    ∃ commands, s' = { s with commands } := by
  rw [submit] at submitted
  split at submitted
  · cases submitted
    exact ⟨_, rfl⟩
  · cases submitted

/-- An answer changes the outlets only. -/
theorem answer_ok {origin : Address} {peer : Option Session} {p : Packet}
    (answered : s.answer origin peer p = .ok s') :
    ∃ route outlets, s.outlets.send p route = .ok outlets ∧ s' = { s with outlets } := by
  rw [answer] at answered
  cases routed : origin.route peer p with
  | error fault =>
    rw [routed] at answered
    cases answered
  | ok route =>
    cases sent : s.outlets.send p route with
    | error fault =>
      simp only [routed, bind, Except.bind, sent] at answered
      cases answered
    | ok outlets =>
      simp only [routed, bind, Except.bind, sent, pure, Except.pure] at answered
      cases answered
      exact ⟨route, outlets, sent, rfl⟩

theorem evolves_submit {command : Command} (submitted : s.submit command = .ok s') :
    Evolves P s s' := by
  obtain ⟨commands, rfl⟩ := submit_ok submitted
  exact .of_sessions rfl rfl (.refl _)

theorem evolves_answer {origin : Address} {peer : Option Session} {p : Packet} (holds : P p)
    (answered : s.answer origin peer p = .ok s') : Evolves P s s' := by
  obtain ⟨route, outlets, sent, rfl⟩ := answer_ok answered
  exact .of_sessions rfl rfl (Outlets.gains_send holds sent)

theorem evolves_broadcast {p : Packet} (holds : P p) (s : Server) : Evolves P s (s.broadcast p) :=
  .of_sessions rfl rfl (Outlets.gains_offerAll holds _ s.outlets)

/-- A new session has no name yet, and an empty queue. -/
theorem evolves_openSession {address : Address} {capacity : Nat} {slot : UInt8}
    (opened : s.openSession address capacity = .ok (slot, s')) : Evolves P s s' := by
  rw [openSession] at opened
  split at opened
  · next free sessions allocated =>
    cases opened
    obtain ⟨slot, -, same⟩ := Option.map_eq_some_iff.mp allocated
    cases same
    refine ⟨rfl, fun k session found => ?_,
      .of_waiting (Outlets.waiting_openControl s.outlets capacity)⟩
    rw [SessionTable.get?, ByteMap.get?_insert] at found
    split at found
    · cases found
      exact Or.inr (Nat.zero_le _)
    · exact Or.inl found
  · cases opened

/-- Whether all that a server says of itself is of a kind: its errors, its welcome, and the news of
who comes and goes. -/
structure Texts (P : Packet → Prop) (settings : Settings) : Prop where
  error : ∀ id, P (errorPacket id)
  accepted : P (.tcp PacketId.connect (1 :: Text.terminated settings.currentMap))
  joined : ∀ name : String, name.utf8ByteSize ≤ Player.maxNameBytes →
    P (chatPacket (name ++ " has joined the game"))
  left : ∀ name : String, name.utf8ByteSize ≤ Player.maxNameBytes →
    P (chatPacket (name ++ " has left the game"))

theorem Evolves.texts (evolves : Evolves P s s') (texts : Texts P s.settings) :
    Texts P s'.settings :=
  evolves.settings ▸ texts

theorem evolves_fail (texts : Texts P s.settings) (origin : Address) (peer : Option Session)
    (packet : Packet) : Evolves P s (s.fail origin peer packet) := by
  unfold fail
  split
  · split
    · next answered => exact evolves_answer (texts.error packet.id) answered
    · exact .refl s
  · exact .refl s

/-! ### Login -/

theorem evolves_deny (texts : Texts P s.settings) (origin : Address) (stub : Session) :
    Evolves P s (s.deny origin stub).1 := by
  unfold deny
  split
  · next answered => exact evolves_answer (texts.error PacketId.connect) answered
  · exact .refl s

theorem evolves_welcome (texts : Texts P s.settings) (origin : Address) (stub : Session)
    (account : String) {name : String} (short : name.utf8ByteSize ≤ Player.maxNameBytes)
    (udp : Option Endpoint) : Evolves P s (s.welcome origin stub account name udp).1 := by
  unfold welcome
  split
  · exact .refl s
  · next joined submitted =>
    have first : Evolves P s joined := evolves_submit submitted
    split
    · exact first
    · next answered sent =>
      have second : Evolves P joined answered :=
        evolves_answer texts.accepted sent
      exact (first.trans second).trans (evolves_broadcast (texts.joined name short) answered)

theorem evolves_enter (texts : Texts P s.settings) (origin : Address) (stub : Session)
    (account : String) {name : String} (short : name.utf8ByteSize ≤ Player.maxNameBytes) :
    Evolves P s (s.enter origin stub account name).1 := by
  unfold enter
  split
  · exact evolves_deny texts origin stub
  · exact .refl s
  · next udp sessions seated =>
    have changed : Evolves P s { s with sessions } := by
      refine ⟨rfl, fun slot session found => ?_, .refl _⟩
      unfold SessionTable.seat at seated
      split at seated
      · cases seated
      · split at seated
        · cases seated
        · cases seated
          rw [SessionTable.get?, SessionTable.authenticate, ByteMap.get?_modify] at found
          split at found
          · obtain ⟨-, -, rfl⟩ := Option.map_eq_some_iff.mp found
            exact Or.inr short
          · exact Or.inl found
    exact changed.trans (evolves_welcome (changed.texts texts) origin stub account short udp)

theorem evolves_connect (texts : Texts P s.settings) (service : AccountService) (origin : Address)
    (stub : Session) (packet : Packet) : Evolves P s (s.connect service origin stub packet).1 := by
  unfold connect
  split
  · exact .refl s
  · split
    · exact .refl s
    · split
      · exact evolves_deny texts origin stub
      · next credentials _ _ =>
        have asked : Evolves P s
            { s with policy := (s.policy.check service credentials.account credentials.token).2 } :=
          .of_sessions rfl rfl (.refl _)
        dsimp only
        split
        · exact asked.trans
            (evolves_enter (asked.texts texts) origin stub _ (Player.size_clampName _))
        · exact asked.trans (evolves_deny (asked.texts texts) origin stub)

/-! ### The other handlers -/

theorem evolves_farewell (texts : Texts P s.settings) (slot : UInt8) {session : Session}
    (short : session.name.utf8ByteSize ≤ Player.maxNameBytes) :
    Evolves P s (s.farewell slot session) := by
  unfold farewell
  split
  · refine Evolves.trans ?_ (evolves_broadcast (texts.left _ short) _)
    split
    · next submitted => exact evolves_submit submitted
    · exact .refl s
  · exact .refl s

theorem evolves_release (texts : Texts P s.settings) (named : s.Named) (slot : UInt8)
    (tcp : Option Endpoint) : Evolves P s (s.release slot tcp).2 := by
  unfold release
  split
  · next session vacated taken =>
    obtain ⟨session, owned, same⟩ := Option.map_eq_some_iff.mp taken
    cases same
    have there : s.sessions.get? slot = some session := (Option.filter_eq_some_iff.mp owned).1
    have removed : Evolves P s { s with sessions := s.sessions.remove slot } := by
      refine ⟨rfl, fun k other found => Or.inl ?_, .refl _⟩
      rw [SessionTable.get?, SessionTable.remove, ByteMap.get?_erase] at found
      split at found
      · cases found
      · exact found
    exact removed.trans (evolves_farewell (removed.texts texts) slot (named slot session there))
  · exact .refl s

theorem evolves_play (handler : Handler) (player : Session) (packet : Packet) (now : Time) :
    Evolves P s (s.play handler player packet now).1 := by
  unfold play
  split
  · exact .refl s
  · exact .refl s
  · split
    · next submitted => exact evolves_submit submitted
    · exact .refl s

theorem evolves_chat {player : Session} {packet : Packet}
    (line : ∀ message, packet.textAt 0 = .ok message →
      P (chatPacket (player.name ++ ": " ++ message))) : Evolves P s (s.chat player packet).1 := by
  unfold chat
  split
  · exact .refl s
  · next message read =>
    split
    · exact .refl s
    · exact evolves_broadcast (line message read) s

/-! ### Dispatch -/

theorem Registry.get?_eq_chat {id : UInt8} :
    Registry.game.get? id = some .chat ↔ id = PacketId.chat := by
  simp only [Registry.game, ByteMap.get?_insert, ByteMap.get?_empty]
  constructor
  · intro found
    grind
  · rintro rfl
    decide

/-- Handling a packet. The lines of chat that it may lead to are of the kind by assumption. -/
theorem evolves_handle (texts : Texts P s.settings) (named : s.Named) (service : AccountService)
    (origin : Address) (packet : Packet) (slot : Option UInt8) (now : Time)
    (line : ∀ player message, packet.id = PacketId.chat → s.resolve origin slot = some player →
      player.initialized = true → packet.textAt 0 = .ok message →
      P (chatPacket (player.name ++ ": " ++ message))) :
    Evolves P s (s.handle service origin packet slot now) := by
  unfold handle handleWith
  split
  · exact .refl s
  · next handler registered =>
    split
    · exact evolves_fail texts origin _ packet
    · next player allowed =>
      obtain ⟨resolved, may⟩ := Option.filter_eq_some_iff.mp allowed
      have ran : Evolves P s (s.runHandler service handler origin player packet now).1 := by
        unfold runHandler
        split
        · exact evolves_connect texts service origin player packet
        · exact evolves_release texts named player.slot player.address.tcp
        · have chatting : packet.id = PacketId.chat := Registry.get?_eq_chat.mp registered
          refine evolves_chat fun message read => line player message chatting resolved ?_ read
          rw [mayHandle, chatting] at may
          simpa [PacketId.chat, PacketId.connect] using may
        all_goals exact evolves_play _ player packet now
      split
      · next done =>
        rw [done] at ran
        exact ran
      · next failed =>
        rw [failed] at ran
        exact ran.trans (evolves_fail (ran.texts texts) origin _ packet)

/-! ### Steps of the simulation -/

theorem reply_damage {w : World} {attacker victim amount slot : UInt8} {now : Time} {p : Packet} :
    Event.reply slot p ∉ (w.damage attacker victim amount now).2 := by
  unfold World.damage
  grind

/-- The world replies to nothing but an acknowledgement that is out of date. -/
theorem reply_apply {w : World} {command : Command} {now : Time} {slot : UInt8} {p : Packet}
    (member : .reply slot p ∈ (w.apply command now).2) : p = World.staleReply := by
  cases command with
  | damage attacker victim amount => exact absurd member reply_damage
  | acknowledge slot id =>
    rw [World.apply, World.acknowledge] at member
    grind
  | _ => simp [World.apply, World.join] at member

theorem reply_applyAll {commands : List Command} {w : World} {now : Time} {slot : UInt8}
    {p : Packet} (member : .reply slot p ∈ (w.applyAll now commands).2) : p = World.staleReply := by
  induction commands generalizing w with
  | nil => cases member
  | cons command rest ih =>
    rw [World.applyAll] at member
    rcases List.mem_append.mp member with here | later
    · exact reply_apply here
    · exact ih later

theorem evolves_deliverAll {events : List Event}
    (replies : ∀ slot p, .reply slot p ∈ events → P p) (s : Server) :
    Evolves P s (s.deliverAll events).1 := by
  induction events generalizing s with
  | nil => exact .refl s
  | cons event rest ih =>
    have first : Evolves P s (s.deliver event).1 := by
      cases event with
      | reply slot p =>
        have holds := replies slot p List.mem_cons_self
        rw [deliver]
        split
        · exact .of_sessions rfl rfl (Outlets.gains_offerControl holds _ _)
        · exact .refl s
      | achievement unlock => exact .refl s
    have later := fun slot p member => replies slot p (List.mem_cons_of_mem event member)
    exact first.trans (ih later _)

theorem waiting_offerDatagrams (updates : List Outbound) (o : Outlets) (n : Nat) :
    (updates.foldl Outlets.offerDatagram o).waiting n = o.waiting n := by
  induction updates generalizing o with
  | nil => rfl
  | cons out rest ih => exact ih (o.offerDatagram out)

theorem evolves_step (stale : P World.staleReply) (now : Time) :
    Evolves P s (s.step now).server := by
  have moved (world : World) (updates : List Outbound) : Evolves P s
      { s with world, outlets := updates.foldl Outlets.offerDatagram s.outlets
               commands := s.commands.drained } :=
    .of_sessions rfl rfl (.of_waiting fun n => waiting_offerDatagrams updates s.outlets n)
  have replies (slot : UInt8) (p : Packet)
      (member : .reply slot p ∈ (s.world.applyAll now s.commands.items).2) : P p := by
    rw [reply_applyAll member]
    exact stale
  exact (moved _ _).trans (evolves_deliverAll replies _)

/-! ## What a server can come to -/

/-- The states of a server: of one that has just started, and after each thing that changes who is
there. A login asks the account service, so its second half comes in a state that others have
changed, on behalf of a session as it was. The rest of the server is left open, for it changes all
the time: queues are emptied, the world moves on, other handlers are halfway done. -/
inductive Reach (settings : Settings) : Server → Prop
  | start (points : List Vec3) (rolls : Nat → Nat) : Reach settings (.start settings points rolls)
  | openSession {s s' : Server} (address : Address) (capacity : Nat) (slot : UInt8) :
    Reach settings s → s.openSession address capacity = .ok (slot, s') → Reach settings s'
  | handle {s : Server} (service : AccountService) (origin : Address) (packet : Packet)
    (slot : Option UInt8) (now : Time) :
    Reach settings s → Reach settings (s.handle service origin packet slot now)
  | enter {s : Server} (origin : Address) (stub : Session) (account name : String) :
    Reach settings s → Reach settings (s.enter origin stub account (Player.clampName name)).1
  | release {s : Server} (slot : UInt8) (tcp : Option Endpoint) :
    Reach settings s → Reach settings (s.release slot tcp).2
  | elsewhere {s s' : Server} : Reach settings s → s'.settings = s.settings →
    s'.sessions = s.sessions → Reach settings s'

theorem texts_true (settings : Settings) : Texts (fun _ => True) settings :=
  ⟨fun _ => trivial, trivial, fun _ _ => trivial, fun _ _ => trivial⟩

variable {settings : Settings}

theorem Reach.named (reach : Reach settings s) : s.settings = settings ∧ s.Named := by
  induction reach with
  | start points rolls =>
    refine ⟨rfl, fun slot session found => ?_⟩
    have nobody : (ByteMap.empty : ByteMap Session).get? slot = some session := found
    rw [ByteMap.get?_empty] at nobody
    cases nobody
  | openSession address capacity slot _ opened ih =>
    have evolves := evolves_openSession (P := fun _ => True) opened
    exact ⟨evolves.settings.trans ih.1, evolves.named ih.2⟩
  | @handle s service origin packet slot now _ ih =>
    have evolves := evolves_handle (texts_true s.settings) ih.2 service origin packet slot now
      fun _ _ _ _ _ _ => trivial
    exact ⟨evolves.settings.trans ih.1, evolves.named ih.2⟩
  | @enter s origin stub account name _ ih =>
    have evolves := evolves_enter (texts_true s.settings) origin stub account
      (Player.size_clampName name)
    exact ⟨evolves.settings.trans ih.1, evolves.named ih.2⟩
  | @release s slot tcp _ ih =>
    have evolves := evolves_release (texts_true s.settings) ih.2 slot tcp
    exact ⟨evolves.settings.trans ih.1, evolves.named ih.2⟩
  | elsewhere _ same sessions ih =>
    exact ⟨same.trans ih.1, fun slot session found => ih.2 slot session (sessions ▸ found)⟩

/-! ### Coming in -/

theorem sessions_welcome (origin : Address) (stub : Session) (account name : String)
    (udp : Option Endpoint) :
    (s.welcome origin stub account name udp).1.sessions = s.sessions := by
  unfold welcome
  split
  · rfl
  · next joined submitted =>
    obtain ⟨commands, rfl⟩ := submit_ok submitted
    split
    · rfl
    · next answered sent =>
      obtain ⟨route, outlets, -, rfl⟩ := answer_ok sent
      rfl

/-- A login that nobody stands in the way of. -/
theorem sessions_enter (stub : Session) {session : Session} {account : String}
    (free : s.sessions.findByAccount? account = none)
    (there : s.sessions.get? stub.slot = some session) (origin : Address) (name : String) :
    (s.enter origin stub account name).1.sessions =
      s.sessions.authenticate stub.slot account name := by
  have seated : s.sessions.seat stub.slot account name =
      .seated session.address.udp (s.sessions.authenticate stub.slot account name) := by
    rw [SessionTable.seat, free, there]
    rfl
  rw [enter, seated]
  exact sessions_welcome origin stub account name _

/-- The session of a client who is logged in. -/
def player (slot : UInt8) (account : String) (connection : Nat) : Session :=
  ⟨slot, ⟨some ⟨account, 1000⟩, none⟩, account, Player.clampName account, true, connection⟩

/-- The server once a client has come in under an account, and has read all that it was sent. -/
def withPlayer (s : Server) (slot : UInt8) (account : String) : Server :=
  { s with
    sessions := ⟨s.sessions.capacity,
      s.sessions.sessions.insert slot (player slot account s.outlets.nextConnection)⟩
    outlets := s.outlets.openControl 64 }

/-- A client may come in where there is a free slot, with an account that nobody plays with. -/
theorem Reach.withPlayer {settings : Settings} (reach : Reach settings s) {slot : UInt8}
    (vacant : s.sessions.freeSlot? = some slot) {account : String}
    (free : ∀ k session, s.sessions.get? k = some session → session.initialized = true →
      session.account ≠ account) : Reach settings (s.withPlayer slot account) := by
  let stub := Session.stub slot ⟨some ⟨account, 1000⟩, none⟩ s.outlets.nextConnection
  let opened : Server := { s with
    sessions := ⟨s.sessions.capacity, s.sessions.sessions.insert slot stub⟩
    outlets := s.outlets.openControl 64 }
  have first : Reach settings opened := by
    refine .openSession stub.address 64 slot reach ?_
    rw [Server.openSession, SessionTable.allocate, vacant]
    rfl
  have there (k : UInt8) : opened.sessions.get? k =
      if slot = k then some stub else s.sessions.get? k :=
    ByteMap.get?_insert s.sessions.sessions slot k stub
  have stillFree : opened.sessions.findByAccount? account = none := by
    refine SessionTable.findByAccount?_eq_none fun k session found initialized => ?_
    rw [there] at found
    split at found
    · cases found
      cases initialized
    · exact free k session found initialized
  have evolves := evolves_enter (texts_true opened.settings) default stub account
    (Player.size_clampName account)
  have sessions := sessions_enter stub stillFree ((there slot).trans (if_pos rfl)) default
    (Player.clampName account)
  refine (first.enter default stub account account).elsewhere evolves.settings.symm ?_
  rw [sessions]
  exact congrArg (SessionTable.mk _) (ByteMap.modify_insert s.sessions.sessions slot stub fun session =>
    { session with account, name := Player.clampName account, initialized := true }).symm

end Server

end Deathmatch
