import Deathmatch.Proofs.Logins
import Deathmatch.Proofs.Rejection

/-!
# Who is let in

A login packet is granted when its payload names an account and a token (`Credentials.WrittenIn`),
the account is usable and nobody plays with it, and the policy accepts the token: `Server.Grants`.
Which tokens those are says `AuthPolicy.check_eq_true_iff`.
The handler has three ways to go (`Server.connect_cases`): it cannot read the payload, or it denies
the login, or it seats the session and welcomes the player.

`Server.Gets` says that packets have come into the control queues and nothing else has happened.
A table is `Tidy` when no two sessions share a queue, as on every run (`Lobby.tidy_run`). Then
everybody who is logged in gets a line of chat once (`Server.gets_broadcast`), and
`Server.handle_login` says what comes of a login packet.
-/

namespace Deathmatch

/-! ## Credentials -/

namespace Packet

variable {p : Packet} {offset : Nat} {text : String}

/-- The text at an offset ends at the first zero byte behind it, or with the payload. -/
theorem textAt_eq_ok_iff : p.textAt offset = .ok text ↔
    offset ≤ p.data.length ∧ (p.data.drop offset).takeWhile (· ≠ 0) = Text.bytes text := by
  unfold textAt
  split
  · next inside =>
    rw [eq_comm (b := Text.bytes text), ← Text.ofBytes?_eq_some_iff]
    cases Text.ofBytes? ((p.data.drop offset).takeWhile (· ≠ 0)) <;> simp [inside]
  · next beyond => simp [beyond]

end Packet

namespace Credentials

variable {c : Credentials} {p : Packet}

/-- Whether the payload starts with the account and a zero byte, and goes on with the token, which
a zero byte or the end of the payload ends. -/
def WrittenIn (c : Credentials) (data : Bytes) : Prop :=
  0 ∉ Text.bytes c.account ∧ 0 ∉ Text.bytes c.token ∧
    ∃ tail, (∀ b ∈ tail.head?, b = 0) ∧
      data = Text.bytes c.account ++ 0 :: (Text.bytes c.token ++ tail)

theorem ofPacket_eq_ok : ofPacket p = .ok c ↔
    p.textAt 0 = .ok c.account ∧ p.textAt (c.account.utf8ByteSize + 1) = .ok c.token := by
  simp only [ofPacket, bind, Except.bind, pure, Except.pure]
  constructor
  · intro read
    split at read
    · cases read
    · next account first =>
      split at read
      · cases read
      · next token second =>
        cases read
        exact ⟨first, second⟩
  · rintro ⟨first, second⟩
    simp only [first, second]

/-- What is read from a payload is what is written in it. -/
theorem ofPacket_eq_ok_iff : ofPacket p = .ok c ↔ c.WrittenIn p.data := by
  rw [ofPacket_eq_ok, Packet.textAt_eq_ok_iff, Packet.textAt_eq_ok_iff, List.drop_zero]
  -- where the second read starts
  have behind {rest : Bytes} : (Text.bytes c.account ++ 0 :: rest).drop
      (c.account.utf8ByteSize + 1) = rest := by
    rw [← Text.length_bytes, List.drop_append]
    simp
  constructor
  · rintro ⟨⟨-, first⟩, inside, second⟩
    obtain ⟨zeroFree, stops, whole⟩ := cut_iff.mp ⟨first, rfl⟩
    cases rest : p.data.dropWhile (· ≠ 0) with
    | nil =>
      rw [rest, List.append_nil] at whole
      rw [← whole, Text.length_bytes] at inside
      exact absurd inside (Nat.not_succ_le_self _)
    | cons b rest' =>
      rw [rest] at stops whole
      rw [stops b rfl] at whole
      rw [← whole, behind] at second
      obtain ⟨zeroFree', stops', whole'⟩ := cut_iff.mp ⟨second, rfl⟩
      exact ⟨zeroFree, zeroFree', _, stops', by rw [whole', whole]⟩
  · rintro ⟨zeroFree, zeroFree', tail, stops, whole⟩
    refine ⟨⟨Nat.zero_le _, whole ▸ (cut_zero zeroFree _).1⟩, ?_, ?_⟩
    · rw [whole, List.length_append, Text.length_bytes, List.length_cons]
      omega
    · rw [whole, behind]
      exact (cut_iff.mpr ⟨zeroFree', stops, rfl⟩).1

theorem WrittenIn.unique {d : Credentials} {data : Bytes} (left : c.WrittenIn data)
    (right : d.WrittenIn data) : c = d := by
  have first := ofPacket_eq_ok_iff (p := .tcp 0 data) |>.mpr left
  have second := ofPacket_eq_ok_iff (p := .tcp 0 data) |>.mpr right
  exact Except.ok.inj (first.symm.trans second)

end Credentials

/-! ## Tokens and names -/

/-- An insecure policy lets everybody in. Else the service decides, and where it fails, whether the
policy turns insecure by itself. -/
theorem AuthPolicy.check_eq_true_iff {policy : AuthPolicy} {service : AccountService}
    {account token : String} : (policy.check service account token).1 = true ↔
      policy.insecure = true ∨ service.validate account token = some true ∨
        service.validate account token = none ∧ policy.autoInsecure = true := by
  unfold check
  split
  · next insecure => exact iff_of_true rfl (.inl insecure)
  · next secure =>
    cases service.validate account token with
    | some valid => simp [secure]
    | none => cases policy.autoInsecure <;> simp [secure]

/-- An account without a display name goes by itself. -/
theorem AccountService.nameOf_eq (service : AccountService) (account : String) :
    service.nameOf account =
      match service.displayName account with
      | some (some given) => given
      | some none => account
      | none => account := by
  unfold nameOf
  rcases service.displayName account with _ | _ | given <;> rfl

/-! ## Tables whose sessions have queues of their own -/

/-- Whether sessions are kept under their slots, and no two share a control queue. -/
structure SessionTable.Tidy (t : SessionTable) : Prop where
  indexed : t.Indexed
  apart : ∀ j k x y, t.get? j = some x → t.get? k = some y → x.connection = y.connection → j = k

namespace SessionTable.Tidy

variable {t t' : SessionTable}

/-- A change of sessions that leaves each in its slot and with its queue. -/
theorem of_back (tidy : t.Tidy) (back : ∀ k y, t'.get? k = some y →
    ∃ x, t.get? k = some x ∧ x.slot = y.slot ∧ x.connection = y.connection) : t'.Tidy where
  indexed k y found := by
    obtain ⟨x, current, slotIs, -⟩ := back k y found
    rw [← slotIs]
    exact tidy.indexed k x current
  apart j k x y foundLeft foundRight same := by
    obtain ⟨x', currentLeft, -, left⟩ := back j x foundLeft
    obtain ⟨y', currentRight, -, right⟩ := back k y foundRight
    exact tidy.apart j k x' y' currentLeft currentRight (left.trans (same.trans right.symm))

theorem allocate (tidy : t.Tidy) {address : Address} {connection : Nat} {slot : UInt8}
    (fresh : ∀ k x, t.get? k = some x → x.connection < connection)
    (allocated : t.allocate address connection = some (slot, t')) : t'.Tidy where
  indexed := tidy.indexed.allocate allocated
  apart j k x y foundLeft foundRight same := by
    rcases SessionTable.allocate_cases allocated with ⟨-, entries⟩
    rw [entries] at foundLeft foundRight
    split at foundLeft <;> split at foundRight
    · next left right => exact left.symm.trans right
    · cases foundLeft
      exact absurd same.symm (Nat.ne_of_lt (fresh k y foundRight))
    · cases foundRight
      exact absurd same (Nat.ne_of_lt (fresh j x foundLeft))
    · exact tidy.apart j k x y foundLeft foundRight same

theorem authenticate (tidy : t.Tidy) (slot : UInt8) (account name : String) :
    (t.authenticate slot account name).Tidy := by
  refine tidy.of_back fun k y found => ?_
  rw [get?_authenticate] at found
  split at found
  · next here =>
    obtain ⟨x, current, rfl⟩ := Option.map_eq_some_iff.mp found
    exact ⟨x, here ▸ current, rfl, rfl⟩
  · exact ⟨y, found, rfl, rfl⟩

/-- Those who are logged in have queues of their own. -/
theorem distinct (tidy : t.Tidy) : (t.authenticated.map (·.connection)).Nodup := by
  have keys : (t.sessions.toList.map Prod.fst).Nodup := by
    rw [ByteMap.keys_toList]
    exact ByteMap.nodup_allKeys.filter _
  have connections : (t.toList.map (·.connection)).Nodup := by
    rw [SessionTable.toList, ByteMap.values, List.map_map]
    refine List.Nodup.map_on ?_ (List.Nodup.of_map _ keys)
    rintro ⟨j, x⟩ left ⟨k, y⟩ right same
    have foundLeft : t.get? j = some x := ByteMap.mem_toList.mp left
    have foundRight : t.get? k = some y := ByteMap.mem_toList.mp right
    cases tidy.apart j k x y foundLeft foundRight same
    rw [Option.some.inj (foundLeft.symm.trans foundRight)]
  exact connections.sublist (List.filter_sublist.map _)

end SessionTable.Tidy

theorem SessionTable.mem_connections {t : SessionTable} {n : Nat} :
    n ∈ t.authenticated.map (·.connection) ↔
      ∃ k x, t.get? k = some x ∧ x.initialized = true ∧ x.connection = n := by
  constructor
  · intro member
    obtain ⟨x, among, same⟩ := List.mem_map.mp member
    obtain ⟨listed, initialized⟩ := List.mem_filter.mp among
    obtain ⟨k, found⟩ := ByteMap.mem_values.mp listed
    exact ⟨k, x, found, initialized, same⟩
  · rintro ⟨k, x, found, initialized, same⟩
    exact List.mem_map.mpr
      ⟨x, List.mem_filter.mpr ⟨ByteMap.mem_values.mpr ⟨k, found⟩, initialized⟩, same⟩

/-- Each session has a queue of its own, so that of a session is among them just when that session
is logged in. -/
theorem SessionTable.Tidy.mem_connections_iff {t : SessionTable} (tidy : t.Tidy) {k : UInt8}
    {x : Session} (found : t.get? k = some x) :
    x.connection ∈ t.authenticated.map (·.connection) ↔ x.initialized = true := by
  refine mem_connections.trans ⟨?_, fun initialized => ⟨k, x, found, initialized, rfl⟩⟩
  rintro ⟨j, y, foundThere, initialized, same⟩
  cases tidy.apart j k y x foundThere found same
  cases foundThere.symm.trans found
  exact initialized

/-- A login adds the queue of its session. -/
theorem SessionTable.mem_connections_authenticate {t : SessionTable} {slot : UInt8} {x : Session}
    (found : t.get? slot = some x) (fresh : x.initialized = false) {account name : String}
    {n : Nat} : n ∈ (t.authenticate slot account name).authenticated.map (·.connection) ↔
      x.connection = n ∨ n ∈ t.authenticated.map (·.connection) := by
  rw [mem_connections, mem_connections]
  constructor
  · rintro ⟨k, y, foundThere, initialized, same⟩
    rw [get?_authenticate, found] at foundThere
    split at foundThere
    · cases foundThere
      exact .inl same
    · exact .inr ⟨k, y, foundThere, initialized, same⟩
  · rintro (same | ⟨k, y, foundThere, initialized, same⟩)
    · refine ⟨slot, x.loggedIn account name, ?_, rfl, same⟩
      rw [get?_authenticate, if_pos rfl, found]
      rfl
    · refine ⟨k, y, ?_, initialized, same⟩
      rw [get?_authenticate, if_neg, foundThere]
      rintro rfl
      cases found.symm.trans foundThere
      cases fresh.symm.trans initialized

namespace Lobby

variable {l l' : Lobby} {m : Move}

theorem Changes.tidy {sessions : SessionTable} (changes : l.Changes sessions)
    (numbered : l.Numbered) (tidy : l.server.sessions.Tidy) : sessions.Tidy := by
  cases changes with
  | none same => exact same ▸ tidy
  | allocate allocated => exact tidy.allocate numbered allocated
  | remove slot =>
    refine tidy.of_back fun k y found => ?_
    rw [SessionTable.get?_remove] at found
    split at found
    · cases found
    · exact ⟨y, found, rfl, rfl⟩
  | seat _ seated =>
    rcases SessionTable.seat_cases seated with ⟨x, current, -, -, entries⟩
    refine tidy.of_back fun k y found => ?_
    rw [entries] at found
    split at found
    · next here =>
      cases found
      exact ⟨x, here ▸ current, rfl, rfl⟩
    · exact ⟨y, found, rfl, rfl⟩

/-- The table of a lobby is tidy, whatever the order in which clients come and go. -/
theorem tidy_run (settings : Settings) (points : List Vec3) (rolls : Nat → Nat)
    (moves : List Move) : ((start settings points rolls).run moves).server.sessions.Tidy := by
  have proper := proper_start settings points rolls
  have numbered := numbered_start settings points rolls
  induction moves using List.reverseRecOn with
  | nil =>
    have nobody (k : UInt8) : (SessionTable.empty settings.capacity).get? k = none :=
      SessionTable.get?_empty settings.capacity
    exact ⟨proper.indexed, fun j k x y found => nomatch (nobody j).symm.trans found⟩
  | append_singleton moves m ih =>
    rw [run_concat]
    exact ((becomes_after _ m).changes (proper.run moves)).tidy (numbered.run proper moves) ih

end Lobby

/-! ## What comes into the queues -/

/-- A packet offered to queues that differ is offered to each of them once. -/
theorem Outlets.control?_offerAll {sessions : List Session}
    (distinct : (sessions.map (·.connection)).Nodup) (o : Outlets) (p : Packet) (n : Nat) :
    (sessions.foldl (fun o session => o.offerControl session.connection p) o).control? n =
      if n ∈ sessions.map (·.connection) then (o.control? n).map (·.offer p)
      else o.control? n := by
  induction sessions generalizing o with
  | nil => rfl
  | cons first rest ih =>
    obtain ⟨fresh, distinctRest⟩ := List.nodup_cons.mp distinct
    rw [List.foldl_cons, ih distinctRest, control?_offerControl, List.map_cons]
    by_cases here : first.connection = n
    · subst here
      rw [if_neg fresh, if_pos rfl, if_pos List.mem_cons_self]
    · simp only [if_neg here, List.mem_cons, Ne.symm here, false_or]

namespace Server

variable {s s' s'' : Server} {more later : Nat → List Packet} {origin : Address} {x : Session}

/-- Packets have come into the control queues, and nothing else has happened. -/
structure Gets (s : Server) (more : Nat → List Packet) (s' : Server) : Prop where
  rest : { s' with outlets := { s'.outlets with controls := s.outlets.controls } } = s
  control? : ∀ n, s'.outlets.control? n =
    (s.outlets.control? n).map fun m => { m with items := m.items ++ more n }

theorem Gets.trans (first : s.Gets more s') (second : s'.Gets later s'') :
    s.Gets (fun n => more n ++ later n) s'' where
  rest := (congrArg (fun t : Server =>
    { t with outlets := { t.outlets with controls := s.outlets.controls } }) second.rest).trans
      first.rest
  control? n := by
    rw [second.control?, first.control?, Option.map_map]
    simp only [Function.comp_def, List.append_assoc]

/-- A packet for the control channel is put behind what waits for its peer. -/
theorem gets_answer (origin : Address) {m : Mailbox Packet}
    (queue : s.outlets.control? x.connection = some m) (receiving : m.receiving = true)
    {p : Packet} (channel : p.transport = .tcp) :
    ∃ s', s.answer origin (some x) p = .ok s' ∧
      s.Gets (fun n => if x.connection = n then [p] else []) s' := by
  have inside := (List.getElem?_eq_some_iff.mp queue).1
  refine ⟨_, answer_control origin queue receiving channel, rfl, fun n => ?_⟩
  by_cases own : x.connection = n
  · subst own
    rw [Outlets.control?, List.getElem?_set_self inside, queue, Option.map_some, if_pos rfl]
  · rw [Outlets.control?, List.getElem?_set_ne own, ← Outlets.control?, if_neg own]
    cases s.outlets.control? n <;> simp

theorem datagrams_offerAll (sessions : List Session) (p : Packet) (o : Outlets) :
    (sessions.foldl (fun o session => o.offerControl session.connection p) o).datagrams =
      o.datagrams := by
  induction sessions generalizing o with
  | nil => rfl
  | cons first rest ih => exact ih (o.offerControl first.connection p)

/-- A packet that fails is answered if it came over the control channel. -/
theorem gets_fail (origin : Address) (packet : Packet) {m : Mailbox Packet}
    (queue : s.outlets.control? x.connection = some m) (room : m.HasRoom) :
    s.Gets (fun n => if x.connection = n then
      (if packet.transport = .tcp then [.tcp packet.id [0]] else []) else [])
      (s.fail origin (some x) packet) := by
  obtain ⟨controls, failed, queues⟩ := s.fail_spec origin (some x) packet
    fun y same => ⟨m, Option.some.inj same ▸ queue, room⟩
  rw [failed]
  refine ⟨rfl, fun n => (queues n).trans ?_⟩
  by_cases own : x.connection = n <;> simp [own]

/-- A packet for everyone gets to those who are logged in, to each once. -/
theorem gets_broadcast (tidy : s.sessions.Tidy)
    (accepting : ∀ k x, s.sessions.get? k = some x → x.initialized = true →
      ∃ m, s.outlets.control? x.connection = some m ∧ m.HasRoom) (p : Packet) :
    s.Gets (fun n => if n ∈ s.sessions.authenticated.map (·.connection) then [p] else [])
      (s.broadcast p) := by
  refine ⟨?_, fun n => (Outlets.control?_offerAll tidy.distinct s.outlets p n).trans ?_⟩
  · exact congrArg (fun datagrams => ({ s with outlets := { s.outlets with datagrams } } : Server))
      (datagrams_offerAll s.sessions.authenticated p s.outlets)
  · split
    · next among =>
      obtain ⟨k, x, found, initialized, rfl⟩ := SessionTable.mem_connections.mp among
      obtain ⟨m, queue, room⟩ := accepting k x found initialized
      rw [queue, Option.map_some, Option.map_some, Mailbox.offer_of_room room]
    · cases s.outlets.control? n <;> simp

/-! ## Logins -/

variable {service : AccountService} {packet : Packet} {stub : Session} {c : Credentials}

/-- Whether the login packet may let somebody in with these credentials. -/
structure Grants (s : Server) (service : AccountService) (packet : Packet) (c : Credentials) :
    Prop where
  written : c.WrittenIn packet.data
  usable : 1 ≤ c.account.utf8ByteSize ∧ c.account.utf8ByteSize ≤ 64
  free : ∀ k x, s.sessions.get? k = some x → x.initialized = true → x.account ≠ c.account
  checked : (s.policy.check service c.account c.token).1 = true

/-- The handler reads the payload, and denies the login or goes on to seat the session. -/
theorem connect_cases (s : Server) (service : AccountService) (origin : Address) (packet : Packet)
    (fresh : stub.initialized = false) :
    (∃ c, s.Grants service packet c ∧ s.connect service origin stub packet =
      ({ s with policy := (s.policy.check service c.account c.token).2 } : Server).enter origin stub
        c.account (Player.clampName (service.nameOf c.account))) ∨
    (¬ ∃ c, s.Grants service packet c) ∧
      ((∃ c : Credentials, c.WrittenIn packet.data ∧ ∃ policy,
        s.connect service origin stub packet = ({ s with policy } : Server).deny origin stub) ∨
      (¬ ∃ c : Credentials, c.WrittenIn packet.data) ∧ ∃ fault,
        s.connect service origin stub packet = (s, .error (.packet fault))) := by
  have refused {c : Credentials} (written : c.WrittenIn packet.data)
      (against : ¬ s.Grants service packet c) : ¬ ∃ d, s.Grants service packet d := by
    rintro ⟨d, grants⟩
    cases written.unique grants.written
    exact against grants
  rw [connect, fresh, if_neg Bool.false_ne_true]
  cases read : Credentials.ofPacket packet with
  | error fault =>
    have unreadable : ¬ ∃ c : Credentials, c.WrittenIn packet.data := by
      rintro ⟨c, written⟩
      cases read.symm.trans (Credentials.ofPacket_eq_ok_iff.mpr written)
    exact .inr ⟨fun ⟨c, grants⟩ => unreadable ⟨c, grants.written⟩, .inr ⟨unreadable, fault, rfl⟩⟩
  | ok c =>
    have written := Credentials.ofPacket_eq_ok_iff.mp read
    dsimp only
    split
    · next hindered =>
      refine .inr ⟨refused written fun grants => ?_, .inl ⟨c, written, s.policy, rfl⟩⟩
      have usable : c.isUsable = true := decide_eq_true grants.usable
      rw [usable, SessionTable.findByAccount?_eq_none grants.free] at hindered
      cases hindered
    · next unhindered =>
      obtain ⟨usable, free⟩ := not_or.mp (unhindered ∘ Bool.or_eq_true_iff.mpr)
      have fits : c.isUsable = true := by simpa using usable
      split
      · next checked =>
        refine .inl ⟨c, ⟨written, of_decide_eq_true fits, fun k x found => ?_, checked⟩, rfl⟩
        exact SessionTable.free_of_findByAccount? (Option.not_isSome_iff_eq_none.mp free) found
      · next unchecked =>
        exact .inr ⟨refused written fun grants => unchecked grants.checked,
          .inl ⟨c, written, _, rfl⟩⟩

theorem gets_deny (origin : Address) {m : Mailbox Packet}
    (queue : s.outlets.control? stub.connection = some m) (receiving : m.receiving = true) :
    ∃ s', s.deny origin stub = (s', .ok ()) ∧
      s.Gets (fun n => if stub.connection = n then [errorPacket PacketId.connect] else []) s' := by
  obtain ⟨s', answered, gets⟩ := gets_answer (p := errorPacket PacketId.connect) origin queue
    receiving rfl
  refine ⟨s', ?_, gets⟩
  rw [deny, answered]

/-- A player is welcomed with an answer, and then everybody who is logged in hears of it. -/
theorem gets_welcome (tidy : s.sessions.Tidy) (receiving : s.commands.receiving = true)
    {m : Mailbox Packet} (queue : s.outlets.control? stub.connection = some m)
    (taking : m.receiving = true) (room : m.items.length + 1 < m.capacity)
    (accepting : ∀ k x, s.sessions.get? k = some x → x.initialized = true →
      x.connection ≠ stub.connection →
      ∃ m, s.outlets.control? x.connection = some m ∧ m.HasRoom)
    (origin : Address) (account name : String) (udp : Option Endpoint) :
    ∃ s', s.welcome origin stub account name udp = (s', .ok ()) ∧
      (s.queueing (.join stub.slot account name udp)).Gets
        (fun n => (if stub.connection = n then [s.acceptance] else []) ++
          if n ∈ s.sessions.authenticated.map (·.connection) then
            [chatPacket (name ++ " has joined the game")] else []) s' := by
  obtain ⟨answered, answer, gets⟩ :=
    (s.queueing (.join stub.slot account name udp)).gets_answer (p := s.acceptance) origin queue
      taking rfl
  have same : answered.sessions = s.sessions := congrArg (·.sessions) gets.rest
  have queues (n : Nat) : answered.outlets.control? n = (s.outlets.control? n).map fun m =>
      { m with items := m.items ++ if stub.connection = n then [s.acceptance] else [] } :=
    gets.control? n
  refine ⟨answered.broadcastChat (name ++ " has joined the game"), ?_, ?_⟩
  · rw [welcome, submit_open receiving]
    dsimp only
    rw [show acceptance _ = s.acceptance from rfl, answer]
  · rw [← same] at tidy accepting ⊢
    refine gets.trans (gets_broadcast tidy (fun k x found initialized => ?_) _)
    by_cases own : x.connection = stub.connection
    · refine ⟨{ m with items := m.items ++ [s.acceptance] }, ?_, taking, ?_⟩
      · rw [queues, own, queue, Option.map_some, if_pos rfl]
      · rwa [List.length_append, List.length_singleton]
    · obtain ⟨m', queue', room'⟩ := accepting k x found initialized own
      refine ⟨m', ?_, room'⟩
      rw [queues, queue', Option.map_some, if_neg (Ne.symm own), List.append_nil]

/-- A login that is granted. -/
theorem gets_connect (tidy : s.sessions.Tidy) (receiving : s.commands.receiving = true)
    (there : s.sessions.get? stub.slot = some stub) (fresh : stub.initialized = false)
    (accepting : ∀ k x, s.sessions.get? k = some x → x.initialized = true →
      ∃ m, s.outlets.control? x.connection = some m ∧ m.HasRoom)
    {m : Mailbox Packet} (queue : s.outlets.control? stub.connection = some m)
    (taking : m.receiving = true) (room : m.items.length + 1 < m.capacity) (origin : Address)
    (grants : s.Grants service packet c) :
    let name := Player.clampName (service.nameOf c.account)
    let line := chatPacket (name ++ " has joined the game")
    ∃ s', s.connect service origin stub packet = (s', .ok ()) ∧
      Gets { s with
          policy := (s.policy.check service c.account c.token).2
          sessions := s.sessions.authenticate stub.slot c.account name
          commands := s.commands.with (.join stub.slot c.account name stub.address.udp) }
        (fun n => if stub.connection = n then [s.acceptance, line]
          else if n ∈ s.sessions.authenticated.map (·.connection) then [line] else []) s' := by
  intro name line
  rcases s.connect_cases service origin packet fresh with ⟨d, grants', connected⟩ | ⟨none, -⟩
  · cases grants.written.unique grants'.written
    let asked : Server := { s with policy := (s.policy.check service c.account c.token).2 }
    let seated : Server :=
      { asked with sessions := s.sessions.authenticate stub.slot c.account name }
    have seating : asked.sessions.seat stub.slot c.account name =
        .seated stub.address.udp seated.sessions := by
      have free : asked.sessions.findByAccount? c.account = none :=
        SessionTable.findByAccount?_eq_none grants.free
      have current : asked.sessions.get? stub.slot = some stub := there
      rw [SessionTable.seat, free, current]
      rfl
    have told : (fun n => (if stub.connection = n then [s.acceptance] else []) ++
        if n ∈ seated.sessions.authenticated.map (·.connection) then [line] else []) =
        fun n => if stub.connection = n then [s.acceptance, line]
          else if n ∈ s.sessions.authenticated.map (·.connection) then [line] else [] := by
      funext n
      simp only [seated, SessionTable.mem_connections_authenticate there fresh]
      by_cases here : stub.connection = n <;> simp [here]
    have others : ∀ k x, seated.sessions.get? k = some x → x.initialized = true →
        x.connection ≠ stub.connection →
        ∃ m, s.outlets.control? x.connection = some m ∧ m.HasRoom := by
      intro k x found initialized other
      rw [SessionTable.get?_authenticate, there] at found
      split at found
      · cases found
        exact absurd rfl other
      · exact accepting k x found initialized
    obtain ⟨s', welcomed, gets⟩ := gets_welcome (s := seated) (tidy.authenticate _ _ _) receiving
      queue taking room others origin c.account name stub.address.udp
    refine ⟨s', ?_, told ▸ gets⟩
    rw [connected, enter, seating]
    exact welcomed
  · exact absurd ⟨c, grants⟩ none

/-- A login that is not granted. -/
theorem gets_refusal (fresh : stub.initialized = false) {m : Mailbox Packet}
    (queue : s.outlets.control? stub.connection = some m) (room : m.HasRoom)
    (login : packet.id = PacketId.connect) (origin : Address)
    (refused : ¬ ∃ c, s.Grants service packet c) :
    ∃ policy refusal,
      (packet.transport = .tcp ∨ (∃ c : Credentials, c.WrittenIn packet.data) →
        refusal = [.tcp PacketId.connect [0]]) ∧
      (packet.transport = .udp → (¬ ∃ c : Credentials, c.WrittenIn packet.data) →
        refusal = []) ∧
      Gets { s with policy } (fun n => if stub.connection = n then refusal else [])
        (Request.concluded ⟨origin, stub, packet⟩ (s.connect service origin stub packet)) := by
  rcases s.connect_cases service origin packet fresh with
    ⟨c, grants, -⟩ | ⟨-, ⟨c, written, policy, denied⟩ | ⟨unreadable, fault, failed⟩⟩
  · exact absurd ⟨c, grants⟩ refused
  · obtain ⟨s', answered, gets⟩ := gets_deny (s := { s with policy }) origin queue room.1
    refine ⟨policy, [.tcp PacketId.connect [0]], fun _ => rfl,
      fun _ unreadable => absurd ⟨c, written⟩ unreadable, ?_⟩
    rw [denied, answered]
    exact gets
  · refine ⟨s.policy, if packet.transport = .tcp then [.tcp packet.id [0]] else [],
      fun answered => ?_, fun datagram _ => if_neg (by rw [datagram]; decide), ?_⟩
    · rw [if_pos (answered.resolve_right unreadable), login]
    · rw [failed]
      exact gets_fail origin packet queue room

theorem handle_connect (login : packet.id = PacketId.connect) {slot : Option UInt8}
    (sender : s.resolve origin slot = some stub) (now : Time) :
    s.handle service origin packet slot now =
      Request.concluded ⟨origin, stub, packet⟩ (s.connect service origin stub packet) := by
  have registered : Registry.game.get? packet.id = some .connect := by
    rw [login]
    decide
  have may : mayHandle packet.id stub = true := by simp [mayHandle, login]
  exact handle_of_get? registered sender may

/-- A login packet of a session that is not logged in, with room in the queues. It lets the session
in just when it is granted, for which the token has to pass: the server is insecure, or the service
accepts it, or fails and the server turns insecure by itself. Then the player joins and the session
is logged in, under one name, the one that the service gives or else the account, cut to its length;
its client gets the answer, and everybody who is logged in by now gets one line of chat. Else no
session and no command is touched, and the client gets one refusal; only a datagram that cannot be
read gets none. -/
theorem handle_login (s : Server) (service : AccountService) (origin : Address) (packet : Packet)
    (slot : Option UInt8) (now : Time) (stub : Session) (login : packet.id = PacketId.connect)
    (sender : s.resolve origin slot = some stub) (fresh : stub.initialized = false)
    (tidy : s.sessions.Tidy) (receiving : s.commands.receiving = true)
    (accepting : ∀ k x, s.sessions.get? k = some x → x.initialized = true →
      ∃ m, s.outlets.control? x.connection = some m ∧ m.HasRoom)
    (own : ∃ m, s.outlets.control? stub.connection = some m ∧ m.receiving = true ∧
      m.items.length + 1 < m.capacity) :
    let s' := s.handle service origin packet slot now
    (∀ account token, (s.policy.check service account token).1 = true ↔
      s.policy.insecure = true ∨ service.validate account token = some true ∨
        service.validate account token = none ∧ s.policy.autoInsecure = true) ∧
    ((∃ x, s'.sessions.get? stub.slot = some x ∧ x.initialized = true) ↔
      ∃ c, s.Grants service packet c) ∧
    s'.settings = s.settings ∧ s'.world = s.world ∧
    s'.outlets.datagrams = s.outlets.datagrams ∧
    (∀ c, s.Grants service packet c →
      let name := Player.clampName (match service.displayName c.account with
        | some (some given) => given
        | some none => c.account
        | none => c.account)
      let line := chatPacket (name ++ " has joined the game")
      s'.commands = s.commands.with (.join stub.slot c.account name stub.address.udp) ∧
      (∀ k, s'.sessions.get? k =
        if stub.slot = k then some { stub with account := c.account, name, initialized := true }
        else s.sessions.get? k) ∧
      (∀ k x, s.sessions.get? k = some x → s'.outlets.control? x.connection =
        (s.outlets.control? x.connection).map fun m => { m with
          items := m.items ++
            if k = stub.slot then
              [.tcp PacketId.connect (1 :: Text.terminated s.settings.currentMap), line]
            else if x.initialized then [line] else [] }) ∧
      ∀ n, (∀ k x, s.sessions.get? k = some x → x.connection ≠ n) →
        s'.outlets.control? n = s.outlets.control? n) ∧
    ((¬ ∃ c, s.Grants service packet c) →
      s'.sessions = s.sessions ∧ s'.commands = s.commands ∧
      ∃ refusal,
        (packet.transport = .tcp ∨ (∃ c : Credentials, c.WrittenIn packet.data) →
          refusal = [.tcp PacketId.connect [0]]) ∧
        (packet.transport = .udp → (¬ ∃ c : Credentials, c.WrittenIn packet.data) →
          refusal = []) ∧
        ∀ n, s'.outlets.control? n = (s.outlets.control? n).map fun m => { m with
          items := m.items ++ if stub.connection = n then refusal else [] }) := by
  intro s'
  have there := get?_of_resolve tidy.indexed sender
  have handled : s' = _ := handle_connect login sender now
  clear_value s'
  obtain ⟨m, queue, taking, room⟩ := own
  refine ⟨fun _ _ => AuthPolicy.check_eq_true_iff, ?_⟩
  by_cases granted : ∃ c, s.Grants service packet c
  · obtain ⟨c, grants⟩ := granted
    obtain ⟨s'', connected, gets⟩ :=
      gets_connect tidy receiving there fresh accepting queue taking room origin grants
    rw [connected] at handled
    rw [show s'' = s' from handled.symm] at gets
    have entries : ∀ k, s'.sessions.get? k = if stub.slot = k then
        some (stub.loggedIn c.account (Player.clampName (service.nameOf c.account)))
        else s.sessions.get? k := by
      intro k
      rw [show s'.sessions = _ from congrArg (·.sessions) gets.rest,
        SessionTable.get?_authenticate, there]
      rfl
    refine ⟨⟨fun _ => ⟨c, grants⟩, fun _ => ⟨_, (entries stub.slot).trans (if_pos rfl), rfl⟩⟩,
      congrArg (·.settings) gets.rest, congrArg (·.world) gets.rest,
      congrArg (·.outlets.datagrams) gets.rest, fun d grants' => ?_,
      fun refused => absurd ⟨c, grants⟩ refused⟩
    cases grants.written.unique grants'.written
    rw [← AccountService.nameOf_eq]
    refine ⟨congrArg (·.commands) gets.rest, entries, fun k x found => ?_, fun n nobody => ?_⟩
    · have same : stub.connection = x.connection ↔ k = stub.slot := by
        refine ⟨fun shared => tidy.apart k stub.slot x stub found there shared.symm, ?_⟩
        rintro rfl
        exact congrArg _ (Option.some.inj (there.symm.trans found))
      rw [gets.control?]
      simp only [same, tidy.mem_connections_iff found]
      rfl
    · have among : n ∉ s.sessions.authenticated.map (·.connection) := fun member => by
        obtain ⟨k, x, found, -, same⟩ := SessionTable.mem_connections.mp member
        exact nobody k x found same
      rw [gets.control?, if_neg (nobody stub.slot stub there), if_neg among]
      simp only [List.append_nil]
      exact Option.map_id'
  · obtain ⟨policy, refusal, answered, silent, gets⟩ :=
      gets_refusal fresh queue ⟨taking, Nat.lt_of_succ_lt room⟩ login origin granted
    rw [← handled] at gets
    have sessions : s'.sessions = s.sessions := congrArg (·.sessions) gets.rest
    refine ⟨⟨fun ⟨x, found, initialized⟩ => ?_, fun grants => absurd grants granted⟩,
      congrArg (·.settings) gets.rest, congrArg (·.world) gets.rest,
      congrArg (·.outlets.datagrams) gets.rest, fun c grants => absurd ⟨c, grants⟩ granted,
      fun _ => ⟨sessions, congrArg (·.commands) gets.rest, refusal, answered, silent,
        gets.control?⟩⟩
    rw [sessions] at found
    cases there.symm.trans found
    cases fresh.symm.trans initialized

/-- Two clients that have shaken hands, and between them one who plays as `b`. -/
def threshold : Server :=
  let start := Server.start Settings.default [] fun _ => 0
  { start with
    sessions := ⟨16, ((ByteMap.empty.insert 0 Lobby.visitorStub).insert 1 (player 1 "b" 1)).insert 2
      (.stub 2 ⟨some ⟨"10.0.0.3", 1000⟩, none⟩ 2)⟩
    outlets := ((start.outlets.openControl 64).openControl 64).openControl 64 }

theorem get?_threshold (k : UInt8) : threshold.sessions.get? k =
    if 2 = k then some (.stub 2 ⟨some ⟨"10.0.0.3", 1000⟩, none⟩ 2)
    else if 1 = k then some (player 1 "b" 1)
    else if 0 = k then some Lobby.visitorStub else none := by
  rw [SessionTable.get?, threshold, ByteMap.get?_insert, ByteMap.get?_insert, ByteMap.get?_insert,
    ByteMap.get?_empty]

/-- Of those at the threshold, the session in slot `k` has the queue of number `k`. -/
theorem threshold_cases {k : UInt8} {x : Session} (found : threshold.sessions.get? k = some x) :
    x.slot = k ∧ x.connection = k.toNat ∧
      ∃ m, threshold.outlets.control? x.connection = some m ∧ m.HasRoom := by
  rw [get?_threshold] at found
  split at found
  · next here =>
    subst here
    cases found
    exact ⟨rfl, rfl, .empty 64, rfl, rfl, by decide⟩
  · split at found
    · next here =>
      subst here
      cases found
      exact ⟨rfl, rfl, .empty 64, rfl, rfl, by decide⟩
    · split at found
      · next here =>
        subst here
        cases found
        exact ⟨rfl, rfl, .empty 64, rfl, rfl, by decide⟩
      · cases found

theorem tidy_threshold : threshold.sessions.Tidy where
  indexed _ _ found := (threshold_cases found).1
  apart j k x y left right same := by
    rw [(threshold_cases left).2.1, (threshold_cases right).2.1] at same
    exact UInt8.toNat_inj.mp same

/-- Accepts a single token, and calls everybody by one name. -/
def doorkeeper (token name : String) : AccountService :=
  ⟨fun _ given => some (given = token), fun _ => some (some name)⟩

/-- One of the clients asks to be logged in as `a` over the control channel. With the right token it
is, under as much of its name as a block has room for; with another one it is not. -/
theorem handle_login_threshold :
    let service := doorkeeper "t" "Annabella of the Northern Islands"
    let name := "Annabella of the Northern Island"
    let line := chatPacket (name ++ " has joined the game")
    let right : Packet := .tcp PacketId.connect [97, 0, 116]
    let wrong : Packet := .tcp PacketId.connect [97, 0, 120]
    let entered := threshold.handle service Lobby.visitor right (some 0) 0
    let refused := threshold.handle service Lobby.visitor wrong (some 0) 0
    threshold.resolve Lobby.visitor (some 0) = some Lobby.visitorStub ∧
    threshold.Grants service right ⟨"a", "t"⟩ ∧ (¬ ∃ c, threshold.Grants service wrong c) ∧
    entered.commands.items = [.join 0 "a" name Lobby.visitor.udp] ∧
    entered.outlets.waiting 0 = [threshold.acceptance, line] ∧
    entered.outlets.waiting 1 = [line] ∧ entered.outlets.waiting 2 = [] ∧
    refused.sessions = threshold.sessions ∧ refused.commands = threshold.commands ∧
    refused.outlets.waiting 0 = [.tcp PacketId.connect [0]] ∧
    refused.outlets.waiting 1 = [] := by
  intro service name line right wrong entered refused
  have sender : threshold.resolve Lobby.visitor (some 0) = some Lobby.visitorStub := rfl
  have free : ∀ k x, threshold.sessions.get? k = some x → x.initialized = true →
      x.account ≠ "a" := by
    intro k x found _
    rw [get?_threshold] at found
    repeat' split at found
    all_goals cases found
    all_goals decide
  have own : ∃ m, threshold.outlets.control? Lobby.visitorStub.connection = some m ∧
      m.receiving = true ∧ m.items.length + 1 < m.capacity :=
    ⟨.empty 64, rfl, rfl, by decide⟩
  have handled (packet : Packet) (login : packet.id = PacketId.connect) :=
    handle_login threshold service Lobby.visitor packet (some 0) 0 Lobby.visitorStub login sender
      rfl tidy_threshold rfl (fun k x found _ => (threshold_cases found).2.2) own
  have read : Credentials.ofPacket (.tcp PacketId.connect [97, 0, 116]) = .ok ⟨"a", "t"⟩ := rfl
  have readWrong : Credentials.ofPacket (.tcp PacketId.connect [97, 0, 120]) = .ok ⟨"a", "x"⟩ := rfl
  obtain ⟨passes, -, -, -, -, granted, -⟩ := handled right rfl
  obtain ⟨-, -, -, -, -, -, denied⟩ := handled wrong rfl
  have grants : threshold.Grants service right ⟨"a", "t"⟩ :=
    ⟨Credentials.ofPacket_eq_ok_iff.mp read, by decide, free,
      (passes "a" "t").mpr (.inr (.inl rfl))⟩
  have bars : ¬ ∃ c, threshold.Grants service wrong c := by
    rintro ⟨c, written, -, -, checked⟩
    cases written.unique (Credentials.ofPacket_eq_ok_iff.mp readWrong)
    rcases (passes "a" "x").mp checked with insecure | accepted | ⟨failed, -⟩
    · exact absurd insecure (by decide)
    · exact absurd accepted (by decide)
    · cases failed
  obtain ⟨commands, -, queues, -⟩ := granted _ grants
  obtain ⟨sessions, commandsWrong, refusal, answered, -, queuesWrong⟩ := denied bars
  rw [answered (.inl rfl)] at queuesWrong
  have named : Player.clampName "Annabella of the Northern Islands" = name := by decide
  have called : Player.clampName (match service.displayName "a" with
      | some (some given) => given
      | some none => "a"
      | none => "a") = name := named
  have handledRight : threshold.handle service Lobby.visitor right (some 0) 0 = entered := rfl
  have handledWrong : threshold.handle service Lobby.visitor wrong (some 0) 0 = refused := rfl
  rw [handledRight, called] at commands queues
  rw [handledWrong] at sessions commandsWrong queuesWrong
  -- from here on nothing needs to run the handler
  clear_value entered refused
  refine ⟨sender, grants, bars, congrArg (·.items) commands, ?_, ?_, ?_, sessions, commandsWrong,
    ?_, ?_⟩
  · exact congrArg (fun queue => queue.elim [] (·.items)) (queues 0 _ (get?_threshold 0))
  · exact congrArg (fun queue => queue.elim [] (·.items)) (queues 1 _ (get?_threshold 1))
  · exact congrArg (fun queue => queue.elim [] (·.items)) (queues 2 _ (get?_threshold 2))
  · exact congrArg (fun queue => queue.elim [] (·.items)) (queuesWrong 0)
  · exact congrArg (fun queue => queue.elim [] (·.items)) (queuesWrong 1)

end Server

end Deathmatch
