import Deathmatch.Proofs.Rejection
import Mathlib.Data.List.Pairwise

/-!
# On whose behalf a packet is handled

A packet is handled on behalf of one session at most (`Server.onBehalf?`). For a datagram that is
the first in slot order of the sessions that announced its endpoint (`Server.onBehalf?_datagram`).
Endpoints are nobody's own: a client may announce what another one of its host has announced. For a
packet of a control connection it is the session in the connection's slot, if they have an endpoint
in common (`Server.onBehalf?_control`).

A session is still that of the handshake which brought it to its slot (`Lobby.Greeted`).
`Lobby.run_attributions` says what holds of every table that clients can lead to, and
`Lobby.run_astray` that this does not tell a client from others of its host.
-/

namespace Deathmatch

/-! ## The first entry of a kind -/

namespace ByteMap

variable {α : Type} {m : ByteMap α}

theorem pairwise_allKeys : allKeys.Pairwise (· < ·) := by
  rw [allKeys, List.pairwise_map]
  refine List.pairwise_lt_range.imp_of_mem fun {i j} _ inside below => ?_
  rw [UInt8.lt_iff_toNat_lt, UInt8.toNat_ofNat_of_lt' (List.mem_range.mp inside),
    UInt8.toNat_ofNat_of_lt' (Nat.lt_trans below (List.mem_range.mp inside))]
  exact below

theorem pairwise_toList (m : ByteMap α) : m.toList.Pairwise fun e f => e.1 < f.1 :=
  List.pairwise_map.mp (m.keys_toList ▸ pairwise_allKeys.filter _)

/-- What is found first is the entry of the lowest byte. -/
theorem find?_values_eq_some {p : α → Bool} {a : α} :
    m.values.find? p = some a ↔
      p a = true ∧ ∃ k, m.get? k = some a ∧ ∀ j b, m.get? j = some b → p b = true → k ≤ j := by
  -- Among the entries, the first of the kind stands before all others of the kind.
  have first {a : α} (found : m.values.find? p = some a) :
      ∃ k, m.get? k = some a ∧ ∀ j b, m.get? j = some b → p b = true → k ≤ j := by
    rw [values, List.find?_map, Option.map_eq_some_iff] at found
    rcases found with ⟨⟨k, a⟩, found, rfl⟩
    rcases List.find?_eq_some_iff_append.mp found with ⟨-, front, back, split, others⟩
    have ordered := m.pairwise_toList
    rw [split, List.pairwise_append] at ordered
    refine ⟨k, mem_toList.mp (split ▸ List.mem_append_right _ List.mem_cons_self), ?_⟩
    intro j b there holds
    have member := split ▸ mem_toList.mpr there
    rcases List.mem_append.mp member with before | after
    · have not := others _ before
      rw [Function.comp_apply, holds] at not
      cases not
    · rcases List.mem_cons.mp after with same | behind
      · cases same
        exact UInt8.le_refl k
      · exact UInt8.le_of_lt (List.rel_of_pairwise_cons ordered.2.1 behind)
  constructor
  · intro found
    exact ⟨List.find?_some found, first found⟩
  · rintro ⟨holds, k, there, lowest⟩
    cases found : m.values.find? p with
    | none => exact absurd holds (List.find?_eq_none.mp found a (mem_values.mpr ⟨k, there⟩))
    | some b =>
      rcases first found with ⟨j, thereToo, lowestToo⟩
      have same : j = k :=
        UInt8.le_antisymm (lowestToo k a there holds) (lowest j b thereToo (List.find?_some found))
      rw [← thereToo, same, there]

end ByteMap

/-! ## Which session an origin meets -/

namespace Address

theorem meets_ofUdp_iff {a : Address} {e : Endpoint} :
    a.meets (.ofUdp e) = true ↔ a.udp = some e := by
  rcases a with ⟨tcp, udp⟩
  cases tcp <;> cases udp <;> simp [meets, ofUdp, sameEndpoint]

theorem meets_iff {a : Address} {peer announced : Endpoint} :
    a.meets ⟨some peer, some announced⟩ = true ↔ a.tcp = some peer ∨ a.udp = some announced := by
  rcases a with ⟨tcp, udp⟩
  cases tcp <;> cases udp <;> simp [meets, sameEndpoint]

end Address

namespace Server

variable {s : Server} {packet : Packet} {x : Session}

/-- A datagram is handled on behalf of the first session that announced its endpoint. -/
theorem onBehalf?_datagram (indexed : s.sessions.Indexed) {e : Endpoint} :
    s.onBehalf? (.ofUdp e) packet none = some x ↔
      handles packet.id = true ∧ mayHandle packet.id x = true ∧
      s.sessions.get? x.slot = some x ∧ x.address.udp = some e ∧
      ∀ k y, s.sessions.get? k = some y → y.address.udp = some e → x.slot ≤ k := by
  rw [onBehalf?_eq_some_iff]
  refine and_congr_right fun _ => and_congr_right fun _ => ?_
  rw [resolve, SessionTable.findByAddress?, SessionTable.toList, ByteMap.find?_values_eq_some,
    Address.meets_ofUdp_iff]
  constructor
  · rintro ⟨announced, k, there, lowest⟩
    cases indexed k x there
    exact ⟨there, announced, fun j y thereToo same =>
      lowest j y thereToo (Address.meets_ofUdp_iff.mpr same)⟩
  · rintro ⟨there, announced, lowest⟩
    exact ⟨announced, x.slot, there, fun j y thereToo same =>
      lowest j y thereToo (Address.meets_ofUdp_iff.mp same)⟩

/-- A packet of a control connection is handled on behalf of the session in the connection's slot,
and of that only if they have an endpoint in common. -/
theorem onBehalf?_control {peer announced : Endpoint} {slot : UInt8} :
    s.onBehalf? ⟨some peer, some announced⟩ packet (some slot) = some x ↔
      handles packet.id = true ∧ mayHandle packet.id x = true ∧
      s.sessions.get? slot = some x ∧
      (x.address.tcp = some peer ∨ x.address.udp = some announced) := by
  rw [onBehalf?_eq_some_iff, resolve, Option.filter_eq_some_iff, Address.meets_iff]

end Server

/-! ## Where sessions come from -/

namespace Lobby

variable {l l' : Lobby} {m : Move}

/-- The session of a slot has come there with a handshake among the moves, from its address and with
its connection. -/
def Greeted (l : Lobby) (moves : List Move) (slot : UInt8) (x : Session) : Prop :=
  ∃ before capacity later sessions,
    moves = before ++ .allocate x.address capacity :: later ∧
    x.connection = (l.run before).server.outlets.nextConnection ∧
    (l.run before).server.sessions.allocate x.address x.connection = some (slot, sessions)

theorem Greeted.append {moves : List Move} {slot : UInt8} {x y : Session}
    (greeted : l.Greeted moves slot x) (address : y.address = x.address)
    (connection : y.connection = x.connection) (more : List Move) :
    l.Greeted (moves ++ more) slot y := by
  rcases greeted with ⟨before, capacity, later, sessions, rfl, number, allocated⟩
  refine ⟨before, capacity, later ++ more, sessions, ?_, ?_, ?_⟩
  · rw [address, List.append_assoc, List.cons_append]
  · rw [connection, number]
  · rw [address, connection, allocated]

/-- A session that is there after a move was there before, with the same address and connection, or
has come with the move. -/
theorem Becomes.session (turn : l.Becomes m l') (proper : l.Proper) {slot : UInt8} {x' : Session}
    (found : l'.server.sessions.get? slot = some x') :
    (∃ x, l.server.sessions.get? slot = some x ∧ x'.address = x.address ∧
      x'.connection = x.connection) ∨
    ∃ capacity sessions, m = .allocate x'.address capacity ∧
      x'.connection = l.server.outlets.nextConnection ∧
      l.server.sessions.allocate x'.address x'.connection = some (slot, sessions) := by
  cases turn with
  | full | ignored | foreign | absent | arrive => exact Or.inl ⟨x', found, rfl, rfl⟩
  | allocate allocated =>
    rw [(SessionTable.allocate_cases allocated).2] at found
    split at found
    · next here =>
      cases found
      exact Or.inr ⟨_, _, rfl, rfl, here ▸ allocated⟩
    · exact Or.inl ⟨x', found, rfl, rfl⟩
  | release _ =>
    rw [SessionTable.get?_remove] at found
    split at found
    · cases found
    · exact Or.inl ⟨x', found, rfl, rfl⟩
  | @advance number service t _ =>
    rcases (t.steps_advance proper.receiving service).sessions with
      same | ⟨r, account, name, udp, -, seated⟩
    · exact Or.inl ⟨x', same ▸ found, rfl, rfl⟩
    · rcases SessionTable.seat_cases seated with ⟨x, current, -, -, entries⟩
      rw [entries] at found
      split at found
      · next here =>
        cases found
        exact Or.inl ⟨x, here ▸ current, rfl, rfl⟩
      · exact Or.inl ⟨x', found, rfl, rfl⟩
  | step now =>
    rw [Server.sessions_step] at found
    exact Or.inl ⟨x', found, rfl, rfl⟩

theorem greeted_run (proper : l.Proper) (nobody : ∀ slot, l.server.sessions.get? slot = none)
    (moves : List Move) :
    ∀ slot x, (l.run moves).server.sessions.get? slot = some x → l.Greeted moves slot x := by
  induction moves using List.reverseRecOn with
  | nil =>
    intro slot x found
    cases (nobody slot).symm.trans found
  | append_singleton moves m ih =>
    intro slot x' found
    rw [run_concat] at found
    rcases ((l.run moves).becomes_after m).session (proper.run moves) found with
      ⟨x, there, address, connection⟩ | ⟨capacity, sessions, rfl, number, allocated⟩
    · exact (ih slot x there).append address connection [m]
    · exact ⟨moves, capacity, [], sessions, rfl, number, allocated⟩

/-- Of whom a packet is taken to be, after any moves of clients and handlers. A handler is run on
behalf of one session at most, which is still that of the handshake which gave it its slot. If the
packet is a datagram the session has announced the endpoint of it, and stands in the lowest slot of
all that have. If it is read on a control connection the session is in the slot of that connection,
and it is the peer of it unless both have announced the same endpoint. -/
theorem run_attributions (settings : Settings) (points : List Vec3) (rolls : Nat → Nat)
    (moves : List Move) :
    let start := Lobby.start settings points rolls
    let s := (start.run moves).server
    (∀ service origin packet slot now,
      (s.onBehalf? origin packet slot = none → s.handle service origin packet slot now =
        if Server.handles packet.id then s.fail origin (s.resolve origin slot) packet else s) ∧
      ∀ x, s.onBehalf? origin packet slot = some x →
        ∃ handler, Registry.game.get? packet.id = some handler ∧
          s.handle service origin packet slot now = Request.concluded ⟨origin, x, packet⟩
            (s.runHandler service handler origin x packet now)) ∧
    (∀ slot x, s.sessions.get? slot = some x → start.Greeted moves slot x) ∧
    (∀ e packet x, s.onBehalf? (.ofUdp e) packet none = some x ↔
      Server.handles packet.id = true ∧ Server.mayHandle packet.id x = true ∧
      s.sessions.get? x.slot = some x ∧ x.address.udp = some e ∧
      ∀ k y, s.sessions.get? k = some y → y.address.udp = some e → x.slot ≤ k) ∧
    ∀ peer announced packet slot x,
      s.onBehalf? ⟨some peer, some announced⟩ packet (some slot) = some x →
      s.sessions.get? slot = some x ∧
      (x.address.udp ≠ some announced → x.address.tcp = some peer) := by
  intro start s
  have proper : start.Proper := proper_start settings points rolls
  have indexed : s.sessions.Indexed := (proper.run moves).indexed
  refine ⟨fun service origin packet slot now => ⟨?_, ?_⟩, ?_, ?_, ?_⟩
  · exact Server.handle_of_onBehalf?_eq_none
  · exact fun x => Server.handle_of_onBehalf?_eq_some
  · exact greeted_run proper (fun slot => SessionTable.get?_empty settings.capacity) moves
  · exact fun e packet x => Server.onBehalf?_datagram indexed
  · intro peer announced packet slot x somebody
    rcases Server.onBehalf?_control.mp somebody with ⟨-, -, there, same⟩
    exact ⟨there, same.resolve_right⟩

/-- Two clients of one host with endpoints of their own: a datagram is handled on behalf of the one
who announced where it comes from. -/
theorem run_attributions_apart :
    let own : Endpoint := ⟨"10.0.0.1", 2001⟩
    let a : Address := ⟨some ⟨"10.0.0.1", 1000⟩, some ⟨"10.0.0.1", 2000⟩⟩
    let b : Address := ⟨some ⟨"10.0.0.1", 1001⟩, some own⟩
    let start := Lobby.start Settings.default [] fun _ => 0
    let s := (start.run [.allocate a 64, .allocate b 64]).server
    s.onBehalf? (.ofUdp own) (.udp PacketId.connect [98, 0, 116, 0]) none =
      some (.stub 1 b 1) := by
  intro own a b start s
  have first : s.sessions.get? 0 = some (.stub 0 a 0) := rfl
  obtain ⟨-, -, datagrams, -⟩ :=
    run_attributions Settings.default [] (fun _ => 0) [.allocate a 64, .allocate b 64]
  refine (datagrams own _ _).mpr ⟨by decide, rfl, rfl, rfl, fun slot y found same => ?_⟩
  by_cases lowest : slot = 0
  · rw [lowest, first] at found
    cases found
    exact absurd same (by decide)
  · exact UInt8.pos_iff_ne_zero.mpr lowest

/-- Two clients of one host that announce the same endpoint. While both are there, a datagram from
that endpoint is handled on behalf of the first, whoever has sent it. When the slot of the first has
been given to the second, a packet of the first is handled on behalf of the second. -/
theorem run_astray :
    let e : Endpoint := ⟨"10.0.0.1", 2000⟩
    let a : Address := ⟨some ⟨"10.0.0.1", 1000⟩, some e⟩
    let b : Address := ⟨some ⟨"10.0.0.1", 1001⟩, some e⟩
    let start := Lobby.start Settings.default [] fun _ => 0
    let login := Packet.udp PacketId.connect [98, 0, 116, 0]
    let shared := (start.run [.allocate a 64, .allocate b 64]).server
    let recycled := (start.run [.allocate a 64, .release 0 a.tcp, .allocate b 64]).server
    (∃ x y, shared.sessions.get? 0 = some x ∧ shared.sessions.get? 1 = some y ∧
      x.address.udp = some e ∧ y.address.udp = some e ∧
      shared.handle .allowAll (.ofUdp e) login none 0 = Request.concluded ⟨.ofUdp e, x, login⟩
        (shared.runHandler .allowAll .connect (.ofUdp e) x login 0)) ∧
    (∃ sessions, start.server.sessions.allocate a 0 = some (0, sessions)) ∧
    ∃ x, recycled.handle .allowAll a login (some 0) 0 = Request.concluded ⟨a, x, login⟩
        (recycled.runHandler .allowAll .connect a x login 0) ∧ x.address.tcp ≠ a.tcp := by
  intro e a b start login shared recycled
  have connects {s : Server} {origin : Address} {slot : Option UInt8} {x : Session}
      (somebody : s.onBehalf? origin login slot = some x) :
      s.handle .allowAll origin login slot 0 = Request.concluded ⟨origin, x, login⟩
        (s.runHandler .allowAll .connect origin x login 0) := by
    obtain ⟨handler, registered, result⟩ := Server.handle_of_onBehalf?_eq_some somebody
    cases registered
    exact result
  have indexed : shared.sessions.Indexed :=
    ((proper_start Settings.default [] fun _ => 0).run _).indexed
  have first : shared.sessions.get? 0 = some (.stub 0 a 0) := rfl
  have second : shared.sessions.get? 1 = some (.stub 1 b 1) := rfl
  have later : recycled.sessions.get? 0 = some (.stub 0 b 1) := rfl
  refine ⟨⟨.stub 0 a 0, .stub 1 b 1, first, second, rfl, rfl, connects ?_⟩, ⟨_, rfl⟩,
    .stub 0 b 1, connects ?_, by decide⟩
  · exact (Server.onBehalf?_datagram indexed).mpr
      ⟨by decide, rfl, first, rfl, fun _ _ _ _ => UInt8.zero_le⟩
  · exact Server.onBehalf?_control.mpr ⟨by decide, rfl, later, Or.inr rfl⟩

end Lobby

end Deathmatch
