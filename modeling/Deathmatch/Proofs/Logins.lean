import Deathmatch.Proofs.Lobby

/-!
# Who gets logged in

Handlers that go on side by side (`Lobby`) seat accounts in the table of sessions. Whatever their
order, no account is logged in twice (`Lobby.run_accounts`), since the look for the account and the
login are one step.

The login finds its session by the slot, and not by the session that asked. `Lobby.run_entry` says
what that comes to: a login changes a session of the slot in which the asking session was when its
packet came, and it is that very session, and still not logged in, if and only if the slot has kept
it all the time. `Lobby.logins_astray` has a login that goes to another client, and one that changes
the account of a session.
-/

namespace Deathmatch

/-! ## One account, one seat -/

/-- Whether no account plays twice, and all accounts have a length that can be used. -/
structure Roster.Exclusive (r : Roster) : Prop where
  distinct : r.Distinct
  usable : ∀ k who, (r k).who = some who →
    0 < who.1.utf8ByteSize ∧ who.1.utf8ByteSize ≤ Credentials.maxAccountBytes

theorem Roster.exclusive_empty : Roster.empty.Exclusive :=
  ⟨distinct_empty, fun _ _ seat => nomatch seat⟩

theorem Roster.Exclusive.update {r : Roster} (exclusive : r.Exclusive) (slot : UInt8) {seat : Seat}
    (fits : ∀ new, seat.who = some new →
      (0 < new.1.utf8ByteSize ∧ new.1.utf8ByteSize ≤ Credentials.maxAccountBytes) ∧
      ∀ k who, (r k).who = some who → who.1 ≠ new.1) :
    Roster.Exclusive (Function.update r slot seat) where
  distinct := exclusive.distinct.update fun new taken => (fits new taken).2
  usable k who here := by
    rw [Function.update_apply] at here
    split at here
    · exact (fits who here).1
    · exact exclusive.usable k who here

namespace SessionTable

variable {t : SessionTable}

theorem map_account_authenticated (t : SessionTable) :
    t.authenticated.map (·.account) = t.roster.accounts := by
  rw [authenticated, toList, ByteMap.values, ByteMap.toList, List.map_filterMap,
    List.filter_filterMap, List.map_filterMap, Roster.accounts]
  refine List.filterMap_congr fun k _ => ?_
  rw [roster_eq, player?, get?]
  cases t.sessions.get? k with
  | none => rfl
  | some x => cases login : x.initialized <;> simp [Option.filter_some, login]

theorem mem_authenticated {x : Session} (member : x ∈ t.authenticated) :
    ∃ slot, (t.roster slot).who = some (x.account, x.name) := by
  rcases List.mem_filter.mp member with ⟨listed, initialized⟩
  rcases ByteMap.mem_values.mp listed with ⟨slot, found⟩
  exact ⟨slot, who_roster.mpr ⟨x, found, initialized, rfl⟩⟩

end SessionTable

namespace Lobby

variable {l l' : Lobby} {m : Move}

theorem Changes.exclusive {sessions : SessionTable} (changes : l.Changes sessions)
    (proper : l.Proper) (exclusive : l.server.sessions.roster.Exclusive) :
    sessions.roster.Exclusive := by
  cases changes with
  | none same => exact same ▸ exclusive
  | allocate allocated =>
    rw [SessionTable.roster_allocate allocated]
    exact exclusive
  | remove slot =>
    rw [SessionTable.roster_remove]
    exact exclusive.update slot fun new vacant => nomatch vacant
  | seat under seated =>
    rcases proper.sound _ under with ⟨⟨token, names⟩, short⟩
    rw [SessionTable.roster_seat seated short]
    refine exclusive.update _ fun new taken => ?_
    cases taken
    exact ⟨of_decide_eq_true names.usable, SessionTable.roster_free seated⟩

theorem exclusive_run (proper : l.Proper) (exclusive : l.server.sessions.roster.Exclusive)
    (moves : List Move) : (l.run moves).server.sessions.roster.Exclusive := by
  induction moves generalizing l with
  | nil => exact exclusive
  | cons m rest ih =>
    exact ih (proper.after m) (((l.becomes_after m).changes proper).exclusive proper exclusive)

/-- At every moment, no two sessions are logged in with the same account, and every account that is
logged in has 1 to 64 bytes: in whatever order clients come and go and the steps of their logins are
taken, and whatever the account service says. -/
theorem run_accounts (settings : Settings) (points : List Vec3) (rolls : Nat → Nat)
    (moves : List Move) :
    let t := ((Lobby.start settings points rolls).run moves).server.sessions
    (t.authenticated.map (·.account)).Nodup ∧
    ∀ x ∈ t.authenticated, 1 ≤ x.account.utf8ByteSize ∧ x.account.utf8ByteSize ≤ 64 := by
  intro t
  have exclusive : t.roster.Exclusive := by
    refine exclusive_run (proper_start settings points rolls) ?_ moves
    show (SessionTable.empty settings.capacity).roster.Exclusive
    rw [SessionTable.roster_empty]
    exact Roster.exclusive_empty
  rw [SessionTable.map_account_authenticated]
  refine ⟨exclusive.distinct.nodup_accounts, fun x member => ?_⟩
  rcases SessionTable.mem_authenticated member with ⟨slot, seat⟩
  exact exclusive.usable slot _ seat

end Lobby

/-! ## Control connections have their own numbers -/

namespace Outlets

variable {o o' : Outlets}

theorem nextConnection_openControl (o : Outlets) (capacity : Nat) :
    (o.openControl capacity).nextConnection = o.nextConnection + 1 :=
  List.length_append

theorem nextConnection_offerControl (o : Outlets) (connection : Nat) (p : Packet) :
    (o.offerControl connection p).nextConnection = o.nextConnection :=
  List.length_modify ..

theorem nextConnection_offerAll (sessions : List Session) (p : Packet) (o : Outlets) :
    (sessions.foldl (fun o session => o.offerControl session.connection p) o).nextConnection =
      o.nextConnection := by
  induction sessions generalizing o with
  | nil => rfl
  | cons session rest ih => exact (ih _).trans (nextConnection_offerControl o _ p)

theorem nextConnection_offerDatagrams (updates : List Outbound) (o : Outlets) :
    (updates.foldl offerDatagram o).nextConnection = o.nextConnection := by
  induction updates generalizing o with
  | nil => rfl
  | cons out rest ih => exact ih _

theorem nextConnection_send {p : Packet} {route : Route} (sent : o.send p route = .ok o') :
    o'.nextConnection = o.nextConnection := by
  cases route with
  | control connection =>
    rw [send] at sent
    split at sent
    · cases sent
      exact List.length_set
    · cases sent
  | datagram target =>
    rw [send] at sent
    split at sent
    · cases sent
      rfl
    · cases sent

end Outlets

namespace Server

variable {s s' : Server}

/-- The number of the next control connection. -/
def nextConnection (s : Server) : Nat :=
  s.outlets.nextConnection

theorem nextConnection_submit {command : Command} (submitted : s.submit command = .ok s') :
    s'.nextConnection = s.nextConnection := by
  rcases submit_ok submitted with ⟨commands, rfl⟩
  rfl

theorem nextConnection_answer {origin : Address} {peer : Option Session} {p : Packet}
    (answered : s.answer origin peer p = .ok s') : s'.nextConnection = s.nextConnection := by
  rcases answer_ok answered with ⟨route, outlets, sent, rfl⟩
  exact Outlets.nextConnection_send sent

theorem nextConnection_fail (origin : Address) (peer : Option Session) (packet : Packet) :
    (s.fail origin peer packet).nextConnection = s.nextConnection := by
  unfold fail
  split
  · split
    · next answered => exact nextConnection_answer answered
    · rfl
  · rfl

theorem nextConnection_deliverAll (events : List Event) (s : Server) :
    (s.deliverAll events).1.nextConnection = s.nextConnection := by
  induction events generalizing s with
  | nil => rfl
  | cons event rest ih =>
    have first : (s.deliver event).1.nextConnection = s.nextConnection := by
      cases event with
      | reply slot p =>
        rw [deliver]
        split
        · exact Outlets.nextConnection_offerControl ..
        · rfl
      | achievement unlock => rfl
    exact (ih _).trans first

theorem nextConnection_step (now : Time) :
    (s.step now).server.nextConnection = s.nextConnection :=
  (nextConnection_deliverAll _ _).trans (Outlets.nextConnection_offerDatagrams _ _)

end Server

theorem Errand.nextConnection_advance (service : AccountService) (s : Server) (t : Errand) :
    (t.advance service s).1.nextConnection = s.nextConnection := by
  cases t with
  | fail r => exact Server.nextConnection_fail ..
  | tell line => exact Outlets.nextConnection_offerAll ..
  | look | ask | identify | seat | done =>
    unfold advance
    dsimp only
    repeat' split
    all_goals rfl
  | join | leave =>
    unfold advance
    dsimp only
    split
    all_goals first
      | rfl
      | next submitted => exact Server.nextConnection_submit submitted
  | accept | deny =>
    unfold advance
    dsimp only
    split
    · rfl
    · next answered => exact Server.nextConnection_answer answered

namespace Lobby

variable {l l' : Lobby} {m : Move}

theorem Becomes.nextConnection (turn : l.Becomes m l') :
    l.server.nextConnection ≤ l'.server.nextConnection := by
  cases turn with
  | full | ignored | foreign | absent | arrive | release => exact Nat.le_refl _
  | allocate _ =>
    rw [Server.nextConnection, Server.nextConnection, Outlets.nextConnection_openControl]
    exact Nat.le_succ _
  | advance _ => exact Nat.le_of_eq (Errand.nextConnection_advance ..).symm
  | step now => exact Nat.le_of_eq (Server.nextConnection_step now).symm

theorem nextConnection_run (l : Lobby) (moves : List Move) :
    l.server.nextConnection ≤ (l.run moves).server.nextConnection := by
  induction moves generalizing l with
  | nil => exact Nat.le_refl _
  | cons m rest ih => exact Nat.le_trans (l.becomes_after m).nextConnection (ih _)

/-! ## What becomes of a session -/

/-- What has become of the session of a slot after a change of the table. -/
inductive Entry (l : Lobby) (slot : UInt8) (x' : Session) : Prop
  | same : l.server.sessions.get? slot = some x' → Entry l slot x'
  /-- The slot was free, and the session is new. -/
  | new (address : Address) : l.server.sessions.get? slot = none →
    x' = .stub slot address l.server.nextConnection → Entry l slot x'
  /-- The session has been logged in. -/
  | login {x : Session} {r : Request} {account name : String} :
    .seat r account name ∈ l.errands → r.stub.slot = slot →
    l.server.sessions.get? slot = some x → x' = x.loggedIn account name → Entry l slot x'

theorem Changes.entry {sessions : SessionTable} (changes : l.Changes sessions) {slot : UInt8}
    {x' : Session} (found : sessions.get? slot = some x') : l.Entry slot x' := by
  cases changes with
  | none same => exact .same (same ▸ found)
  | allocate allocated =>
    rcases SessionTable.allocate_cases allocated with ⟨free, entries⟩
    rw [entries] at found
    split at found
    · next here =>
      subst here
      cases found
      exact .new _ free rfl
    · exact .same found
  | remove k =>
    rw [SessionTable.get?_remove] at found
    split at found
    · cases found
    · exact .same found
  | seat under seated =>
    rcases SessionTable.seat_cases seated with ⟨x, current, -, -, entries⟩
    rw [entries] at found
    split at found
    · next here =>
      cases found
      exact .login under here (here ▸ current) rfl
    · exact .same found

/-- Whether every session has the number of a control connection that there has been. -/
def Numbered (l : Lobby) : Prop :=
  ∀ slot x, l.server.sessions.get? slot = some x → x.connection < l.server.nextConnection

theorem Becomes.numbered (turn : l.Becomes m l') (proper : l.Proper) (numbered : l.Numbered) :
    l'.Numbered := by
  intro slot x' found
  cases turn with
  | full | ignored | foreign | absent | arrive => exact numbered slot x' found
  | @allocate address capacity free sessions allocated =>
    have next : l.server.nextConnection <
        (l.server.outlets.openControl capacity).nextConnection := by
      rw [Outlets.nextConnection_openControl]
      exact Nat.lt_succ_self _
    rw [(SessionTable.allocate_cases allocated).2] at found
    split at found
    · cases found
      exact next
    · exact Nat.lt_trans (numbered slot x' found) next
  | release _ =>
    rw [SessionTable.get?_remove] at found
    split at found
    · cases found
    · exact numbered slot x' found
  | @advance number service t _ =>
    rw [Errand.nextConnection_advance]
    rcases (t.steps_advance proper.receiving service).sessions with
      same | ⟨r, account, name, udp, -, seated⟩
    · exact numbered slot x' (same ▸ found)
    · rcases SessionTable.seat_cases seated with ⟨x, current, -, -, entries⟩
      rw [entries] at found
      split at found
      · cases found
        exact numbered _ x current
      · exact numbered slot x' found
  | step now =>
    rw [Server.nextConnection_step]
    rw [Server.sessions_step] at found
    exact numbered slot x' found

theorem numbered_start (settings : Settings) (points : List Vec3) (rolls : Nat → Nat) :
    (Lobby.start settings points rolls).Numbered := by
  intro slot x found
  cases (SessionTable.get?_empty settings.capacity).symm.trans found

theorem Numbered.run (numbered : l.Numbered) (proper : l.Proper) (moves : List Move) :
    (l.run moves).Numbered := by
  induction moves generalizing l with
  | nil => exact numbered
  | cons m rest ih => exact ih ((l.becomes_after m).numbered proper numbered) (proper.after m)

/-- A session that is not logged in does not come back to a slot. -/
theorem gone_run (proper : l.Proper) {slot : UInt8} {x : Session} (fresh : x.initialized = false)
    (older : x.connection < l.server.nextConnection)
    (gone : l.server.sessions.get? slot ≠ some x) (moves : List Move) :
    (l.run moves).server.sessions.get? slot ≠ some x := by
  induction moves generalizing l with
  | nil => exact gone
  | cons m rest ih =>
    have step := l.becomes_after m
    refine ih (proper.after m) (Nat.lt_of_lt_of_le older step.nextConnection) fun back => ?_
    cases (step.changes proper).entry back with
    | same before => exact gone before
    | new address _ same => exact Nat.lt_irrefl _ (congrArg Session.connection same ▸ older)
    | login _ _ _ same =>
      exact Bool.false_ne_true (fresh.symm.trans (congrArg (·.initialized) same))

/-! ## Where a login comes from -/

end Lobby

/-- The packet that an errand is about. -/
def Errand.request? : Errand → Option Request
  | .look r | .ask r _ | .identify r _ | .seat r _ _ | .join r _ _ _ => some r
  | .accept r _ | .deny r | .fail r => some r
  | .leave .. | .tell _ | .done => none

theorem Errand.request?_farewell (slot : UInt8) (x : Session) :
    (farewell slot x).request? = none := by
  unfold farewell
  split <;> rfl

theorem Errand.request?_advance {t : Errand} {service : AccountService} {s : Server} {r : Request}
    (about : (t.advance service s).2.request? = some r) : t.request? = some r := by
  cases t with
  | look | ask | identify | seat | join | accept | deny =>
    unfold advance at about
    dsimp only at about
    repeat' split at about
    all_goals first
      | exact about
      | cases about
  | fail | leave | tell | done => cases about

namespace Lobby

variable {l l' : Lobby} {m : Move}

/-- The login packet comes with the move of this number, and is handled on behalf of the session. -/
structure Arrived (l : Lobby) (moves : List Move) (number : Nat) (r : Request) : Prop where
  login : r.packet.id = PacketId.connect
  resolved : ∃ slot, moves[number]? = some (.arrive r.origin r.packet slot) ∧
    (l.run (moves.take number)).server.resolve r.origin slot = some r.stub

theorem Arrived.lt {moves : List Move} {number : Nat} {r : Request}
    (arrived : l.Arrived moves number r) : number < moves.length := by
  rcases arrived.resolved with ⟨slot, here, -⟩
  exact (List.getElem?_eq_some_iff.mp here).1

theorem Arrived.append {moves : List Move} {number : Nat} {r : Request}
    (arrived : l.Arrived moves number r) (later : List Move) :
    l.Arrived (moves ++ later) number r where
  login := arrived.login
  resolved := by
    rcases arrived.resolved with ⟨slot, here, resolved⟩
    refine ⟨slot, ?_, ?_⟩
    · rw [List.getElem?_append_left arrived.lt, here]
    · rw [List.take_append_of_le_length (Nat.le_of_lt arrived.lt), resolved]

/-- An errand after a move is about a packet that comes with the move, or that one was about
before. -/
theorem Becomes.about (turn : l.Becomes m l') {t' : Errand} (under : t' ∈ l'.errands) {r : Request}
    (about : t'.request? = some r) :
    (∃ t ∈ l.errands, t.request? = some r) ∨ l.Arrived [m] 0 r := by
  cases turn with
  | full | ignored | foreign | absent | allocate | step => exact .inl ⟨t', under, about⟩
  | arrive login resolved =>
    rcases List.mem_append.mp under with old | new
    · exact .inl ⟨t', old, about⟩
    · cases List.mem_singleton.mp new
      cases about
      exact .inr ⟨login, _, rfl, resolved⟩
  | release _ =>
    rcases List.mem_append.mp under with old | new
    · exact .inl ⟨t', old, about⟩
    · cases List.mem_singleton.mp new
      cases (Errand.request?_farewell _ _).symm.trans about
  | @advance number service t found =>
    rcases List.mem_or_eq_of_mem_set under with old | rfl
    · exact .inl ⟨t', old, about⟩
    · exact .inl ⟨t, List.mem_of_getElem? found, Errand.request?_advance about⟩

/-- Every errand that is about a packet goes back to the arrival of that packet. -/
theorem arrived_of_mem (none : l.errands = []) {moves : List Move} {t : Errand}
    (under : t ∈ (l.run moves).errands) {r : Request} (about : t.request? = some r) :
    ∃ number, l.Arrived moves number r := by
  induction moves using List.reverseRecOn generalizing t with
  | nil =>
    rw [run, List.foldl_nil, none] at under
    cases under
  | append_singleton moves m ih =>
    rw [run_concat] at under
    rcases ((l.run moves).becomes_after m).about under about with ⟨earlier, old, same⟩ | arrived
    · rcases ih old same with ⟨number, arrived⟩
      exact ⟨number, arrived.append [m]⟩
    · rcases arrived.resolved with ⟨slot, here, resolved⟩
      refine ⟨moves.length, arrived.login, slot, ?_, ?_⟩
      · rwa [List.getElem?_append_right (Nat.le_refl _), Nat.sub_self]
      · rwa [List.take_left]

/-! ## What a login binds to -/

/-- The session for which a packet arrived is still in its slot, and not logged in, if and only if
the slot has kept it at all times since. -/
theorem Arrived.kept_iff {moves : List Move} {number : Nat} {r : Request}
    (arrived : l.Arrived moves number r) (proper : l.Proper) (numbered : l.Numbered)
    (fresh : r.stub.initialized = false) :
    (l.run moves).server.sessions.get? r.stub.slot = some r.stub ↔
      ∀ n, number ≤ n →
        (l.run (moves.take n)).server.sessions.get? r.stub.slot = some r.stub := by
  refine ⟨fun kept n later => ?_, fun always => ?_⟩
  · rcases arrived.resolved with ⟨slot, -, resolved⟩
    have current := Server.get?_of_resolve (proper.run _).indexed resolved
    have front : moves.take number = (moves.take n).take number := by
      rw [List.take_take, Nat.min_eq_left later]
    have older : r.stub.connection < (l.run (moves.take n)).server.nextConnection := by
      rw [← List.take_append_drop number (moves.take n), run_append, ← front]
      exact Nat.lt_of_lt_of_le (numbered.run proper _ _ _ current) (nextConnection_run _ _)
    refine Classical.byContradiction fun gone => ?_
    refine gone_run (proper.run _) fresh older gone (moves.drop n) ?_
    rw [← run_append, List.take_append_drop]
    exact kept
  · have last := always moves.length (Nat.le_of_lt arrived.lt)
    rwa [List.take_length] at last

/-- The session of a slot after a run and another move is the one that was there, or a new one in a
free slot, or the one that was there once it has been logged in. A login goes back to a login packet
that names the account, and that arrived for a session in this very slot which was not logged in.
Whether it is that session which gets logged in depends on nothing but whether the slot has kept it,
as it was, at all times between the packet's arrival and the login. -/
theorem run_entry (settings : Settings) (points : List Vec3) (rolls : Nat → Nat)
    (moves : List Move) (m : Move) {slot : UInt8} {x' : Session}
    (found : ((Lobby.start settings points rolls).run (moves ++ [m])).server.sessions.get? slot =
      some x') :
    let start := Lobby.start settings points rolls
    let before := (start.run moves).server.sessions.get? slot
    before = some x' ∨
    (before = none ∧ x'.initialized = false) ∨
    ∃ x account name token number r, before = some x ∧ x' = x.loggedIn account name ∧
      start.Arrived moves number r ∧ r.stub.slot = slot ∧ r.stub.initialized = false ∧
      Credentials.ofPacket r.packet = .ok ⟨account, token⟩ ∧
      (x = r.stub ↔ ∀ n, number ≤ n →
        (start.run (moves.take n)).server.sessions.get? slot = some r.stub) := by
  intro start before
  have proper := proper_start settings points rolls
  have step := (start.run moves).becomes_after m
  rw [run_concat] at found
  cases (step.changes (proper.run moves)).entry found with
  | same unchanged => exact .inl unchanged
  | new address free same =>
    subst same
    exact .inr (.inl ⟨free, rfl⟩)
  | @login x r account name under here current same =>
    rcases ((proper.run moves).sound _ under).1 with ⟨token, names⟩
    rcases arrived_of_mem rfl under rfl with ⟨number, arrived⟩
    refine .inr (.inr ⟨x, account, name, token, number, r, current, same, arrived, here,
      names.stub, names.read, ?_⟩)
    subst here
    rw [← arrived.kept_iff proper (numbered_start settings points rolls) names.stub]
    exact ⟨fun own => own ▸ current, fun kept => Option.some.inj (current.symm.trans kept)⟩

/-! ### Logins that go right, and astray -/

/-- Whether a packet comes. -/
def Move.isArrival : Move → Bool
  | .arrive .. => true
  | .allocate .. | .release .. | .advance .. | .step _ => false

/-- Where one packet comes only, it is this one that was resolved. -/
theorem Arrived.resolved_of_unique {moves before after : List Move} {origin : Address}
    {packet : Packet} {slot : Option UInt8} {number : Nat} {r : Request}
    (arrived : l.Arrived moves number r)
    (one : moves = before ++ .arrive origin packet slot :: after)
    (only : (before ++ after).all fun m => !m.isArrival) :
    (l.run before).server.resolve origin slot = some r.stub := by
  have quiet {m : Move} (member : m ∈ before ++ after) : m.isArrival = false := by
    simpa using List.all_eq_true.mp only m member
  rcases arrived.resolved with ⟨found, here, resolved⟩
  subst one
  rcases Nat.lt_trichotomy number before.length with earlier | rfl | later
  · rw [List.getElem?_append_left earlier] at here
    exact nomatch quiet (List.mem_append_left after (List.mem_of_getElem? here))
  · rw [List.getElem?_append_right (Nat.le_refl _), Nat.sub_self] at here
    cases here
    rwa [List.take_left] at resolved
  · rw [List.getElem?_append_right (Nat.le_of_lt later), List.getElem?_cons,
      if_neg (Nat.sub_ne_zero_of_lt later)] at here
    exact nomatch quiet (List.mem_append_right before (List.mem_of_getElem? here))

/-- A client, its session once it has shaken hands, and the server by then. -/
def visitor : Address := ⟨some ⟨"10.0.0.1", 1000⟩, some ⟨"10.0.0.1", 2000⟩⟩

def visitorStub : Session := .stub 0 visitor 0

def visited : Server :=
  { (Server.start Settings.default [] fun _ => 0) with
    sessions := ⟨16, ByteMap.empty.insert 0 visitorStub⟩
    outlets := (Server.start Settings.default [] fun _ => 0).outlets.openControl 64 }

theorem get?_visited : visited.sessions.get? 0 = some visitorStub :=
  ByteMap.get?_put_self _ _ _

theorem free_visited (account : String) : visited.sessions.findByAccount? account = none := by
  refine SessionTable.findByAccount?_eq_none fun k x found initialized => ?_
  rw [SessionTable.get?, visited, ByteMap.get?_insert, ByteMap.get?_empty] at found
  split at found
  · cases found
    cases initialized
  · cases found

/-- A login packet of the client, as a datagram. -/
def visitorRequest (account : UInt8) : Request :=
  ⟨⟨none, visitor.udp⟩, visitorStub, .udp PacketId.connect [account, 0, 116, 0]⟩

theorem names_visitorRequest : (visitorRequest 97).Names ⟨"a", "t"⟩ ∧
    (visitorRequest 98).Names ⟨"b", "t"⟩ :=
  ⟨⟨rfl, rfl, rfl⟩, ⟨rfl, rfl, rfl⟩⟩

/-- The client asks to be logged in as `a`. -/
def asking : List Move :=
  [.allocate visitor 64, .arrive (visitorRequest 97).origin (visitorRequest 97).packet none] ++
    thinking 0 .allowAll

theorem run_asking :
    (Lobby.start Settings.default [] fun _ => 0).run asking =
      ⟨visited, [.seat (visitorRequest 97) "a" "a"]⟩ := by
  have met : (Lobby.start Settings.default [] fun _ => 0).run
      [.allocate visitor 64, .arrive (visitorRequest 97).origin (visitorRequest 97).packet none] =
      ⟨visited, [.look (visitorRequest 97)]⟩ := rfl
  have thought : Lobby.run ⟨visited, [.look (visitorRequest 97)]⟩ (thinking 0 .allowAll) =
      ⟨visited, [.seat (visitorRequest 97) "a" (Player.clampName "a")]⟩ :=
    run_thinking (l := ⟨visited, [.look (visitorRequest 97)]⟩) rfl names_visitorRequest.1
      (free_visited "a") rfl
  rw [asking, run_append, met, thought]
  rfl

/-- The server when the client plays as `a`. -/
def entered : Server :=
  { visited with sessions := visited.sessions.authenticate 0 "a" "a" }

theorem get?_entered (k : UInt8) :
    entered.sessions.get? k = if 0 = k then some (visitorStub.loggedIn "a" "a") else none := by
  rw [entered, SessionTable.get?_authenticate, get?_visited]
  split
  · rfl
  · next away =>
    rw [SessionTable.get?, visited, ByteMap.get?_insert, ByteMap.get?_empty, if_neg away]

theorem free_entered : entered.sessions.findByAccount? "b" = none := by
  refine SessionTable.findByAccount?_eq_none fun k x found _ => ?_
  rw [get?_entered] at found
  split at found
  · cases found
    decide
  · cases found

theorem after_asking (later : List Errand) :
    Lobby.after ⟨visited, .seat (visitorRequest 97) "a" "a" :: later⟩ (.advance 0 .allowAll) =
      ⟨entered, .join (visitorRequest 97) "a" "a" visitor.udp :: later⟩ :=
  after_seat (l := ⟨visited, .seat (visitorRequest 97) "a" "a" :: later⟩) (r := visitorRequest 97)
    (x := visitorStub) rfl (free_visited "a") get?_visited .allowAll

/-- The packet of the client is resolved to its session. -/
theorem stub_of_arrived {moves after : List Move} {number : Nat} {r : Request}
    (arrived : (Lobby.start Settings.default [] fun _ => 0).Arrived moves number r)
    (one : moves = asking ++ after) (only : after.all fun m => !m.isArrival) :
    r.stub = visitorStub := by
  have split : moves = [.allocate visitor 64] ++
      .arrive (visitorRequest 97).origin (visitorRequest 97).packet none ::
        (thinking 0 .allowAll ++ after) := one
  have resolved := arrived.resolved_of_unique split only
  have here : Server.resolve
      ((Lobby.start Settings.default [] fun _ => 0).run [.allocate visitor 64]).server
      (visitorRequest 97).origin none = some visitorStub := rfl
  exact Option.some.inj (resolved.symm.trans here)

/-- Left alone, the client gets logged in, as the session for which its packet came and which has
been there all along. -/
theorem run_entry_asking :
    let start := Lobby.start Settings.default [] fun _ => 0
    (start.run (asking ++ [.advance 0 .allowAll])).server.sessions.get? 0 =
      some (visitorStub.loggedIn "a" "a") ∧
    ∃ number r, start.Arrived asking number r ∧ r.stub = visitorStub ∧
      ∀ n, number ≤ n →
        (start.run (asking.take n)).server.sessions.get? 0 = some visitorStub := by
  dsimp only
  have before : ((Lobby.start Settings.default [] fun _ => 0).run asking).server.sessions.get? 0 =
      some visitorStub := by
    rw [run_asking]
    exact get?_visited
  have found : ((Lobby.start Settings.default [] fun _ => 0).run
      (asking ++ [.advance 0 .allowAll])).server.sessions.get? 0 =
      some (visitorStub.loggedIn "a" "a") := by
    rw [run_concat, run_asking, after_asking]
    exact get?_entered 0
  have entry := run_entry Settings.default [] (fun _ => 0) asking (.advance 0 .allowAll) found
  dsimp only at entry
  rw [before] at entry
  rcases entry with
    same | ⟨free, -⟩ | ⟨x, account, name, token, number, r, current, -, arrived, -, -, -, bound⟩
  · cases congrArg (Option.map (·.initialized)) same
  · cases free
  · have stub : r.stub = visitorStub := stub_of_arrived arrived (List.append_nil _).symm rfl
    cases current
    have kept := bound.mp stub.symm
    rw [stub] at kept
    exact ⟨found, number, r, arrived, stub, kept⟩

/-- The client leaves while the account service is asked, and another gets the slot. -/
def recycledSlot : List Move :=
  asking ++ [.release 0 visitor.tcp, .allocate ⟨some ⟨"10.0.0.2", 1000⟩, none⟩ 64]

def otherStub : Session := .stub 0 ⟨some ⟨"10.0.0.2", 1000⟩, none⟩ 1

/-- The table when the other has got the slot. -/
def recycled : SessionTable :=
  ⟨16, (visited.sessions.sessions.erase 0).insert 0 otherStub⟩

/-- The server by then. -/
def recycledServer : Server :=
  { visited with
    sessions := recycled
    outlets := visited.outlets.openControl 64 }

theorem get?_recycled : recycled.get? 0 = some otherStub :=
  ByteMap.get?_put_self _ _ _

theorem free_recycled (account : String) : recycled.findByAccount? account = none := by
  refine SessionTable.findByAccount?_eq_none fun k x found initialized => ?_
  rw [SessionTable.get?, recycled, ByteMap.get?_insert] at found
  split at found
  · cases found
    cases initialized
  · next away =>
    rw [ByteMap.get?_erase, visited, ByteMap.get?_insert, ByteMap.get?_empty, if_neg away,
      if_neg away] at found
    cases found

/-- Of the first client nothing is left but the errand, which knows the slot. -/
theorem run_recycledSlot :
    (Lobby.start Settings.default [] fun _ => 0).run recycledSlot =
      ⟨recycledServer, [.seat (visitorRequest 97) "a" "a", .done]⟩ := by
  rw [recycledSlot, run_append, run_asking]
  rfl

/-- The client asks to be logged in as `a` and as `b`, one datagram right after the other, and
becomes `a`. -/
def secondLogin : List Move :=
  [.allocate visitor 64, .arrive (visitorRequest 97).origin (visitorRequest 97).packet none,
    .arrive (visitorRequest 98).origin (visitorRequest 98).packet none] ++
  thinking 0 .allowAll ++ thinking 1 .allowAll ++ [.advance 0 .allowAll]

theorem run_secondLogin :
    (Lobby.start Settings.default [] fun _ => 0).run secondLogin =
      ⟨entered, [.join (visitorRequest 97) "a" "a" visitor.udp,
        .seat (visitorRequest 98) "b" "b"]⟩ := by
  have met : (Lobby.start Settings.default [] fun _ => 0).run
      [.allocate visitor 64, .arrive (visitorRequest 97).origin (visitorRequest 97).packet none,
        .arrive (visitorRequest 98).origin (visitorRequest 98).packet none] =
      ⟨visited, [.look (visitorRequest 97), .look (visitorRequest 98)]⟩ := rfl
  have first : Lobby.run ⟨visited, [.look (visitorRequest 97), .look (visitorRequest 98)]⟩
      (thinking 0 .allowAll) =
      ⟨visited, [.seat (visitorRequest 97) "a" (Player.clampName "a"),
        .look (visitorRequest 98)]⟩ :=
    run_thinking (l := ⟨visited, [.look (visitorRequest 97), .look (visitorRequest 98)]⟩) rfl
      names_visitorRequest.1 (free_visited "a") rfl
  have second : Lobby.run ⟨visited, [.seat (visitorRequest 97) "a" "a", .look (visitorRequest 98)]⟩
      (thinking 1 .allowAll) =
      ⟨visited, [.seat (visitorRequest 97) "a" "a",
        .seat (visitorRequest 98) "b" (Player.clampName "b")]⟩ :=
    run_thinking (l := ⟨visited, [.seat (visitorRequest 97) "a" "a", .look (visitorRequest 98)]⟩)
      rfl names_visitorRequest.2 (free_visited "b") rfl
  have names : Player.clampName "a" = "a" ∧ Player.clampName "b" = "b" := by decide
  rw [names.1] at first
  rw [names.2] at second
  rw [secondLogin, run_concat, run_append, run_append, met, first, second, after_asking]

/-- A client gets logged in that has asked for nothing: the one packet that came was resolved to the
session that had the slot before. And a session that is logged in as `a` becomes `b`. -/
theorem logins_astray :
    let start := Lobby.start Settings.default [] fun _ => 0
    ((start.run recycledSlot).server.sessions.get? 0 = some otherStub ∧
      (start.run (recycledSlot ++ [.advance 0 .allowAll])).server.sessions.get? 0 =
        some (otherStub.loggedIn "a" "a") ∧
      ∀ number r, start.Arrived (recycledSlot ++ [.advance 0 .allowAll]) number r →
        r.stub = visitorStub) ∧
    (start.run secondLogin).server.sessions.get? 0 = some (visitorStub.loggedIn "a" "a") ∧
    (start.run (secondLogin ++ [.advance 1 .allowAll])).server.sessions.get? 0 =
      some (visitorStub.loggedIn "b" "b") := by
  dsimp only
  refine ⟨?_, ?_⟩
  · have seated : Lobby.after ⟨recycledServer, [.seat (visitorRequest 97) "a" "a", .done]⟩
        (.advance 0 .allowAll) =
        ⟨{ recycledServer with sessions := recycled.authenticate 0 "a" "a" },
          [.join (visitorRequest 97) "a" "a" none, .done]⟩ :=
      after_seat (l := ⟨recycledServer, [.seat (visitorRequest 97) "a" "a", .done]⟩)
        (r := visitorRequest 97) (x := otherStub) rfl (free_recycled "a") get?_recycled .allowAll
    refine ⟨?_, ?_, fun number r arrived => ?_⟩
    · rw [run_recycledSlot]
      exact get?_recycled
    · rw [run_concat, run_recycledSlot, seated, SessionTable.get?_authenticate, get?_recycled]
      rfl
    · exact stub_of_arrived arrived (List.append_assoc asking _ _) rfl
  · have seated : Lobby.after ⟨entered, [.join (visitorRequest 97) "a" "a" visitor.udp,
        .seat (visitorRequest 98) "b" "b"]⟩ (.advance 1 .allowAll) =
        ⟨{ entered with sessions := entered.sessions.authenticate 0 "b" "b" },
          [.join (visitorRequest 97) "a" "a" visitor.udp,
            .join (visitorRequest 98) "b" "b" visitor.udp]⟩ :=
      after_seat (l := ⟨entered, [.join (visitorRequest 97) "a" "a" visitor.udp,
        .seat (visitorRequest 98) "b" "b"]⟩) (r := visitorRequest 98)
        (x := visitorStub.loggedIn "a" "a") rfl free_entered (get?_entered 0) .allowAll
    refine ⟨?_, ?_⟩
    · rw [run_secondLogin]
      exact get?_entered 0
    · rw [run_concat, run_secondLogin, seated, SessionTable.get?_authenticate, get?_entered]
      rfl

end Lobby

end Deathmatch
