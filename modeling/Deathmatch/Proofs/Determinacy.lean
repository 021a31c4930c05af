import Deathmatch.Proofs.Baseline
import Deathmatch.Proofs.Overlay

/-!
# What packets determine

Two runs have the same players, who all join before the first tick and stay (`SettledRun`), and one
client is sent the same packets in both. How much of the state is then the same?

Not all of it. A packet does not say against which snapshot it was made, so a field that it leaves
out is in each run as it was in the baseline there (`Snapshot.view_eq_iff`). The client is meant to
show the same in both runs just when these baselines had the same values. That is so at every tick
if the baselines have the same numbers at every tick. Two runs whose baselines differ may send the
same packets of different states.
-/

namespace Deathmatch

/-! ## Snapshots of the same players -/

/-- The slot, the account and the name of a player. -/
def Player.seat (p : Player) : UInt8 × String × String :=
  (p.slot, p.account, p.name)

namespace Snapshot

/-- The snapshot without the players of an account. -/
def without (s : Snapshot) (account : String) : Snapshot :=
  { s with players := s.players.filter fun p => p.account ≠ account }

/-- The value that a field of an account has in the snapshot. -/
def known (s : Snapshot) (account : String) (f : Field) : Option FieldValue :=
  (s.playerOf? account).map f.value

/-- Whether the same players stand in the same slots. -/
def SameCast (s t : Snapshot) : Prop :=
  s.players.map Player.seat = t.players.map Player.seat

namespace SameCast

variable {s t : Snapshot}

theorem inSlot? (cast : s.SameCast t) (slot : UInt8) :
    (s.inSlot? slot).map Player.seat = (t.inSlot? slot).map Player.seat := by
  have found := congrArg (List.find? fun seat => decide (seat.1 = slot)) cast
  rwa [List.find?_map, List.find?_map] at found

theorem playerOf? (cast : s.SameCast t) (account : String) :
    (s.playerOf? account).map Player.seat = (t.playerOf? account).map Player.seat := by
  have found := congrArg (List.find? fun seat => decide (seat.2.1 = account)) cast
  rwa [List.find?_map, List.find?_map] at found

/-- A player of one snapshot stands in the other too. -/
theorem exists_mem (cast : s.SameCast t) {p : Player} (member : p ∈ s.players) :
    ∃ q ∈ t.players, q.seat = p.seat := by
  have seated : p.seat ∈ t.players.map Player.seat := cast ▸ List.mem_map_of_mem member
  exact List.mem_map.mp seated

/-- Players in one slot are the same. -/
theorem seat_eq (cast : s.SameCast t) (regular : t.Regular) {p q : Player}
    (left : p ∈ s.players) (right : q ∈ t.players) (same : q.slot = p.slot) : q.seat = p.seat := by
  obtain ⟨other, member, seat⟩ := cast.exists_mem left
  have slots : q.slot = other.slot := same.trans (congrArg (·.1) seat).symm
  have alone := regular.filter_slot member
  have listed : q ∈ t.players.filter (fun r => r.slot = other.slot) :=
    List.mem_filter.mpr ⟨right, decide_eq_true slots⟩
  rw [alone] at listed
  rw [List.mem_singleton.mp listed, seat]

end SameCast

theorem Regular.without {s : Snapshot} (regular : s.Regular) (account : String) :
    (s.without account).Regular where
  slots := (List.filter_sublist.map _).nodup regular.slots
  names p member := regular.names p (List.mem_filter.mp member).1

theorem Regular.view_without {s : Snapshot} (regular : s.Regular) {account : String} {p : Player}
    (member : p ∈ s.players) (other : p.account ≠ account) (f : Field) :
    View.of (s.without account) p.slot f = some (f.value p) := by
  have stays : p ∈ (s.without account).players :=
    List.mem_filter.mpr ⟨member, decide_eq_true other⟩
  exact View.of_mem (regular.without account) stays f

/-- Two snapshots of the same players show the same of all accounts but one just when the other
players have the same values. -/
theorem view_without_eq_iff {s t : Snapshot} (left : s.Regular) (right : t.Regular)
    (cast : s.SameCast t) (account : String) :
    View.of (s.without account) = View.of (t.without account) ↔
      ∀ p ∈ s.players, p.account ≠ account → ∀ q ∈ t.players, q.seat = p.seat →
        ∀ f : Field, f.value p = f.value q := by
  constructor
  · intro same p inLeft other q inRight seat f
    have slot : q.slot = p.slot := congrArg (·.1) seat
    have otherToo : q.account ≠ account := by
      rwa [show q.account = p.account from congrArg (·.2.1) seat]
    have shown := congrFun (congrFun same p.slot) f
    rw [left.view_without inLeft other, ← slot, right.view_without inRight otherToo] at shown
    exact Option.some.inj shown
  · intro values
    have casts : (s.without account).SameCast (t.without account) := by
      have kept := congrArg (List.filter fun seat => decide (seat.2.1 ≠ account)) cast
      rwa [List.filter_map, List.filter_map] at kept
    funext slot f
    have seats := casts.inSlot? slot
    rw [View.of, View.of]
    cases foundLeft : (s.without account).inSlot? slot with
    | none =>
      rw [foundLeft, Option.map_none, eq_comm, Option.map_eq_none_iff] at seats
      rw [seats]
    | some p =>
      rw [foundLeft, Option.map_some, eq_comm, Option.map_eq_some_iff] at seats
      rcases seats with ⟨q, foundRight, seat⟩
      obtain ⟨memberLeft, -⟩ := (left.without account).inSlot?_eq_some_iff.mp foundLeft
      rcases (right.without account).inSlot?_eq_some_iff.mp foundRight with ⟨memberRight, -⟩
      obtain ⟨inLeft, other⟩ := List.mem_filter.mp memberLeft
      rw [foundRight, Option.map_some, Option.map_some,
        values p inLeft (of_decide_eq_true other) q (List.mem_filter.mp memberRight).1 seat f]

/-- Snapshots of the same players that show the same of an account have the same values of it. -/
theorem known_eq {s t : Snapshot} (left : s.Regular) (right : t.Regular) (cast : s.SameCast t)
    {account other : String} (apart : other ≠ account)
    (same : View.of (s.without account) = View.of (t.without account)) (f : Field) :
    s.known other f = t.known other f := by
  have seats := cast.playerOf? other
  rw [known, known]
  cases foundLeft : s.playerOf? other with
  | none =>
    rw [foundLeft, Option.map_none, eq_comm, Option.map_eq_none_iff] at seats
    rw [seats]
  | some p =>
    rw [foundLeft, Option.map_some, eq_comm, Option.map_eq_some_iff] at seats
    rcases seats with ⟨q, foundRight, seat⟩
    have accountIs : p.account = other := by simpa using List.find?_some foundLeft
    rw [foundRight, Option.map_some, Option.map_some,
      (view_without_eq_iff left right cast account).mp same p
        (List.mem_of_find?_eq_some foundLeft) (accountIs ▸ apart) q
        (List.mem_of_find?_eq_some foundRight) seat f]

end Snapshot

/-- The fields left out are those that the account had in the baseline already. -/
theorem Player.not_mem_changedFields {p : Player} {baseline : Option Snapshot} {f : Field} :
    f ∉ p.changedFields (baseline.bind fun b => b.playerOf? p.account) ↔
      ∃ b, baseline = some b ∧ b.known p.account f = some (f.value p) := by
  cases baseline with
  | none => simp [changedFields, f.mem_all]
  | some b =>
    cases found : b.playerOf? p.account with
    | none => simp [changedFields, f.mem_all, found, Snapshot.known]
    | some old => simp [changedFields, f.mem_all, found, Snapshot.known]

/-! ## Equal broadcasts -/

namespace Snapshot

variable {s t : Snapshot} {receiver : String} {base base' : Option Snapshot}

/-- The packets of a broadcast determine what it reports, among snapshots of the same players. -/
theorem reports_eq (left : s.Regular) (right : t.Regular) (cast : s.SameCast t)
    (same : s.broadcast receiver base = t.broadcast receiver base') :
    s.reports receiver base = t.reports receiver base' := by
  have bytes := congrArg bodies same
  rw [left.bodies_broadcast, right.bodies_broadcast] at bytes
  refine Report.flatMap_bytes_inj ?_ bytes
  intro x inLeft y inRight slots e inEntries d inOthers fields
  obtain ⟨p, inPlayers, rfl⟩ := List.mem_map.mp (List.mem_filter.mp inLeft).1
  rcases List.mem_map.mp (List.mem_filter.mp inRight).1 with ⟨q, inPlayers', rfl⟩
  obtain ⟨f, -, rfl⟩ := List.mem_map.mp inEntries
  rcases List.mem_map.mp inOthers with ⟨g, -, rfl⟩
  have seat := cast.seat_eq right (List.mem_filter.mp inPlayers).1 (List.mem_filter.mp inPlayers').1
    slots.symm
  have names : p.name = q.name := (congrArg (·.2.2) seat).symm
  cases (show f = g from fields)
  exact f.value_parted (Or.inl names)

/-- Equal broadcasts list the same fields of a player, with the same values. -/
theorem changedFields_eq (left : s.Regular) (right : t.Regular) (cast : s.SameCast t)
    (same : s.broadcast receiver base = t.broadcast receiver base') {p q : Player}
    (inLeft : p ∈ s.players) (other : p.account ≠ receiver) (inRight : q ∈ t.players)
    (seat : q.seat = p.seat) :
    p.changedFields (base.bind fun b => b.playerOf? p.account) =
        q.changedFields (base'.bind fun b => b.playerOf? q.account) ∧
      ∀ f ∈ p.changedFields (base.bind fun b => b.playerOf? p.account), f.value p = f.value q := by
  have slot : q.slot = p.slot := congrArg (·.1) seat
  have otherToo : q.account ≠ receiver := by
    rwa [show q.account = p.account from congrArg (·.2.1) seat]
  have entries := left.entriesAt_reports base inLeft other
  rw [reports_eq left right cast same, ← slot, right.entriesAt_reports base' inRight otherToo]
    at entries
  have fields : q.changedFields (base'.bind fun b => b.playerOf? q.account) =
      p.changedFields (base.bind fun b => b.playerOf? p.account) := by
    have tags := congrArg (List.map (·.1)) entries
    rw [Player.report, Player.report, List.map_map, List.map_map] at tags
    exact (List.map_id _).symm.trans (tags.trans (List.map_id _))
  refine ⟨fields.symm, fun f listed => ?_⟩
  rw [Player.report, Player.report, fields] at entries
  exact (congrArg (·.2) (List.map_inj_left.mp entries f listed)).symm

/-- When two snapshots of the same players are broadcast by the same packets, they show the receiver
the same just when the baselines agree in all that is left out. -/
theorem view_eq_iff (left : s.Regular) (right : t.Regular) (cast : s.SameCast t)
    (same : s.broadcast receiver base = t.broadcast receiver base') :
    View.of (s.without receiver) = View.of (t.without receiver) ↔
      ∀ b b', base = some b → base' = some b' → ∀ p ∈ s.players, p.account ≠ receiver →
        ∀ f : Field, b.known p.account f = some (f.value p) →
          b'.known p.account f = b.known p.account f := by
  rw [view_without_eq_iff left right cast]
  constructor
  · intro values b b' baseIs baseIs' p inLeft other f unchanged
    obtain ⟨q, inRight, seat⟩ := cast.exists_mem inLeft
    rcases changedFields_eq left right cast same inLeft other inRight seat with ⟨fields, -⟩
    have unlisted := Player.not_mem_changedFields.mpr ⟨b, baseIs, unchanged⟩
    rw [fields] at unlisted
    obtain ⟨c, cIs, unchanged'⟩ := Player.not_mem_changedFields.mp unlisted
    rw [baseIs'] at cIs
    cases cIs
    rw [show q.account = p.account from congrArg (·.2.1) seat] at unchanged'
    rw [unchanged, unchanged', values p inLeft other q inRight seat f]
  · intro agree p inLeft other q inRight seat f
    rcases changedFields_eq left right cast same inLeft other inRight seat with ⟨fields, listed⟩
    by_cases written : f ∈ p.changedFields (base.bind fun b => b.playerOf? p.account)
    · exact listed f written
    · obtain ⟨b, baseIs, unchanged⟩ := Player.not_mem_changedFields.mp written
      rw [fields] at written
      rcases Player.not_mem_changedFields.mp written with ⟨b', baseIs', unchanged'⟩
      rw [show q.account = p.account from congrArg (·.2.1) seat,
        agree b b' baseIs baseIs' p inLeft other f unchanged, unchanged] at unchanged'
      exact Option.some.inj unchanged'

end Snapshot

/-! ## Runs of the same players -/

/-- A run in which all players join before the first tick, and stay. -/
structure SettledRun where
  interval : Span
  points : List Vec3
  rolls : Nat → Nat
  /-- What happens before the first tick. -/
  opening : List World.Step
  steps : List World.Step
  unticked : (World.empty interval points rolls).beats opening = []
  settled : ∀ step ∈ steps, step.seats = false

theorem Beat.map_seat_shot {b : Beat} (seated : b.world.Seated) :
    b.shot.players.map Player.seat =
      ByteMap.allKeys.filterMap fun k => (b.moved.cast k).map fun c => (k, c) := by
  show (b.moved.players.toList.map (·.2)).map Player.seat = _
  rw [List.map_map, ByteMap.toList, List.map_filterMap]
  apply List.filterMap_congr
  intro k _
  rw [World.cast, Option.map_map, Option.map_map]
  cases found : b.moved.players.get? k with
  | none => rfl
  | some p =>
    obtain ⟨slot, -⟩ := seated.moved k p found
    subst slot
    rfl

namespace SettledRun

/-- The world before the first tick. -/
def start (m : SettledRun) : World :=
  (World.empty m.interval m.points m.rolls).run m.opening

def beats (m : SettledRun) : List Beat :=
  m.start.beats m.steps

/-- What is known of the world that ticks as number `k`. -/
structure Ticks (m : SettledRun) (k : Nat) (b : Beat) : Prop where
  seated : b.world.Seated
  cast : b.world.cast = m.start.cast
  endpoints : b.world.endpoints = m.start.endpoints
  records : b.world.history.Records (m.beats.take k)
  tracks : ∀ slot, ∃ r : Receipt, r.Tracks b.world slot (m.beats.take k)

variable {m n : SettledRun} {k : Nat} {b c : Beat} {slot : UInt8}

theorem ticks_of_getElem? (short : m.beats.length < UInt32.size) (found : m.beats[k]? = some b) :
    m.Ticks k b := by
  rcases World.split_beats found with ⟨before, rest, split, worldIs, taken⟩
  have settled : ∀ step ∈ before, step.seats = false := fun step member =>
    m.settled step (split ▸ List.mem_append_left _ member)
  obtain ⟨cast, endpoints⟩ := World.settled_run (w := m.start) settled
  have whole : b.world = (World.empty m.interval m.points m.rolls).run (m.opening ++ before) := by
    rw [World.run_append]
    exact worldIs
  have beatsBefore : (World.empty m.interval m.points m.rolls).beats (m.opening ++ before) =
      m.beats.take k := by
    rw [World.beats_append, m.unticked]
    exact taken
  have few : (m.beats.take k).length ≤ UInt32.size :=
    Nat.le_trans (List.length_take_le' _ _) (Nat.le_of_lt short)
  refine ⟨?_, ?_, ?_, ?_, ?_⟩
  · rw [whole]
    exact (World.seated_empty m.interval m.points m.rolls).run _
  · rw [worldIs, cast]
  · rw [worldIs, endpoints]
  · rw [whole, ← beatsBefore]
    exact World.run_records (World.records_empty _ _ _) _ (beatsBefore ▸ few)
  · intro slot
    rw [whole, ← beatsBefore]
    exact ⟨_, Receipt.tracks_run_empty _ _ _ slot _ (beatsBefore ▸ few)⟩

/-- The baseline of a tick is the snapshot of an earlier one, the one of its number. -/
theorem baseline_earlier (short : m.beats.length < UInt32.size) (found : m.beats[k]? = some b)
    {s : Snapshot} (built : b.baseline? slot = some s) :
    s.id.toNat < k ∧ ∃ c, m.beats[s.id.toNat]? = some c ∧ c.shot = s := by
  have ticks := ticks_of_getElem? short found
  obtain ⟨r, tracks⟩ := ticks.tracks slot
  have few : (m.beats.take k).length < UInt32.size :=
    Nat.lt_of_le_of_lt (List.length_take_le' _ _) short
  rcases Option.bind_eq_some_iff.mp built with ⟨p, foundThere, -⟩
  obtain ⟨-, kept⟩ := (tracks.baseline?_eq_some ticks.records few foundThere).mp built
  rcases ticks.records.recorded s (History.mem_prune kept) with ⟨c, foundTaken, shot⟩
  rw [List.getElem?_take] at foundTaken
  split at foundTaken
  · next earlier => exact ⟨earlier, c, foundTaken, shot⟩
  · cases foundTaken

theorem Ticks.id_shot (ticks : m.Ticks k b) (found : m.beats[k]? = some b) :
    b.shot.id = UInt32.ofNat k := by
  obtain ⟨bound, -⟩ := List.getElem?_eq_some_iff.mp found
  rw [b.id_shot, ticks.records.next, List.length_take, Nat.min_eq_left (Nat.le_of_lt bound)]

theorem Ticks.sent_eq (ticks : m.Ticks k b) {account name : String} {target : Endpoint}
    (joined : m.start.cast slot = some (account, name))
    (bound : m.start.endpoints.get? slot = some target) :
    b.sent slot = b.shot.broadcast account (b.baseline? slot) := by
  rw [← ticks.cast, World.cast, Option.map_eq_some_iff] at joined
  rcases joined with ⟨receiver, found, seat⟩
  rw [← ticks.endpoints] at bound
  rw [Beat.sent_eq bound found, show receiver.account = account from congrArg (·.1) seat]

theorem Ticks.sameCast (left : m.Ticks k b) (right : n.Ticks k c)
    (cast : n.start.cast = m.start.cast) : b.shot.SameCast c.shot := by
  rw [Snapshot.SameCast, Beat.map_seat_shot left.seated, Beat.map_seat_shot right.seated,
    b.cast_moved, c.cast_moved, left.cast, right.cast, cast]

end SettledRun

/-! ## Two players -/

/-- A broadcast without news is one packet without blocks. -/
theorem Snapshot.broadcast_silent {s : Snapshot} {receiver : String} {base : Option Snapshot}
    (silent : ∀ p ∈ s.players, p.account ≠ receiver →
      p.changedFields (base.bind fun b => b.playerOf? p.account) = []) :
    s.broadcast receiver base = [⟨PacketId.snapshot, 0, 1, .udp, le32 s.id⟩] := by
  have nothing : s.blocks receiver base = [] := by
    rw [blocks_eq, List.map_eq_nil_iff, List.filter_eq_nil_iff]
    intro p member due
    obtain ⟨other, news, -⟩ := of_decide_eq_true due
    exact news (silent p member other)
  rw [broadcast, nothing]
  exact congrArg (fun data => [(⟨PacketId.snapshot, 0, 1, .udp, data⟩ : Packet)])
    (List.append_nil _)

/-- A run of two players: `a` in slot 0, and `r` in slot 1, who is sent snapshots. -/
def SettledRun.duel (steps : List World.Step) (settled : ∀ step ∈ steps, step.seats = false) :
    SettledRun where
  interval := 0
  points := []
  rolls _ := 0
  opening :=
    [.command (.join 0 "a" "A" none) 0, .command (.join 1 "r" "R" (some ⟨"h", 9⟩)) 0]
  steps
  unticked := rfl
  settled

namespace SettledRun

variable {steps : List World.Step} {settled : ∀ step ∈ steps, step.seats = false}

theorem players_duel (slot : UInt8) : (duel steps settled).start.players.get? slot =
    if 1 = slot then some (Player.join 1 "r" "R" .zero)
    else if 0 = slot then some (Player.join 0 "a" "A" .zero) else none := by
  rw [← ByteMap.get?_empty slot, ← ByteMap.get?_insert, ← ByteMap.get?_insert]
  rfl

theorem joined_duel : (duel steps settled).start.cast 1 = some ("r", "R") := by
  rw [World.cast, players_duel, if_pos rfl]
  decide

theorem bound_duel : (duel steps settled).start.endpoints.get? 1 = some ⟨"h", 9⟩ :=
  ByteMap.get?_put_self _ _ _

/-- A tick of two players with nothing new about `a` sends one packet without blocks. -/
theorem sent_duel_silent (short : (duel steps settled).beats.length < UInt32.size) {k : Nat}
    {b : Beat} (found : (duel steps settled).beats[k]? = some b)
    (unchanged : (b.moved.players.get? 0).map (fun p =>
      p.changedFields ((b.baseline? 1).bind fun s => s.playerOf? p.account)) = some []) :
    b.sent 1 = [⟨PacketId.snapshot, 0, 1, .udp, le32 (UInt32.ofNat k)⟩] := by
  have ticks := ticks_of_getElem? short found
  rw [ticks.sent_eq joined_duel bound_duel, ← ticks.id_shot found]
  apply Snapshot.broadcast_silent
  intro p member other
  have foundPlayer := (Beat.mem_shot ticks.seated).mp member
  have seat : (duel steps settled).start.cast p.slot = some (p.account, p.name) := by
    rw [← ticks.cast, ← b.cast_moved, World.cast, foundPlayer]
    rfl
  rw [World.cast, players_duel] at seat
  split at seat
  · exact absurd (congrArg (·.1) (Option.some.inj seat)).symm other
  · split at seat
    · next here =>
      rw [here, foundPlayer, Option.map_some] at unchanged
      exact Option.some.inj unchanged
    · cases seat

end SettledRun

/-! ## What the packets tell -/

/-- What the packets for a client tell of the state, in two runs of the same players that send it
the same ones. It is meant to show the same after a tick just when the baselines of the tick, if
there are two, had the same value of each field that the tick leaves out. So it is at every tick if
the two baselines of a tick always have the same number. -/
theorem sent_determines (m n : SettledRun) (slot : UInt8) {account name : String}
    {target target' : Endpoint} (joined : m.start.cast slot = some (account, name))
    (cast : n.start.cast = m.start.cast) (bound : m.start.endpoints.get? slot = some target)
    (bound' : n.start.endpoints.get? slot = some target') (short : m.beats.length < UInt32.size)
    (same : m.beats.map (·.sent slot) = n.beats.map (·.sent slot)) :
    (∀ (k : Nat) (b c : Beat), m.beats[k]? = some b → n.beats[k]? = some c →
      (View.of (b.shot.without account) = View.of (c.shot.without account) ↔
        ∀ s t, b.baseline? slot = some s → c.baseline? slot = some t →
          ∀ p ∈ b.shot.players, p.account ≠ account → ∀ f,
            s.known p.account f = some (f.value p) →
              t.known p.account f = s.known p.account f)) ∧
    ((∀ (k : Nat) (b c : Beat) (s t : Snapshot), m.beats[k]? = some b → n.beats[k]? = some c →
        b.baseline? slot = some s → c.baseline? slot = some t → s.id = t.id) →
      ∀ (k : Nat) (b c : Beat), m.beats[k]? = some b → n.beats[k]? = some c →
        View.of (b.shot.without account) = View.of (c.shot.without account)) := by
  have lengths : n.beats.length = m.beats.length := by
    have counts := congrArg List.length same
    rw [List.length_map, List.length_map] at counts
    exact counts.symm
  have short' : n.beats.length < UInt32.size := lengths ▸ short
  have agreement {k : Nat} {b c : Beat} (left : m.beats[k]? = some b)
      (right : n.beats[k]? = some c) :
      View.of (b.shot.without account) = View.of (c.shot.without account) ↔
        ∀ s t, b.baseline? slot = some s → c.baseline? slot = some t →
          ∀ p ∈ b.shot.players, p.account ≠ account → ∀ f,
            s.known p.account f = some (f.value p) →
              t.known p.account f = s.known p.account f := by
    have ticks := SettledRun.ticks_of_getElem? short left
    have ticks' := SettledRun.ticks_of_getElem? short' right
    have packets := congrArg (·[k]?) same
    rw [List.getElem?_map, List.getElem?_map, left, right] at packets
    have sent : b.sent slot = c.sent slot := Option.some.inj packets
    rw [ticks.sent_eq joined bound, ticks'.sent_eq (cast ▸ joined) bound'] at sent
    exact Snapshot.view_eq_iff (Beat.regular_shot ticks.seated) (Beat.regular_shot ticks'.seated)
      (ticks.sameCast ticks' cast) sent
  refine ⟨fun k b c => agreement, fun numbered k => ?_⟩
  -- Over the ticks: the baselines were taken by one earlier tick, which agrees already.
  induction k using Nat.strongRecOn with
  | ind k earlier =>
    intro b c left right
    refine (agreement left right).mpr fun s t built built' p _ other f _ => ?_
    have numbers := numbered k b c s t left right built built'
    rcases SettledRun.baseline_earlier short left built with ⟨before, d, foundLeft, rfl⟩
    obtain ⟨-, e, foundRight, rfl⟩ := SettledRun.baseline_earlier short' right built'
    rw [← numbers] at foundRight
    have ticks := SettledRun.ticks_of_getElem? short foundLeft
    have ticks' := SettledRun.ticks_of_getElem? short' foundRight
    have shown := earlier _ before d e foundLeft foundRight
    exact (Snapshot.known_eq (Beat.regular_shot ticks.seated) (Beat.regular_shot ticks'.seated)
      (ticks.sameCast ticks' cast) other shown f).symm

/-- A loss of health shows nowhere: the packets are those of a run without it, and the client is
meant to show the same. -/
theorem sent_determines_damage :
    let steps : List World.Step := [.tick 0, .command (.acknowledge 1 0) 1]
    let m := SettledRun.duel (steps ++ [.tick 1]) (by decide)
    let n := SettledRun.duel (steps ++ [.command (.damage 1 0 10) 1, .tick 1]) (by decide)
    m.start.cast 1 = some ("r", "R") ∧ n.start.cast = m.start.cast ∧
    m.start.endpoints.get? 1 = some ⟨"h", 9⟩ ∧ n.start.endpoints.get? 1 = some ⟨"h", 9⟩ ∧
    m.beats.length < UInt32.size ∧ m.beats.map (·.sent 1) = n.beats.map (·.sent 1) ∧
    ∀ (k : Nat) (b c : Beat), m.beats[k]? = some b → n.beats[k]? = some c →
      View.of (b.shot.without "r") = View.of (c.shot.without "r") := by
  intro steps m n
  let first : Beat := ⟨m.start, 0⟩
  let second : Beat := ⟨m.start.run steps, 1⟩
  let hurt : Beat := ⟨m.start.run (steps ++ [.command (.damage 1 0 10) 1]), 1⟩
  have left : m.beats = [first, second] := rfl
  have right : n.beats = [first, hurt] := rfl
  have short : m.beats.length < UInt32.size := by
    rw [left]
    decide
  have short' : n.beats.length < UInt32.size := by
    rw [right]
    decide
  have foundSecond : m.beats[1]? = some second := rfl
  have foundHurt : n.beats[1]? = some hurt := rfl
  have same : m.beats.map (·.sent 1) = n.beats.map (·.sent 1) := by
    have sent := SettledRun.sent_duel_silent short foundSecond (by decide +kernel)
    have sent' := SettledRun.sent_duel_silent short' foundHurt (by decide +kernel)
    rw [left, right]
    simp only [List.map_cons, List.map_nil, sent, sent']
  refine ⟨SettledRun.joined_duel, rfl, SettledRun.bound_duel, SettledRun.bound_duel, short, same,
    ?_⟩
  refine (sent_determines m n 1 SettledRun.joined_duel rfl SettledRun.bound_duel
    SettledRun.bound_duel short same).2 ?_
  -- No baseline is of another tick than the first.
  intro k b c s t foundLeft foundRight built built'
  have bound : k < 2 := (List.getElem?_eq_some_iff.mp foundLeft).1
  have earlier := (SettledRun.baseline_earlier short foundLeft built).1
  have earlier' := (SettledRun.baseline_earlier short' foundRight built').1
  rw [← UInt32.toNat_inj]
  omega

/-- The weapon of `a` is 0 at the first tick and 1 at the second, and `r`, who has acknowledged
nothing so far, is sent all of it. Then the server hears of the first snapshot and the weapon is 0
again; or it hears of the second too and the weapon stays. Either way the third tick sends nothing
but its number. -/
theorem sent_ambiguous :
    let told : List World.Step := [.tick 0, .command (.infoChange 0 1 0) 1, .tick 1]
    let m := SettledRun.duel (told ++ [.command (.acknowledge 1 0) 2,
      .command (.infoChange 0 0 0) 2, .tick 2]) (by decide)
    let n := SettledRun.duel (told ++ [.command (.acknowledge 1 0) 2,
      .command (.acknowledge 1 1) 2, .tick 2]) (by decide)
    m.beats.map (·.sent 1) = n.beats.map (·.sent 1) ∧
    m.beats.getLast?.map (fun b => View.of (b.shot.without "r") 0 .weapon) =
      some (some (.byte 0)) ∧
    n.beats.getLast?.map (fun b => View.of (b.shot.without "r") 0 .weapon) =
      some (some (.byte 1)) := by
  intro told m n
  let first : Beat := ⟨m.start, 0⟩
  let second : Beat := ⟨m.start.run [.tick 0, .command (.infoChange 0 1 0) 1], 1⟩
  let back : Beat := ⟨m.start.run (told ++ [.command (.acknowledge 1 0) 2,
    .command (.infoChange 0 0 0) 2]), 2⟩
  let stays : Beat := ⟨m.start.run (told ++ [.command (.acknowledge 1 0) 2,
    .command (.acknowledge 1 1) 2]), 2⟩
  have left : m.beats = [first, second, back] := rfl
  have right : n.beats = [first, second, stays] := rfl
  have foundBack : m.beats[2]? = some back := rfl
  have foundStays : n.beats[2]? = some stays := rfl
  have sent := SettledRun.sent_duel_silent (by rw [left]; decide) foundBack (by decide +kernel)
  have sent' := SettledRun.sent_duel_silent (by rw [right]; decide) foundStays (by decide +kernel)
  rw [left, right]
  refine ⟨?_, ?_, ?_⟩
  · simp only [List.map_cons, List.map_nil, sent, sent']
  · decide +kernel
  · decide +kernel

end Deathmatch
