import Deathmatch.Proofs.WorldRun

/-!
# The baseline of a receiver

A player carries the number of a snapshot only, and the history may drop that snapshot, or the slot
pass to somebody else. `Receipt` keeps what the number stands for: what the server last heard from
the client of a slot since its player joined. `World.heard` follows it along a run.

`Receipt.Tracks` is the invariant: the number that a player carries is that of the snapshot
received, as long as the history keeps it, and none otherwise. No step breaks it
(`Receipt.Tracks.run`), so a tick reports to each client against the very snapshot that it
acknowledged, or in full.
-/

namespace Deathmatch

/-- What the server last heard of snapshots from a client. -/
inductive Receipt where
  /-- Nothing since its player joined. -/
  | silent
  /-- A number that the history did not hold. -/
  | stale
  /-- The number of this snapshot. -/
  | held (s : Snapshot)

/-- What the server has heard from the client of `slot` after one more step, taken in `w`. -/
def Receipt.after (r : Receipt) (w : World) (slot : UInt8) : World.Step → Receipt
  | .command (.join k _ _ _) _ => if k = slot then silent else r
  | .command (.leave k) _ => if k = slot then silent else r
  | .command (.acknowledge k id) _ =>
    if k = slot then
      match w.history.find? id with
      | some s => held s
      | none => stale
    else r
  | _ => r

/-- What the server has heard from the client of `slot` after the steps, if it was `r` before. -/
def World.heard (w : World) (slot : UInt8) (r : Receipt) : List World.Step → Receipt
  | [] => r
  | step :: rest => heard (w.after step) slot (r.after w slot step) rest

theorem World.heard_concat {w : World} (slot : UInt8) (r : Receipt) (steps : List World.Step)
    (step : World.Step) :
    w.heard slot r (steps ++ [step]) = (w.heard slot r steps).after (w.run steps) slot step := by
  induction steps generalizing w r with
  | nil => rfl
  | cons first rest ih => exact ih _

namespace Receipt

/-- The number carried in a slot is that of the snapshot received, as long as the history keeps it.
That snapshot was taken by one of the beats. -/
structure Tracks (r : Receipt) (w : World) (slot : UInt8) (beats : List Beat) : Prop where
  past : ∀ s, r = .held s → Recorded beats s
  carried : ∀ p id, w.players.get? slot = some p →
    (p.acknowledged = some id ↔ ∃ s ∈ w.history.snapshots, r = .held s ∧ s.id = id)

variable {r : Receipt} {w : World} {slot : UInt8} {beats : List Beat}

/-- A receipt that is silent or stale is tracked by a player who carries nothing. -/
theorem Tracks.of_none (nothing : ∀ s, r ≠ .held s)
    (bare : ∀ p, w.players.get? slot = some p → p.acknowledged = none) :
    r.Tracks w slot beats where
  past s isHeld := absurd isHeld (nothing s)
  carried p id found := by
    rw [bare p found]
    constructor
    · intro carries
      cases carries
    · rintro ⟨s, -, isHeld, -⟩
      exact absurd isHeld (nothing s)

theorem Tracks.of_badge (tracks : r.Tracks w slot beats) {v : World}
    (same : v.badge slot = w.badge slot) (history : v.history = w.history) :
    r.Tracks v slot beats where
  past := tracks.past
  carried p id found := by
    rw [World.badge, found, Option.map_some, eq_comm, World.badge, Option.map_eq_some_iff] at same
    rcases same with ⟨q, foundThere, badgeIs⟩
    have carriedIs : p.acknowledged = q.acknowledged := (congrArg (·.2.2.2) badgeIs).symm
    rw [history, carriedIs]
    exact tracks.carried q id foundThere

/-- An acknowledgement is tracked at once. -/
theorem tracks_acknowledge (records : w.history.Records beats) (id : UInt32) (r : Receipt)
    (now : Time) :
    (r.after w slot (.command (.acknowledge slot id) now)).Tracks (w.acknowledge slot id).1 slot
      beats := by
  simp only [Receipt.after, if_pos]
  cases kept : w.history.find? id with
  | none =>
    refine .of_none (fun s => nofun) fun p found => ?_
    rw [History.find?_eq_none_iff] at kept
    unfold World.acknowledge at found
    split at found
    · next vacant =>
      rw [vacant] at found
      cases found
    · rw [kept, if_neg Bool.false_ne_true, World.get?_setPlayer, if_pos rfl] at found
      cases found
      rfl
  | some s =>
    rcases History.mem_of_find? kept with ⟨member, idIs⟩
    refine ⟨fun t isHeld => Receipt.held.inj isHeld ▸ records.recorded s member, ?_⟩
    intro p k found
    have known : w.history.contains id = true := History.contains_iff.mpr ⟨s, member, idIs⟩
    unfold World.acknowledge at found ⊢
    split at found
    · next vacant =>
      rw [vacant] at found
      cases found
    · rw [if_pos known, World.get?_setPlayer, if_pos rfl] at found
      cases found
      simp only [if_pos known, World.setPlayer]
      constructor
      · intro carries
        exact ⟨s, member, rfl, idIs.trans (Option.some.inj carries)⟩
      · rintro ⟨t, -, isHeld, numbered⟩
        rw [← numbered, ← Receipt.held.inj isHeld, idIs]

theorem Tracks.command (tracks : r.Tracks w slot beats) (records : w.history.Records beats)
    (c : Command) (now : Time) :
    (r.after w slot (.command c now)).Tracks (w.apply c now).1 slot beats := by
  cases c with
  | join k account name udp =>
    have entry (p : Player) : ((w.join k account name udp).1.players.get? slot = some p ↔
        (if k = slot then some (Player.join k account name w.spawns.current)
          else w.players.get? slot) = some p) := by
      rw [← ByteMap.get?_insert]
      rfl
    simp only [Receipt.after]
    split
    · next here =>
      refine .of_none (fun s => nofun) fun p found => ?_
      rw [World.apply, entry, if_pos here] at found
      cases found
      rfl
    · next elsewhere =>
      refine tracks.of_badge ?_ rfl
      rw [World.badge, World.apply, World.join, ByteMap.get?_insert, if_neg elsewhere]
      rfl
  | leave k =>
    simp only [Receipt.after]
    split
    · next here =>
      refine .of_none (fun s => nofun) fun p found => ?_
      rw [World.apply, World.leave, ByteMap.get?_erase, if_pos here] at found
      cases found
    · next elsewhere =>
      refine tracks.of_badge ?_ rfl
      rw [World.badge, World.apply, World.leave, ByteMap.get?_erase, if_neg elsewhere]
      rfl
  | acknowledge k id =>
    by_cases here : k = slot
    · subst here
      exact tracks_acknowledge records id r now
    · have receipt : r.after w slot (.command (.acknowledge k id) now) = r := if_neg here
      rw [receipt]
      refine tracks.of_badge ?_ (World.history_apply (.acknowledge k id) now)
      simp only [World.badge, World.apply, World.acknowledge]
      split
      · rfl
      · split <;> rw [World.get?_setPlayer, if_neg here]
  | move =>
    exact tracks.of_badge (congrFun (World.badge_apply rfl now) slot) (World.history_apply _ now)
  | infoChange =>
    exact tracks.of_badge (congrFun (World.badge_apply rfl now) slot) (World.history_apply _ now)
  | damage =>
    exact tracks.of_badge (congrFun (World.badge_apply rfl now) slot) (World.history_apply _ now)

/-- A player keeps the number they carry just when the history keeps its snapshot. -/
theorem Tracks.prune (tracks : r.Tracks w slot beats) (records : w.history.Records beats)
    (now : Time) : r.Tracks (w.prune now) slot beats where
  past := tracks.past
  carried p id found := by
    rw [World.history_prune]
    unfold World.prune at found
    dsimp only at found
    split at found
    · rw [ByteMap.get?_map, Option.map_eq_some_iff] at found
      rcases found with ⟨q, foundThere, rfl⟩
      dsimp only
      rw [Option.filter_eq_some_iff, tracks.carried q id foundThere, History.contains_iff]
      constructor
      · rintro ⟨⟨s, member, isHeld, idIs⟩, t, stays, sameId⟩
        have one : s = t := (records.recorded s member).eq_of_id
          (records.recorded t (History.mem_prune stays)) (idIs.trans sameId.symm)
        exact ⟨s, one ▸ stays, isHeld, idIs⟩
      · rintro ⟨s, stays, isHeld, idIs⟩
        exact ⟨⟨s, History.mem_prune stays, isHeld, idIs⟩, s, stays, idIs⟩
    · next same =>
      have whole : (w.history.prune now).snapshots = w.history.snapshots :=
        (List.dropWhile_sublist _).eq_of_length_le (Nat.le_of_not_lt same)
      rw [whole]
      exact tracks.carried p id found

theorem Tracks.moved {b : Beat} (tracks : r.Tracks b.world slot beats)
    (records : b.world.history.Records beats) : r.Tracks b.moved slot beats :=
  Tracks.prune (tracks.of_badge (congrFun (World.badge_integrate b.now _) slot) rfl) records b.now

/-- The snapshot that a tick takes is nobody's yet. -/
theorem Tracks.kept {b : Beat} (tracks : r.Tracks b.world slot beats)
    (records : b.world.history.Records beats) (short : beats.length < UInt32.size) :
    r.Tracks b.kept slot (beats ++ [b]) where
  past s isHeld := (tracks.past s isHeld).append [b]
  carried p id found := by
    rw [(tracks.moved records).carried p id found]
    constructor
    · rintro ⟨s, member, rest⟩
      exact ⟨s, List.mem_append_left _ member, rest⟩
    · rintro ⟨s, member, isHeld, idIs⟩
      rcases List.mem_append.mp member with old | new
      · exact ⟨s, old, isHeld, idIs⟩
      · have fresh := Beat.not_recorded_shot records short
        rw [← List.mem_singleton.mp new] at fresh
        exact absurd (tracks.past s isHeld) fresh

/-- Along every run from an empty history, what a slot carries is tracked. -/
theorem Tracks.run {start : World} (records : start.history.Records [])
    (bare : ∀ p, start.players.get? slot = some p → p.acknowledged = none)
    (steps : List World.Step) (short : (start.beats steps).length ≤ UInt32.size) :
    (start.heard slot .silent steps).Tracks (start.run steps) slot (start.beats steps) := by
  induction steps using List.reverseRecOn with
  | nil => exact .of_none (fun s => nofun) bare
  | append_singleton steps step ih =>
    have few : (start.beats steps).length ≤ UInt32.size := by
      rw [World.beats_append, List.length_append] at short
      omega
    have recorded := World.run_records records steps few
    rw [World.heard_concat, World.run_concat]
    cases step with
    | command c now =>
      rw [World.beats_concat_command]
      exact (ih few).command recorded c now
    | integrate now dt =>
      rw [World.beats_concat_integrate]
      exact (ih few).of_badge (congrFun (World.badge_integrate now dt) slot) rfl
    | tick now =>
      rw [World.beats_concat_tick, List.length_append, List.length_singleton] at short
      rw [World.beats_concat_tick]
      have tracked : Tracks _ (⟨start.run steps, now⟩ : Beat).world slot _ := ih few
      exact tracked.kept recorded (by omega)

/-- A run from the empty world starts with nobody who carries a number. -/
theorem tracks_run_empty (interval : Span) (points : List Vec3) (rolls : Nat → Nat)
    (slot : UInt8) (steps : List World.Step)
    (short : ((World.empty interval points rolls).beats steps).length ≤ UInt32.size) :
    ((World.empty interval points rolls).heard slot .silent steps).Tracks
      ((World.empty interval points rolls).run steps) slot
      ((World.empty interval points rolls).beats steps) := by
  refine .run (World.records_empty interval points rolls) ?_ steps short
  intro p found
  rw [World.empty, ByteMap.get?_empty] at found
  cases found

theorem Tracks.contains (tracks : r.Tracks w slot beats) {p : Player} {id : UInt32}
    (found : w.players.get? slot = some p) (carries : p.acknowledged = some id) :
    w.history.contains id = true := by
  rcases (tracks.carried p id found).mp carries with ⟨s, member, -, idIs⟩
  exact History.contains_iff.mpr ⟨s, member, idIs⟩

/-- The baseline of a tick is the snapshot received, if the history still keeps it. -/
theorem Tracks.baseline?_eq_some {b : Beat} (tracks : r.Tracks b.world slot beats)
    (records : b.world.history.Records beats) (short : beats.length < UInt32.size) {p : Player}
    (found : b.kept.players.get? slot = some p) {s : Snapshot} :
    b.baseline? slot = some s ↔
      r = .held s ∧ s ∈ (b.world.history.prune b.now).snapshots := by
  have later := tracks.kept records short
  have recorded := (records.tick short).recorded
  rw [Beat.baseline?, found, Option.bind_some, World.baseline?, Option.bind_eq_some_iff]
  constructor
  · rintro ⟨id, carries, kept⟩
    rcases (later.carried p id found).mp carries with ⟨t, stays, isHeld, idIs⟩
    rcases History.mem_of_find? kept with ⟨member, sameId⟩
    have one : t = s := (recorded t stays).eq_of_id (recorded s member) (idIs.trans sameId.symm)
    subst one
    refine ⟨isHeld, ?_⟩
    rw [b.history_kept] at member
    rcases List.mem_append.mp member with old | new
    · exact old
    · have fresh := Beat.not_recorded_shot records short
      rw [← List.mem_singleton.mp new] at fresh
      exact absurd (tracks.past t isHeld) fresh
  · rintro ⟨isHeld, old⟩
    have member : s ∈ b.kept.history.snapshots := by
      rw [b.history_kept]
      exact List.mem_append_left _ old
    refine ⟨s.id, (later.carried p s.id found).mpr ⟨s, member, isHeld, rfl⟩, ?_⟩
    rcases History.exists_find? (History.contains_iff.mpr ⟨s, member, rfl⟩) with ⟨t, kept⟩
    rcases History.mem_of_find? kept with ⟨stays, sameId⟩
    rw [kept, (recorded t stays).eq_of_id (recorded s member) sameId]

end Receipt

/-! ## What a tick builds on -/

namespace Beat

variable {b : Beat}

theorem endpoints_kept (b : Beat) : b.kept.endpoints = b.world.endpoints := by
  have settled : World.Step.seats (.tick b.now) = false := rfl
  exact World.endpoints_after settled

theorem cast_kept (b : Beat) : b.kept.cast = b.world.cast := by
  have settled : World.Step.seats (.tick b.now) = false := rfl
  exact World.cast_after settled

/-- Who plays in a slot before a tick plays there after it. -/
theorem exists_kept {slot : UInt8} {p : Player} (found : b.world.players.get? slot = some p) :
    ∃ q, b.kept.players.get? slot = some q ∧ q.account = p.account := by
  have same := congrFun b.cast_kept slot
  rw [World.cast, World.cast, found, Option.map_some, Option.map_eq_some_iff] at same
  rcases same with ⟨q, foundThere, sameCast⟩
  exact ⟨q, foundThere, congrArg (·.1) sameCast⟩

/-- What an endpoint with a player is sent. -/
theorem sent_eq {slot : UInt8} {receiver : Player} {target : Endpoint}
    (bound : b.world.endpoints.get? slot = some target)
    (found : b.world.players.get? slot = some receiver) :
    b.sent slot = b.shot.broadcast receiver.account (b.baseline? slot) := by
  rcases exists_kept found with ⟨q, foundThere, account⟩
  rw [sent, endpoints_kept, bound, foundThere, ← account]

end Beat

theorem World.events_acknowledge {w : World} {slot : UInt8} {p : Player}
    (found : w.players.get? slot = some p) (id : UInt32) (now : Time) :
    (w.apply (.acknowledge slot id) now).2 =
      match w.history.find? id with
      | some _ => []
      | none => [.reply slot (.tcp PacketId.snapshot [0])] := by
  simp only [apply, acknowledge, found]
  cases kept : w.history.find? id with
  | none =>
    rw [History.find?_eq_none_iff.mp kept, if_neg Bool.false_ne_true]
    rfl
  | some s =>
    rcases History.mem_of_find? kept with ⟨member, idIs⟩
    rw [if_pos (History.contains_iff.mpr ⟨s, member, idIs⟩)]

/-- What the server reports against, after any steps from an empty world with fewer than 2^32 ticks
among them. Every number that a player carries is kept, so a tick finds the baseline of each. An
acknowledgement of a number that is not kept is answered, once. The client in a slot is reported to
against the snapshot that it acknowledged last, if the history holds that at the tick; else against
nothing, and then with every field of all other players. -/
theorem run_baselines (interval : Span) (points : List Vec3) (rolls : Nat → Nat)
    (steps : List World.Step)
    (short : ((World.empty interval points rolls).beats steps).length < UInt32.size) :
    let start := World.empty interval points rolls
    let w := start.run steps
    (∀ slot p id, w.players.get? slot = some p → p.acknowledged = some id →
      w.history.contains id = true) ∧
    (∀ slot p id now, w.players.get? slot = some p →
      (w.apply (.acknowledge slot id) now).2 =
        match w.history.find? id with
        | some _ => []
        | none => [.reply slot (.tcp PacketId.snapshot [0])]) ∧
    ∀ now, let b : Beat := ⟨w, now⟩
      (w.tick now).2 = (w.endpoints.toList.flatMap fun (slot, target) =>
        (b.sent slot).map fun packet => ⟨target, packet⟩) ∧
      (∀ slot p id, b.kept.players.get? slot = some p → p.acknowledged = some id →
        ∃ s, b.kept.history.find? id = some s) ∧
      ∀ slot target receiver, w.endpoints.get? slot = some target →
        w.players.get? slot = some receiver →
        ∃ base, b.sent slot = b.shot.broadcast receiver.account base ∧
          (∀ s, base = some s ↔
            start.heard slot .silent steps = .held s ∧ s ∈ (w.history.prune now).snapshots) ∧
          (base = none → Snapshot.bodies (b.sent slot) =
            (b.shot.players.filter fun p => p.account ≠ receiver.account).flatMap fun p =>
              Player.blockMarker :: p.slot :: Field.all.flatMap fun f => f.bytes p) := by
  intro start w
  have records : w.history.Records (start.beats steps) :=
    World.run_records (World.records_empty interval points rolls) steps (Nat.le_of_lt short)
  have seated : w.Seated := (World.seated_empty interval points rolls).run steps
  have tracks (slot : UInt8) : (start.heard slot .silent steps).Tracks w slot (start.beats steps) :=
    Receipt.tracks_run_empty interval points rolls slot steps (Nat.le_of_lt short)
  refine ⟨fun slot p id found => (tracks slot).contains found,
    fun slot p id now found => World.events_acknowledge found id now, ?_⟩
  intro now b
  have tracksBeat (slot : UInt8) :
      (start.heard slot .silent steps).Tracks b.world slot (start.beats steps) := tracks slot
  refine ⟨?_, ?_, ?_⟩
  · rw [show w.tick now = (b.kept, b.kept.updates b.shot) from b.tick_eq, b.updates_eq,
      b.endpoints_kept]
  · intro slot p id found carries
    exact History.exists_find? (((tracksBeat slot).kept records short).contains found carries)
  · intro slot target receiver bound found
    obtain ⟨q, foundThere, -⟩ := Beat.exists_kept (b := b) found
    have sent := Beat.sent_eq (b := b) bound found
    refine ⟨b.baseline? slot, sent,
      fun s => (tracksBeat slot).baseline?_eq_some records short foundThere, ?_⟩
    intro full
    rw [sent, full]
    exact (Beat.regular_shot (b := b) seated).bodies_broadcast_none receiver.account

theorem run_baselines_acknowledged :
    let start := World.empty 0 [] fun _ => 0
    let entered : List World.Step :=
      [.command (.join 0 "a" "A" none) 0, .command (.join 1 "b" "B" (some ⟨"h", 9⟩)) 0]
    let steps := entered ++ [.tick 0, .command (.acknowledge 1 0) 1]
    (start.beats steps).length < UInt32.size ∧
    (⟨start.run steps, 2⟩ : Beat).sent 1 = (⟨start.run steps, 2⟩ : Beat).shot.broadcast "b"
      (some (⟨start.run entered, 0⟩ : Beat).shot) := by
  intro start entered steps
  have short : (start.beats steps).length < UInt32.size := by decide
  refine ⟨short, ?_⟩
  have account : ((start.run steps).players.get? 1).map (·.account) = some "b" := by
    decide +kernel
  rcases Option.map_eq_some_iff.mp account with ⟨receiver, found, accountIs⟩
  obtain ⟨base, sent, baseIs, -⟩ := ((run_baselines 0 [] (fun _ => 0) steps short).2.2 2).2.2 1
    ⟨"h", 9⟩ receiver (by decide +kernel) found
  have held : base = some (⟨start.run entered, 0⟩ : Beat).shot := by
    have kept : (start.run steps).history.snapshots = [(⟨start.run entered, 0⟩ : Beat).shot] :=
      congrArg History.snapshots (World.history_apply (.acknowledge 1 0) 1)
    have young : (start.run steps).history.isExpired 2 (⟨start.run entered, 0⟩ : Beat).shot =
        false := by
      decide +kernel
    refine (baseIs _).mpr ⟨rfl, ?_⟩
    rw [History.prune, kept, List.dropWhile_cons, young]
    exact List.mem_singleton_self _
  rw [sent, held, accountIs]

end Deathmatch
