import Deathmatch.Proofs.Reports
import Deathmatch.World.Tick
import Mathlib.Data.List.Basic
import Mathlib.Data.List.Induction
import Mathlib.Data.List.Nodup

/-!
# Runs of the world

A run is a list of steps: a command, an integration or a tick, each at a time of its own. Times
need not ascend. The ticks of a run are its `beats`; a beat keeps the world that ticked, and with
it the snapshot that was taken (`Beat.shot`), the baseline of every receiver (`Beat.baseline?`)
and the packets that it was sent (`Beat.sent`).

No play changes who a player is: `Player.badge` lists what is left alone by every command but
`join`, `leave` and `acknowledge` (`World.apply_badge`) and by integration. `History.Records` says
that a kept snapshot is the one that the beat of its number took; it holds along every run of at
most 2^32 ticks (`World.run_records`).
-/

namespace Deathmatch

/-- One way to move a world on. -/
inductive World.Step where
  | command (command : Command) (now : Time)
  | integrate (now : Time) (dt : Scalar)
  | tick (now : Time)

/-- A tick: the world that ticks, and when. -/
structure Beat where
  world : World
  now : Time

namespace World

/-- The world after a step. -/
def after (w : World) : Step → World
  | .command c now => (w.apply c now).1
  | .integrate now dt => w.integrate now dt
  | .tick now => (w.tick now).1

/-- The world after the steps, first to last. -/
def run (w : World) (steps : List Step) : World :=
  steps.foldl after w

/-- The ticks among the steps, in order. -/
def beats (w : World) : List Step → List Beat
  | [] => []
  | .tick now :: rest => ⟨w, now⟩ :: beats (w.after (.tick now)) rest
  | step :: rest => beats (w.after step) rest

end World

namespace Beat

/-- The world of which the snapshot is taken: carried on, and without expired snapshots. -/
def moved (b : Beat) : World :=
  (b.world.integrate b.now b.world.tickInterval.toScalar).prune b.now

/-- The snapshot that the tick takes. -/
def shot (b : Beat) : Snapshot :=
  b.moved.freeze b.now

/-- The world that the tick leaves. -/
def kept (b : Beat) : World :=
  b.moved.keep b.shot

/-- The snapshot against which the tick reports to the client of `slot`. -/
def baseline? (b : Beat) (slot : UInt8) : Option Snapshot :=
  (b.kept.players.get? slot).bind b.kept.baseline?

/-- The packets for the client of `slot`. -/
def sent (b : Beat) (slot : UInt8) : List Packet :=
  match b.kept.endpoints.get? slot, b.kept.players.get? slot with
  | some _, some receiver => b.shot.broadcast receiver.account (b.baseline? slot)
  | _, _ => []

/-- What a tick comes to. -/
theorem tick_eq (b : Beat) : b.world.tick b.now = (b.kept, b.kept.updates b.shot) := rfl

/-- A tick sends each endpoint what `sent` says, in slot order. -/
theorem updates_eq (b : Beat) :
    b.kept.updates b.shot = b.kept.endpoints.toList.flatMap fun (slot, target) =>
      (b.sent slot).map fun packet => ⟨target, packet⟩ := by
  unfold World.updates
  apply List.flatMap_congr
  rintro ⟨slot, target⟩ member
  have bound := ByteMap.mem_toList.mp member
  cases found : b.kept.players.get? slot with
  | none => simp [sent, found]
  | some receiver => simp [sent, bound, found, baseline?]

end Beat

namespace World

variable {w : World}

theorem run_append (xs ys : List Step) : w.run (xs ++ ys) = (w.run xs).run ys :=
  List.foldl_append

theorem run_concat (steps : List Step) (step : Step) :
    w.run (steps ++ [step]) = (w.run steps).after step := by
  rw [run_append]
  rfl

theorem beats_append (xs ys : List Step) :
    w.beats (xs ++ ys) = w.beats xs ++ (w.run xs).beats ys := by
  induction xs generalizing w with
  | nil => rfl
  | cons step rest ih =>
    cases step with
    | command c now => exact ih
    | integrate now dt => exact ih
    | tick now => exact congrArg (List.cons _) ih

theorem beats_concat_command (steps : List Step) (c : Command) (now : Time) :
    w.beats (steps ++ [.command c now]) = w.beats steps := by
  rw [beats_append]
  exact List.append_nil _

theorem beats_concat_integrate (steps : List Step) (now : Time) (dt : Scalar) :
    w.beats (steps ++ [.integrate now dt]) = w.beats steps := by
  rw [beats_append]
  exact List.append_nil _

theorem beats_concat_tick (steps : List Step) (now : Time) :
    w.beats (steps ++ [.tick now]) = w.beats steps ++ [⟨w.run steps, now⟩] :=
  beats_append steps [.tick now]

/-- A beat of a run is a tick of the world that the steps before it lead to. -/
theorem split_beats {steps : List Step} {k : Nat} {b : Beat}
    (found : (w.beats steps)[k]? = some b) :
    ∃ before rest, steps = before ++ .tick b.now :: rest ∧ b.world = w.run before ∧
      w.beats before = (w.beats steps).take k := by
  induction steps generalizing w k with
  | nil => cases found
  | cons step rest ih =>
    cases step with
    | command c now =>
      obtain ⟨before, rest', split, worldIs, taken⟩ := ih (w := w.after (.command c now)) found
      exact ⟨.command c now :: before, rest', by rw [split, List.cons_append], worldIs, taken⟩
    | integrate now dt =>
      obtain ⟨before, rest', split, worldIs, taken⟩ := ih (w := w.after (.integrate now dt)) found
      exact ⟨.integrate now dt :: before, rest', by rw [split, List.cons_append], worldIs, taken⟩
    | tick now =>
      cases k with
      | zero =>
        cases found
        exact ⟨[], rest, rfl, rfl, rfl⟩
      | succ k =>
        obtain ⟨before, rest', split, worldIs, taken⟩ := ih (w := w.after (.tick now)) found
        exact ⟨.tick now :: before, rest', by rw [split, List.cons_append], worldIs,
          congrArg (List.cons _) taken⟩

end World

/-! ## What play leaves alone -/

/-- What of a player no play changes. -/
def Player.badge (p : Player) : UInt8 × String × String × Option UInt32 :=
  (p.slot, p.account, p.name, p.acknowledged)

/-- Whether nobody enters or leaves by the command, or speaks of snapshots. -/
def Command.plays : Command → Bool
  | .move .. | .infoChange .. | .damage .. => true
  | .join .. | .leave _ | .acknowledge .. => false

/-- Whether somebody enters or leaves by the step. -/
def World.Step.seats : Step → Bool
  | .command (.join ..) _ | .command (.leave _) _ => true
  | _ => false

namespace World

variable {w : World}

def badge (w : World) (slot : UInt8) : Option (UInt8 × String × String × Option UInt32) :=
  (w.players.get? slot).map Player.badge

theorem get?_setPlayer (slot k : UInt8) (p : Player) :
    (w.setPlayer slot p).players.get? k = if slot = k then some p else w.players.get? k :=
  ByteMap.get?_insert w.players slot k p

theorem badge_setPlayer {slot : UInt8} {p q : Player} (found : w.players.get? slot = some q)
    (same : p.badge = q.badge) : (w.setPlayer slot p).badge = w.badge := by
  funext k
  rw [badge, badge, get?_setPlayer]
  split
  · next here => rw [← here, found, Option.map_some, Option.map_some, same]
  · rfl

theorem badge_damage (attacker victim amount : UInt8) (now : Time) :
    (w.damage attacker victim amount now).1.badge = w.badge := by
  unfold damage
  split
  · rfl
  · next target found =>
    split
    · rfl
    · dsimp only
      split
      · exact badge_setPlayer found rfl
      · split
        · exact badge_setPlayer found rfl
        · split
          · exact badge_setPlayer found rfl
          · next killer foundKiller =>
            refine (badge_setPlayer foundKiller ?_).trans (badge_setPlayer found rfl)
            rfl

theorem badge_apply {c : Command} (plays : c.plays = true) (now : Time) :
    (w.apply c now).1.badge = w.badge := by
  cases c with
  | join => cases plays
  | leave => cases plays
  | acknowledge => cases plays
  | move slot motion receivedAt =>
    simp only [apply, move]
    split
    · next p found =>
      split
      · exact badge_setPlayer found rfl
      · rfl
    · rfl
  | infoChange slot weapon model =>
    funext k
    simp only [apply, changeInfo, badge, ByteMap.get?_modify]
    split
    · next here =>
      subst here
      rw [Option.map_map]
      rfl
    · rfl
  | damage attacker victim amount => exact badge_damage attacker victim amount now

theorem badge_integrate (now : Time) (dt : Scalar) : (w.integrate now dt).badge = w.badge := by
  funext k
  rw [badge, badge, integrate, ByteMap.get?_map, Option.map_map]
  congr 1
  funext p
  simp only [Function.comp_apply, Player.integrate]
  split
  · split <;> rfl
  · rfl
  · split <;> rfl

/-! ## Who plays -/

/-- The account and the name that play in a slot. -/
def cast (w : World) (slot : UInt8) : Option (String × String) :=
  (w.players.get? slot).map fun p => (p.account, p.name)

theorem cast_of_badge {v : World} (same : v.badge = w.badge) : v.cast = w.cast := by
  funext k
  have atSlot := congrArg (Option.map fun b => (b.2.1, b.2.2.1)) (congrFun same k)
  rwa [badge, badge, Option.map_map, Option.map_map] at atSlot

theorem cast_acknowledge (slot : UInt8) (id : UInt32) :
    (w.acknowledge slot id).1.cast = w.cast := by
  funext k
  unfold acknowledge
  split
  · rfl
  · next p found =>
    split <;>
    · simp only [cast, get?_setPlayer]
      split
      · next here => rw [← here, found]; rfl
      · rfl

theorem cast_prune (now : Time) : (w.prune now).cast = w.cast := by
  funext k
  unfold prune
  dsimp only
  split
  · simp only [cast, ByteMap.get?_map, Option.map_map]
    rfl
  · rfl

end World

theorem Beat.cast_moved (b : Beat) : b.moved.cast = b.world.cast :=
  (World.cast_prune b.now).trans (World.cast_of_badge (World.badge_integrate b.now _))

namespace World

variable {w : World}

theorem cast_after {step : Step} (settled : step.seats = false) : (w.after step).cast = w.cast := by
  cases step with
  | command c now =>
    cases c with
    | join => cases settled
    | leave => cases settled
    | acknowledge slot id => exact cast_acknowledge slot id
    | move => exact cast_of_badge (badge_apply rfl now)
    | infoChange => exact cast_of_badge (badge_apply rfl now)
    | damage => exact cast_of_badge (badge_apply rfl now)
  | integrate now dt => exact cast_of_badge (badge_integrate now dt)
  | tick now => exact Beat.cast_moved ⟨w, now⟩

theorem endpoints_after {step : Step} (settled : step.seats = false) :
    (w.after step).endpoints = w.endpoints := by
  cases step with
  | command c now =>
    cases c with
    | join => cases settled
    | leave => cases settled
    | infoChange => rfl
    | move =>
      simp only [after, apply, move]
      repeat' split
      all_goals rfl
    | damage =>
      simp only [after, apply, damage]
      repeat' split
      all_goals rfl
    | acknowledge =>
      simp only [after, apply, acknowledge]
      repeat' split
      all_goals rfl
  | integrate now dt => rfl
  | tick now =>
    simp only [after, tick, keep, prune]
    split <;> rfl

/-- While nobody enters or leaves, the same players stay, and what they see goes to the same
places. -/
theorem settled_run {steps : List Step} (settled : ∀ step ∈ steps, step.seats = false) :
    (w.run steps).cast = w.cast ∧ (w.run steps).endpoints = w.endpoints := by
  induction steps generalizing w with
  | nil => exact ⟨rfl, rfl⟩
  | cons step rest ih =>
    rcases List.forall_mem_cons.mp settled with ⟨first, others⟩
    obtain ⟨cast, endpoints⟩ := ih (w := w.after step) others
    exact ⟨cast.trans (cast_after first), endpoints.trans (endpoints_after first)⟩

end World

/-! ## Where players stand -/

theorem Text.charsSize_eq (cs : List Char) :
    Text.charsSize cs = (String.ofList cs).utf8ByteSize := by
  induction cs with
  | nil => rfl
  | cons c cs ih =>
    rw [← List.singleton_append, String.ofList_append, String.utf8ByteSize_append,
      ← String.singleton_eq_ofList, String.utf8ByteSize_singleton, ← ih]
    rfl

theorem Text.size_clamp_le (limit : Nat) (s : String) :
    (Text.clamp limit s).utf8ByteSize ≤ limit := by
  rw [Text.clamp, ← Text.charsSize_eq]
  exact Text.charsSize_clampChars _ _

theorem Player.size_clampName (name : String) :
    (Player.clampName name).utf8ByteSize ≤ Player.maxNameBytes :=
  Text.size_clamp_le _ _

namespace World

variable {w : World}

/-- Every player is kept under their own slot and has a name of bounded length. -/
def Seated (w : World) : Prop :=
  ∀ slot p, w.players.get? slot = some p →
    p.slot = slot ∧ p.name.utf8ByteSize ≤ Player.maxNameBytes

theorem Seated.of_badge {v : World} (seated : w.Seated) (same : v.badge = w.badge) : v.Seated := by
  intro slot p found
  have atSlot := congrFun same slot
  rw [badge, found, Option.map_some, eq_comm, badge, Option.map_eq_some_iff] at atSlot
  rcases atSlot with ⟨q, foundThere, badgeIs⟩
  simp only [Player.badge, Prod.mk.injEq] at badgeIs
  rcases badgeIs with ⟨slotIs, -, nameIs, -⟩
  rw [← slotIs, ← nameIs]
  exact seated slot q foundThere

/-- A change of who plays keeps players seated if it seats the one it changes. -/
theorem Seated.insert (seated : w.Seated) {slot : UInt8} {p : Player} (slotIs : p.slot = slot)
    (short : p.name.utf8ByteSize ≤ Player.maxNameBytes) :
    ∀ k q, (w.players.insert slot p).get? k = some q →
      q.slot = k ∧ q.name.utf8ByteSize ≤ Player.maxNameBytes := by
  intro k q found
  rw [ByteMap.get?_insert] at found
  split at found
  · next here =>
    cases found
    exact ⟨slotIs.trans here, short⟩
  · exact seated k q found

theorem Seated.prune (seated : w.Seated) (now : Time) : (w.prune now).Seated := by
  intro slot p found
  unfold World.prune at found
  dsimp only at found
  split at found
  · rw [ByteMap.get?_map, Option.map_eq_some_iff] at found
    rcases found with ⟨q, foundThere, rfl⟩
    exact seated slot q foundThere
  · exact seated slot p found

theorem Seated.apply (seated : w.Seated) (c : Command) (now : Time) : (w.apply c now).1.Seated := by
  cases c with
  | join slot account name udp => exact seated.insert rfl (Player.size_clampName name)
  | leave slot =>
    intro k p found
    simp only [World.apply, leave, ByteMap.get?_erase] at found
    split at found
    · cases found
    · exact seated k p found
  | acknowledge slot id =>
    simp only [World.apply, acknowledge]
    split
    · exact seated
    · next p found =>
      rcases seated slot p found with ⟨slotIs, short⟩
      split <;> exact seated.insert slotIs short
  | move => exact seated.of_badge (badge_apply rfl now)
  | infoChange => exact seated.of_badge (badge_apply rfl now)
  | damage => exact seated.of_badge (badge_apply rfl now)

theorem Seated.after (seated : w.Seated) (step : Step) : (w.after step).Seated := by
  cases step with
  | command c now => exact seated.apply c now
  | integrate now dt => exact seated.of_badge (badge_integrate now dt)
  | tick now => exact (seated.of_badge (badge_integrate now _)).prune now

theorem Seated.run (seated : w.Seated) (steps : List Step) : (w.run steps).Seated := by
  induction steps generalizing w with
  | nil => exact seated
  | cons step rest ih => exact ih (seated.after step)

theorem seated_empty (interval : Span) (points : List Vec3) (rolls : Nat → Nat) :
    (World.empty interval points rolls).Seated := by
  intro slot p found
  rw [World.empty, ByteMap.get?_empty] at found
  cases found

end World

theorem ByteMap.nodup_allKeys : ByteMap.allKeys.Nodup := by
  apply List.Nodup.map_on _ List.nodup_range
  intro x inLeft y inRight same
  have numbers := congrArg UInt8.toNat same
  rwa [UInt8.toNat_ofNat_of_lt' (List.mem_range.mp inLeft),
    UInt8.toNat_ofNat_of_lt' (List.mem_range.mp inRight)] at numbers

/-- The players of a snapshot stand in it in slot order. -/
theorem World.Seated.slots {w : World} (seated : w.Seated) :
    w.players.values.map (·.slot) = ByteMap.allKeys.filter fun k => w.players.contains k := by
  rw [← ByteMap.keys_toList, ByteMap.values, List.map_map]
  apply List.map_congr_left
  rintro ⟨k, p⟩ member
  exact (seated k p (ByteMap.mem_toList.mp member)).1

theorem World.Seated.moved {b : Beat} (seated : b.world.Seated) : b.moved.Seated :=
  (seated.of_badge (badge_integrate b.now _)).prune b.now

theorem Beat.mem_shot {b : Beat} (seated : b.world.Seated) {p : Player} :
    p ∈ b.shot.players ↔ b.moved.players.get? p.slot = some p := by
  refine ByteMap.mem_values.trans ⟨?_, fun found => ⟨_, found⟩⟩
  rintro ⟨k, found⟩
  rwa [(seated.moved k p found).1]

theorem Beat.regular_shot {b : Beat} (seated : b.world.Seated) : b.shot.Regular where
  slots := by
    show (b.moved.players.values.map (·.slot)).Nodup
    rw [seated.moved.slots]
    exact ByteMap.nodup_allKeys.filter _
  names p member := (seated.moved p.slot p ((mem_shot seated).mp member)).2

/-! ## The history of a run -/

theorem History.mem_prune {h : History} {now : Time} {s : Snapshot}
    (member : s ∈ (h.prune now).snapshots) : s ∈ h.snapshots :=
  (List.dropWhile_sublist _).mem member

theorem History.contains_iff {h : History} {id : UInt32} :
    h.contains id = true ↔ ∃ s ∈ h.snapshots, s.id = id := by
  simp [History.contains]

theorem History.find?_eq_none_iff {h : History} {id : UInt32} :
    h.find? id = none ↔ h.contains id = false := by
  simp [History.find?, History.contains]

/-- A number that is kept is found. -/
theorem History.exists_find? {h : History} {id : UInt32} (known : h.contains id = true) :
    ∃ s, h.find? id = some s := by
  cases found : h.find? id with
  | none =>
    rw [find?_eq_none_iff.mp found] at known
    cases known
  | some s => exact ⟨s, rfl⟩

theorem History.mem_of_find? {h : History} {id : UInt32} {s : Snapshot}
    (found : h.find? id = some s) : s ∈ h.snapshots ∧ s.id = id := by
  unfold History.find? at found
  exact ⟨List.mem_reverse.mp (List.mem_of_find?_eq_some found), by
    simpa using List.find?_some found⟩

namespace World

variable {w : World}

theorem history_apply (c : Command) (now : Time) : (w.apply c now).1.history = w.history := by
  cases c with
  | join => rfl
  | leave => rfl
  | move =>
    simp only [apply, move]
    split
    · split <;> rfl
    · rfl
  | infoChange => rfl
  | damage =>
    simp only [apply, damage]
    repeat' split
    all_goals rfl
  | acknowledge =>
    simp only [apply, acknowledge]
    repeat' split
    all_goals rfl

theorem history_prune (now : Time) : (w.prune now).history = w.history.prune now := by
  unfold prune
  dsimp only
  split
  · rfl
  · next same =>
    have whole : (w.history.prune now).snapshots = w.history.snapshots :=
      (List.dropWhile_sublist _).eq_of_length_le (Nat.le_of_not_lt same)
    exact congrArg (History.mk w.history.retention w.history.nextId) whole.symm

end World

/-- `s` is the snapshot that the beat of its number took. -/
def Recorded (beats : List Beat) (s : Snapshot) : Prop :=
  ∃ b, beats[s.id.toNat]? = some b ∧ b.shot = s

theorem Recorded.append {beats : List Beat} {s : Snapshot} (recorded : Recorded beats s)
    (more : List Beat) : Recorded (beats ++ more) s := by
  rcases recorded with ⟨b, found, shot⟩
  have bound := (List.getElem?_eq_some_iff.mp found).1
  exact ⟨b, (List.getElem?_append_left bound).trans found, shot⟩

/-- Recorded snapshots of one number are one. -/
theorem Recorded.eq_of_id {beats : List Beat} {s t : Snapshot} (left : Recorded beats s)
    (right : Recorded beats t) (same : s.id = t.id) : s = t := by
  rcases left with ⟨b, foundLeft, shotLeft⟩
  rcases right with ⟨c, foundRight, shotRight⟩
  rw [same, foundRight] at foundLeft
  cases foundLeft
  exact shotLeft.symm.trans shotRight

/-- The history after the beats: its next number counts them, and what it keeps is recorded. -/
structure History.Records (h : History) (beats : List Beat) : Prop where
  next : h.nextId = UInt32.ofNat beats.length
  recorded : ∀ s ∈ h.snapshots, Recorded beats s

theorem Beat.history_moved (b : Beat) : b.moved.history = b.world.history.prune b.now :=
  World.history_prune b.now

theorem Beat.id_shot (b : Beat) : b.shot.id = b.world.history.nextId := by
  show b.moved.history.nextId = _
  rw [b.history_moved]
  rfl

theorem Beat.history_kept (b : Beat) :
    b.kept.history = (b.world.history.prune b.now).push b.shot :=
  congrArg (fun h => h.push b.shot) b.history_moved

/-- A snapshot is new: no beat before it had its number. -/
theorem Beat.not_recorded_shot {b : Beat} {beats : List Beat}
    (records : b.world.history.Records beats) (short : beats.length < UInt32.size) :
    ¬ Recorded beats b.shot := by
  rintro ⟨c, found, -⟩
  rw [b.id_shot, records.next, UInt32.toNat_ofNat_of_lt' short,
    List.getElem?_eq_none (Nat.le_refl _)] at found
  cases found

theorem History.Records.tick {b : Beat} {beats : List Beat}
    (records : b.world.history.Records beats) (short : beats.length < UInt32.size) :
    b.kept.history.Records (beats ++ [b]) := by
  rw [b.history_kept]
  refine ⟨?_, ?_⟩
  · rw [List.length_append, List.length_singleton]
    show b.world.history.nextId + 1 = _
    rw [records.next, UInt32.ofNat_add]
    rfl
  · intro s member
    rcases List.mem_append.mp member with old | new
    · exact (records.recorded s (History.mem_prune old)).append [b]
    · refine ⟨b, ?_, (List.mem_singleton.mp new).symm⟩
      rw [List.mem_singleton.mp new, b.id_shot, records.next, UInt32.toNat_ofNat_of_lt' short]
      exact List.getElem?_concat_length

namespace World

/-- Along a run that starts without a history, the history keeps snapshots of its beats under their
numbers, as long as numbers do not wrap. -/
theorem run_records {w : World} (start : w.history.Records []) (steps : List Step)
    (short : (w.beats steps).length ≤ UInt32.size) :
    (w.run steps).history.Records (w.beats steps) := by
  induction steps using List.reverseRecOn with
  | nil => exact start
  | append_singleton steps step ih =>
    rw [run_concat]
    cases step with
    | command c now =>
      rw [beats_concat_command] at short ⊢
      rw [show (w.run steps).after (.command c now) = ((w.run steps).apply c now).1 from rfl,
        history_apply]
      exact ih short
    | integrate now dt =>
      rw [beats_concat_integrate] at short ⊢
      exact ih short
    | tick now =>
      rw [beats_concat_tick, List.length_append, List.length_singleton] at short
      rw [beats_concat_tick]
      have records : (⟨w.run steps, now⟩ : Beat).world.history.Records (w.beats steps) :=
        ih (by omega)
      exact records.tick (by omega)

theorem records_empty (interval : Span) (points : List Vec3) (rolls : Nat → Nat) :
    (World.empty interval points rolls).history.Records [] :=
  ⟨rfl, fun _ member => nomatch member⟩

end World

/-! ## Spawn points -/

/-- The spawn points after a command: only who joins draws one. -/
def Command.draw (s : Spawns) : Command → Spawns
  | .join .. => s.advance
  | .leave _ | .move .. | .infoChange .. | .damage .. | .acknowledge .. => s

theorem Command.points_draw (c : Command) (s : Spawns) : (c.draw s).points = s.points := by
  cases c <;> rfl

/-- A draw gives one of the points, or the origin if there are none. -/
theorem Spawns.current_cases (s : Spawns) :
    s.current ∈ s.points ∨ s.points = [] ∧ s.current = .zero := by
  unfold current
  cases points : s.points with
  | nil => exact .inr ⟨rfl, rfl⟩
  | cons first rest =>
    have inside : s.rolls s.drawn % (first :: rest).length < (first :: rest).length :=
      Nat.mod_lt _ (Nat.succ_pos _)
    rw [List.getElem?_eq_getElem inside, Option.getD_some]
    exact .inl (List.getElem_mem inside)

namespace World

variable {w : World}

theorem spawns_apply (c : Command) (now : Time) : (w.apply c now).1.spawns = c.draw w.spawns := by
  cases c with
  | join => rfl
  | leave => rfl
  | move =>
    simp only [apply, move]
    split
    · split <;> rfl
    · rfl
  | infoChange => rfl
  | damage =>
    simp only [apply, damage]
    repeat' split
    all_goals rfl
  | acknowledge =>
    simp only [apply, acknowledge]
    repeat' split
    all_goals rfl

theorem spawns_prune (now : Time) : (w.prune now).spawns = w.spawns := by
  unfold prune
  dsimp only
  split <;> rfl

theorem points_after (step : Step) : (w.after step).spawns.points = w.spawns.points := by
  cases step with
  | command c now =>
    show ((w.apply c now).1).spawns.points = _
    rw [spawns_apply, Command.points_draw]
  | integrate now dt => rfl
  | tick now =>
    show ((w.integrate now _).prune now).spawns.points = _
    rw [spawns_prune]
    rfl

theorem points_run (steps : List Step) : (w.run steps).spawns.points = w.spawns.points := by
  induction steps generalizing w with
  | nil => rfl
  | cons step rest ih => exact ih.trans (points_after step)

end World

end Deathmatch
