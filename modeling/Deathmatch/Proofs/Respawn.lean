import Deathmatch.Proofs.Overlay
import Deathmatch.Proofs.Vitals

/-!
# From death to respawn

A player who has fallen lies where they fell until they respawn. `Player.Lies` says how, and
`World.Lies` that the player of a slot does. Only damage makes a living player fall
(`World.lies_of_fall`). Whatever happens next, they lie on through it (`World.Lies.run`), unless
somebody comes into the slot or goes from it, or the world is carried on once the delay is over
(`World.Step.Early`). Then they stand up at a spawn point, otherwise as they were
(`World.get?_integrate_of_late`). `run_respawn` puts this together for runs.
-/

namespace Deathmatch

/-- When a step is taken. -/
def World.Step.now : World.Step → Time
  | .command _ now | .integrate now _ | .tick now => now

/-- Whether a player of `slot` who fell at the time `fell` lies on through the step: nobody comes
into the slot or goes from it, and it is too early to respawn. -/
def World.Step.Early (slot : UInt8) (fell : Time) : World.Step → Prop
  | .command c _ => c.turn? slot = none
  | .integrate now _ | .tick now => now < fell + Span.seconds 3

instance (slot : UInt8) (fell : Time) : DecidablePred (World.Step.Early slot fell)
  | .command c _ => inferInstanceAs (Decidable (c.turn? slot = none))
  | .integrate now _ | .tick now => inferInstanceAs (Decidable (now < fell + Span.seconds 3))

/-! ## Who lies -/

/-- The player fell at the time `fell` out of `motion`, and lies there. -/
structure Player.Lies (p : Player) (fell : Time) (motion : Motion) : Prop where
  life : p.life = .dead
  health : p.health = 0
  diedAt : p.diedAt = some fell
  motion : p.motion = motion.halted

/-- The delay is over three seconds after the fall. -/
theorem respawnDelay_le_age_iff (now fell : Nat) :
    World.respawnDelay ≤ Time.age now fell ↔ fell + Span.seconds 3 ≤ now := by
  show 3000000000 ≤ now - fell ↔ fell + 3000000000 ≤ now
  omega

namespace Player

variable {p : Player} {fell now : Time} {motion : Motion}

theorem lies_kill (p : Player) (now : Time) : (p.kill now).Lies now p.motion :=
  ⟨rfl, rfl, rfl, rfl⟩

theorem Lies.not_alive (lies : p.Lies fell motion) : p.life ≠ .alive := by
  rw [lies.life]
  exact nofun

theorem Lies.integrate_of_early (lies : p.Lies fell motion) (early : now < fell + Span.seconds 3)
    (dt : Scalar) (spawn : Vec3) : p.integrate now dt spawn = p := by
  rw [Player.integrate, lies.life, lies.diedAt]
  exact if_neg fun waited => Nat.not_le.mpr early ((respawnDelay_le_age_iff now fell).mp waited)

theorem Lies.integrate_of_late (lies : p.Lies fell motion) (late : fell + Span.seconds 3 ≤ now)
    (dt : Scalar) (spawn : Vec3) : p.integrate now dt spawn = p.respawn spawn := by
  rw [Player.integrate, lies.life, lies.diedAt]
  exact if_pos ((respawnDelay_le_age_iff now fell).mpr late)

/-- Nobody dies of the passing of time. -/
theorem life_integrate_of_alive (alive : p.life = .alive) (now : Time) (dt : Scalar)
    (spawn : Vec3) : (p.integrate now dt spawn).life = .alive := by
  rw [Player.integrate, alive]
  dsimp only
  split <;> exact alive

end Player

namespace World

variable {w : World} {slot k : UInt8} {fell now : Time} {motion : Motion}

/-- The player of the slot fell at the time `fell` out of `motion`, and lies there. -/
def Lies (w : World) (slot : UInt8) (fell : Time) (motion : Motion) : Prop :=
  ∃ p, w.players.get? slot = some p ∧ p.Lies fell motion

/-- Who lies is not changed by what others do, if they themselves lie on. -/
theorem Lies.insert (lies : w.Lies slot fell motion) {p : Player}
    (own : k = slot → p.Lies fell motion) :
    ∃ q, (w.players.insert k p).get? slot = some q ∧ q.Lies fell motion := by
  rw [ByteMap.get?_insert]
  split
  · next here => exact ⟨p, rfl, own here⟩
  · exact lies

theorem Lies.map (lies : w.Lies slot fell motion) {f : Player → Player}
    (keeps : ∀ p, p.Lies fell motion → (f p).Lies fell motion) :
    ∃ q, (w.players.map f).get? slot = some q ∧ q.Lies fell motion := by
  obtain ⟨p, found, here⟩ := lies
  exact ⟨f p, by rw [ByteMap.get?_map, found, Option.map_some], keeps p here⟩

/-- Nobody hurts the dead, but the dead may have hurt others. -/
theorem Lies.damage (lies : w.Lies slot fell motion) (attacker victim amount : UInt8)
    (now : Time) : (w.damage attacker victim amount now).1.Lies slot fell motion := by
  obtain ⟨p, found, here⟩ := lies
  -- whoever is hurt lives, so it is somebody else
  have other {target : Player} (hit : w.players.get? victim = some target)
      (alive : target.life = .alive) : victim ≠ slot := by
    rintro rfl
    cases found.symm.trans hit
    exact here.not_alive alive
  have hit := w.hit_damage attacker victim amount now
  generalize w.damage attacker victim amount now = outcome at hit ⊢
  cases hit with
  | spared => exact ⟨p, found, here⟩
  | wounded target hit alive | suicide target hit alive | felled target hit alive =>
    exact Lies.insert ⟨p, found, here⟩ fun own => absurd own (other hit alive)
  | killed target killer hit alive lethal apart present =>
    have fallen : (w.setPlayer victim (target.kill now)).Lies slot fell motion :=
      Lies.insert ⟨p, found, here⟩ fun own => absurd own (other hit alive)
    refine fallen.insert fun own => ?_
    rw [own] at present
    cases found.symm.trans present
    exact ⟨here.life, here.health, here.diedAt, here.motion⟩

theorem Lies.apply (lies : w.Lies slot fell motion) {c : Command} (stays : c.turn? slot = none)
    (now : Time) : (w.apply c now).1.Lies slot fell motion := by
  obtain ⟨p, found, here⟩ := lies
  cases c with
  | join k account name udp =>
    refine Lies.insert ⟨p, found, here⟩ fun own => ?_
    rw [Command.turn?, if_pos own] at stays
    cases stays
  | leave k =>
    refine ⟨p, ?_, here⟩
    show (w.players.erase k).get? slot = some p
    rw [ByteMap.get?_erase, if_neg, found]
    intro own
    rw [Command.turn?, if_pos own] at stays
    cases stays
  | move k motion receivedAt =>
    simp only [World.apply, move]
    split
    · next q present =>
      split
      · next alive =>
        refine Lies.insert ⟨p, found, here⟩ fun own => ?_
        rw [own] at present
        cases found.symm.trans present
        exact absurd alive here.not_alive
      · exact ⟨p, found, here⟩
    · exact ⟨p, found, here⟩
  | infoChange k weapon model =>
    simp only [World.apply, Lies, changeInfo, ByteMap.get?_modify]
    split
    · next own =>
      rw [own, found]
      exact ⟨_, rfl, here.life, here.health, here.diedAt, here.motion⟩
    · exact ⟨p, found, here⟩
  | damage attacker victim amount => exact Lies.damage ⟨p, found, here⟩ attacker victim amount now
  | acknowledge k id =>
    simp only [World.apply, acknowledge]
    split
    · exact ⟨p, found, here⟩
    · next q present =>
      have own (acknowledged : Option UInt32) (same : k = slot) :
          ({ q with acknowledged } : Player).Lies fell motion := by
        rw [same] at present
        cases found.symm.trans present
        exact ⟨here.life, here.health, here.diedAt, here.motion⟩
      split <;> exact Lies.insert ⟨p, found, here⟩ (own _)

theorem Lies.prune (lies : w.Lies slot fell motion) (now : Time) :
    (w.prune now).Lies slot fell motion := by
  unfold World.prune
  dsimp only
  split
  · exact lies.map fun p here => ⟨here.life, here.health, here.diedAt, here.motion⟩
  · exact lies

theorem Lies.integrate (lies : w.Lies slot fell motion) (early : now < fell + Span.seconds 3)
    (dt : Scalar) : (w.integrate now dt).Lies slot fell motion :=
  lies.map fun p here => by rwa [here.integrate_of_early early]

/-- A beat that comes early carries nobody's death on, so the snapshot shows it. -/
theorem Lies.moved {b : Beat} (lies : b.world.Lies slot fell motion)
    (early : b.now < fell + Span.seconds 3) : b.moved.Lies slot fell motion :=
  (lies.integrate early _).prune b.now

theorem Lies.after (lies : w.Lies slot fell motion) {step : Step} (early : step.Early slot fell) :
    (w.after step).Lies slot fell motion := by
  cases step with
  | command c now => exact lies.apply early now
  | integrate now dt => exact lies.integrate early dt
  | tick now => exact Lies.moved (b := ⟨w, now⟩) lies early

theorem Lies.run (lies : w.Lies slot fell motion) {steps : List Step}
    (early : ∀ step ∈ steps, step.Early slot fell) : (w.run steps).Lies slot fell motion := by
  induction steps generalizing w with
  | nil => exact lies
  | cons step rest ih =>
    obtain ⟨first, others⟩ := List.forall_mem_cons.mp early
    exact ih (lies.after first) others

/-! ## Falling -/

/-- Nobody lies dead in the slot. -/
def Lives (w : World) (slot : UInt8) : Prop :=
  ∀ p, w.players.get? slot = some p → p.life = .alive

theorem Lives.insert (lives : w.Lives slot) {p : Player} (own : k = slot → p.life = .alive) :
    ∀ q, (w.players.insert k p).get? slot = some q → q.life = .alive := by
  intro q found
  rw [ByteMap.get?_insert] at found
  split at found
  · next here =>
    cases found
    exact own here
  · exact lives q found

theorem Lives.map (lives : w.Lives slot) {f : Player → Player}
    (keeps : ∀ p : Player, p.life = .alive → (f p).life = .alive) :
    ∀ q, (w.players.map f).get? slot = some q → q.life = .alive := by
  intro q found
  rw [ByteMap.get?_map, Option.map_eq_some_iff] at found
  obtain ⟨p, present, rfl⟩ := found
  exact keeps p (lives p present)

theorem Lives.prune (lives : w.Lives slot) (now : Time) : (w.prune now).Lives slot := by
  unfold World.prune
  dsimp only
  split
  · exact lives.map fun p alive => alive
  · exact lives

/-- Who was hurt lives on or fell. -/
theorem Lives.damage (lives : w.Lives slot) (attacker victim amount : UInt8) (now : Time) :
    (w.damage attacker victim amount now).1.Lives slot ∨ victim = slot ∧
      ∃ p, w.players.get? slot = some p ∧
        (w.damage attacker victim amount now).1.Lies slot now p.motion := by
  have hit := w.hit_damage attacker victim amount now
  generalize w.damage attacker victim amount now = outcome at hit ⊢
  have elsewhere {fallen : Player} (other : victim ≠ slot) :
      (w.setPlayer victim fallen).Lives slot :=
    lives.insert fun own => absurd own other
  have falls {target fallen : Player} (found : w.players.get? victim = some target)
      (lies : fallen.Lies now target.motion) (own : victim = slot) :
      ∃ p, w.players.get? slot = some p ∧ (w.setPlayer victim fallen).Lies slot now p.motion := by
    subst own
    exact ⟨target, found, fallen, by rw [get?_setPlayer, if_pos rfl], lies⟩
  cases hit with
  | spared => exact .inl lives
  | wounded target found alive => exact .inl (lives.insert fun _ => alive)
  | suicide target found =>
    by_cases own : victim = slot
    · exact .inr ⟨own, falls found ⟨rfl, rfl, rfl, rfl⟩ own⟩
    · exact .inl (elsewhere own)
  | felled target found =>
    by_cases own : victim = slot
    · exact .inr ⟨own, falls found (target.lies_kill now) own⟩
    · exact .inl (elsewhere own)
  | killed target killer found alive lethal apart present =>
    by_cases own : victim = slot
    · obtain ⟨p, here, lies⟩ := falls found (target.lies_kill now) own
      exact .inr ⟨own, p, here, lies.insert fun mine => absurd (mine.trans own.symm) apart⟩
    · refine .inl ((elsewhere own).insert fun mine => ?_)
      exact lives killer (mine ▸ present)

/-- Whoever lives in a slot lives on through a step, unless damage makes them fall. -/
theorem Lives.after (lives : w.Lives slot) (step : Step) :
    (w.after step).Lives slot ∨
      ∃ attacker amount now p, step = .command (.damage attacker slot amount) now ∧
        w.players.get? slot = some p ∧ (w.after step).Lies slot now p.motion := by
  cases step with
  | command c now =>
    cases c with
    | join k account name udp => exact .inl (lives.insert fun _ => rfl)
    | leave k =>
      refine .inl fun p found => ?_
      have left : (w.players.erase k).get? slot = some p := found
      rw [ByteMap.get?_erase] at left
      split at left
      · cases left
      · exact lives p left
    | move k motion receivedAt =>
      refine .inl ?_
      simp only [World.after, World.apply, move]
      split
      · split
        · next alive => exact lives.insert fun _ => alive
        · exact lives
      · exact lives
    | infoChange k weapon model =>
      refine .inl fun p found => ?_
      simp only [World.after, World.apply, changeInfo, ByteMap.get?_modify] at found
      split at found
      · next here =>
        obtain ⟨q, present, rfl⟩ := Option.map_eq_some_iff.mp found
        exact lives q (here ▸ present)
      · exact lives p found
    | damage attacker victim amount =>
      rcases lives.damage attacker victim amount now with on | ⟨rfl, p, found, lies⟩
      · exact .inl on
      · exact .inr ⟨attacker, amount, now, p, rfl, found, lies⟩
    | acknowledge k id =>
      refine .inl ?_
      simp only [World.after, World.apply, acknowledge]
      split
      · exact lives
      · next q present => split <;> exact lives.insert fun here => lives q (here ▸ present)
  | integrate now dt =>
    exact .inl (lives.map fun p alive => p.life_integrate_of_alive alive now dt _)
  | tick now =>
    have carried : (w.integrate now w.tickInterval.toScalar).Lives slot :=
      lives.map fun p alive => p.life_integrate_of_alive alive now _ _
    exact .inl (carried.prune now)

/-- Whoever lived before a step and is dead after it has fallen by damage, and lies there. -/
theorem lies_of_fall {p q : Player} {step : Step} (before : w.players.get? slot = some p)
    (alive : p.life = .alive) (after : (w.after step).players.get? slot = some q)
    (dead : q.life = .dead) :
    (∃ attacker amount, step = .command (.damage attacker slot amount) step.now) ∧
      (w.after step).Lies slot step.now p.motion := by
  have lives : w.Lives slot := by
    intro r found
    cases before.symm.trans found
    exact alive
  rcases lives.after step with on | ⟨attacker, amount, now, r, rfl, found, lies⟩
  · cases dead.symm.trans (on q after)
  · cases before.symm.trans found
    exact ⟨⟨attacker, amount, rfl⟩, lies⟩

/-! ## Standing up -/

/-- The first time that the world is carried on once the delay is over, who lies respawns. -/
theorem get?_integrate_of_late {p : Player} (found : w.players.get? slot = some p)
    (lies : p.Lies fell motion) (late : fell + Span.seconds 3 ≤ now) (dt : Scalar) :
    (w.integrate now dt).players.get? slot = some (p.respawn w.spawns.current) := by
  rw [World.integrate, ByteMap.get?_map, found, Option.map_some, lies.integrate_of_late late]

/-- Pruning takes nothing from a player but an acknowledgement of a snapshot that is dropped. -/
theorem get?_prune {p : Player} (found : w.players.get? slot = some p) (now : Time) :
    ∃ acknowledged, (w.prune now).players.get? slot = some { p with acknowledged } ∧
      (acknowledged = p.acknowledged ∨ acknowledged = none ∧
        ∀ id ∈ p.acknowledged, (w.history.prune now).contains id = false) := by
  unfold World.prune
  dsimp only
  split
  · refine ⟨p.acknowledged.filter (w.history.prune now).contains, ?_, ?_⟩
    · rw [ByteMap.get?_map, found, Option.map_some]
    · cases p.acknowledged with
      | none => exact .inl rfl
      | some id =>
        rw [Option.filter_some]
        split
        · exact .inl rfl
        · next dropped =>
          refine .inr ⟨rfl, fun id' same => ?_⟩
          cases same
          exact Bool.eq_false_iff.mpr dropped
  · exact ⟨p.acknowledged, found, .inl rfl⟩

end World

/-- The death of a player, and their return, in any run. Whoever lives before a step and is dead
after it was hurt in that step. As long as nobody comes into their slot or goes from it, and the
world is carried on at times less than three seconds later only, they are dead, without health, and
lie where they fell, still; so do the snapshots taken meanwhile show them. The first integration or
tick that is at least three seconds later than their death brings them back to life, with full
health, at rest at a spawn point. Nothing else of them is changed by it, except that a tick takes
away the acknowledgement of a snapshot that it drops, as from everybody. -/
theorem run_respawn (interval : Span) (points : List Vec3) (rolls : Nat → Nat)
    (entities : List Entity) (before later : List World.Step) (fall : World.Step) (slot : UInt8)
    (p q : Player) :
    let start := { World.empty interval points rolls with entities }
    let w := (start.run before).after fall
    let place : Motion := ⟨p.motion.position, p.motion.rotation, .zero, .zero⟩
    (start.run before).players.get? slot = some p → p.life = .alive →
    w.players.get? slot = some q → q.life = .dead →
    (∀ step ∈ later, step.Early slot fall.now) →
    (∃ attacker amount, fall = .command (.damage attacker slot amount) fall.now) ∧
    (∀ b ∈ w.beats later, ∃ r, b.shot.inSlot? slot = some r ∧
      r.life = .dead ∧ r.health = 0 ∧ r.motion = place) ∧
    ∃ r, (w.run later).players.get? slot = some r ∧
      r.life = .dead ∧ r.health = 0 ∧ r.motion = place ∧
      ∃ spawn, (spawn ∈ points ∨ points = [] ∧ spawn = .zero) ∧
        let risen : Player := { r with
          health := 100, life := .alive, diedAt := none, motion := ⟨spawn, .zero, .zero, .zero⟩ }
        ∀ now, fall.now + Span.seconds 3 ≤ now →
          (∀ dt, ((w.run later).after (.integrate now dt)).players.get? slot = some risen) ∧
          ∃ acknowledged,
            ((w.run later).after (.tick now)).players.get? slot =
              some { risen with acknowledged } ∧
            (acknowledged = r.acknowledged ∨ acknowledged = none ∧
              ∀ id ∈ r.acknowledged, ((w.run later).history.prune now).contains id = false) := by
  intro start w place here alive there dead early
  obtain ⟨hurt, lies⟩ := World.lies_of_fall here alive there dead
  refine ⟨hurt, fun b member => ?_, ?_⟩
  · obtain ⟨k, found⟩ := List.mem_iff_getElem?.mp member
    obtain ⟨earlier, rest, rfl, worldIs, -⟩ := World.split_beats found
    obtain ⟨meanwhile, onTime⟩ := List.forall_mem_append.mp early
    have seated : b.world.Seated := by
      have entered : start.Seated := World.seated_empty interval points rolls
      rw [worldIs]
      exact ((entered.run before).after fall).run earlier
    obtain ⟨r, there, lying⟩ :=
      World.Lies.moved (worldIs ▸ lies.run meanwhile) (onTime _ List.mem_cons_self)
    exact ⟨r, (Beat.inSlot?_shot seated slot).trans there, lying.life, lying.health, lying.motion⟩
  · obtain ⟨r, found, lying⟩ := lies.run early
    have points_ : (w.run later).spawns.points = points := by
      rw [World.points_run, World.points_after, World.points_run]
      rfl
    refine ⟨r, found, lying.life, lying.health, lying.motion, (w.run later).spawns.current, ?_,
      fun now late => ⟨fun dt => ?_, ?_⟩⟩
    · rw [← points_]
      exact (w.run later).spawns.current_cases
    · exact World.get?_integrate_of_late found lying late dt
    · exact World.get?_prune (World.get?_integrate_of_late found lying late _) now

/-- Killed while running, and back three seconds later; meanwhile the dead change their weapon, try
to run on, are hurt again and hear of a snapshot. -/
theorem run_respawn_runner :
    let spawn : Vec3 := ⟨⟨7⟩, ⟨8⟩, ⟨9⟩⟩
    let running : Motion := ⟨⟨⟨1⟩, ⟨2⟩, ⟨3⟩⟩, .zero, ⟨⟨4⟩, ⟨5⟩, ⟨6⟩⟩, .zero⟩
    let start := World.empty 15000000 [spawn] fun _ => 0
    let before : List World.Step :=
      [.command (.join 0 "a" "A" none) 0, .command (.join 1 "b" "B" none) 0, .tick 1,
        .command (.move 1 running 2) 2]
    let fall : World.Step := .command (.damage 0 1 100) 3
    let later : List World.Step :=
      [.command (.infoChange 1 3 0) 4, .command (.move 1 ⟨.zero, .zero, .zero, .zero⟩ 5) 5,
        .command (.damage 0 1 100) 6, .command (.acknowledge 1 0) 7, .tick 2000000000,
        .integrate 3000000002 .zero]
    let w := (start.run before).after fall
    (∃ p q, (start.run before).players.get? 1 = some p ∧ p.life = .alive ∧
      w.players.get? 1 = some q ∧ q.life = .dead) ∧
    (∀ step ∈ later, step.Early 1 fall.now) ∧
    (∃ r, (w.run later).players.get? 1 = some r ∧ r.life = .dead ∧
      r.motion = ⟨running.position, .zero, .zero, .zero⟩) ∧
    ∃ r, ((w.run later).after (.tick 3000000003)).players.get? 1 = some r ∧
      r.life = .alive ∧ r.health = 100 ∧ r.motion = ⟨spawn, .zero, .zero, .zero⟩ := by
  intro spawn running start before fall later w
  have early : ∀ step ∈ later, step.Early 1 fall.now := by decide
  have living : ((start.run before).players.get? 1).map (fun p => (p.life, p.motion)) =
      some (.alive, running) := by decide +kernel
  have fallen : (w.players.get? 1).map (·.life) = some .dead := by decide +kernel
  obtain ⟨p, here, state⟩ := Option.map_eq_some_iff.mp living
  obtain ⟨alive, moving⟩ := Prod.mk.inj state
  obtain ⟨q, there, dead⟩ := Option.map_eq_some_iff.mp fallen
  obtain ⟨-, -, r, found, lifeless, -, place, spawn', among, rises⟩ :=
    run_respawn 15000000 [spawn] (fun _ => 0) [] before later fall 1 p q here alive there dead early
  obtain ⟨-, acknowledged, risen, -⟩ := rises 3000000003 (by decide)
  have point : spawn' = spawn := by simpa using among
  rw [moving] at place
  rw [point] at risen
  exact ⟨⟨p, q, here, alive, there, dead⟩, early, ⟨r, found, lifeless, place⟩, _, risen, rfl, rfl,
    rfl⟩

end Deathmatch
