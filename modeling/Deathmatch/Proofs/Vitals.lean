import Deathmatch.Proofs.Coverage

/-!
# Life and death

Damage goes one of five ways (`World.Hit`): there is nobody to hurt, the victim survives, dies by
their own hand, dies by somebody who is not there any more, or is killed by another player.
`World.hit_damage` says so once.

The state of a player says the same thing several times: whether they live, whether they have health
left, whether the time of a death is noted, and that the dead lie still. `Player.Coherent` says that
these agree. Whoever joins, falls or respawns is coherent at once, and whatever else happens to a
player keeps them so (`World.Coherent.after`). `run_vitals` is what holds of every world.
-/

namespace Deathmatch

/-! ## Counters that saturate -/

theorem toNat_saturatingSub (a b : UInt8) : (saturatingSub a b).toNat = a.toNat - b.toNat := by
  unfold saturatingSub
  split
  · next small => exact (Nat.sub_eq_zero_of_le (UInt8.le_iff_toNat_le.mp small)).symm
  · next large => exact UInt8.toNat_sub_of_le _ _ (UInt8.le_of_lt (UInt8.not_le.mp large))

theorem toNat_saturatingSucc (b : UInt8) : (saturatingSucc b).toNat = min 255 (b.toNat + 1) := by
  have bound := b.toNat_lt
  unfold saturatingSucc
  split
  · next full =>
    rw [full]
    rfl
  · next room =>
    have below : b.toNat ≠ 255 := fun same => room (UInt8.toNat.inj same)
    rw [UInt8.toNat_add]
    show (b.toNat + 1) % 256 = _
    omega

/-- Nothing is left just when as much is taken as there was. -/
theorem saturatingSub_eq_zero_iff {a b : UInt8} : saturatingSub a b = 0 ↔ a ≤ b := by
  rw [← UInt8.toNat_inj, toNat_saturatingSub, UInt8.le_iff_toNat_le]
  exact Nat.sub_eq_zero_iff_le

theorem saturatingSub_of_lt {a b : UInt8} (less : b < a) : saturatingSub a b = a - b :=
  if_neg (UInt8.not_le.mpr less)

/-! ## What damage comes to -/

/-- What damage makes of a world, and what it earns. -/
inductive World.Hit (w : World) (attacker victim amount : UInt8) (now : Time) :
    World × List Event → Prop
  | spared (nobody : ∀ target, w.players.get? victim = some target → target.life = .dead) :
    Hit w attacker victim amount now (w, [])
  | wounded (target : Player) (found : w.players.get? victim = some target)
      (alive : target.life = .alive) (survives : amount < target.health) :
    Hit w attacker victim amount now
      (w.setPlayer victim { target with health := target.health - amount }, [])
  | suicide (target : Player) (found : w.players.get? victim = some target)
      (alive : target.life = .alive) (lethal : target.health ≤ amount) (own : attacker = victim) :
    Hit w attacker victim amount now
      (w.setPlayer victim (target.kill now).suicide.1, [.achievement (target.unlock .suicide)])
  | felled (target : Player) (found : w.players.get? victim = some target)
      (alive : target.life = .alive) (lethal : target.health ≤ amount) (other : attacker ≠ victim)
      (gone : w.players.get? attacker = none) :
    Hit w attacker victim amount now (w.setPlayer victim (target.kill now), [])
  | killed (target killer : Player) (found : w.players.get? victim = some target)
      (alive : target.life = .alive) (lethal : target.health ≤ amount) (other : attacker ≠ victim)
      (present : w.players.get? attacker = some killer) :
    Hit w attacker victim amount now
      ((w.setPlayer victim (target.kill now)).setPlayer attacker killer.scoreKill,
        (killer.killed target).2.map .achievement)

theorem World.hit_damage (w : World) (attacker victim amount : UInt8) (now : Time) :
    w.Hit attacker victim amount now (w.damage attacker victim amount now) := by
  unfold damage
  split
  · next vacant =>
    refine .spared fun target found => ?_
    rw [vacant] at found
    cases found
  · next target found =>
    split
    · next dead =>
      refine .spared fun other foundToo => ?_
      rw [found] at foundToo
      cases foundToo
      exact dead
    · next living =>
      have alive : target.life = .alive := by
        cases life : target.life with
        | alive => rfl
        | dead => exact absurd life living
      dsimp only
      split
      · next left =>
        have survives : amount < target.health :=
          UInt8.not_le.mp fun lethal => left (saturatingSub_eq_zero_iff.mpr lethal)
        rw [saturatingSub_of_lt survives]
        exact .wounded target found alive survives
      · next none =>
        have lethal : target.health ≤ amount := saturatingSub_eq_zero_iff.mp (not_not.mp none)
        split
        · next own => exact .suicide target found alive lethal own
        · next other =>
          rw [get?_setPlayer, if_neg (Ne.symm other)]
          split
          · next gone => exact .felled target found alive lethal other gone
          · next killer present => exact .killed target killer found alive lethal other present

/-! ## Players whose state agrees with itself -/

namespace Player

/-- What of a player says whether they live. -/
def vitals (p : Player) : UInt8 × Life × Option Time × Vec3 × Vec3 :=
  (p.health, p.life, p.diedAt, p.motion.velocity, p.motion.angularVelocity)

/-- A player is dead just when no health is left, and when a time of death is noted. The dead lie
still. -/
structure Coherent (p : Player) : Prop where
  health : p.health ≤ maxHealth
  dead : p.life = .dead ↔ p.health = 0
  died : p.health = 0 ↔ p.diedAt.isSome = true
  still : p.life = .dead → p.motion.velocity = .zero ∧ p.motion.angularVelocity = .zero

variable {p q : Player}

theorem Coherent.of_vitals (coherent : p.Coherent) (same : q.vitals = p.vitals) : q.Coherent := by
  simp only [vitals, Prod.mk.injEq] at same
  obtain ⟨health, life, diedAt, velocity, angularVelocity⟩ := same
  exact ⟨health ▸ coherent.health, by rw [life, health]; exact coherent.dead,
    by rw [health, diedAt]; exact coherent.died,
    by rw [life, velocity, angularVelocity]; exact coherent.still⟩

/-- Whoever is full of health lives. -/
theorem coherent_of_sound (health : p.health = maxHealth) (alive : p.life = .alive)
    (never : p.diedAt = none) : p.Coherent := by
  have some_ : p.health ≠ 0 := health ▸ (by decide)
  refine ⟨health ▸ UInt8.le_refl _, ?_, ?_, fun dead => ?_⟩
  · exact iff_of_false (by rw [alive]; exact nofun) some_
  · exact iff_of_false some_ (by rw [never]; exact Bool.false_ne_true)
  · rw [alive] at dead
    cases dead

theorem coherent_kill (p : Player) (now : Time) : (p.kill now).Coherent :=
  ⟨UInt8.zero_le, iff_of_true rfl rfl, iff_of_true rfl rfl, fun _ => ⟨rfl, rfl⟩⟩

/-- The living may move, and be hurt as long as some health is left. -/
theorem Coherent.of_alive (coherent : p.Coherent) (alive : p.life = .alive)
    (life : q.life = p.life) (diedAt : q.diedAt = p.diedAt) (less : q.health ≤ p.health)
    (some_ : q.health ≠ 0) : q.Coherent := by
  have living : ¬ q.life = .dead := by
    rw [life, alive]
    exact nofun
  have never : ¬ q.diedAt.isSome = true := by
    rw [diedAt, ← coherent.died, ← coherent.dead, alive]
    exact nofun
  exact ⟨UInt8.le_trans less coherent.health, iff_of_false living some_,
    iff_of_false some_ never, fun dead => absurd dead living⟩

theorem Coherent.health_ne_zero (coherent : p.Coherent) (alive : p.life = .alive) :
    p.health ≠ 0 := by
  rw [Ne, ← coherent.dead, alive]
  exact nofun

theorem Coherent.integrate (coherent : p.Coherent) (now : Time) (dt : Scalar) (spawn : Vec3) :
    (p.integrate now dt spawn).Coherent := by
  unfold Player.integrate
  split
  · split
    · exact coherent_of_sound rfl rfl rfl
    · exact coherent
  · exact coherent
  · split
    · exact coherent.of_vitals rfl
    · exact coherent

end Player

/-! ## Worlds of such players -/

namespace World

variable {w : World}

/-- All players are coherent. -/
def Coherent (w : World) : Prop :=
  ∀ slot p, w.players.get? slot = some p → p.Coherent

theorem Coherent.insert (coherent : w.Coherent) {slot : UInt8} {p : Player} (here : p.Coherent) :
    ∀ k q, (w.players.insert slot p).get? k = some q → q.Coherent := by
  intro k q found
  rw [ByteMap.get?_insert] at found
  split at found
  · cases found
    exact here
  · exact coherent k q found

theorem Coherent.map (coherent : w.Coherent) {f : Player → Player}
    (keeps : ∀ p, p.Coherent → (f p).Coherent) :
    ∀ k q, (w.players.map f).get? k = some q → q.Coherent := by
  intro k q found
  rw [ByteMap.get?_map, Option.map_eq_some_iff] at found
  obtain ⟨p, foundThere, rfl⟩ := found
  exact keeps p (coherent k p foundThere)

theorem Coherent.damage (coherent : w.Coherent) (attacker victim amount : UInt8) (now : Time) :
    (w.damage attacker victim amount now).1.Coherent := by
  have hit := w.hit_damage attacker victim amount now
  generalize w.damage attacker victim amount now = outcome at hit
  cases hit with
  | spared => exact coherent
  | wounded target found alive survives =>
    have left : (target.health - amount).toNat = target.health.toNat - amount.toNat :=
      UInt8.toNat_sub_of_le _ _ (UInt8.le_of_lt survives)
    rw [UInt8.lt_iff_toNat_lt] at survives
    refine coherent.insert ((coherent victim target found).of_alive alive rfl rfl ?_ fun none => ?_)
    · rw [UInt8.le_iff_toNat_le, left]
      exact Nat.sub_le _ _
    · rw [show target.health - amount = 0 from none] at left
      exact absurd left (Nat.ne_of_lt (Nat.sub_pos_of_lt survives))
  | suicide target => exact coherent.insert ((target.coherent_kill now).of_vitals rfl)
  | felled target => exact coherent.insert (target.coherent_kill now)
  | killed target killer found alive lethal other present =>
    have fallen : (w.setPlayer victim (target.kill now)).Coherent :=
      coherent.insert (target.coherent_kill now)
    exact fallen.insert ((coherent attacker killer present).of_vitals rfl)

theorem Coherent.apply (coherent : w.Coherent) (c : Command) (now : Time) :
    (w.apply c now).1.Coherent := by
  cases c with
  | join slot account name udp => exact coherent.insert (Player.coherent_of_sound rfl rfl rfl)
  | leave slot =>
    intro k p found
    simp only [World.apply, leave, ByteMap.get?_erase] at found
    split at found
    · cases found
    · exact coherent k p found
  | move slot motion receivedAt =>
    simp only [World.apply, move]
    split
    · next p found =>
      have here := coherent slot p found
      split
      · next alive => exact coherent.insert (here.of_alive alive rfl rfl (UInt8.le_refl _)
          (here.health_ne_zero alive))
      · exact coherent
    · exact coherent
  | infoChange slot weapon model =>
    intro k p found
    simp only [World.apply, changeInfo, ByteMap.get?_modify] at found
    split at found
    · obtain ⟨q, foundThere, rfl⟩ := Option.map_eq_some_iff.mp found
      exact (coherent slot q foundThere).of_vitals rfl
    · exact coherent k p found
  | damage attacker victim amount => exact coherent.damage attacker victim amount now
  | acknowledge slot id =>
    simp only [World.apply, acknowledge]
    split
    · exact coherent
    · next p found => split <;> exact coherent.insert ((coherent slot p found).of_vitals rfl)

theorem Coherent.prune (coherent : w.Coherent) (now : Time) : (w.prune now).Coherent := by
  unfold World.prune
  dsimp only
  split
  · exact coherent.map fun p here => here.of_vitals rfl
  · exact coherent

theorem Coherent.integrate (coherent : w.Coherent) (now : Time) (dt : Scalar) :
    (w.integrate now dt).Coherent :=
  coherent.map fun _ here => here.integrate now dt w.spawns.current

theorem Coherent.after (coherent : w.Coherent) (step : Step) : (w.after step).Coherent := by
  cases step with
  | command c now => exact coherent.apply c now
  | integrate now dt => exact coherent.integrate now dt
  | tick now => exact (coherent.integrate now _).prune now

theorem Coherent.run (coherent : w.Coherent) (steps : List Step) : (w.run steps).Coherent := by
  induction steps generalizing w with
  | nil => exact coherent
  | cons step rest ih => exact ih (coherent.after step)

theorem coherent_empty (interval : Span) (points : List Vec3) (rolls : Nat → Nat) :
    (World.empty interval points rolls).Coherent := by
  intro slot p found
  rw [World.empty, ByteMap.get?_empty] at found
  cases found

end World

/-- What holds of every world after any steps from an empty one, at any times. A player is kept
under their own slot, and has a name of at most 32 bytes and at most 100 points of health. They are
dead just when their health is 0, and just when a time of death is noted; dead, they have no speed
of any kind, down to the sign of the zeros. Snapshots go only to slots with a player. -/
theorem run_vitals (interval : Span) (points : List Vec3) (rolls : Nat → Nat)
    (steps : List World.Step) :
    let w := (World.empty interval points rolls).run steps
    (∀ slot p, w.players.get? slot = some p →
      p.slot = slot ∧ p.name.utf8ByteSize ≤ 32 ∧ p.health ≤ 100 ∧
      (p.life = .dead ↔ p.health = 0) ∧ (p.health = 0 ↔ ∃ diedAt, p.diedAt = some diedAt) ∧
      (p.life = .dead → p.motion.velocity = ⟨⟨0⟩, ⟨0⟩, ⟨0⟩⟩ ∧
        p.motion.angularVelocity = ⟨⟨0⟩, ⟨0⟩, ⟨0⟩⟩)) ∧
    ∀ slot target, w.endpoints.get? slot = some target → ∃ p, w.players.get? slot = some p := by
  intro w
  have seated : w.Seated := (World.seated_empty interval points rolls).run steps
  have coherent : w.Coherent := (World.coherent_empty interval points rolls).run steps
  have manned : w.roster.Manned :=
    World.manned_run (World.roster_empty interval points rolls ▸ Roster.manned_empty) steps
  refine ⟨fun slot p found => ?_, fun slot target bound => World.exists_player manned bound⟩
  obtain ⟨slotIs, short⟩ := seated slot p found
  have here := coherent slot p found
  exact ⟨slotIs, short, here.health, here.dead, here.died.trans Option.isSome_iff_exists,
    here.still⟩

/-- Killed while moving. -/
theorem run_vitals_killed :
    let motion : Motion := ⟨.zero, .zero, ⟨⟨1⟩, ⟨2⟩, ⟨3⟩⟩, ⟨⟨4⟩, ⟨5⟩, ⟨6⟩⟩⟩
    let w := (World.empty 0 [] fun _ => 0).run
      [.command (.join 0 "a" "A" none) 0, .command (.join 1 "b" "B" (some ⟨"h", 9⟩)) 0,
        .command (.move 1 motion 1) 1, .command (.damage 0 1 60) 2, .command (.damage 0 1 60) 3]
    ∃ p, w.players.get? 1 = some p ∧ p.life = .dead ∧ p.health = 0 ∧
      p.motion.velocity = ⟨⟨0⟩, ⟨0⟩, ⟨0⟩⟩ := by
  intro motion w
  have life : (w.players.get? 1).map (·.life) = some .dead := by decide +kernel
  obtain ⟨p, found, dead⟩ := Option.map_eq_some_iff.mp life
  obtain ⟨-, -, -, lifeless, -, still⟩ := (run_vitals 0 [] (fun _ => 0) _).1 1 p found
  exact ⟨p, found, dead, lifeless.mp dead, (still dead).1⟩

end Deathmatch
