import Deathmatch.Proofs.Vitals
import Mathlib.Data.List.Count
import Mathlib.Data.List.DropRight

/-!
# Kills, and what they earn

A blow is a command to do damage, together with the world that it is given to. What it is to a
player is its `Deed`: a kill of theirs, their death, or their suicide. The counters of a player are
their `Ledger`. A blow changes a ledger as its deed says (`Blow.ledger_landed`), and besides blows
only a join or a leave does.

`World.blows` keeps the blows of a run since somebody last joined in a slot. `Ledger.Tally` reads the
counters off them, and `Told` says that it did so at each of them already. So what a kill earns can
be told from the kills before it, and a milestone is reached once (`count_milestone`). `run_tally`
puts the accounts of a run together.
-/

namespace Deathmatch

/-- What damage can be to a player. -/
inductive Deed where
  /-- They took the last health of somebody else. -/
  | kill
  /-- Somebody else took theirs. -/
  | death
  /-- They took their own. -/
  | suicide
  deriving DecidableEq

/-- A command to do damage, and the world that it is given to. -/
structure Blow where
  world : World
  attacker : UInt8
  victim : UInt8
  amount : UInt8
  now : Time

namespace Blow

def command (b : Blow) : Command :=
  .damage b.attacker b.victim b.amount

/-- The world after the blow. -/
def landed (b : Blow) : World :=
  (b.world.apply b.command b.now).1

/-- What the blow leads to outside the world. -/
def events (b : Blow) : List Event :=
  (b.world.apply b.command b.now).2

/-- The blow takes the last health of a living player. -/
def Fatal (b : Blow) : Prop :=
  ∃ target ∈ b.world.players.get? b.victim, target.life = .alive ∧ target.health ≤ b.amount

instance (b : Blow) : Decidable b.Fatal :=
  Option.decidableExistsMem _

/-- What the blow is to the player of `slot`. -/
def deed? (b : Blow) (slot : UInt8) : Option Deed :=
  if b.Fatal then
    if b.victim = slot then some (if b.attacker = slot then .suicide else .death)
    else if b.attacker = slot then some .kill
    else none
  else none

/-- Whether the player of `slot` lives on. -/
def spares (b : Blow) (slot : UInt8) : Bool :=
  b.deed? slot ≠ some .death ∧ b.deed? slot ≠ some .suicide

/-- The kills of the player of `slot`. -/
def kills (slot : UInt8) (blows : List Blow) : List Blow :=
  blows.filter fun b => b.deed? slot = some .kill

/-- The kills of the player of `slot` since they last died. -/
def spree (slot : UInt8) (blows : List Blow) : List Blow :=
  kills slot (blows.rtakeWhile fun b => b.spares slot)

/-- The points of the player of `slot` after the blow. -/
def points (slot : UInt8) (before : Nat) (b : Blow) : Nat :=
  match b.deed? slot with
  | some .kill => min 255 (before + 1)
  | some .suicide => before - 1
  | _ => before

/-- The blows since somebody last joined in `slot`, after one more step, taken in `w`. -/
def since (past : List Blow) (w : World) (slot : UInt8) : World.Step → List Blow
  | .command (.join k _ _ _) _ => if k = slot then [] else past
  | .command (.damage attacker victim amount) now => past ++ [⟨w, attacker, victim, amount, now⟩]
  | _ => past

end Blow

/-- The blows since somebody last joined in `slot`, after the steps, if they were `past` before. -/
def World.blows (w : World) (slot : UInt8) (past : List Blow) : List World.Step → List Blow
  | [] => past
  | step :: rest => blows (w.after step) slot (Blow.since past w slot step) rest

theorem World.blows_concat {w : World} (slot : UInt8) (past : List Blow) (steps : List World.Step)
    (step : World.Step) :
    w.blows slot past (steps ++ [step]) =
      Blow.since (w.blows slot past steps) (w.run steps) slot step := by
  induction steps generalizing w past with
  | nil => rfl
  | cons first rest ih => exact ih _

/-! ## Counters -/

/-- What is counted for a player, and the account that it is counted for. -/
structure Ledger where
  account : String
  score : UInt8
  streak : UInt8
  victims : UInt32

def Player.ledger (p : Player) : Ledger :=
  ⟨p.account, p.score, p.streak, p.victims⟩

/-- The ledger after a deed. -/
def Ledger.after (l : Ledger) : Option Deed → Ledger
  | some .kill => { l with
      score := saturatingSucc l.score, streak := saturatingSucc l.streak, victims := l.victims + 1 }
  | some .death => { l with streak := 0 }
  | some .suicide => { l with score := saturatingSub l.score 1, streak := 0 }
  | none => l

namespace World

variable {w : World}

def ledger (w : World) (slot : UInt8) : Option Ledger :=
  (w.players.get? slot).map Player.ledger

theorem ledger_of_found {slot : UInt8} {p : Player} (found : w.players.get? slot = some p) :
    w.ledger slot = some p.ledger := by
  rw [ledger, found]
  rfl

theorem ledger_setPlayer (slot k : UInt8) (p : Player) :
    (w.setPlayer slot p).ledger k = if slot = k then some p.ledger else w.ledger k := by
  rw [ledger, get?_setPlayer]
  split <;> rfl

theorem ledger_setPlayer_of_same {slot : UInt8} {p q : Player}
    (found : w.players.get? slot = some q) (same : p.ledger = q.ledger) :
    (w.setPlayer slot p).ledger = w.ledger := by
  funext k
  rw [ledger_setPlayer]
  split
  · next here => rw [← here, ledger_of_found found, same]
  · rfl

theorem ledger_map {f : Player → Player} (same : ∀ p, (f p).ledger = p.ledger) (slot : UInt8) :
    ((w.players.map f).get? slot).map Player.ledger = w.ledger slot := by
  rw [ByteMap.get?_map, Option.map_map, ledger]
  congr 1
  exact funext same

theorem ledger_integrate (now : Time) (dt : Scalar) : (w.integrate now dt).ledger = w.ledger := by
  refine funext (ledger_map fun p => ?_)
  unfold Player.integrate
  split
  · split <;> rfl
  · rfl
  · split <;> rfl

theorem ledger_prune (now : Time) : (w.prune now).ledger = w.ledger := by
  unfold prune
  dsimp only
  split
  · exact funext (ledger_map fun p => rfl)
  · rfl

theorem ledger_move (slot : UInt8) (motion : Motion) (receivedAt : Time) :
    (w.move slot motion receivedAt).ledger = w.ledger := by
  unfold move
  split
  · next p found =>
    split
    · exact ledger_setPlayer_of_same found rfl
    · rfl
  · rfl

theorem ledger_changeInfo (slot weapon model : UInt8) :
    (w.changeInfo slot weapon model).ledger = w.ledger := by
  funext k
  simp only [ledger, changeInfo, ByteMap.get?_modify]
  split
  · next here =>
    rw [here, Option.map_map]
    rfl
  · rfl

theorem ledger_acknowledge (slot : UInt8) (id : UInt32) :
    (w.acknowledge slot id).1.ledger = w.ledger := by
  unfold acknowledge
  split
  · rfl
  · next p found => split <;> exact ledger_setPlayer_of_same found rfl

end World

/-! ## What a blow is to whom -/

namespace Blow

variable {b : Blow} {slot : UInt8}

theorem fatal_iff {target : Player} (found : b.world.players.get? b.victim = some target) :
    b.Fatal ↔ target.life = .alive ∧ target.health ≤ b.amount := by
  rw [Fatal, found]
  exact ⟨fun ⟨_, here, lethal⟩ => Option.mem_some_iff.mp here ▸ lethal,
    fun lethal => ⟨target, rfl, lethal⟩⟩

theorem deed?_of_not_fatal (mild : ¬ b.Fatal) : b.deed? slot = none :=
  if_neg mild

theorem deed?_victim (fatal : b.Fatal) :
    b.deed? b.victim = some (if b.attacker = b.victim then .suicide else .death) := by
  rw [deed?, if_pos fatal, if_pos rfl]

theorem deed?_attacker (fatal : b.Fatal) (other : b.attacker ≠ b.victim) :
    b.deed? b.attacker = some .kill := by
  rw [deed?, if_pos fatal, if_neg other.symm, if_pos rfl]

theorem deed?_of_ne (notVictim : b.victim ≠ slot) (notAttacker : b.attacker ≠ slot) :
    b.deed? slot = none := by
  rw [deed?, if_neg notVictim, if_neg notAttacker]
  exact ite_self none

theorem deed?_eq_kill : b.deed? slot = some .kill ↔
    b.Fatal ∧ b.attacker = slot ∧ b.attacker ≠ b.victim := by
  constructor
  · intro kill
    unfold deed? at kill
    split at kill
    · next fatal =>
      split at kill
      · split at kill <;> cases kill
      · next notVictim =>
        split at kill
        · next mine => exact ⟨fatal, mine, fun same => notVictim (same.symm.trans mine)⟩
        · cases kill
    · cases kill
  · rintro ⟨fatal, rfl, other⟩
    exact deed?_attacker fatal other

theorem hit (b : Blow) : b.world.Hit b.attacker b.victim b.amount b.now (b.landed, b.events) :=
  b.world.hit_damage b.attacker b.victim b.amount b.now

/-- A blow is to everybody's ledger what its deed says. -/
theorem ledger_landed (b : Blow) (slot : UInt8) :
    b.landed.ledger slot = (b.world.ledger slot).map (·.after (b.deed? slot)) := by
  -- whoever the blow is no deed to keeps their ledger
  have keeps (none_ : b.deed? slot = none) :
      b.world.ledger slot = (b.world.ledger slot).map (·.after (b.deed? slot)) := by
    rw [none_]
    exact Option.map_id'.symm
  have hit := b.hit
  generalize b.landed = landed at hit ⊢
  generalize b.events = events at hit
  cases hit with
  | spared nobody =>
    refine keeps (deed?_of_not_fatal ?_)
    rintro ⟨target, found, alive, -⟩
    rw [nobody target found] at alive
    cases alive
  | wounded target found alive survives =>
    have mild : ¬ b.Fatal := fun fatal =>
      UInt8.not_le.mpr survives ((fatal_iff found).mp fatal).2
    refine Eq.trans (congrFun (World.ledger_setPlayer_of_same found ?_) slot)
      (keeps (deed?_of_not_fatal mild))
    rfl
  | suicide target found alive lethal own =>
    have fatal : b.Fatal := (fatal_iff found).mpr ⟨alive, lethal⟩
    rw [World.ledger_setPlayer]
    split
    · next here =>
      rw [← here, deed?_victim fatal, if_pos own, World.ledger_of_found found]
      rfl
    · next elsewhere => exact keeps (deed?_of_ne elsewhere (own ▸ elsewhere))
  | felled target found alive lethal other gone =>
    have fatal : b.Fatal := (fatal_iff found).mpr ⟨alive, lethal⟩
    rw [World.ledger_setPlayer]
    split
    · next here =>
      rw [← here, deed?_victim fatal, if_neg other, World.ledger_of_found found]
      rfl
    · next elsewhere =>
      by_cases mine : b.attacker = slot
      · -- the deed of somebody who has left: there is no ledger to count it in
        rw [← mine, World.ledger, gone]
        rfl
      · exact keeps (deed?_of_ne elsewhere mine)
  | killed target killer found alive lethal other present =>
    have fatal : b.Fatal := (fatal_iff found).mpr ⟨alive, lethal⟩
    rw [World.ledger_setPlayer, World.ledger_setPlayer]
    split
    · next mine =>
      rw [← mine, deed?_attacker fatal other, World.ledger_of_found present]
      rfl
    · next notMine =>
      split
      · next here =>
        rw [← here, deed?_victim fatal, if_neg other, World.ledger_of_found found]
        rfl
      · next elsewhere => exact keeps (deed?_of_ne elsewhere notMine)

/-- A blow that is not fatal changes no ledger and leads to nothing. -/
theorem idle_of_not_fatal (mild : ¬ b.Fatal) :
    b.events = [] ∧ b.landed.ledger = b.world.ledger := by
  refine ⟨?_, funext fun slot => ?_⟩
  · have hit := b.hit
    generalize b.events = events at hit ⊢
    generalize b.landed = landed at hit
    cases hit with
    | spared | wounded => rfl
    | suicide target found alive lethal
    | felled target found alive lethal
    | killed target killer found alive lethal =>
      exact absurd ((fatal_iff found).mpr ⟨alive, lethal⟩) mild
  · rw [ledger_landed, deed?_of_not_fatal mild]
    exact Option.map_id'

/-- What a kill leads to. -/
theorem events_kill (kill : b.deed? slot = some .kill) {killer : Player}
    (present : b.world.players.get? slot = some killer) :
    ∃ target, b.world.players.get? b.victim = some target ∧
      b.events = (killer.killed target).2.map .achievement := by
  obtain ⟨⟨target, found, lethal⟩, rfl, other⟩ := deed?_eq_kill.mp kill
  refine ⟨target, found, ?_⟩
  have hit := b.hit
  generalize b.events = events at hit ⊢
  generalize b.landed = landed at hit
  cases hit with
  | spared nobody =>
    rw [nobody target found] at lethal
    cases lethal.1
  | wounded target' found' alive survives =>
    cases found.symm.trans found'
    exact absurd lethal.2 (UInt8.not_le.mpr survives)
  | suicide target' found' alive lethal' own => exact absurd own other
  | felled target' found' alive lethal' other gone => cases gone.symm.trans present
  | killed target' killer' found' alive lethal' other present' =>
    cases found.symm.trans found'
    cases present.symm.trans present'
    rfl

end Blow

/-! ## One more blow -/

namespace Blow

variable {b : Blow} {slot : UInt8} {blows : List Blow}

theorem kills_concat (slot : UInt8) (blows : List Blow) (b : Blow) :
    kills slot (blows ++ [b]) =
      if b.deed? slot = some .kill then kills slot blows ++ [b] else kills slot blows := by
  rw [kills, List.filter_append, List.filter_singleton]
  split <;> simp [*, kills]

theorem spree_concat (slot : UInt8) (blows : List Blow) (b : Blow) :
    spree slot (blows ++ [b]) =
      match b.deed? slot with
      | some .kill => spree slot blows ++ [b]
      | none => spree slot blows
      | some .death | some .suicide => [] := by
  rw [spree, List.rtakeWhile_concat, spares]
  cases deed : b.deed? slot with
  | none => simp [kills_concat, deed, spree]
  | some d =>
    cases d with
    | kill => simp [kills_concat, deed, spree]
    | death | suicide => rfl

/-- A kill that is among the last kills of its player was one when it was dealt. -/
theorem exists_prefix_of_kill {keep : Blow → Bool} {past : List Blow}
    (within : past ++ [b] <+: kills slot (blows.rtakeWhile keep)) :
    ∃ before, before ++ [b] <+: blows ∧ b.deed? slot = some .kill ∧
      kills slot (before.rtakeWhile keep) = past := by
  induction blows using List.reverseRecOn with
  | nil => cases List.append_eq_nil_iff.mp (List.prefix_nil.mp within) |>.2
  | append_singleton blows last ih =>
    have earlier (within : past ++ [b] <+: kills slot (blows.rtakeWhile keep)) :
        ∃ before, before ++ [b] <+: blows ++ [last] ∧ b.deed? slot = some .kill ∧
          kills slot (before.rtakeWhile keep) = past := by
      obtain ⟨before, there, rest⟩ := ih within
      exact ⟨before, there.trans (List.prefix_append _ _), rest⟩
    rw [List.rtakeWhile_concat] at within
    split at within
    · rw [kills_concat] at within
      split at within
      · next kill =>
        rcases List.prefix_concat_iff.mp within with whole | before
        · obtain ⟨pastIs, lastIs⟩ := List.append_singleton_inj.mp whole
          subst lastIs
          exact ⟨blows, List.prefix_rfl, kill, pastIs.symm⟩
        · exact earlier before
      · exact earlier within
    · cases List.append_eq_nil_iff.mp (List.prefix_nil.mp within) |>.2

end Blow

/-! ## Counters and the blows that made them -/

/-- The ledger counts the blows. The number of victims wraps at 2^32. -/
structure Ledger.Tally (l : Ledger) (slot : UInt8) (blows : List Blow) : Prop where
  victims : l.victims = UInt32.ofNat (Blow.kills slot blows).length
  streak : l.streak.toNat = min 255 (Blow.spree slot blows).length
  score : l.score.toNat = blows.foldl (Blow.points slot) 0

namespace Ledger

variable {l : Ledger} {slot : UInt8} {blows : List Blow}

theorem tally_join (account : String) (slot : UInt8) : Tally ⟨account, 0, 0, 0⟩ slot [] :=
  ⟨rfl, rfl, rfl⟩

theorem Tally.after (tally : l.Tally slot blows) (b : Blow) :
    (l.after (b.deed? slot)).Tally slot (blows ++ [b]) := by
  obtain ⟨victims, streak, score⟩ := tally
  have kills := Blow.kills_concat slot blows b
  have spree := Blow.spree_concat slot blows b
  have points : (blows ++ [b]).foldl (Blow.points slot) 0 = Blow.points slot l.score.toNat b := by
    rw [List.foldl_concat, score]
  rw [Blow.points] at points
  generalize b.deed? slot = deed at kills spree points ⊢
  rcases deed with _ | deed
  · exact ⟨by rw [kills]; exact victims, by rw [spree]; exact streak, points.symm⟩
  · cases deed with
    | kill =>
      refine ⟨?_, ?_, ?_⟩
      · rw [kills, if_pos rfl, List.length_append, List.length_singleton, UInt32.ofNat_add,
          ← victims]
        rfl
      · rw [spree, List.length_append, List.length_singleton]
        dsimp only [Ledger.after]
        rw [toNat_saturatingSucc, streak]
        omega
      · rw [points]
        exact toNat_saturatingSucc l.score
    | death => exact ⟨by rw [kills]; exact victims, by rw [spree]; rfl, points.symm⟩
    | suicide =>
      refine ⟨by rw [kills]; exact victims, by rw [spree]; rfl, ?_⟩
      rw [points]
      exact toNat_saturatingSub l.score 1

end Ledger

/-- At each of the blows, the player of `slot` had the account and the counters of those before. -/
def Told (account : String) (slot : UInt8) (blows : List Blow) : Prop :=
  ∀ past b, past ++ [b] <+: blows → ∃ p, b.world.players.get? slot = some p ∧
    p.account = account ∧ p.ledger.Tally slot past

theorem Told.concat {account : String} {slot : UInt8} {blows : List Blow} {b : Blow}
    (told : Told account slot blows)
    (now : ∃ p, b.world.players.get? slot = some p ∧ p.account = account ∧
      p.ledger.Tally slot blows) :
    Told account slot (blows ++ [b]) := by
  intro past last within
  rcases List.prefix_concat_iff.mp within with whole | before
  · obtain ⟨rfl, rfl⟩ := List.append_singleton_inj.mp whole
    exact now
  · exact told past last before

namespace World

variable {w : World} {slot : UInt8} {blows : List Blow}

/-- Whoever plays in `slot` has been counted for since they joined. -/
def Counted (w : World) (slot : UInt8) (blows : List Blow) : Prop :=
  ∀ l, w.ledger slot = some l → l.Tally slot blows ∧ Told l.account slot blows

theorem Counted.of_ledger {v : World} (counted : w.Counted slot blows)
    (same : v.ledger slot = w.ledger slot) : v.Counted slot blows := by
  intro l found
  exact counted l (same.symm.trans found)

theorem Counted.landed {b : Blow} (counted : b.world.Counted slot blows) :
    b.landed.Counted slot (blows ++ [b]) := by
  intro l found
  rw [Blow.ledger_landed, Option.map_eq_some_iff] at found
  obtain ⟨before, foundBefore, rfl⟩ := found
  obtain ⟨tally, told⟩ := counted before foundBefore
  obtain ⟨p, present, rfl⟩ := Option.map_eq_some_iff.mp foundBefore
  have account : (p.ledger.after (b.deed? slot)).account = p.account := by
    rcases b.deed? slot with _ | d
    · rfl
    · cases d <;> rfl
  refine ⟨tally.after b, ?_⟩
  rw [account]
  exact told.concat ⟨p, present, rfl, tally⟩

theorem Counted.after (counted : w.Counted slot blows) (step : Step) :
    (w.after step).Counted slot (Blow.since blows w slot step) := by
  cases step with
  | command c now =>
    cases c with
    | join k account name udp =>
      have ledger : (w.after (.command (.join k account name udp) now)).ledger slot =
          if k = slot then some ⟨account, 0, 0, 0⟩ else w.ledger slot :=
        ledger_setPlayer (w := w) k slot (.join k account name w.spawns.current)
      dsimp only [Blow.since]
      split
      · next here =>
        intro l found
        rw [ledger, if_pos here] at found
        cases found
        refine ⟨Ledger.tally_join account slot, fun past b within => ?_⟩
        cases List.append_eq_nil_iff.mp (List.prefix_nil.mp within) |>.2
      · next elsewhere => exact counted.of_ledger (ledger.trans (if_neg elsewhere))
    | leave k =>
      intro l found
      have left : ((w.players.erase k).get? slot).map Player.ledger = some l := found
      rw [ByteMap.get?_erase] at left
      split at left
      · cases left
      · exact counted l left
    | move k motion receivedAt =>
      exact counted.of_ledger (congrFun (ledger_move k motion receivedAt) slot)
    | infoChange k weapon model =>
      exact counted.of_ledger (congrFun (ledger_changeInfo k weapon model) slot)
    | damage attacker victim amount =>
      exact Counted.landed (b := ⟨w, attacker, victim, amount, now⟩) counted
    | acknowledge k id => exact counted.of_ledger (congrFun (ledger_acknowledge k id) slot)
  | integrate now dt => exact counted.of_ledger (congrFun (ledger_integrate now dt) slot)
  | tick now =>
    refine counted.of_ledger (congrFun ?_ slot)
    exact (ledger_prune (w := w.integrate now _) now).trans (ledger_integrate now _)

theorem Counted.run (counted : w.Counted slot blows) (steps : List Step) :
    (w.run steps).Counted slot (w.blows slot blows steps) := by
  induction steps using List.reverseRecOn with
  | nil => exact counted
  | append_singleton steps step ih =>
    rw [run_concat, blows_concat]
    exact ih.after step

theorem counted_empty (interval : Span) (points : List Vec3) (rolls : Nat → Nat) (slot : UInt8) :
    (World.empty interval points rolls).Counted slot [] := by
  intro l found
  rw [ledger, World.empty, ByteMap.get?_empty] at found
  cases found

end World

/-! ## What a kill earns -/

theorem Achievement.id_injective : Function.Injective Achievement.id := by
  intro a b same
  cases a <;> cases b <;> first | rfl | exact absurd same (by decide)

namespace Player

theorem count_streakAchievement? (streak : UInt8) (a : Achievement) :
    (streakAchievement? streak).toList.count a =
      match a with
      | .streak5 => if streak = 5 then 1 else 0
      | .streak10 => if streak = 10 then 1 else 0
      | .streak20 => if streak = 20 then 1 else 0
      | _ => 0 := by
  unfold streakAchievement?
  split
  · next five =>
    subst five
    cases a <;> rfl
  · next notFive =>
    split
    · next ten =>
      subst ten
      cases a <;> rfl
    · next notTen =>
      split
      · next twenty =>
        subst twenty
        cases a <;> rfl
      · next notTwenty => cases a <;> rfl

theorem count_killAchievements (p : Player) (a : Achievement) :
    p.killAchievements.count a =
      match a with
      | .firstKill => 1
      | .fiveVictims => if p.victims = 5 then 1 else 0
      | .knifeKill => if p.weapon = 0 then 1 else 0
      | .streak5 => if p.streak = 5 then 1 else 0
      | .streak10 => if p.streak = 10 then 1 else 0
      | .streak20 => if p.streak = 20 then 1 else 0
      | .firstConnection | .firstDeath | .suicide => 0 := by
  unfold killAchievements knife
  rw [List.count_append, List.count_append, List.count_append, count_streakAchievement?]
  by_cases five : p.victims = 5 <;> by_cases knife : p.weapon = 0 <;> cases a <;>
    simp only [five, knife, if_true, if_false] <;> exact Nat.zero_add _

variable (killer victim : Player)

/-- What a kill earns: the victim's death, and the killer's achievements. -/
theorem unlocks_killed : (killer.killed victim).2.map Event.achievement =
    .achievement (victim.unlock .firstDeath) ::
      killer.scoreKill.killAchievements.map fun a => .achievement (killer.unlock a) := by
  rw [killed, List.map_cons, List.map_map]
  rfl

theorem unlock_injective (p : Player) : Function.Injective fun a => Event.achievement (p.unlock a) :=
  fun _ _ same => Achievement.id_injective (Unlock.mk.inj (Event.achievement.inj same)).2

/-- The killer is given what they earn, and no more of it. -/
theorem count_killed {a : Achievement} (own : a ≠ .firstDeath) :
    ((killer.killed victim).2.map Event.achievement).count (.achievement (killer.unlock a)) =
      killer.scoreKill.killAchievements.count a := by
  have foreign : Event.achievement (victim.unlock .firstDeath) ≠ .achievement (killer.unlock a) :=
    fun same => own (Achievement.id_injective (Unlock.mk.inj (Event.achievement.inj same)).2).symm
  rw [unlocks_killed, List.count_cons_of_ne foreign]
  exact List.count_map_of_injective _ _ killer.unlock_injective a

/-- The victim is given their death once, also if both play for one account. -/
theorem count_killed_firstDeath :
    ((killer.killed victim).2.map Event.achievement).count
      (.achievement (victim.unlock .firstDeath)) = 1 := by
  rw [unlocks_killed, List.count_cons_self, Nat.add_eq_right, List.count_eq_zero]
  intro among
  obtain ⟨a, earned, same⟩ := List.mem_map.mp among
  have death : a = .firstDeath :=
    Achievement.id_injective (Unlock.mk.inj (Event.achievement.inj same)).2
  have never : killer.scoreKill.killAchievements.count .firstDeath = 0 := count_killAchievements _ _
  exact List.count_eq_zero.mp never (death ▸ earned)

end Player

/-! ## Milestones -/

/-- What only the `n`th of some blows leads to, all of them lead to once, if there are as many. -/
theorem count_milestone {earned : Event} {n : Nat} (positive : 0 < n) {blows : List Blow}
    (each : ∀ past b, past ++ [b] <+: blows →
      b.events.count earned = if past.length + 1 = n then 1 else 0) :
    (blows.flatMap Blow.events).count earned = if n ≤ blows.length then 1 else 0 := by
  induction blows using List.reverseRecOn with
  | nil => exact (if_neg (Nat.not_le.mpr positive)).symm
  | append_singleton blows b ih =>
    have before := ih fun past b' within => each past b' (within.trans (List.prefix_append _ _))
    rw [List.flatMap_append, List.count_append, before, List.flatMap_singleton,
      each blows b List.prefix_rfl, List.length_append, List.length_singleton]
    split_ifs <;> omega

namespace Told

variable {account : String} {slot : UInt8} {blows : List Blow}

/-- What a kill has earned the killer depends on them as they were. -/
theorem kill (told : Told account slot blows) {past : List Blow} {b : Blow}
    (within : past ++ [b] <+: blows) (kill : b.deed? slot = some .kill) :
    ∃ target killer, b.world.players.get? b.victim = some target ∧
      b.world.players.get? slot = some killer ∧ killer.account = account ∧
      killer.ledger.Tally slot past ∧ b.events = (killer.killed target).2.map .achievement ∧
      ∀ a : Achievement, a ≠ .firstDeath →
        b.events.count (.achievement ⟨account, a.id⟩) =
          killer.scoreKill.killAchievements.count a := by
  obtain ⟨killer, present, rfl, tally⟩ := told past b within
  obtain ⟨target, found, events⟩ := Blow.events_kill kill present
  refine ⟨target, killer, found, present, rfl, tally, events, fun a notDeath => ?_⟩
  rw [events]
  exact killer.count_killed target notDeath

theorem count_fiveVictims (told : Told account slot blows)
    (few : (Blow.kills slot blows).length < UInt32.size) :
    ((Blow.kills slot blows).flatMap Blow.events).count
      (.achievement ⟨account, Achievement.fiveVictims.id⟩) =
      if 5 ≤ (Blow.kills slot blows).length then 1 else 0 := by
  refine count_milestone (Nat.succ_pos 4) fun past b within => ?_
  have whole (some_ : List Blow) : some_.rtakeWhile (fun _ => true) = some_ :=
    List.rtakeWhile_eq_self_iff.mpr fun _ _ => rfl
  have bound : past.length + 1 < UInt32.size := by
    have size := within.length_le
    rw [List.length_append, List.length_singleton] at size
    omega
  -- all kills are a row of kills that nothing ends
  rw [← whole blows] at within
  obtain ⟨before, there, kill, pastIs⟩ := Blow.exists_prefix_of_kill within
  obtain ⟨target, killer, -, -, -, tally, -, earns⟩ := told.kill there kill
  rw [whole] at pastIs
  have victims : killer.scoreKill.victims = UInt32.ofNat (past.length + 1) := by
    rw [UInt32.ofNat_add, ← pastIs, ← tally.victims]
    rfl
  have fifth : killer.scoreKill.victims = 5 ↔ past.length + 1 = 5 := by
    rw [victims, ← UInt32.toNat_inj, UInt32.toNat_ofNat_of_lt' bound]
    rfl
  rw [earns .fiveVictims nofun, Player.count_killAchievements]
  exact if_congr fifth rfl rfl

/-- A streak achievement is earned once in a row of kills without a death, if there are enough. -/
theorem count_streak (told : Told account slot blows) {a : Achievement} {n : UInt8}
    (own : a ≠ .firstDeath) (positive : 0 < n.toNat) (small : n.toNat < 255)
    (earned : ∀ p : Player, p.killAchievements.count a = if p.streak = n then 1 else 0) :
    ((Blow.spree slot blows).flatMap Blow.events).count (.achievement ⟨account, a.id⟩) =
      if n.toNat ≤ (Blow.spree slot blows).length then 1 else 0 := by
  refine count_milestone positive fun past b within => ?_
  obtain ⟨before, there, kill, pastIs⟩ := Blow.exists_prefix_of_kill within
  obtain ⟨target, killer, -, -, -, tally, -, earns⟩ := told.kill there kill
  have streak : killer.streak.toNat = min 255 past.length := by
    rw [← pastIs]
    exact tally.streak
  have reached : killer.scoreKill.streak = n ↔ past.length + 1 = n.toNat := by
    rw [← UInt8.toNat_inj, show killer.scoreKill.streak = saturatingSucc killer.streak from rfl,
      toNat_saturatingSucc, streak]
    omega
  rw [earns a own, earned]
  exact if_congr reached rfl rfl

/-- What a kill of theirs has earned a player, and whom they killed. -/
theorem awards {p : Player} (told : Told p.account slot blows) {b : Blow}
    (member : b ∈ Blow.kills slot blows) :
    ∃ target killer, b.world.players.get? b.victim = some target ∧
      b.world.players.get? slot = some killer ∧ killer.account = p.account ∧
      b.events.count (.achievement (target.unlock .firstDeath)) = 1 ∧
      b.events.count (.achievement (p.unlock .firstKill)) = 1 ∧
      b.events.count (.achievement (p.unlock .knifeKill)) = (if killer.weapon = 0 then 1 else 0) ∧
      ∀ event ∈ b.events, event = .achievement (target.unlock .firstDeath) ∨
        ∃ a, event = .achievement (p.unlock a) := by
  obtain ⟨dealt, isKill⟩ := List.mem_filter.mp member
  obtain ⟨before, rest, split⟩ := List.append_of_mem dealt
  have within : before ++ [b] <+: blows := ⟨rest, by
    rw [split, List.append_assoc, List.singleton_append]⟩
  obtain ⟨target, killer, hit, present, account, -, events, earns⟩ :=
    told.kill within (of_decide_eq_true isKill)
  refine ⟨target, killer, hit, present, account, ?_,
    (earns .firstKill nofun).trans (Player.count_killAchievements _ _),
    (earns .knifeKill nofun).trans (Player.count_killAchievements _ _), fun event earned => ?_⟩
  · rw [events]
    exact killer.count_killed_firstDeath target
  · rw [events, Player.unlocks_killed] at earned
    rcases List.mem_cons.mp earned with first | others
    · exact .inl first
    · obtain ⟨a, -, rfl⟩ := List.mem_map.mp others
      exact .inr ⟨a, by rw [Player.unlock, Player.unlock, account]⟩

end Told

/-- Besides a join and a suicide, only a kill by another player who is there earns anything. -/
theorem World.exists_kill_of_earned {w : World} {c : Command} {now : Time} {unlock : Unlock}
    (earned : .achievement unlock ∈ (w.apply c now).2)
    (noJoin : unlock.id ≠ Achievement.firstConnection.id)
    (noSuicide : unlock.id ≠ Achievement.suicide.id) :
    ∃ attacker victim amount killer, c = .damage attacker victim amount ∧
      (⟨w, attacker, victim, amount, now⟩ : Blow).deed? attacker = some .kill ∧
      w.players.get? attacker = some killer := by
  cases c with
  | join slot account name udp =>
    cases List.mem_singleton.mp earned
    exact absurd rfl noJoin
  | leave | move | infoChange => cases earned
  | acknowledge slot id =>
    simp only [apply, acknowledge] at earned
    split at earned
    · cases earned
    · split at earned
      · cases earned
      · cases List.mem_singleton.mp earned
  | damage attacker victim amount =>
    let b : Blow := ⟨w, attacker, victim, amount, now⟩
    have hit := b.hit
    have answered : Event.achievement unlock ∈ b.events := earned
    generalize b.landed = landed at hit
    generalize b.events = events at hit answered
    cases hit with
    | spared | wounded | felled => cases answered
    | suicide =>
      cases List.mem_singleton.mp answered
      exact absurd rfl noSuicide
    | killed target killer found alive lethal other present =>
      have fatal : b.Fatal := (Blow.fatal_iff found).mpr ⟨alive, lethal⟩
      exact ⟨attacker, victim, amount, killer, rfl, Blow.deed?_attacker fatal other, present⟩

/-- What is counted and earned after any steps from an empty world, at any times. For whoever plays
in a slot, take the blows since they joined, with fewer than 2^32 kills of theirs among them. Their
victims are these kills; their streak are the kills since they last died, up to 255; and their score
is counted along the blows, up for a kill and down for a suicide, between 0 and 255. The fifth kill
earns `fiveVictims`, once. Each row of kills without a death of their own, seen at any time, has
earned the streak achievements for which it is long enough, once each. Every kill earns the victim
`firstDeath` and the killer `firstKill`, once each, and `knifeKill` just when it was made with
weapon 0; nobody else earns anything by it. A blow to somebody dead or absent, and one that is
survived, changes nothing that is counted and leads to nothing. Besides joins and suicides, only
kills by another player who is there earn anything at all. -/
theorem run_tally (interval : Span) (points : List Vec3) (rolls : Nat → Nat)
    (steps : List World.Step) :
    let start := World.empty interval points rolls
    (∀ slot p, (start.run steps).players.get? slot = some p →
      let blows := start.blows slot [] steps
      let kills := Blow.kills slot blows
      kills.length < UInt32.size →
      p.victims.toNat = kills.length ∧
      p.streak.toNat = min 255 (Blow.spree slot blows).length ∧
      p.score.toNat = blows.foldl (Blow.points slot) 0 ∧
      (kills.flatMap Blow.events).count (.achievement (p.unlock .fiveVictims)) =
        (if 5 ≤ kills.length then 1 else 0) ∧
      (∀ past, past <+: blows → ∀ n a, (n, a) ∈ [(5, .streak5), (10, .streak10), (20, .streak20)] →
        ((Blow.spree slot past).flatMap Blow.events).count (.achievement (p.unlock a)) =
          if n ≤ (Blow.spree slot past).length then 1 else 0) ∧
      ∀ b ∈ kills, ∃ target killer, b.world.players.get? b.victim = some target ∧
        b.world.players.get? slot = some killer ∧ killer.account = p.account ∧
        b.events.count (.achievement (target.unlock .firstDeath)) = 1 ∧
        b.events.count (.achievement (p.unlock .firstKill)) = 1 ∧
        b.events.count (.achievement (p.unlock .knifeKill)) = (if killer.weapon = 0 then 1 else 0) ∧
        ∀ event ∈ b.events, event = .achievement (target.unlock .firstDeath) ∨
          ∃ a, event = .achievement (p.unlock a)) ∧
    (∀ b : Blow, ¬ b.Fatal → b.events = [] ∧ b.landed.ledger = b.world.ledger) ∧
    ∀ (w : World) c now unlock, .achievement unlock ∈ (w.apply c now).2 →
      unlock.id ≠ Achievement.firstConnection.id → unlock.id ≠ Achievement.suicide.id →
      ∃ attacker victim amount killer, c = .damage attacker victim amount ∧
        (⟨w, attacker, victim, amount, now⟩ : Blow).deed? attacker = some .kill ∧
        w.players.get? attacker = some killer := by
  intro start
  refine ⟨fun slot p found => ?_, fun b mild => Blow.idle_of_not_fatal mild,
    fun w c now unlock => World.exists_kill_of_earned⟩
  intro blows kills few
  have counted := (World.counted_empty interval points rolls slot).run steps
  obtain ⟨tally, told⟩ := counted p.ledger (World.ledger_of_found found)
  refine ⟨?_, tally.streak, tally.score, told.count_fiveVictims few, ?_,
    fun b member => told.awards (p := p) member⟩
  · rw [show p.victims = UInt32.ofNat kills.length from tally.victims]
    exact UInt32.toNat_ofNat_of_lt' few
  · intro past within n a milestone
    have toldPast : Told p.account slot past := fun earlier b there =>
      told earlier b (there.trans within)
    simp only [List.mem_cons, Prod.mk.injEq, List.not_mem_nil, or_false] at milestone
    rcases milestone with ⟨rfl, rfl⟩ | ⟨rfl, rfl⟩ | ⟨rfl, rfl⟩
    · exact toldPast.count_streak nofun (n := 5) (by decide) (by decide)
        fun q => q.count_killAchievements .streak5
    · exact toldPast.count_streak nofun (n := 10) (by decide) (by decide)
        fun q => q.count_killAchievements .streak10
    · exact toldPast.count_streak nofun (n := 20) (by decide) (by decide)
        fun q => q.count_killAchievements .streak20

/-- Five kills in a row: two players, one of whom keeps joining again. -/
theorem run_tally_spree :
    let start := World.empty 0 [] fun _ => 0
    let joins : List World.Step := [.command (.join 0 "a" "A" none) 0,
      .command (.join 1 "b" "B" none) 0, .command (.join 2 "c" "C" none) 0]
    let steps : List World.Step := joins ++
      [.command (.damage 0 1 100) 1, .command (.damage 0 2 99) 1, .command (.damage 0 2 1) 2,
        .command (.join 1 "b" "B" none) 3, .command (.damage 0 1 100) 4,
        .command (.join 1 "b" "B" none) 5, .command (.damage 0 1 255) 6,
        .command (.join 1 "b" "B" none) 7, .command (.damage 0 1 100) 8]
    let blows := start.blows 0 [] steps
    let idle : Blow := ⟨start.run steps, 0, 2, 100, 9⟩
    (∃ p, (start.run steps).players.get? 0 = some p ∧ p.victims.toNat = 5 ∧ p.streak.toNat = 5 ∧
      ((Blow.kills 0 blows).flatMap Blow.events).count
        (.achievement (p.unlock .fiveVictims)) = 1 ∧
      ((Blow.spree 0 blows).flatMap Blow.events).count (.achievement (p.unlock .streak5)) = 1) ∧
    idle.events = [] := by
  intro start joins steps blows idle
  have tally := run_tally 0 [] (fun _ => 0) steps
  have five : (Blow.kills 0 blows).length = 5 := by decide +kernel
  have row : (Blow.spree 0 blows).length = 5 := by decide +kernel
  have few : (Blow.kills 0 blows).length < UInt32.size := by
    rw [five]
    decide
  have present : ((start.run steps).players.get? 0).isSome = true := by decide +kernel
  have mild : ¬ idle.Fatal := by decide +kernel
  obtain ⟨p, found⟩ := Option.isSome_iff_exists.mp present
  obtain ⟨victims, streak, -, fiveVictims, streaks, -⟩ := tally.1 0 p found few
  refine ⟨⟨p, found, victims.trans five, ?_, fiveVictims.trans (if_pos (Nat.le_of_eq five.symm)),
    ?_⟩, (tally.2.1 idle mild).1⟩
  · rw [streak, row]
    rfl
  · exact (streaks blows List.prefix_rfl 5 .streak5 List.mem_cons_self).trans
      (if_pos (Nat.le_of_eq row.symm))

end Deathmatch
