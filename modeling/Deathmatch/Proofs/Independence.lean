import Deathmatch.Proofs.WorldRun

/-!
# Commands that do not meet

A command touches one slot, or two if it does damage. It reads and changes only what stands there
(`World.site_apply`, `World.Likewise.apply`), except that who joins draws a spawn point. Where all
spawn points are the same, two commands that meet in no slot may therefore change places
(`World.apply_comm`): neither sees what the other does.

A batch may be reordered in any way that keeps the order of commands that meet. The first command
of the batch meets none of those that have come to stand before it, so it can be taken back to the
front, and the rest follows by induction (`World.perm_outcomes`).
-/

namespace Deathmatch

/-! ## Slots and spawn points -/

/-- Whether the command is about the slot. -/
def Command.Touches (slot : UInt8) : Command → Prop
  | .join k .. | .leave k | .move k .. | .infoChange k .. | .acknowledge k _ => k = slot
  | .damage attacker victim _ => attacker = slot ∨ victim = slot

/-- Whether some slot is touched by both. -/
def Command.Meets (a b : Command) : Prop :=
  ∃ slot, a.Touches slot ∧ b.Touches slot

theorem Command.Meets.symm {a b : Command} (meets : a.Meets b) : b.Meets a :=
  meets.imp fun _ both => both.symm

/-- Whether it does not matter which spawn point is drawn. -/
def Spawns.Uniform (s : Spawns) : Prop :=
  ∀ p ∈ s.points, ∀ q ∈ s.points, p = q

/-- Where all points are the same, any draw gives the same. -/
theorem Spawns.Uniform.current_eq {s t : Spawns} (uniform : s.Uniform)
    (points : t.points = s.points) : t.current = s.current := by
  rcases s.current_cases with here | ⟨none, origin⟩
  · rcases t.current_cases with there | ⟨none, -⟩
    · exact uniform _ (points ▸ there) _ here
    · rw [← points, none] at here
      cases here
  · rcases t.current_cases with there | ⟨-, origin'⟩
    · rw [points, none] at there
      cases there
    · rw [origin, origin']

theorem Command.draw_comm (a b : Command) (s : Spawns) : a.draw (b.draw s) = b.draw (a.draw s) := by
  cases a <;> cases b <;> rfl

namespace World

variable {w v : World} {c a b : Command} {slot k : UInt8}

/-- What stands in a slot. -/
def site (w : World) (slot : UInt8) : Option Player × Option Endpoint :=
  (w.players.get? slot, w.endpoints.get? slot)

theorem ext_site (sites : ∀ slot, w.site slot = v.site slot) (entities : w.entities = v.entities)
    (history : w.history = v.history) (spawns : w.spawns = v.spawns)
    (interval : w.tickInterval = v.tickInterval) : w = v := by
  have players : w.players = v.players :=
    ByteMap.ext_get? fun slot => (Prod.mk.inj (sites slot)).1
  have endpoints : w.endpoints = v.endpoints :=
    ByteMap.ext_get? fun slot => (Prod.mk.inj (sites slot)).2
  cases w
  cases v
  simp_all

theorem site_setPlayer (w : World) (k slot : UInt8) (p : Player) :
    (w.setPlayer k p).site slot =
      if k = slot then (some p, w.endpoints.get? slot) else w.site slot := by
  unfold site
  rw [get?_setPlayer]
  split <;> rfl

/-! ## What a command leaves alone -/

theorem site_setPlayer_of_ne (other : k ≠ slot) (p : Player) :
    (w.setPlayer k p).site slot = w.site slot := by
  rw [site_setPlayer, if_neg other]

/-- A command leaves the slots alone that it does not touch. -/
theorem site_apply (foreign : ¬ c.Touches slot) (now : Time) :
    (w.apply c now).1.site slot = w.site slot := by
  cases c with
  | join k account name udp =>
    have other : k ≠ slot := foreign
    simp only [site, apply, join, ByteMap.get?_insert, ByteMap.get?_put, if_neg other]
  | leave k =>
    have other : k ≠ slot := foreign
    simp only [site, apply, leave, ByteMap.get?_erase, if_neg other]
  | move k motion receivedAt =>
    simp only [apply, move]
    split
    · split
      · exact site_setPlayer_of_ne foreign _
      · rfl
    · rfl
  | infoChange k weapon model =>
    have other : k ≠ slot := foreign
    simp only [site, apply, changeInfo, ByteMap.get?_modify, if_neg other]
  | damage attacker victim amount =>
    obtain ⟨notAttacker, notVictim⟩ := not_or.mp foreign
    simp only [apply, damage]
    split
    · rfl
    · split
      · rfl
      · split
        · exact site_setPlayer_of_ne notVictim _
        · split
          · exact site_setPlayer_of_ne notVictim _
          · split
            · exact site_setPlayer_of_ne notVictim _
            · exact (site_setPlayer_of_ne notAttacker _).trans (site_setPlayer_of_ne notVictim _)
  | acknowledge k id =>
    simp only [apply, acknowledge]
    split
    · rfl
    · split <;> exact site_setPlayer_of_ne foreign _

/-- A command leaves the things of the field alone, and the rhythm of the ticks. -/
theorem entities_apply (c : Command) (now : Time) : (w.apply c now).1.entities = w.entities ∧
    (w.apply c now).1.tickInterval = w.tickInterval := by
  cases c with
  | join | leave | infoChange => exact ⟨rfl, rfl⟩
  | move =>
    simp only [apply, move]
    split
    · split <;> exact ⟨rfl, rfl⟩
    · exact ⟨rfl, rfl⟩
  | damage =>
    simp only [apply, damage]
    repeat' split
    all_goals exact ⟨rfl, rfl⟩
  | acknowledge =>
    simp only [apply, acknowledge]
    repeat' split
    all_goals exact ⟨rfl, rfl⟩

/-! ## What a command depends on -/

/-- The two worlds are the same to the command. -/
structure Likewise (c : Command) (w v : World) : Prop where
  sites : ∀ slot, c.Touches slot → w.site slot = v.site slot
  history : w.history = v.history
  spawn : w.spawns.current = v.spawns.current

theorem site_setPlayer_congr (same : w.site slot = v.site slot) (k : UInt8) (p : Player) :
    (w.setPlayer k p).site slot = (v.setPlayer k p).site slot := by
  rw [site_setPlayer, site_setPlayer, (Prod.mk.inj same).2, same]

theorem Likewise.player (likewise : Likewise c w v) (slot : UInt8) (touched : c.Touches slot) :
    w.players.get? slot = v.players.get? slot :=
  (Prod.mk.inj (likewise.sites slot touched)).1

/-- In worlds that are the same to it, a command leads to the same. -/
theorem Likewise.apply (likewise : Likewise c w v) (now : Time) :
    (w.apply c now).2 = (v.apply c now).2 ∧
      ∀ slot, c.Touches slot → (w.apply c now).1.site slot = (v.apply c now).1.site slot := by
  cases c with
  | join k account name udp =>
    refine ⟨rfl, ?_⟩
    rintro slot rfl
    simp only [site, World.apply, join, ByteMap.get?_insert, ByteMap.get?_put, if_true,
      likewise.spawn]
  | leave k =>
    refine ⟨rfl, ?_⟩
    rintro slot rfl
    simp only [site, World.apply, leave, ByteMap.get?_erase, if_true]
  | move k motion receivedAt =>
    refine ⟨rfl, fun slot touched => ?_⟩
    have same := likewise.sites slot touched
    simp only [World.apply, move, likewise.player k rfl]
    split
    · split
      · exact site_setPlayer_congr same k _
      · exact same
    · exact same
  | infoChange k weapon model =>
    refine ⟨rfl, ?_⟩
    rintro slot rfl
    have same := Prod.mk.inj (likewise.sites k rfl)
    simp only [site, World.apply, changeInfo, ByteMap.get?_modify, if_true, same.1, same.2]
  | damage attacker victim amount =>
    have slayer (p : Player) : (w.setPlayer victim p).players.get? attacker =
        (v.setPlayer victim p).players.get? attacker := by
      rw [get?_setPlayer, get?_setPlayer, likewise.player attacker (.inl rfl)]
    simp only [World.apply, damage, likewise.player victim (.inr rfl), slayer]
    split
    · exact ⟨rfl, likewise.sites⟩
    · split
      · exact ⟨rfl, likewise.sites⟩
      · split
        · exact ⟨rfl, fun slot touched => site_setPlayer_congr (likewise.sites slot touched) _ _⟩
        · split
          · exact ⟨rfl, fun slot touched => site_setPlayer_congr (likewise.sites slot touched) _ _⟩
          · split
            · exact ⟨rfl, fun slot touched =>
                site_setPlayer_congr (likewise.sites slot touched) _ _⟩
            · exact ⟨rfl, fun slot touched =>
                site_setPlayer_congr (site_setPlayer_congr (likewise.sites slot touched) _ _) _ _⟩
  | acknowledge k id =>
    simp only [World.apply, acknowledge, likewise.player k rfl, likewise.history]
    split
    · exact ⟨rfl, likewise.sites⟩
    · split <;>
        exact ⟨rfl, fun slot touched => site_setPlayer_congr (likewise.sites slot touched) _ _⟩

/-! ## Two commands -/

theorem uniform_apply (uniform : w.spawns.Uniform) (c : Command) (now : Time) :
    (w.apply c now).1.spawns.Uniform := by
  rw [spawns_apply, Spawns.Uniform, Command.points_draw]
  exact uniform

/-- A command does not notice one that it does not meet. -/
theorem likewise_apply (uniform : w.spawns.Uniform) (apart : ¬ a.Meets b) (now : Time) :
    Likewise b (w.apply a now).1 w where
  sites slot touched := site_apply (fun both => apart ⟨slot, both, touched⟩) now
  history := history_apply a now
  spawn := by
    rw [spawns_apply]
    exact uniform.current_eq (a.points_draw _)

/-- Commands that do not meet may change places. -/
theorem apply_comm (uniform : w.spawns.Uniform) (apart : ¬ a.Meets b) (now : Time) :
    ((w.apply a now).1.apply b now).1 = ((w.apply b now).1.apply a now).1 := by
  have apart' : ¬ b.Meets a := fun meets => apart meets.symm
  have entitiesIs (c : Command) (w : World) := (entities_apply (w := w) c now).1
  have intervalIs (c : Command) (w : World) := (entities_apply (w := w) c now).2
  refine ext_site (fun slot => ?_) (by rw [entitiesIs, entitiesIs, entitiesIs, entitiesIs])
    (by rw [history_apply, history_apply, history_apply, history_apply])
    (by rw [spawns_apply, spawns_apply, spawns_apply, spawns_apply, Command.draw_comm])
    (by rw [intervalIs, intervalIs, intervalIs, intervalIs])
  by_cases byFirst : a.Touches slot
  · have notSecond : ¬ b.Touches slot := fun bySecond => apart ⟨slot, byFirst, bySecond⟩
    rw [site_apply notSecond, ((likewise_apply uniform apart' now).apply now).2 slot byFirst]
  · rw [site_apply byFirst]
    by_cases bySecond : b.Touches slot
    · rw [((likewise_apply uniform apart now).apply now).2 slot bySecond]
    · rw [site_apply bySecond, site_apply bySecond, site_apply byFirst]

/-! ## Batches -/

/-- The commands of a batch, each with its place and its events. -/
def outcomes (w : World) (now : Time) : List (Command × Nat) → List ((Command × Nat) × List Event)
  | [] => []
  | c :: rest => (c, (w.apply c.1 now).2) :: outcomes (w.apply c.1 now).1 now rest

theorem events_applyAll (now : Time) (batch : List (Command × Nat)) :
    (w.applyAll now (batch.map Prod.fst)).2 = (w.outcomes now batch).flatMap Prod.snd := by
  induction batch generalizing w with
  | nil => rfl
  | cons c rest ih => exact congrArg ((w.apply c.1 now).2 ++ ·) ih

/-- A batch leaves alone what none of its commands touches. -/
theorem applyAll_frame (now : Time) (batch : List Command) :
    (∀ slot, (∀ c ∈ batch, ¬ c.Touches slot) →
      (w.applyAll now batch).1.site slot = w.site slot) ∧
    (w.applyAll now batch).1.entities = w.entities ∧
    (w.applyAll now batch).1.history = w.history := by
  induction batch generalizing w with
  | nil => exact ⟨fun _ _ => rfl, rfl, rfl⟩
  | cons c rest ih =>
    obtain ⟨sites, entities, history⟩ := ih (w := (w.apply c now).1)
    refine ⟨fun slot foreign => ?_, entities.trans (entities_apply c now).1,
      history.trans (history_apply c now)⟩
    obtain ⟨first, others⟩ := List.forall_mem_cons.mp foreign
    exact (sites slot others).trans (site_apply first now)

/-- A command that meets none of those before it may come first. -/
theorem perm_outcomes_middle (uniform : w.spawns.Uniform) (now : Time) {x : Command × Nat}
    {before : List (Command × Nat)} (apart : ∀ y ∈ before, ¬ y.1.Meets x.1)
    (after : List (Command × Nat)) :
    (w.outcomes now (before ++ x :: after)).Perm (w.outcomes now (x :: (before ++ after))) ∧
    (w.applyAll now ((before ++ x :: after).map Prod.fst)).1 =
      (w.applyAll now ((x :: (before ++ after)).map Prod.fst)).1 := by
  induction before generalizing w with
  | nil => exact ⟨.refl _, rfl⟩
  | cons y before ih =>
    obtain ⟨first, others⟩ := List.forall_mem_cons.mp apart
    obtain ⟨perm, same⟩ := ih (uniform_apply uniform y.1 now) others
    have swapped := apply_comm uniform first now
    have unseen := ((likewise_apply uniform first now).apply now).1
    have unseen' := ((likewise_apply uniform (fun meets => first meets.symm) now).apply now).1
    constructor
    · -- `y` first and `x` right behind it, then the two change places
      refine (perm.cons _).trans ?_
      simp only [outcomes, List.cons_append]
      rw [swapped, unseen, unseen']
      exact .swap _ _ _
    · refine same.trans ?_
      simp only [List.map_cons, List.cons_append, applyAll]
      rw [swapped]

/-- A batch in any order that keeps the order of commands that meet comes to the same. -/
theorem perm_outcomes (uniform : w.spawns.Uniform) (now : Time)
    {batch reordered : List (Command × Nat)}
    (ascending : batch.Pairwise fun x y => x.2 < y.2) (perm : reordered.Perm batch)
    (keeps : reordered.Pairwise fun x y => x.1.Meets y.1 → x.2 < y.2) :
    (w.outcomes now reordered).Perm (w.outcomes now batch) ∧
    (w.applyAll now (reordered.map Prod.fst)).1 = (w.applyAll now (batch.map Prod.fst)).1 := by
  induction batch generalizing w reordered with
  | nil =>
    cases perm.eq_nil
    exact ⟨.refl _, rfl⟩
  | cons x batch ih =>
    obtain ⟨least, ascending'⟩ := List.pairwise_cons.mp ascending
    obtain ⟨before, after, rfl⟩ := List.append_of_mem (perm.mem_iff.mpr List.mem_cons_self)
    obtain ⟨keepsBefore, keepsAfter, across⟩ := List.pairwise_append.mp keeps
    -- what has come to stand before the first command has a later place, so it does not meet it
    have apart : ∀ y ∈ before, ¬ y.1.Meets x.1 := by
      intro y member meets
      have earlier := across y member x List.mem_cons_self meets
      rcases List.mem_cons.mp (perm.subset (List.mem_append_left _ member)) with rfl | later
      · exact Nat.lt_irrefl _ earlier
      · exact Nat.lt_asymm earlier (least y later)
    obtain ⟨front, sameFront⟩ := perm_outcomes_middle uniform now apart after
    have rest : (before ++ after).Perm batch := (List.perm_middle.symm.trans perm).cons_inv
    have keepsRest : (before ++ after).Pairwise fun x y => x.1.Meets y.1 → x.2 < y.2 :=
      keeps.sublist ((List.sublist_cons_self x after).append_left before)
    obtain ⟨restOutcomes, sameRest⟩ :=
      ih (uniform_apply uniform x.1 now) ascending' rest keepsRest
    exact ⟨front.trans (restOutcomes.cons _), sameFront.trans sameRest⟩

/-- A batch of commands leaves alone what none of them touches. Where all spawn points are the
same, it may be reordered in any way that keeps the order of commands that meet: the world comes
out the same, and so do the events of each command, known by its place in the batch. -/
theorem applyAll_reordered (w : World) (uniform : w.spawns.Uniform) (now : Time)
    (batch : List Command) :
    (∀ slot, (∀ c ∈ batch, ¬ c.Touches slot) →
      (w.applyAll now batch).1.players.get? slot = w.players.get? slot ∧
      (w.applyAll now batch).1.endpoints.get? slot = w.endpoints.get? slot) ∧
    (w.applyAll now batch).1.entities = w.entities ∧
    (w.applyAll now batch).1.history = w.history ∧
    ∀ reordered : List (Command × Nat), reordered.Perm batch.zipIdx →
      (reordered.Pairwise fun x y => x.1.Meets y.1 → x.2 < y.2) →
      (w.applyAll now (reordered.map Prod.fst)).1 = (w.applyAll now batch).1 ∧
      (w.outcomes now reordered).Perm (w.outcomes now batch.zipIdx) ∧
      (w.applyAll now (reordered.map Prod.fst)).2.Perm (w.applyAll now batch).2 := by
  obtain ⟨sites, entities, history⟩ := applyAll_frame (w := w) now batch
  refine ⟨fun slot foreign => Prod.mk.inj (sites slot foreign), entities, history,
    fun reordered perm keeps => ?_⟩
  have ascending : batch.zipIdx.Pairwise fun x y => x.2 < y.2 := by
    rw [← List.pairwise_map (f := Prod.snd), List.zipIdx_map_snd]
    exact List.pairwise_lt_range' ..
  obtain ⟨sameOutcomes, same⟩ := perm_outcomes uniform now ascending perm keeps
  rw [List.zipIdx_map_fst] at same
  refine ⟨same, sameOutcomes, ?_⟩
  have events := events_applyAll (w := w) now batch.zipIdx
  rw [List.zipIdx_map_fst] at events
  rw [events, events_applyAll]
  exact sameOutcomes.flatMap_right _

/-- A kill with the knife, an acknowledgement that comes too late, a change of the killer's weapon
and a newcomer. Only the change of weapon has to stay behind the kill. -/
theorem applyAll_reordered_knife :
    let w := ((World.empty 15000000 [.zero] fun _ => 0).applyAll 0
      [.join 0 "a" "A" none, .join 1 "b" "B" none, .join 2 "c" "C" none]).1
    let batch : List Command :=
      [.damage 0 1 100, .acknowledge 2 7, .infoChange 0 1 0, .join 3 "d" "D" none]
    let reordered : List (Command × Nat) :=
      [(.join 3 "d" "D" none, 3), (.acknowledge 2 7, 1), (.damage 0 1 100, 0),
        (.infoChange 0 1 0, 2)]
    w.spawns.Uniform ∧ reordered.Perm batch.zipIdx ∧
    (reordered.Pairwise fun x y => x.1.Meets y.1 → x.2 < y.2) ∧
    (w.applyAll 0 (reordered.map Prod.fst)).1 = (w.applyAll 0 batch).1 ∧
    (w.outcomes 0 reordered).Perm
      [((.damage 0 1 100, 0),
          [.achievement ⟨"b", 6⟩, .achievement ⟨"a", 2⟩, .achievement ⟨"a", 5⟩]),
        ((.acknowledge 2 7, 1), [.reply 2 staleReply]), ((.infoChange 0 1 0, 2), []),
        ((.join 3 "d" "D" none, 3), [.achievement ⟨"d", 1⟩])] := by
  intro w batch reordered
  have uniform : w.spawns.Uniform := by
    have points : w.spawns.points = [.zero] := rfl
    simp [Spawns.Uniform, points]
  have perm : reordered.Perm batch.zipIdx := by decide
  have keeps : reordered.Pairwise fun x y => x.1.Meets y.1 → x.2 < y.2 := by
    simp [reordered, Command.Meets, Command.Touches]
  obtain ⟨-, -, -, same⟩ := applyAll_reordered w uniform 0 batch
  obtain ⟨world, outcomes, -⟩ := same reordered perm keeps
  have told : w.outcomes 0 batch.zipIdx = [
      ((.damage 0 1 100, 0), [.achievement ⟨"b", 6⟩, .achievement ⟨"a", 2⟩, .achievement ⟨"a", 5⟩]),
      ((.acknowledge 2 7, 1), [.reply 2 staleReply]), ((.infoChange 0 1 0, 2), []),
      ((.join 3 "d" "D" none, 3), [.achievement ⟨"d", 1⟩])] := by
    decide +kernel
  exact ⟨uniform, perm, keeps, world, told ▸ outcomes⟩

end World

end Deathmatch
