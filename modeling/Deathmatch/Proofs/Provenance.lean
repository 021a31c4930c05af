import Deathmatch.Proofs.Completion

/-!
# Where assembled packets come from

A group knows its fragments by number only. Two packets of one source that share an id and a count
of fragments can therefore meet in one group, and when each has lost what the other brings, the
group is assembled to a packet that nobody sent (`push_mixed`).

That is all that can go wrong. `Waits` says what has become of a group since it was opened: nothing
but fragments of its key were added, each in the place of an earlier one with its number, and no
push of the key has been answered with a packet since. It holds of every group after every run
(`waits_run`), which was therefore opened after whatever came out before (`Waits.suffix`). So what
comes out is made of the last fragments with their numbers since the group was opened, and it is a
packet that was sent just when all of them are of that packet (`push_pieces`).
-/

namespace Deathmatch

namespace Reassembler

variable {r : Reassembler} {steps : List Step} {step : Step} {key : GroupKey} {g : Group}
  {source : Endpoint} {fragment f : Packet} {now : Time} {k : UInt8}

/-! ## The last fragment with a number -/

/-- What a step pushes for a key. -/
def Step.fragment? (key : GroupKey) : Step → Option Packet
  | .push source fragment _ =>
    if (⟨source, fragment.id⟩ : GroupKey) = key then some fragment else none
  | .expire _ => none

/-- The last fragment with a number that the steps push for a key. -/
def latest? (key : GroupKey) (steps : List Step) (number : UInt8) : Option Packet :=
  (steps.filterMap (·.fragment? key)).reverse.find? fun f => f.index = number

theorem fragment?_own (own : fragment.id = key.id) :
    (Step.push key.source fragment now).fragment? key = some fragment := by
  rw [Step.fragment?, own]
  exact if_pos rfl

theorem fragment?_foreign (foreign : step.key? ≠ some key) : step.fragment? key = none := by
  cases step with
  | push source fragment now => exact if_neg fun same => foreign (congrArg some same)
  | expire now => rfl

theorem latest?_concat_own (own : fragment.id = key.id) :
    latest? key (steps ++ [.push key.source fragment now]) k =
      if fragment.index = k then some fragment else latest? key steps k := by
  have last : [Step.push key.source fragment now].filterMap (·.fragment? key) = [fragment] := by
    rw [List.filterMap_cons, fragment?_own own, List.filterMap_nil]
  rw [latest?, List.filterMap_append, last, List.reverse_append, List.reverse_singleton,
    List.singleton_append, List.find?_cons, latest?]
  by_cases here : fragment.index = k <;> simp [here]

theorem latest?_concat_foreign (foreign : step.key? ≠ some key) :
    latest? key (steps ++ [step]) k = latest? key steps k := by
  have last : [step].filterMap (·.fragment? key) = [] := by
    rw [List.filterMap_cons, fragment?_foreign foreign, List.filterMap_nil]
  rw [latest?, List.filterMap_append, last, List.append_nil, latest?]

theorem pushed_of_latest? (found : latest? key steps k = some f) :
    ∃ t, .push key.source f t ∈ steps ∧ f.id = key.id := by
  have member := List.mem_of_find?_eq_some found
  rw [List.mem_reverse, List.mem_filterMap] at member
  obtain ⟨step, there, pushes⟩ := member
  cases step with
  | expire now => cases pushes
  | push source fragment now =>
    simp only [Step.fragment?] at pushes
    split at pushes
    · next here =>
      cases pushes
      subst here
      exact ⟨now, there, rfl⟩
    · cases pushes

/-! ## Since a group was opened -/

/-- Whether the steps, taken on the table `r`, are those since the group `g` of a key was opened. -/
structure Waits (r : Reassembler) (key : GroupKey) (steps : List Step) (g : Group) : Prop where
  /-- The first of them is a push of the key, and opens the group. -/
  opens : ∃ f rest, steps = .push key.source f g.firstSeen :: rest ∧ f.id = key.id ∧
    (r.after (.push key.source f g.firstSeen)).find? key =
      some ((Group.fresh g.total g.firstSeen).add f)
  /-- After each of them it waits: it has not gone, nor been started again. -/
  stays : ∀ earlier later, steps = earlier ++ later → earlier ≠ [] →
    ∃ h, (r.run earlier).find? key = some h ∧ h.firstSeen = g.firstSeen ∧ h.total = g.total
  /-- Each push of the key brings a fragment out of as many, and is answered with nothing. -/
  silent : ∀ earlier f t later, steps = earlier ++ .push key.source f t :: later → f.id = key.id →
    f.total = g.total ∧ ((r.run earlier).push key.source f t).1 = .ok none
  /-- The group holds the last fragment with each number. -/
  holds : ∀ k, g.fragments.get? k = latest? key steps k

/-- Where a list with one more item can be split. -/
theorem split_concat {α : Type} {xs earlier later : List α} {x : α}
    (split : xs ++ [x] = earlier ++ later) :
    earlier = xs ++ [x] ∧ later = [] ∨ ∃ rest, later = rest ++ [x] ∧ xs = earlier ++ rest := by
  rcases List.append_eq_append_iff.mp split with ⟨between, rfl, last⟩ | ⟨rest, front, back⟩
  · rcases List.singleton_eq_append_iff.mp last with ⟨rfl, rfl⟩ | ⟨rfl, rfl⟩
    · exact .inr ⟨[], rfl, by rw [List.append_nil, List.append_nil]⟩
    · exact .inl ⟨rfl, rfl⟩
  · exact .inr ⟨rest, back, front⟩

namespace Waits

/-- A group that has just been opened. -/
theorem single (own : fragment.id = key.id)
    (answered : (r.push key.source fragment now).1 = .ok none)
    (waiting : (r.after (.push key.source fragment now)).find? key =
      some ((Group.fresh fragment.total now).add fragment)) :
    r.Waits key [.push key.source fragment now]
      ((Group.fresh fragment.total now).add fragment) where
  opens := ⟨fragment, [], rfl, own, waiting⟩
  stays earlier later split begun := by
    rcases List.singleton_eq_append_iff.mp split with ⟨rfl, -⟩ | ⟨rfl, -⟩
    · exact absurd rfl begun
    · exact ⟨_, waiting, rfl, rfl⟩
  silent earlier f t later split _ := by
    rcases List.singleton_eq_append_iff.mp split with ⟨rfl, last⟩ | ⟨-, last⟩
    · cases last
      exact ⟨rfl, answered⟩
    · cases last
  holds k := by
    rw [Group.get?_add, Group.fresh, ByteMap.get?_empty]
    exact (latest?_concat_own own : latest? key ([] ++ [_]) k = _).symm

/-- The group goes on waiting if the next step leaves it, or adds a fragment to it. -/
theorem concat (waits : r.Waits key steps g) {h : Group}
    (waiting : (r.run (steps ++ [step])).find? key = some h)
    (same : h.firstSeen = g.firstSeen ∧ h.total = g.total)
    (silent : ∀ f t, step = .push key.source f t → f.id = key.id →
      f.total = g.total ∧ ((r.run steps).push key.source f t).1 = .ok none)
    (holds : ∀ k, h.fragments.get? k = latest? key (steps ++ [step]) k) :
    r.Waits key (steps ++ [step]) h where
  opens := by
    obtain ⟨f, rest, rfl, own, opened⟩ := waits.opens
    rw [← same.1, ← same.2] at opened
    exact ⟨f, rest ++ [step], by rw [same.1, List.cons_append], own, opened⟩
  stays earlier later split begun := by
    rcases split_concat split with ⟨rfl, -⟩ | ⟨rest, -, earlierSplit⟩
    · exact ⟨h, waiting, rfl, rfl⟩
    · obtain ⟨i, found, opened, total⟩ := waits.stays earlier rest earlierSplit begun
      exact ⟨i, found, opened.trans same.1.symm, total.trans same.2.symm⟩
  silent earlier f t later split own := by
    rw [same.2]
    rcases split_concat split with ⟨-, last⟩ | ⟨rest, last, earlierSplit⟩
    · cases last
    · cases rest with
      | nil =>
        rw [List.append_nil] at earlierSplit
        rw [← earlierSplit]
        exact silent f t (List.cons.inj last).1.symm own
      | cons first rest =>
        obtain ⟨rfl, -⟩ := List.cons.inj last
        exact waits.silent earlier f t rest earlierSplit own
  holds := holds

theorem foreign (waits : r.Waits key steps g) (foreign : step.key? ≠ some key)
    (waiting : (r.run (steps ++ [step])).find? key = some g) :
    r.Waits key (steps ++ [step]) g := by
  refine waits.concat waiting ⟨rfl, rfl⟩ (fun f t here own => ?_) fun k => ?_
  · rw [here, Step.key?, own] at foreign
    exact absurd rfl foreign
  · rw [latest?_concat_foreign foreign]
    exact waits.holds k

theorem own (waits : r.Waits key steps g) (own : fragment.id = key.id)
    (sameTotal : fragment.total = g.total)
    (answered : ((r.run steps).push key.source fragment now).1 = .ok none)
    (waiting : (r.run (steps ++ [.push key.source fragment now])).find? key =
      some (g.add fragment)) :
    r.Waits key (steps ++ [.push key.source fragment now]) (g.add fragment) := by
  refine waits.concat waiting ⟨rfl, rfl⟩ (fun f t here _ => ?_) fun k => ?_
  · cases here
    exact ⟨sameTotal, answered⟩
  · rw [Group.get?_add, latest?_concat_own own, waits.holds k]

/-- No push of the key was answered with anything since the group was opened. -/
theorem suffix {past since earlier later : List Step} {t : Time}
    (waits : (r.run past).Waits key since g)
    (split : past ++ since = earlier ++ .push key.source f t :: later) (own : f.id = key.id)
    (answered : ((r.run earlier).push key.source f t).1 ≠ .ok none) : since <:+ later := by
  rcases List.append_eq_append_iff.mp split with ⟨between, rfl, rest⟩ | ⟨between, rfl, rest⟩
  · rw [run_append] at answered
    exact absurd (waits.silent between f t later rest own).2 answered
  · cases between with
    | nil =>
      rw [List.append_nil] at waits
      exact absurd (waits.silent [] f t later rest.symm own).2 answered
    | cons first others =>
      obtain ⟨-, rfl⟩ := List.cons.inj rest
      exact ⟨others, rfl⟩

end Waits

/-- The group that a fragment is added to is a new one, or it waits and is not stale. -/
theorem joined_cases (r : Reassembler) (key : GroupKey) (total : UInt8) (now : Time) :
    r.joined key total now = .fresh total now ∨
      ∃ g, r.find? key = some g ∧ g.isStale r.timeout now = false ∧ g.total = total ∧
        r.joined key total now = g := by
  unfold joined
  split
  · next g current =>
    obtain ⟨found, young⟩ := Option.filter_eq_some_iff.mp current
    split
    · next same => exact .inr ⟨g, found, by simpa using young, same, rfl⟩
    · exact .inl rfl
  · exact .inl rfl

/-- A fragment that is dropped leaves its key without a group. -/
theorem find?_push_of_drops (drops : r.Drops source fragment now) :
    (r.push source fragment now).2.find? ⟨source, fragment.id⟩ = none := by
  obtain ⟨several, vacant, full⟩ := drops
  rw [push, if_neg (UInt8.not_le.mpr several)]
  dsimp only
  rw [vacant]
  dsimp only
  rw [if_neg (Bool.eq_false_iff.mp full), makeRoom]
  split
  · exact vacant
  · exact find?_expire vacant

/-- A push after which a group of its key waits was answered with nothing, and its fragment added to
the group. -/
theorem push_waits (several : 1 < fragment.total) (own : fragment.id = key.id)
    (waiting : (r.push key.source fragment now).2.find? key = some g) :
    (r.push key.source fragment now).1 = .ok none ∧
      g = (r.joined key fragment.total now).add fragment := by
  have here : (⟨key.source, fragment.id⟩ : GroupKey) = key := by rw [own]
  have taken : ¬ r.Drops key.source fragment now := fun drops => by
    have gone := find?_push_of_drops drops
    rw [here, waiting] at gone
    cases gone
  obtain ⟨base, way⟩ := push_eq_accept several taken
  rw [here] at way
  rw [way, find?_accept_self] at waiting
  split at waiting
  · cases waiting
  · next incomplete =>
    cases waiting
    exact ⟨by rw [way, accept, if_neg incomplete], rfl⟩

/-- A group that waits after a run waits since one of its steps. -/
theorem waits_run (timeout : Span) {steps : List Step}
    (several : ∀ f t, .push key.source f t ∈ steps → f.id = key.id → 1 < f.total)
    (waiting : ((empty timeout).run steps).find? key = some g) :
    ∃ past since, steps = past ++ since ∧ ((empty timeout).run past).Waits key since g := by
  induction steps using List.reverseRecOn generalizing g with
  | nil => cases waiting
  | append_singleton steps step ih =>
    have earlier (h : Group) (found : ((empty timeout).run steps).find? key = some h) :=
      ih (fun f t member => several f t (List.mem_append_left _ member)) found
    have before := waiting
    rw [run_concat] at before
    by_cases mine : step.key? = some key
    · cases step with
      | expire now => cases mine
      | push source fragment now =>
        obtain ⟨rfl, own⟩ : source = key.source ∧ fragment.id = key.id :=
          GroupKey.mk.inj (Option.some.inj mine)
        have several := several fragment now
          (List.mem_append_right _ (List.mem_singleton_self _)) own
        obtain ⟨answered, rfl⟩ := push_waits several own before
        rcases joined_cases ((empty timeout).run steps) key fragment.total now with
          new | ⟨h, found, -, same, old⟩
        · rw [new] at before ⊢
          exact ⟨steps, _, rfl, .single own answered before⟩
        · obtain ⟨past, since, rfl, waits⟩ := earlier h found
          rw [run_append] at answered
          rw [old, List.append_assoc, run_append] at waiting
          rw [old]
          exact ⟨past, _, List.append_assoc _ _ _, waits.own own same.symm answered waiting⟩
    · have distinct := (bounded_run timeout steps).distinct
      have found : ((empty timeout).run steps).find? key = some g := by
        rcases find?_after_of_foreign distinct mine with same | current
        · exact same.symm.trans before
        · exact (Option.filter_eq_some_iff.mp (current.symm.trans before)).1
      obtain ⟨past, since, rfl, waits⟩ := earlier g found
      rw [List.append_assoc, run_append] at waiting
      exact ⟨past, _, List.append_assoc _ _ _, waits.foreign mine waiting⟩

/-! ## What comes out -/

/-- Only a group that waits and is not stale is completed by a fragment. -/
theorem push_completes (key : GroupKey) (distinct : (r.pending.map (·.1)).Nodup)
    (several : 1 < fragment.total) (own : fragment.id = key.id)
    (answered : (r.push key.source fragment now).1 ≠ .ok none) :
    ∃ g, r.find? key = some g ∧ g.total = fragment.total ∧ now ≤ g.firstSeen + r.timeout ∧
      (g.add fragment).isComplete = true ∧ (r.push key.source fragment now).1 =
        (Packet.assemble (g.add fragment).fragments.values).map some := by
  have here : (⟨key.source, fragment.id⟩ : GroupKey) = key := by rw [own]
  rcases answer_push r key.source now several with nothing | ⟨g, offered, complete, answer⟩
  · exact absurd nothing answered
  · rcases offered with rfl | ⟨member, young, same⟩
    · cases (Group.waits_fresh_add several now).symm.trans complete
    · rw [here] at member
      rw [Group.isStale, decide_eq_false_iff_not] at young
      exact ⟨g, (find?_eq_some_iff distinct).mpr member, same,
        Nat.sub_le_iff_le_add'.mp (Nat.le_of_not_lt young), complete, answer⟩

/-- A fragment that completes a group after a run is the last to come into a group that has waited
since it was opened. -/
theorem completes_run (timeout : Span) (key : GroupKey) {before : List Step}
    (counted : ∀ f t, .push key.source f t ∈ before → f.id = key.id → 1 < f.total)
    (several : 1 < fragment.total) (own : fragment.id = key.id)
    (answered : (((empty timeout).run before).push key.source fragment now).1 ≠ .ok none) :
    ∃ past since g, before = past ++ since ∧ ((empty timeout).run past).Waits key since g ∧
      g.total = fragment.total ∧ now ≤ g.firstSeen + timeout ∧
      (g.add fragment).Sound key.id ∧ (g.add fragment).isComplete = true ∧
      (∀ k, (g.add fragment).fragments.get? k =
        latest? key (since ++ [.push key.source fragment now]) k) ∧
      (((empty timeout).run before).push key.source fragment now).1 =
        (Packet.assemble (g.add fragment).fragments.values).map some := by
  obtain ⟨g, waiting, same, young, complete, answer⟩ :=
    push_completes key (bounded_run timeout before).distinct several own answered
  obtain ⟨past, since, split, waits⟩ := waits_run timeout counted waiting
  rw [timeout_run] at young
  refine ⟨past, since, g, split, waits, same, young, ?_, complete, fun k => ?_, answer⟩
  · exact (sound_run timeout before key g (mem_of_find? waiting)).add own same.symm
  · rw [Group.get?_add, waits.holds, latest?_concat_own own]

/-- Fragments of sent packets, one for each number, are put together to the data of one of these
packets just when all of them are fragments of that packet. -/
theorem flatten_eq_data_iff {sent : List Packet} {part : Nat → Packet} {n : Nat} (several : 1 < n)
    (splits : ∀ p ∈ sent, Splits p.data) (sameId : ∀ p ∈ sent, ∀ q ∈ sent, p.id = q.id)
    (parts : ∀ i < n, (part i).index.toNat = i ∧ (part i).total.toNat = n ∧
      ∃ p ∈ sent, p.Carries (part i)) {q : Packet} (member : q ∈ sent) :
    ((List.range n).map fun i => (part i).data).flatten = q.data ↔ ∀ i < n, q.Carries (part i) := by
  constructor
  · intro same
    have count (i : Nat) (inside : i < n) {p : Packet} (among : p ∈ sent)
        (carried : p.Carries (part i)) : (pieces p.data).length = n :=
      (carried.total_eq (splits p among)).symm.trans (parts i inside).2.1
    have cut : pieces q.data = (List.range n).map fun i => (part i).data := by
      rw [← same]
      refine pieces_flatten_map several fun i inside => ?_
      obtain ⟨index, -, p, among, carried⟩ := parts i inside
      refine ⟨p.data, count i inside among carried, ?_⟩
      rw [carried.data_eq (splits p among), index]
    intro i inside
    obtain ⟨index, -, p, among, carried⟩ := parts i inside
    refine carried.of_data_eq (splits p among) (splits q member) (sameId p among q member) ?_ ?_
    · rw [count i inside among carried, cut, List.length_map, List.length_range]
    · rw [index, cut, List.getD_eq_getElem _ _ (by simpa using inside), List.getElem_map,
        List.getElem_range]
  · intro all
    have count : (pieces q.data).length = n :=
      ((all 0 (Nat.zero_lt_of_lt several)).total_eq (splits q member)).symm.trans
        (parts 0 (Nat.zero_lt_of_lt several)).2.1
    have own : (List.range n).map (fun i => (part i).data) =
        (List.range n).map fun i => (pieces q.data).getD i [] := by
      refine List.map_congr_left fun i inRange => ?_
      have inside := List.mem_range.mp inRange
      rw [(all i inside).data_eq (splits q member), (parts i inside).1]
    rw [own, ← count, flatten_map_pieces]

/-- What comes out for packets that were split and sent with one id, whatever is lost, repeated,
late or out of order on the way, and whatever else is pushed or expires meanwhile, at any times. A
push of a fragment is answered with nothing yet, or with a packet. Then a group of the key has
waited, for no longer than the timeout, since it was opened, and it was opened after whatever came
out before. The packet is made of the last fragments with their numbers since then, each of which is
a fragment of some sent packet of as many. It is a packet that was sent just when all of them are
fragments of that packet, as when nothing else has been pushed since. -/
theorem push_pieces (timeout : Span) (source : Endpoint) (id : UInt8) (sent : List Packet)
    (split : ∀ q ∈ sent, q.id = id ∧ 572 < q.data.length ∧ q.data.length ≤ 145860)
    (before : List Step) (fragment : Packet) (now : Time)
    (genuine : ∀ f t, .push source f t ∈ before ++ [.push source fragment now] → f.id = id →
      ∃ q ∈ sent, q.Carries f)
    (own : fragment.id = id) :
    let key : GroupKey := ⟨source, id⟩
    let n := fragment.total.toNat
    let answer := (((empty timeout).run before).push source fragment now).1
    answer = .ok none ∨
    ∃ packet, answer = .ok (some packet) ∧ packet.id = id ∧ packet.index = 0 ∧ packet.total = 1 ∧
      ∃ past since g, before = past ++ since ∧ ((empty timeout).run past).Waits key since g ∧
        g.total = fragment.total ∧ now ≤ g.firstSeen + timeout ∧
        (∀ earlier f t later, before = earlier ++ .push source f t :: later → f.id = id →
          (((empty timeout).run earlier).push source f t).1 ≠ .ok none → since <:+ later) ∧
        let pushed := since ++ [.push source fragment now]
        ∃ part : Nat → Packet, 2 ≤ n ∧
          packet.data = ((List.range n).map fun i => (part i).data).flatten ∧
          (∀ i < n, latest? key pushed (UInt8.ofNat i) = some (part i) ∧
            (part i).index.toNat = i ∧ (part i).total.toNat = n ∧
            ∃ q ∈ sent, q.Carries (part i)) ∧
          ∀ q ∈ sent, (packet.data = q.data ↔ ∀ i < n, q.Carries (part i)) ∧
            ((∀ f t, .push source f t ∈ pushed → f.id = id → q.Carries f) →
              packet.data = q.data) := by
  intro key n answer
  have splits (q : Packet) (member : q ∈ sent) : Splits q.data := (split q member).2
  have counted (f : Packet) (t : Time)
      (member : .push source f t ∈ before ++ [.push source fragment now]) (sameId : f.id = id) :
      1 < f.total := by
    obtain ⟨q, among, carried⟩ := genuine f t member sameId
    rw [UInt8.lt_iff_toNat_lt, carried.total_eq (splits q among)]
    exact (splits q among).count.1
  have several : 1 < fragment.total :=
    counted fragment now (List.mem_append_right _ (List.mem_singleton_self _)) own
  by_cases nothing : answer = .ok none
  · exact .inl nothing
  obtain ⟨past, since, g, splitSince, waits, same, young, sound, complete, holds, answerIs⟩ :=
    completes_run timeout key (fun f t member => counted f t (List.mem_append_left _ member))
      several own nothing
  -- what the group holds was pushed since it was opened, and carried by a sent packet
  have origin (k : UInt8) (f : Packet) (found : (g.add fragment).fragments.get? k = some f) :
      ∃ q ∈ sent, q.Carries f := by
    rw [holds] at found
    obtain ⟨t, pushed, sameId⟩ := pushed_of_latest? found
    refine genuine f t ?_ sameId
    rw [splitSince, List.append_assoc]
    exact List.mem_append_right _ pushed
  have below (k : UInt8) (f : Packet) (found : (g.add fragment).fragments.get? k = some f) :
      k.toNat < (g.add fragment).total.toNat := by
    obtain ⟨index, -, total⟩ := sound.own k f found
    obtain ⟨q, member, carried⟩ := origin k f found
    rw [← index, ← total]
    exact carried.index_lt (splits q member)
  obtain ⟨part, found, channel, assembled⟩ := sound.assemble below complete
  have total : (g.add fragment).total.toNat = n := congrArg UInt8.toNat same
  rw [total] at found assembled
  have parts (i : Nat) (inside : i < n) : (part i).index.toNat = i ∧ (part i).total.toNat = n ∧
      ∃ q ∈ sent, q.Carries (part i) := by
    obtain ⟨index, -, sameTotal⟩ := sound.own _ _ (found i inside)
    rw [index, sameTotal, total]
    exact ⟨UInt8.toNat_ofNat_of_lt' (Nat.lt_trans inside fragment.total.toNat_lt), rfl,
      origin _ _ (found i inside)⟩
  have last (i : Nat) (inside : i < n) :
      latest? key (since ++ [.push source fragment now]) (UInt8.ofNat i) = some (part i) :=
    (holds _).symm.trans (found i inside)
  have pair : 1 < n := UInt8.lt_iff_toNat_lt.mp several
  have whose (q : Packet) (member : q ∈ sent) := flatten_eq_data_iff pair splits
    (fun p among q' among' => (split p among).1.trans (split q' among').1.symm) parts member
  refine .inr ⟨_, answerIs.trans (congrArg (Except.map some) assembled), rfl, rfl, rfl, past, since,
    g, splitSince, waits, same, young,
    fun earlier f t later whole => waits.suffix (splitSince.symm.trans whole), part, pair, rfl,
    fun i inside => ⟨last i inside, parts i inside⟩,
    fun q member => ⟨whose q member, fun alone => (whose q member).mpr fun i inside => ?_⟩⟩
  obtain ⟨t, pushed, sameId⟩ := pushed_of_latest? (last i inside)
  exact alone _ t pushed sameId

/-! ## Two packets of one kind -/

/-- A table in which a single fragment waits. -/
def holding (timeout : Span) (source : Endpoint) (f : Packet) (opened : Time) : Reassembler :=
  ⟨timeout, [(⟨source, f.id⟩, (Group.fresh f.total opened).add f)]⟩

variable {timeout : Span} {other : Packet} {opened : Time}

theorem find?_holding (sameId : other.id = f.id) :
    (holding timeout source f opened).find? ⟨source, other.id⟩ =
      some ((Group.fresh f.total opened).add f) := by
  simp [holding, find?, sameId]

theorem remove_holding (sameId : other.id = f.id) :
    (holding timeout source f opened).remove ⟨source, other.id⟩ = empty timeout := by
  simp [holding, remove, empty, sameId]

theorem push_empty (several : 1 < f.total) (timeout : Span) (source : Endpoint) (now : Time) :
    (empty timeout).push source f now = (.ok none, holding timeout source f now) := by
  rw [push_opens several rfl rfl, accept,
    if_neg (Bool.eq_false_iff.mp (Group.waits_fresh_add several now))]
  rfl

/-- A fragment that comes too late for the group opens it again. -/
theorem push_late (several : 1 < other.total) (sameId : other.id = f.id)
    (late : opened + timeout < now) :
    (holding timeout source f opened).push source other now =
      (.ok none, holding timeout source other now) := by
  have old : ((Group.fresh f.total opened).add f).isStale timeout now = true := by
    rw [Group.isStale, decide_eq_true_iff]
    exact Nat.lt_sub_iff_add_lt'.mpr late
  rw [push_renews several (find?_holding sameId) old, accept,
    if_neg (Bool.eq_false_iff.mp (Group.waits_fresh_add several now)), keep, remove_holding sameId]
  rfl

/-- The other one of two fragments completes the group, and nothing of it is left. -/
theorem push_pair (timeout : Span) (source : Endpoint) {low high : Packet}
    (first : low.index = 0 ∧ low.total = 2) (second : high.index = 1 ∧ high.total = 2)
    (sameId : low.id = high.id) (pair : f = low ∧ other = high ∨ f = high ∧ other = low)
    (young : now ≤ opened + timeout) :
    ∃ packet, (holding timeout source f opened).push source other now =
      (.ok (some packet), empty timeout) ∧ packet.data = low.data ++ high.data := by
  obtain ⟨two, both, one⟩ : f.total = 2 ∧ other.total = 2 ∧ other.id = f.id := by
    rcases pair with ⟨rfl, rfl⟩ | ⟨rfl, rfl⟩
    · exact ⟨first.2, second.2, sameId.symm⟩
    · exact ⟨second.2, first.2, sameId⟩
  have several : 1 < f.total := two ▸ (by decide)
  have fresh : ((Group.fresh f.total opened).add f).isStale timeout now = false := by
    rw [Group.isStale, decide_eq_false_iff_not]
    exact Nat.not_lt_of_le (Nat.sub_le_iff_le_add'.mpr young)
  have joins : (holding timeout source f opened).push source other now = _ :=
    push_joins (both ▸ by decide) (find?_holding one) fresh (two.trans both.symm)
  let grown := ((Group.fresh f.total opened).add f).add other
  have total : grown.total = 2 := two
  have sound : grown.Sound other.id :=
    ((Group.sound_fresh several opened other.id).add one.symm rfl).add rfl (both.trans two.symm)
  have entries (k : UInt8) : grown.fragments.get? k =
      if k = 0 then some low else if k = 1 then some high else none := by
    rw [Group.get?_add, Group.get?_add, Group.fresh, ByteMap.get?_empty]
    rcases pair with ⟨rfl, rfl⟩ | ⟨rfl, rfl⟩ <;> rw [first.1, second.1] <;> grind
  have below (k : UInt8) (e : Packet) (found : grown.fragments.get? k = some e) :
      k.toNat < grown.total.toNat := by
    rw [entries] at found
    rw [total]
    split at found
    · next here => exact here ▸ (by decide)
    · split at found
      · next here => exact here ▸ (by decide)
      · cases found
  have complete : grown.isComplete = true := by
    rw [Group.isComplete_iff below, total]
    intro i inside
    have inside : i < 2 := inside
    rw [ByteMap.contains, entries]
    rcases (by omega : i = 0 ∨ i = 1) with rfl | rfl
    · rfl
    · rfl
  obtain ⟨part, found, channel, assembled⟩ := sound.assemble below complete
  rw [total] at found
  have partZero : part 0 = low := Option.some.inj ((found 0 (by decide)).symm.trans (entries 0))
  have partOne : part 1 = high := Option.some.inj ((found 1 (by decide)).symm.trans (entries 1))
  have answered : (holding timeout source f opened).push source other now =
      ((Packet.assemble grown.fragments.values).map some, empty timeout) := by
    rw [joins, accept, if_pos complete, remove_holding one]
  rw [assembled] at answered
  refine ⟨_, answered, ?_⟩
  rw [total, ← partZero, ← partOne]
  exact congrArg ((part 0).data ++ ·) (List.append_nil _)

/-- The two fragments of such a packet, one after the other. -/
theorem push_twofold (b : UInt8) (timeout : Span) (source : Endpoint) (now : Time) :
    ∃ packet, (holding timeout source ((twofold b).fragment .udp 1) now).push source
        ((twofold b).fragment .udp 0) now = (.ok (some packet), empty timeout) ∧
      packet.data = (twofold b).data := by
  obtain ⟨packet, answered, data⟩ := push_pair timeout source ⟨rfl, total_twofold b 0⟩
    ⟨rfl, total_twofold b 1⟩ rfl (.inr ⟨rfl, rfl⟩) (Nat.le_add_right now timeout)
  refine ⟨packet, answered, ?_⟩
  rw [data, fragment_twofold_zero, fragment_twofold_one]
  rfl

/-- A stray fragment has become too old. Then two packets of one kind are delivered whole, the one
right after the other, and each comes out as it was sent. -/
theorem push_pieces_delivered :
    let source : Endpoint := ⟨"10.0.0.1", 7⟩
    let before : List Step :=
      [.push source ((twofold 1).fragment .udp 0) 0,
        .push source ((twofold 0).fragment .udp 1) (Span.seconds 3),
        .push source ((twofold 0).fragment .udp 0) (Span.seconds 3),
        .push source ((twofold 1).fragment .udp 1) (Span.seconds 3)]
    let last := (twofold 1).fragment .udp 0
    (∀ q ∈ [twofold 0, twofold 1], q.id = 3 ∧ 572 < q.data.length ∧ q.data.length ≤ 145860) ∧
    (∀ f t, .push source f t ∈ before ++ [.push source last (Span.seconds 3)] → f.id = 3 →
      ∃ q ∈ [twofold 0, twofold 1], q.Carries f) ∧
    (∃ packet, (((empty defaultTimeout).run (before.take 2)).push source
        ((twofold 0).fragment .udp 0) (Span.seconds 3)).1 = .ok (some packet) ∧
      packet.data = (twofold 0).data) ∧
    ∃ packet, (((empty defaultTimeout).run before).push source last (Span.seconds 3)).1 =
        .ok (some packet) ∧ packet.data = (twofold 1).data := by
  intro source before last
  have several (b : UInt8) (i : Nat) : 1 < ((twofold b).fragment .udp i).total :=
    total_twofold b i ▸ (by decide)
  have split (q : Packet) (member : q ∈ [twofold 0, twofold 1]) :
      q.id = 3 ∧ 572 < q.data.length ∧ q.data.length ≤ 145860 := by
    rcases (by simpa using member : q = twofold 0 ∨ q = twofold 1) with rfl | rfl
    · exact ⟨rfl, splits_twofold 0⟩
    · exact ⟨rfl, splits_twofold 1⟩
  have genuine (f : Packet) (t : Time)
      (member : .push source f t ∈ before ++ [.push source last (Span.seconds 3)])
      (_ : f.id = 3) : ∃ q ∈ [twofold 0, twofold 1], q.Carries f := by
    have zeros (f : Packet) := carries_twofold (b := 0) (f := f)
    have ones (f : Packet) := carries_twofold (b := 1) (f := f)
    simp only [before, List.cons_append, List.nil_append, List.mem_cons, Step.push.injEq,
      List.not_mem_nil, or_false, true_and] at member
    rcases member with ⟨rfl, -⟩ | ⟨rfl, -⟩ | ⟨rfl, -⟩ | ⟨rfl, -⟩ | ⟨rfl, -⟩
    · exact ⟨twofold 1, by simp, (ones _).mpr (.inl rfl)⟩
    · exact ⟨twofold 0, by simp, (zeros _).mpr (.inr rfl)⟩
    · exact ⟨twofold 0, by simp, (zeros _).mpr (.inl rfl)⟩
    · exact ⟨twofold 1, by simp, (ones _).mpr (.inr rfl)⟩
    · exact ⟨twofold 1, by simp, (ones _).mpr (.inl rfl)⟩
  have renewed : (holding defaultTimeout source ((twofold 1).fragment .udp 0) 0).push source
      ((twofold 0).fragment .udp 1) (Span.seconds 3) = _ := push_late (several 0 1) rfl (by decide)
  have begun : (empty defaultTimeout).run (before.take 2) =
      holding defaultTimeout source ((twofold 0).fragment .udp 1) (Span.seconds 3) := by
    show Reassembler.run _ [_, _] = _
    rw [run_push, push_empty (several 1 0), run_push, run_nil]
    exact congrArg Prod.snd renewed
  obtain ⟨first, firstAnswer, firstData⟩ :=
    push_twofold 0 defaultTimeout source (Span.seconds 3)
  rw [← begun] at firstAnswer
  have between : (empty defaultTimeout).run before =
      holding defaultTimeout source ((twofold 1).fragment .udp 1) (Span.seconds 3) := by
    have parts : before = before.take 2 ++ before.drop 2 := rfl
    rw [parts, run_append]
    show Reassembler.run _ [_, _] = _
    rw [run_push, firstAnswer, run_push, run_nil]
    exact congrArg Prod.snd (push_empty (several 1 1) defaultTimeout source (Span.seconds 3))
  refine ⟨split, genuine, ⟨first, congrArg Prod.fst firstAnswer, firstData⟩, ?_⟩
  rcases push_pieces defaultTimeout source 3 [twofold 0, twofold 1] split before last
    (Span.seconds 3) genuine rfl with
    nothing | ⟨packet, answered, -, -, -, past, since, g, -, -, -, -, after, part, -, -, -, sent⟩
  · obtain ⟨packet, answer, -⟩ := push_twofold 1 defaultTimeout source (Span.seconds 3)
    rw [← between] at answer
    cases nothing.symm.trans (congrArg Prod.fst answer)
  · refine ⟨packet, answered, (sent (twofold 1) (by simp)).2 fun f t pushed _ => ?_⟩
    -- the group was opened after the first packet had come out
    have onlyLast : since <:+ before.drop 3 := by
      refine after (before.take 2) ((twofold 0).fragment .udp 0) (Span.seconds 3) _ rfl rfl ?_
      rw [firstAnswer]
      exact nofun
    rcases List.mem_append.mp pushed with old | new
    · cases List.mem_singleton.mp (onlyLast.subset old)
      exact carries_twofold.mpr (.inr rfl)
    · cases List.mem_singleton.mp new
      exact carries_twofold.mpr (.inl rfl)

/-- What each of two packets lost, the other one brings: nobody sent what comes out. -/
theorem push_mixed :
    let source : Endpoint := ⟨"10.0.0.1", 7⟩
    (twofold 0).Carries ((twofold 0).fragment .udp 0) ∧
    (twofold 1).Carries ((twofold 1).fragment .udp 1) ∧
    ∃ packet, (((empty defaultTimeout).run
        [.push source ((twofold 0).fragment .udp 0) 0]).push source
        ((twofold 1).fragment .udp 1) 0).1 = .ok (some packet) ∧
      packet.data ≠ (twofold 0).data ∧ packet.data ≠ (twofold 1).data := by
  intro source
  obtain ⟨packet, answered, mixed⟩ := push_pair defaultTimeout source ⟨rfl, total_twofold 0 0⟩
    ⟨rfl, total_twofold 1 1⟩ rfl (.inl ⟨rfl, rfl⟩) (Nat.zero_le _)
  rw [fragment_twofold_zero, fragment_twofold_one] at mixed
  have several : 1 < ((twofold 0).fragment .udp 0).total := total_twofold 0 0 ▸ (by decide)
  rw [run_push, run_nil, push_empty several]
  refine ⟨carries_twofold.mpr (.inl rfl), carries_twofold.mpr (.inr rfl), packet,
    congrArg Prod.fst answered, ?_, ?_⟩
  · intro same
    exact absurd (List.append_cancel_left (mixed.symm.trans same)) (by decide)
  · intro same
    exact absurd (congrArg List.head? (mixed.symm.trans same)) (by decide)

end Reassembler

end Deathmatch
