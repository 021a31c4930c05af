import Deathmatch.Proofs.Occupancy

/-!
# When a split packet is complete

What waits for a key is the business of that key. A push of another key and an expiry leave its
group alone, or take it away because it is stale (`Reassembler.find?_after_of_foreign`). A fragment
that is not dropped is added to the group that counts at that time, and else to a new one
(`Reassembler.push_eq_accept`).

So within the timeout the group of a packet collects just those fragments that were pushed
(`Collects`), whatever else goes on, and it is complete as soon as all of them were
(`run_completes`).
-/

namespace Deathmatch

/-- A packet of several datagrams is split, and has as many pieces. -/
theorem Packet.splits_of_encode {p : Packet} {datagrams : List Bytes}
    (encoded : p.encode = .ok datagrams) (several : 2 ≤ datagrams.length) :
    Splits p.data ∧ datagrams.length = (pieces p.data).length := by
  have splits : Splits p.data := by
    refine ⟨Nat.lt_of_not_le fun fits => ?_, p.exists_encode_iff.mp ⟨datagrams, encoded⟩⟩
    rw [encode_of_fits fits] at encoded
    cases encoded
    exact absurd several (Nat.not_succ_le_self 1)
  rw [encode_of_split splits] at encoded
  cases encoded
  exact ⟨splits, by rw [List.length_map, List.length_range]⟩

namespace Reassembler

variable {r : Reassembler} {key other : GroupKey} {g : Group} {source : Endpoint}
  {fragment : Packet} {now : Time} {step : Step}

theorem run_append (r : Reassembler) (xs ys : List Step) :
    r.run (xs ++ ys) = (r.run xs).run ys :=
  List.foldl_append

/-! ## The group of a key -/

theorem find?_eq_some_iff (distinct : (r.pending.map (·.1)).Nodup) :
    r.find? key = some g ↔ (key, g) ∈ r.pending := by
  refine ⟨mem_of_find?, fun member => ?_⟩
  cases found : r.find? key with
  | none =>
    simp only [find?, Option.map_eq_none_iff, List.find?_eq_none] at found
    exact absurd (decide_eq_true rfl) (found _ member)
  | some h =>
    have same : (key, h) = (key, g) :=
      List.inj_on_of_nodup_map distinct (mem_of_find? found) member rfl
    rw [(Prod.mk.inj same).2]

theorem find?_remove_self (r : Reassembler) (key : GroupKey) : (r.remove key).find? key = none := by
  simp [find?, remove]

theorem find?_remove_of_ne (r : Reassembler) (differs : other ≠ key) :
    (r.remove other).find? key = r.find? key := by
  have same : (fun e : GroupKey × Group => decide (e.1 ≠ other) && decide (e.1 = key)) =
      fun e => decide (e.1 = key) := by
    funext e
    by_cases here : e.1 = key
    · simp [here, differs.symm]
    · simp [here]
  rw [find?, find?, remove, List.find?_filter]
  simpa using congrArg (fun p => (r.pending.find? p).map (·.2)) same

/-- A group that has taken in a fragment is gone if that completes it, and waits else. -/
theorem find?_accept_self (r : Reassembler) (key : GroupKey) (g : Group) (fragment : Packet) :
    (r.accept key g fragment).2.find? key =
      if (g.add fragment).isComplete = true then none else some (g.add fragment) := by
  split
  · next complete =>
    rw [accept, if_pos complete]
    exact r.find?_remove_self key
  · next waits => exact find?_accept (Bool.eq_false_iff.mpr waits)

theorem find?_accept_of_ne (r : Reassembler) (differs : other ≠ key) (g : Group)
    (fragment : Packet) : (r.accept other g fragment).2.find? key = r.find? key := by
  unfold accept
  dsimp only
  split
  · exact r.find?_remove_of_ne differs
  · rw [keep, find?, List.find?_cons_of_neg (by simpa using differs)]
    exact r.find?_remove_of_ne differs

/-- The group of a key that counts at a time: it waits and is not stale. -/
def current? (r : Reassembler) (key : GroupKey) (now : Time) : Option Group :=
  (r.find? key).filter fun g => !g.isStale r.timeout now

theorem current?_of_find? (found : r.find? key = some g) (young : g.isStale r.timeout now = false) :
    r.current? key now = some g := by
  rw [current?, found, Option.filter_some, young, Bool.not_false, if_pos rfl]

theorem current?_of_vacant (vacant : r.find? key = none) : r.current? key now = none := by
  rw [current?, vacant, Option.filter_none]

/-- What an expiry leaves of a key is what counts then. -/
theorem find?_expire_eq (distinct : (r.pending.map (·.1)).Nodup) (key : GroupKey) (now : Time) :
    (r.expire now).find? key = r.current? key now := by
  have fewer : ((r.expire now).pending.map Prod.fst).Nodup :=
    (List.filter_sublist.map Prod.fst).nodup distinct
  ext g
  rw [find?_eq_some_iff fewer, current?, Option.filter_eq_some_iff, find?_eq_some_iff distinct]
  exact List.mem_filter

/-! ## Steps of other keys -/

/-- The key of a push. -/
def Step.key? : Step → Option GroupKey
  | .push source fragment _ => some ⟨source, fragment.id⟩
  | .expire _ => none

theorem find?_makeRoom (distinct : (r.pending.map (·.1)).Nodup) (key : GroupKey)
    (source : Endpoint) (now : Time) :
    (r.makeRoom source now).find? key = r.find? key ∨
      (r.makeRoom source now).find? key = r.current? key now := by
  unfold makeRoom
  split
  · exact Or.inl rfl
  · exact Or.inr (find?_expire_eq distinct key now)

/-- A step that is no push of a key leaves its group alone, unless the group is stale. -/
theorem find?_after_of_foreign (distinct : (r.pending.map (·.1)).Nodup)
    (foreign : step.key? ≠ some key) :
    (r.after step).find? key = r.find? key ∨
      (r.after step).find? key = r.current? key step.time := by
  cases step with
  | expire now => exact Or.inr (find?_expire_eq distinct key now)
  | push source fragment now =>
    have differs : (⟨source, fragment.id⟩ : GroupKey) ≠ key := fun same =>
      foreign (congrArg some same)
    show (r.push source fragment now).2.find? key = _ ∨
      (r.push source fragment now).2.find? key = _
    unfold push
    split
    · exact Or.inl rfl
    · dsimp only
      split
      · exact Or.inl (r.find?_accept_of_ne differs _ fragment)
      · split
        · rw [find?_accept_of_ne _ differs]
          exact find?_makeRoom distinct key source now
        · exact find?_makeRoom distinct key source now

/-! ## Steps of the key -/

/-- Whether a fragment is dropped because its source may not open another group. -/
def Drops (r : Reassembler) (source : Endpoint) (fragment : Packet) (now : Time) : Prop :=
  1 < fragment.total ∧ r.find? ⟨source, fragment.id⟩ = none ∧
    (r.makeRoom source now).hasRoom source = false

/-- The group that a fragment out of `total` is added to: the one that counts, if it expects as
many, and else a new one. -/
def joined (r : Reassembler) (key : GroupKey) (total : UInt8) (now : Time) : Group :=
  match r.current? key now with
  | some g => if g.total = total then g else .fresh total now
  | none => .fresh total now

theorem joined_of_find? (found : r.find? key = some g) (total : UInt8) (now : Time) :
    r.joined key total now = g.renewed r.timeout total now := by
  rw [joined, current?, found, Option.filter_some, Group.renewed]
  cases g.isStale r.timeout now <;> by_cases same : g.total = total <;> simp [same]

/-- A fragment that is not dropped is added to a group of its key. -/
theorem push_eq_accept (several : 1 < fragment.total) (taken : ¬ r.Drops source fragment now) :
    ∃ base : Reassembler, r.push source fragment now = base.accept ⟨source, fragment.id⟩
      (r.joined ⟨source, fragment.id⟩ fragment.total now) fragment := by
  unfold push
  rw [if_neg (UInt8.not_le.mpr several)]
  dsimp only
  split
  · next g found => exact ⟨r, by rw [joined_of_find? found]⟩
  · next vacant =>
    have room : (r.makeRoom source now).hasRoom source = true := by
      by_contra full
      exact taken ⟨several, vacant, Bool.eq_false_iff.mpr full⟩
    rw [if_pos room]
    exact ⟨_, by rw [joined, current?_of_vacant vacant]⟩

/-! ## The fragments that have arrived -/

/-- Whether fragment `i` of a packet of the key is among what the steps push. -/
def Heard (steps : List Step) (key : GroupKey) (i : Nat) : Prop :=
  ∃ f t, .push key.source f t ∈ steps ∧ f.id = key.id ∧ f.index.toNat = i

theorem heard_concat_own {steps : List Step} {i : Nat} (key : GroupKey)
    (own : fragment.id = key.id) :
    Heard (steps ++ [.push key.source fragment now]) key i ↔
      Heard steps key i ∨ fragment.index.toNat = i := by
  constructor
  · rintro ⟨f, t, member, sameId, index⟩
    rcases List.mem_append.mp member with old | new
    · exact Or.inl ⟨f, t, old, sameId, index⟩
    · cases List.mem_singleton.mp new
      exact Or.inr index
  · rintro (⟨f, t, member, sameId, index⟩ | index)
    · exact ⟨f, t, List.mem_append_left _ member, sameId, index⟩
    · exact ⟨fragment, now, List.mem_append_right _ (List.mem_singleton_self _), own, index⟩

theorem heard_concat_foreign {steps : List Step} {i : Nat} (foreign : step.key? ≠ some key) :
    Heard (steps ++ [step]) key i ↔ Heard steps key i := by
  constructor
  · rintro ⟨f, t, member, sameId, index⟩
    rcases List.mem_append.mp member with old | new
    · exact ⟨f, t, old, sameId, index⟩
    · rw [← List.mem_singleton.mp new, Step.key?, sameId] at foreign
      exact absurd rfl foreign
  · rintro ⟨f, t, member, rest⟩
    exact ⟨f, t, List.mem_append_left _ member, rest⟩

/-- The group holds the fragments of `p` that the steps push and nothing else. -/
structure Collects (steps : List Step) (source : Endpoint) (p : Packet) (g : Group) : Prop where
  total : g.total.toNat = (pieces p.data).length
  within : ∀ i, Heard steps ⟨source, p.id⟩ i → i < (pieces p.data).length
  entries : ∀ j f, g.fragments.get? j = some f ↔
    Heard steps ⟨source, p.id⟩ j.toNat ∧ f = p.fragment p.transport j.toNat

namespace Collects

variable {steps : List Step} {p : Packet} {i : Nat}

theorem fresh (splits : Splits p.data) (source : Endpoint) (i : Nat) (now : Time) :
    Collects [] source p (Group.fresh (p.fragment p.transport i).total now) where
  total := (Packet.toNat_total_fragment splits : (p.fragment p.transport i).total.toNat = _)
  within := by
    rintro i ⟨f, t, member, -⟩
    cases member
  entries j f := by
    rw [Group.fresh, ByteMap.get?_empty]
    constructor
    · intro found
      cases found
    · rintro ⟨⟨f, t, member, -⟩, -⟩
      cases member

theorem foreign (collects : Collects steps source p g) (other : step.key? ≠ some ⟨source, p.id⟩) :
    Collects (steps ++ [step]) source p g where
  total := collects.total
  within i heard := collects.within i ((heard_concat_foreign other).mp heard)
  entries j f := by rw [collects.entries j f, heard_concat_foreign other]

theorem add (collects : Collects steps source p g) (splits : Splits p.data)
    (inside : i < (pieces p.data).length) (now : Time) :
    Collects (steps ++ [.push source (p.fragment p.transport i) now]) source p
      (g.add (p.fragment p.transport i)) := by
  have place : (p.fragment p.transport i).index.toNat = i :=
    Packet.toNat_index_fragment splits inside
  have grown (j : Nat) : Heard (steps ++ [.push source (p.fragment p.transport i) now])
      ⟨source, p.id⟩ j ↔ Heard steps ⟨source, p.id⟩ j ∨ i = j := by
    have arrived : Heard (steps ++ [.push source (p.fragment p.transport i) now]) ⟨source, p.id⟩ j ↔
        _ ∨ (p.fragment p.transport i).index.toNat = j :=
      heard_concat_own ⟨source, p.id⟩ rfl
    rwa [place] at arrived
  refine ⟨collects.total, fun j heard => ?_, fun j f => ?_⟩
  · rcases (grown j).mp heard with old | rfl
    · exact collects.within j old
    · exact inside
  · rw [Group.get?_add, grown]
    split
    · next here =>
      have number : j.toNat = i := here ▸ place
      rw [number, Option.some.injEq, eq_comm]
      exact ⟨fun same => ⟨Or.inr rfl, same⟩, And.right⟩
    · next elsewhere =>
      have number : i ≠ j.toNat := fun same => elsewhere (UInt8.toNat.inj (place.trans same))
      rw [collects.entries j f, or_iff_left number]

/-- The group is complete once all fragments were pushed. -/
theorem isComplete_iff (collects : Collects steps source p g) (splits : Splits p.data) :
    g.isComplete = true ↔ ∀ i < (pieces p.data).length, Heard steps ⟨source, p.id⟩ i := by
  have below (j : UInt8) (f : Packet) (found : g.fragments.get? j = some f) :
      j.toNat < g.total.toNat := by
    rw [collects.total]
    exact collects.within j.toNat ((collects.entries j f).mp found).1
  rw [Group.isComplete_iff below, collects.total]
  refine forall_congr' fun i => imp_congr_right fun inside => ?_
  have place : (p.fragment p.transport i).index.toNat = i :=
    Packet.toNat_index_fragment splits inside
  have number : (UInt8.ofNat i).toNat = i := place
  rw [ByteMap.contains, Option.isSome_iff_exists]
  simp only [collects.entries, number, exists_and_left, exists_eq, and_true]

theorem assemble (collects : Collects steps source p g) (splits : Splits p.data)
    (all : ∀ i < (pieces p.data).length, Heard steps ⟨source, p.id⟩ i) :
    Packet.assemble g.fragments.values = .ok { p with index := 0, total := 1 } := by
  have member (i : Nat) (inside : i < (pieces p.data).length) :
      p.fragment p.transport i ∈ g.fragments.values := by
    refine ByteMap.mem_values.mpr
      ⟨(p.fragment p.transport i).index, (collects.entries _ _).mpr ?_⟩
    rw [Packet.toNat_index_fragment splits inside]
    exact ⟨all i inside, rfl⟩
  have several : 0 < (pieces p.data).length := Nat.lt_of_succ_lt splits.count.1
  refine Packet.assemble_fragments splits (List.ne_nil_of_mem (member 0 several)) ?_ ?_
  · intro f inGroup
    obtain ⟨j, found⟩ := ByteMap.mem_values.mp inGroup
    rcases (collects.entries j f).mp found with ⟨heard, rfl⟩
    exact ⟨j.toNat, collects.within _ heard, rfl⟩
  · intro i inside
    exact ⟨_, member i inside, Packet.toNat_index_fragment splits inside⟩

end Collects

/-! ## The packet -/

/-- What the table holds for the fragments of `p` after the steps: nothing before the first of them,
which may open a group at `start`, and the group that collects them later. -/
inductive Awaits (r : Reassembler) (source : Endpoint) (p : Packet) (start : Time) :
    List Step → Prop
  | all (vacant : r.find? ⟨source, p.id⟩ = none)
      (room : (r.makeRoom source start).hasRoom source = true) : Awaits r source p start []
  | others {steps : List Step} {g : Group} (found : r.find? ⟨source, p.id⟩ = some g)
      (opened : g.firstSeen = start) (collects : Collects steps source p g) :
      Awaits r source p start steps

variable {p : Packet} {start : Time} {steps : List Step}

theorem isStale_of_timely (opened : g.firstSeen = start) (timely : now ≤ start + r.timeout) :
    g.isStale r.timeout now = false := by
  rw [Group.isStale, decide_eq_false_iff_not, opened]
  exact Nat.not_lt_of_le (Nat.sub_le_iff_le_add'.mpr timely)

/-- The next fragment joins those that were pushed before. -/
theorem Awaits.push (awaits : r.Awaits source p start steps) (splits : Splits p.data) {i : Nat}
    (timely : now ≤ start + r.timeout) (first : steps = [] → now = start) :
    ∃ (base : Reassembler) (g : Group), g.firstSeen = start ∧ Collects steps source p g ∧
      r.push source (p.fragment p.transport i) now =
        base.accept ⟨source, p.id⟩ g (p.fragment p.transport i) := by
  have several : 1 < (p.fragment p.transport i).total := Packet.one_lt_total_fragment splits
  cases awaits with
  | all vacant room =>
    cases first rfl
    have taken : ¬ r.Drops source (p.fragment p.transport i) now := fun drops =>
      Bool.false_ne_true (drops.2.2.symm.trans room)
    obtain ⟨base, way⟩ := push_eq_accept several taken
    have new : r.joined ⟨source, p.id⟩ (p.fragment p.transport i).total now =
        .fresh (p.fragment p.transport i).total now := by
      rw [joined, current?_of_vacant vacant]
    exact ⟨base, _, rfl, Collects.fresh splits source i now, new ▸ way⟩
  | @others _ g found opened collects =>
    have taken : ¬ r.Drops source (p.fragment p.transport i) now := fun drops =>
      Option.some_ne_none g (found.symm.trans drops.2.1)
    obtain ⟨base, way⟩ := push_eq_accept several taken
    have same : g.total = (p.fragment p.transport i).total := by
      apply UInt8.toNat.inj
      rw [collects.total, Packet.toNat_total_fragment splits]
    have old : r.joined ⟨source, p.id⟩ (p.fragment p.transport i).total now = g := by
      rw [joined, current?_of_find? found (isStale_of_timely opened timely)]
      exact if_pos same
    exact ⟨base, g, opened, collects, old ▸ way⟩

/-- The group that collects the fragments outlasts what is no push of its key. -/
theorem Awaits.foreign (distinct : (r.pending.map (·.1)).Nodup)
    (awaits : r.Awaits source p start steps) (begun : steps ≠ [])
    (timely : step.time ≤ start + r.timeout) (other : step.key? ≠ some ⟨source, p.id⟩) :
    (r.after step).Awaits source p start (steps ++ [step]) := by
  cases awaits with
  | all => exact absurd rfl begun
  | @others _ g found opened collects =>
    refine .others (g := g) ?_ opened (collects.foreign other)
    rcases find?_after_of_foreign distinct other with same | current
    · exact same.trans found
    · exact current.trans (current?_of_find? found (isStale_of_timely opened timely))

/-- As long as a fragment is absent, the group of the others waits. -/
theorem awaits_run {timeout : Span} {before : List Step} (splits : Splits p.data)
    (vacant : ((empty timeout).run before).find? ⟨source, p.id⟩ = none)
    (room : (((empty timeout).run before).makeRoom source start).hasRoom source = true)
    (opens : ∀ step, steps.head? = some step → ∃ f, step = .push source f start ∧ f.id = p.id)
    (timely : ∀ step ∈ steps, step.time ≤ start + timeout)
    (own : ∀ f t, .push source f t ∈ steps → f.id = p.id →
      ∃ i < (pieces p.data).length, f = p.fragment p.transport i)
    (absent : ∃ i < (pieces p.data).length, ¬ Heard steps ⟨source, p.id⟩ i) :
    (((empty timeout).run before).run steps).Awaits source p start steps := by
  induction steps using List.reverseRecOn with
  | nil => exact .all vacant room
  | append_singleton steps step ih =>
    have same : (((empty timeout).run before).run steps).timeout = timeout := by
      rw [timeout_run, timeout_run]
      rfl
    have last : step ∈ steps ++ [step] := List.mem_append_right _ (List.mem_singleton_self step)
    have inTime : step.time ≤ start + (((empty timeout).run before).run steps).timeout := by
      rw [same]
      exact timely step last
    have earlier : (((empty timeout).run before).run steps).Awaits source p start steps := by
      refine ih (fun first head => opens first ?_)
        (fun e member => timely e (List.mem_append_left _ member))
        (fun f t member => own f t (List.mem_append_left _ member)) ?_
      · rw [List.head?_append, head, Option.some_or]
      · obtain ⟨i, inside, silent⟩ := absent
        exact ⟨i, inside, fun ⟨f, t, member, rest⟩ =>
          silent ⟨f, t, List.mem_append_left _ member, rest⟩⟩
    rw [run_concat]
    by_cases mine : step.key? = some ⟨source, p.id⟩
    · cases step with
      | expire now => cases mine
      | push from_ f now =>
        obtain ⟨rfl, sameId⟩ : from_ = source ∧ f.id = p.id := by
          simpa [Step.key?] using mine
        obtain ⟨i, inside, rfl⟩ := own f now last sameId
        have first (none : steps = []) : now = start := by
          obtain ⟨e, here, -⟩ :=
            opens (.push from_ (p.fragment p.transport i) now) (by rw [none]; rfl)
          exact (Step.push.inj here).2.2
        obtain ⟨base, g, opened, collects, way⟩ := earlier.push splits inTime first (i := i)
        have grown := collects.add splits inside now
        have waits : (g.add (p.fragment p.transport i)).isComplete = false := by
          obtain ⟨j, within, silent⟩ := absent
          rw [Bool.eq_false_iff, Ne, grown.isComplete_iff splits]
          exact fun all => silent (all j within)
        refine .others (g := g.add (p.fragment p.transport i)) ?_ opened grown
        show (Reassembler.push _ from_ (p.fragment p.transport i) now).2.find? _ = _
        exact way ▸ find?_accept waits
    · refine earlier.foreign ?_ ?_ inTime mine
      · rw [← run_append]
        exact (bounded_run timeout (before ++ steps)).distinct
      · rintro rfl
        obtain ⟨f, rfl, sameId⟩ := opens step rfl
        exact mine (by rw [Step.key?, sameId])

/-- A split packet comes out with its last fragment. Its first fragment finds no group, after
whatever steps, and may open one. Then its fragments are pushed in any order and as often as one
likes, on the packet's own channel, none of them later than the timeout after the first; meanwhile
other packets may be pushed and stale ones expire, at any times of the same window. As long as one
of the fragments has not been pushed, nothing comes out. With the last of them the packet does, and
its group is gone. -/
theorem run_completes (timeout : Span) (before : List Step) (source : Endpoint) (p : Packet)
    (datagrams : List Bytes) (encoded : p.encode = .ok datagrams) (several : 2 ≤ datagrams.length)
    (start : Time) (vacant : ((empty timeout).run before).find? ⟨source, p.id⟩ = none)
    (room : (((empty timeout).run before).makeRoom source start).hasRoom source = true)
    (window : List Step)
    (opens : ∃ f, window.head? = some (.push source f start) ∧ f.id = p.id)
    (timely : ∀ step ∈ window, step.time ≤ start + timeout)
    (own : ∀ f t, .push source f t ∈ window → f.id = p.id →
      ∃ e, p.Carries e ∧ f = { e with transport := p.transport }) :
    ∀ earlier f t later, window = earlier ++ .push source f t :: later → f.id = p.id →
      (∃ i < datagrams.length, ¬ Heard earlier ⟨source, p.id⟩ i) →
      let r := ((empty timeout).run before).run earlier
      let heard := Heard (earlier ++ [.push source f t]) ⟨source, p.id⟩
      ((∃ i < datagrams.length, ¬ heard i) → (r.push source f t).1 = .ok none) ∧
      ((∀ i < datagrams.length, heard i) →
        (r.push source f t).1 = .ok (some { p with index := 0, total := 1 }) ∧
        (r.push source f t).2.find? ⟨source, p.id⟩ = none) := by
  obtain ⟨splits, count⟩ := Packet.splits_of_encode encoded several
  intro earlier f t later split sameId absent r heard
  rw [count] at absent ⊢
  have among (step : Step) (member : step ∈ earlier ++ [.push source f t]) : step ∈ window := by
    rw [split, ← List.singleton_append, ← List.append_assoc]
    exact List.mem_append_left later member
  have fragment (e : Packet) (s : Time) (member : .push source e s ∈ earlier ++ [.push source f t])
      (sameId : e.id = p.id) : ∃ i < (pieces p.data).length, e = p.fragment p.transport i := by
    obtain ⟨d, carried, rfl⟩ := own e s (among _ member) sameId
    obtain ⟨i, inside, rfl⟩ := (Packet.carries_iff splits).mp carried
    exact ⟨i, inside, rfl⟩
  have awaits : r.Awaits source p start earlier := by
    refine awaits_run splits vacant room (fun step head => ?_)
      (fun step member => timely step (among step (List.mem_append_left _ member)))
      (fun e s member => fragment e s (List.mem_append_left _ member)) absent
    obtain ⟨e, here, sameId⟩ := opens
    rw [split, List.head?_append, head] at here
    exact ⟨e, Option.some.inj here, sameId⟩
  have last : .push source f t ∈ earlier ++ [.push source f t] :=
    List.mem_append_right _ (List.mem_singleton_self _)
  have inTime : t ≤ start + r.timeout := by
    rw [show r.timeout = timeout from (timeout_run _ earlier).trans (timeout_run _ before)]
    exact timely _ (among _ last)
  have first (none : earlier = []) : t = start := by
    obtain ⟨e, here, -⟩ := opens
    rw [split, none] at here
    exact (Step.push.inj (Option.some.inj here)).2.2
  obtain ⟨i, inside, rfl⟩ := fragment f t last sameId
  obtain ⟨base, g, -, collects, way⟩ := awaits.push splits inTime first (i := i)
  have grown := collects.add splits inside t
  have complete := grown.isComplete_iff splits
  refine ⟨fun ⟨j, within, silent⟩ => ?_, fun all => ⟨?_, ?_⟩⟩
  · rw [way, accept, if_neg fun full => silent (complete.mp full j within)]
  · rw [way, accept, if_pos (complete.mpr all), grown.assemble splits all]
    rfl
  · rw [way, find?_accept_self, if_pos (complete.mpr all)]

/-- A packet of two fragments, the one full and the other a single byte. -/
def twofold (b : UInt8) : Packet :=
  .udp 3 (List.replicate 572 b ++ [b])

theorem pieces_twofold (b : UInt8) : pieces (twofold b).data = [List.replicate 572 b, [b]] := by
  have full : ∀ piece ∈ [List.replicate 572 b], piece.length = maxPayload :=
    List.forall_mem_singleton.mpr List.length_replicate
  have cut := pieces_flatten full (List.cons_ne_nil b []) (Nat.le_of_ble_eq_true rfl)
  rwa [List.flatten_append, List.flatten_singleton, List.flatten_singleton] at cut

theorem splits_twofold (b : UInt8) : Splits (twofold b).data := by
  have length : (twofold b).data.length = 573 := by
    rw [twofold, Packet.udp, Packet.unsplit, List.length_append, List.length_replicate]
    rfl
  rw [Splits, length]
  decide

theorem fragment_twofold_zero (b : UInt8) :
    (twofold b).fragment .udp 0 = ⟨3, 0, 2, .udp, List.replicate 572 b⟩ := by
  rw [Packet.fragment, pieces_twofold]
  rfl

theorem fragment_twofold_one (b : UInt8) : (twofold b).fragment .udp 1 = ⟨3, 1, 2, .udp, [b]⟩ := by
  rw [Packet.fragment, pieces_twofold]
  rfl

theorem total_twofold (b : UInt8) (i : Nat) : ((twofold b).fragment .udp i).total = 2 := by
  rw [Packet.fragment, pieces_twofold]
  rfl

theorem carries_twofold {b : UInt8} {f : Packet} :
    (twofold b).Carries f ↔ f = (twofold b).fragment .udp 0 ∨ f = (twofold b).fragment .udp 1 := by
  rw [Packet.carries_iff (splits_twofold b), pieces_twofold]
  constructor
  · rintro ⟨i, inside, rfl⟩
    have inside : i < 2 := inside
    rcases (by omega : i = 0 ∨ i = 1) with rfl | rfl
    · exact Or.inl rfl
    · exact Or.inr rfl
  · rintro (rfl | rfl)
    · exact ⟨0, Nat.zero_lt_two, rfl⟩
    · exact ⟨1, Nat.one_lt_two, rfl⟩

/-- Between the fragments of a packet another one begins, an old one expires, and a fragment comes
twice. -/
theorem run_completes_mingled :
    let source : Endpoint := ⟨"10.0.0.1", 7⟩
    let p := twofold 0
    let before : List Step := [.push source (half 9) 0]
    let earlier : List Step :=
      [.push source (p.fragment .udp 1) (Span.seconds 1), .push source (half 4) (Span.seconds 2),
        .expire (Span.seconds 3), .push source (p.fragment .udp 1) (Span.seconds 3)]
    let window := earlier ++ [.push source (p.fragment .udp 0) (Span.seconds 3)]
    ((empty defaultTimeout).run before).find? ⟨source, p.id⟩ = none ∧
    (((empty defaultTimeout).run before).makeRoom source (Span.seconds 1)).hasRoom source = true ∧
    (∀ step ∈ window, step.time ≤ Span.seconds 1 + defaultTimeout) ∧
    (∀ f t, .push source f t ∈ window → f.id = p.id → p.Carries f) ∧
    ((((empty defaultTimeout).run before).run earlier).push source (p.fragment .udp 0)
      (Span.seconds 3)).1 = .ok (some p) := by
  intro source p before earlier window
  have waiting : (empty defaultTimeout).run before = halves source [9] :=
    run_halves (List.nodup_singleton 9) (Nat.le_add_left 1 3) source
  have vacant : ((empty defaultTimeout).run before).find? ⟨source, p.id⟩ = none := by
    rw [waiting]
    exact find?_halves (by decide) source
  have room : (((empty defaultTimeout).run before).makeRoom source (Span.seconds 1)).hasRoom
      source = true := by
    rw [waiting]
    decide
  have timely : ∀ step ∈ window, step.time ≤ Span.seconds 1 + defaultTimeout := by
    simp [window, earlier, Step.time, Span.seconds, defaultTimeout]
  have carried (f : Packet) (t : Time) (member : .push source f t ∈ window)
      (sameId : f.id = p.id) : p.Carries f := by
    simp only [window, earlier, List.cons_append, List.nil_append, List.mem_cons, Step.push.injEq,
      reduceCtorEq, List.not_mem_nil, or_false, false_or, true_and] at member
    rcases member with ⟨rfl, -⟩ | ⟨rfl, -⟩ | ⟨rfl, -⟩ | ⟨rfl, -⟩
    · exact carries_twofold.mpr (Or.inr rfl)
    · cases sameId
    · exact carries_twofold.mpr (Or.inr rfl)
    · exact carries_twofold.mpr (Or.inl rfl)
  refine ⟨vacant, room, timely, carried, ?_⟩
  obtain ⟨datagrams, encoded⟩ := p.exists_encode_iff.mpr (splits_twofold 0).2
  have count : datagrams.length = 2 := by
    have cut := encoded
    rw [Packet.encode_of_split (splits_twofold 0), pieces_twofold] at cut
    cases cut
    rfl
  refine ((run_completes defaultTimeout before source p datagrams encoded (Nat.le_of_eq count.symm)
    (Span.seconds 1) vacant room window ⟨_, rfl, rfl⟩ timely
    (fun f t member sameId => ⟨f, carried f t member sameId, ?_⟩) earlier _ _ [] rfl rfl ?_).2
    ?_).1
  · rcases carries_twofold.mp (carried f t member sameId) with rfl | rfl <;> rfl
  · refine ⟨0, count ▸ Nat.zero_lt_two, ?_⟩
    rintro ⟨f, t, member, sameId, index⟩
    simp only [earlier, List.mem_cons, Step.push.injEq, reduceCtorEq, List.not_mem_nil, or_false,
      false_or, true_and] at member
    rcases member with ⟨rfl, -⟩ | ⟨rfl, -⟩ | ⟨rfl, -⟩
    · cases index
    · cases sameId
    · cases index
  · intro i inside
    rw [count] at inside
    rcases (by omega : i = 0 ∨ i = 1) with rfl | rfl
    · exact ⟨p.fragment .udp 0, Span.seconds 3, by simp, rfl, rfl⟩
    · exact ⟨p.fragment .udp 1, Span.seconds 3, by simp [earlier], rfl, rfl⟩

end Reassembler

end Deathmatch
