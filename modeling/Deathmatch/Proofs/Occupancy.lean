import Deathmatch.Proofs.ReassemblerRun
import Mathlib.Data.List.Nodup

/-!
# How much waits for reassembly

The table of waiting groups is bounded: no step makes it outgrow its limits (`Bounded.push`), since
a group is only put in where there is room without it. Nor does it hold anything idle: a group that
waits has begun and is not complete (`UnderWay`).

A fragment without a group opens one, unless the groups that are not stale leave no room
(`push_vacant`). Stale groups are in the way of nobody: they count until room is short, and are
dropped then, before a fragment is. `run_occupancy` puts the limits and the rule together.
-/

namespace Deathmatch

/-! ## How many fragments a group has -/

namespace ByteMap

variable {α : Type}

theorem size_pos {m : ByteMap α} {k : UInt8} {a : α} (found : m.get? k = some a) : 0 < m.size :=
  List.length_pos_of_mem (mem_toList.mpr found)

/-- A table with a single entry. -/
theorem size_insert_empty (k : UInt8) (a : α) : (empty.insert k a).size = 1 := by
  have once : (List.range 256).count k.toNat = 1 :=
    List.count_eq_one_of_mem List.nodup_range (List.mem_range.mpr k.toNat_lt)
  rw [size_eq_countP, ← once, List.count]
  refine List.countP_congr fun i inside => ?_
  have number : (UInt8.ofNat i).toNat = i := UInt8.toNat_ofNat_of_lt' (List.mem_range.mp inside)
  have here : (empty.insert k a).contains (UInt8.ofNat i) = true ↔ k = UInt8.ofNat i := by
    rw [contains, get?_insert, get?_empty]
    split <;> simp [*]
  rw [here, beq_iff_eq, ← UInt8.toNat_inj, number, eq_comm]

end ByteMap

namespace Group

/-- The group has begun and is not complete. -/
structure UnderWay (g : Group) : Prop where
  begun : 1 ≤ g.fragments.size
  waits : g.fragments.size < g.total.toNat

theorem isComplete_eq_false_iff {g : Group} :
    g.isComplete = false ↔ g.fragments.size < g.total.toNat := by
  rw [isComplete, decide_eq_false_iff_not, Nat.not_le]

theorem underWay_add {g : Group} {fragment : Packet}
    (waits : (g.add fragment).isComplete = false) : (g.add fragment).UnderWay where
  begun := ByteMap.size_pos ((g.get?_add fragment fragment.index).trans (if_pos rfl))
  waits := isComplete_eq_false_iff.mp waits

/-- The first fragment of several leaves its group waiting. -/
theorem waits_fresh_add {fragment : Packet} (several : 1 < fragment.total) (now : Time) :
    ((fresh fragment.total now).add fragment).isComplete = false := by
  rw [isComplete_eq_false_iff, add, fresh, ByteMap.size_insert_empty]
  exact UInt8.lt_iff_toNat_lt.mp several

end Group

namespace Reassembler

variable {r r' : Reassembler} {source : Endpoint} {fragment : Packet} {now : Time} {key : GroupKey}
  {g : Group}

/-! ## Room -/

theorem hasRoom_iff :
    r.hasRoom source = true ↔ r.pending.length < maxPending ∧ r.countFrom source < maxPerSource :=
  decide_eq_true_iff

/-- With fewer groups there is no less room. -/
theorem hasRoom_of_sublist (fewer : r'.pending.Sublist r.pending)
    (room : r.hasRoom source = true) : r'.hasRoom source = true := by
  rw [hasRoom_iff] at room ⊢
  exact ⟨Nat.lt_of_le_of_lt fewer.length_le room.1, Nat.lt_of_le_of_lt fewer.countP_le room.2⟩

/-- What the removal of a group leaves is less by every measure that counts the group. -/
theorem countP_remove_lt {p : GroupKey × Group → Bool} (member : (key, g) ∈ r.pending)
    (counted : p (key, g) = true) : (r.remove key).pending.countP p < r.pending.countP p := by
  have rest : ((r.remove key).pending.filter p).Sublist (r.pending.filter p) :=
    List.filter_sublist.filter p
  rw [List.countP_eq_length_filter, List.countP_eq_length_filter]
  refine Nat.lt_of_le_of_ne rest.length_le fun same => ?_
  have still : (key, g) ∈ (r.remove key).pending.filter p := by
    rw [rest.eq_of_length same]
    exact List.mem_filter.mpr ⟨member, counted⟩
  simp [remove] at still

/-! ## Limits -/

/-- No two groups have one key, and neither limit is exceeded. -/
structure Bounded (r : Reassembler) : Prop where
  distinct : (r.pending.map (·.1)).Nodup
  total : r.pending.length ≤ maxPending
  perSource : ∀ source, r.countFrom source ≤ maxPerSource

theorem bounded_empty (timeout : Span) : (empty timeout).Bounded where
  distinct := List.nodup_nil
  total := Nat.zero_le _
  perSource _ := Nat.zero_le _

theorem Bounded.of_sublist (bounded : r.Bounded) (fewer : r'.pending.Sublist r.pending) :
    r'.Bounded where
  distinct := (fewer.map (·.1)).nodup bounded.distinct
  total := Nat.le_trans fewer.length_le bounded.total
  perSource source := Nat.le_trans fewer.countP_le (bounded.perSource source)

/-- Without a group that waits there is room for it. -/
theorem Bounded.hasRoom_remove (bounded : r.Bounded) (member : (key, g) ∈ r.pending) :
    (r.remove key).hasRoom key.source = true := by
  have total : (r.remove key).pending.length < r.pending.length := by
    simpa using countP_remove_lt (p := fun _ => true) member rfl
  have perSource : (r.remove key).countFrom key.source < r.countFrom key.source :=
    countP_remove_lt member (decide_eq_true rfl)
  have limits := And.intro bounded.total (bounded.perSource key.source)
  exact hasRoom_iff.mpr ⟨by omega, by omega⟩

theorem remove_of_find?_none (absent : r.find? key = none) : r.remove key = r := by
  simp only [find?, Option.map_eq_none_iff, List.find?_eq_none] at absent
  rw [remove, List.filter_eq_self.mpr (by simpa using absent)]

theorem countFrom_keep (r : Reassembler) (key : GroupKey) (g : Group) (source : Endpoint) :
    (r.keep key g).countFrom source =
      (r.remove key).countFrom source + if key.source = source then 1 else 0 := by
  simp [countFrom, keep, List.countP_cons]

/-- A group is put in where there is room without it. -/
theorem Bounded.keep (bounded : r.Bounded) (room : (r.remove key).hasRoom key.source = true)
    (g : Group) : (r.keep key g).Bounded := by
  have rest : (r.remove key).Bounded := bounded.of_sublist List.filter_sublist
  have limits := hasRoom_iff.mp room
  refine ⟨List.nodup_cons.mpr ⟨?_, rest.distinct⟩, limits.1, fun source => ?_⟩
  · simp [remove]
  · rw [countFrom_keep]
    split
    · next own => exact own ▸ limits.2
    · exact rest.perSource source

theorem Bounded.accept (bounded : r.Bounded) (room : (r.remove key).hasRoom key.source = true)
    (g : Group) (fragment : Packet) : (r.accept key g fragment).2.Bounded := by
  unfold Reassembler.accept
  dsimp only
  split
  · exact bounded.of_sublist List.filter_sublist
  · exact bounded.keep room _

theorem Bounded.push (bounded : r.Bounded) (source : Endpoint) (fragment : Packet) (now : Time) :
    (r.push source fragment now).2.Bounded := by
  unfold Reassembler.push
  split
  · exact bounded
  · dsimp only
    split
    · next found => exact bounded.accept (bounded.hasRoom_remove (mem_of_find? found)) _ _
    · have roomy := bounded.of_sublist (r.makeRoom_sublist source now)
      split
      · next room => exact roomy.accept (hasRoom_of_sublist List.filter_sublist room) _ _
      · exact roomy

theorem Bounded.after (bounded : r.Bounded) (step : Step) : (r.after step).Bounded := by
  cases step with
  | push source fragment now => exact bounded.push source fragment now
  | expire now => exact bounded.of_sublist List.filter_sublist

theorem bounded_run (timeout : Span) (steps : List Step) : ((empty timeout).run steps).Bounded := by
  induction steps using List.reverseRecOn with
  | nil => exact bounded_empty timeout
  | append_singleton steps step ih =>
    rw [run_concat]
    exact ih.after step

/-- The groups that wait after a run have begun and are not complete. -/
theorem underWay_run (timeout : Span) (steps : List Step) :
    ∀ key g, (key, g) ∈ ((empty timeout).run steps).pending → g.UnderWay := by
  induction steps using List.reverseRecOn with
  | nil => exact fun key g member => nomatch member
  | append_singleton steps step ih =>
    intro key g member
    rw [run_concat] at member
    rcases mem_after member with old | ⟨source, fragment, now, -, -, -, base, -, rfl, waits⟩
    · exact ih key g old
    · exact Group.underWay_add waits

/-! ## Who is turned away -/

/-- A fragment without a group opens one, if the groups that are not stale leave room. Otherwise it
is dropped, and so are the stale groups. -/
theorem push_vacant (several : 1 < fragment.total)
    (absent : r.find? ⟨source, fragment.id⟩ = none) :
    r.push source fragment now =
      if (r.expire now).hasRoom source then
        (r.makeRoom source now).accept ⟨source, fragment.id⟩ (.fresh fragment.total now) fragment
      else (.ok none, r.expire now) := by
  rw [push, if_neg (UInt8.not_le.mpr several)]
  dsimp only
  rw [absent]
  dsimp only
  by_cases room : r.hasRoom source = true
  · have roomy : (r.expire now).hasRoom source = true := hasRoom_of_sublist List.filter_sublist room
    rw [makeRoom, if_pos room, if_pos room, if_pos roomy]
  · rw [makeRoom, if_neg room]

theorem find?_expire (absent : r.find? key = none) : (r.expire now).find? key = none := by
  simp only [find?, Option.map_eq_none_iff, List.find?_eq_none] at absent ⊢
  exact fun e member => absent e (List.mem_filter.mp member).1

/-- How much waits after any steps, at any times. There are never more than 256 groups, nor more
than 4 of one source, no two of them with one key; each has a total of several, at least one
fragment and fewer than the total, and its fragments have its id and its total and stand under their
numbers.

A fragment of several without a group is dropped, that is, has none afterwards either, if and only
if, of the groups that are no older than the timeout, 4 are of its source or there are 256. Then
nothing comes out, and nothing changes but that the older groups are gone. Otherwise it waits. -/
theorem run_occupancy (timeout : Span) (steps : List Step) :
    let r := (empty timeout).run steps
    r.pending.length ≤ 256 ∧
    (∀ source, (r.pending.countP fun e => e.1.source = source) ≤ 4) ∧
    (r.pending.map (·.1)).Nodup ∧
    (∀ key g, (key, g) ∈ r.pending →
      1 < g.total ∧ 1 ≤ g.fragments.size ∧ g.fragments.size < g.total.toNat ∧
      ∀ k f, g.fragments.get? k = some f → f.id = key.id ∧ f.total = g.total ∧ f.index = k) ∧
    ∀ source fragment now, 1 < fragment.total → r.find? ⟨source, fragment.id⟩ = none →
      let young (e : GroupKey × Group) : Bool := now - e.2.firstSeen ≤ timeout
      let full := 4 ≤ (r.pending.countP fun e => e.1.source = source && young e) ∨
        256 ≤ r.pending.countP young
      let dropped := (r.push source fragment now).2.find? ⟨source, fragment.id⟩ = none
      (dropped ↔ full) ∧
      (dropped → r.push source fragment now = (.ok none, ⟨timeout, r.pending.filter young⟩)) ∧
      (¬ dropped → (r.push source fragment now).1 = .ok none ∧
        (r.push source fragment now).2.find? ⟨source, fragment.id⟩ =
          some ⟨fragment.total, now, ByteMap.empty.insert fragment.index fragment⟩) := by
  intro r
  have bounded : r.Bounded := bounded_run timeout steps
  refine ⟨bounded.total, bounded.perSource, bounded.distinct, fun key g member => ?_, ?_⟩
  · have sound := sound_run timeout steps key g member
    have underWay := underWay_run timeout steps key g member
    refine ⟨sound.several, underWay.begun, underWay.waits, fun k f found => ?_⟩
    rcases sound.own k f found with ⟨index, id, total⟩
    exact ⟨id, total, index⟩
  · intro source fragment now several absent young full dropped
    have same : r.timeout = timeout := timeout_run (empty timeout) steps
    have others : r.expire now = ⟨timeout, r.pending.filter young⟩ := by
      rw [expire, same]
      refine congrArg (Reassembler.mk timeout) (List.filter_congr fun e _ => ?_)
      rw [Group.isStale, ← decide_not]
      exact decide_eq_decide.mpr Nat.not_lt
    have room : (r.expire now).hasRoom source = true ↔ ¬ full := by
      rw [hasRoom_iff, others, countFrom, List.countP_filter, ← List.countP_eq_length_filter,
        not_or, Nat.not_le, Nat.not_le]
      exact and_comm
    have push : r.push source fragment now = _ := push_vacant several absent
    by_cases crowded : full
    · rw [if_neg (fun roomy => room.mp roomy crowded)] at push
      have gone : dropped := by
        show (r.push source fragment now).2.find? _ = none
        rw [push]
        exact find?_expire absent
      exact ⟨iff_of_true gone crowded, fun _ => others ▸ push, fun kept => absurd gone kept⟩
    · rw [if_pos (room.mpr crowded)] at push
      have waits := Group.waits_fresh_add several now
      have kept : (r.push source fragment now).2.find? ⟨source, fragment.id⟩ =
          some ((Group.fresh fragment.total now).add fragment) := by
        rw [push]
        exact find?_accept waits
      have stays : ¬ dropped := fun gone => Option.some_ne_none _ (kept.symm.trans gone)
      refine ⟨iff_of_false stays crowded, fun gone => absurd gone stays, fun _ => ⟨?_, kept⟩⟩
      rw [push, Reassembler.accept, if_neg (Bool.eq_false_iff.mp waits)]

/-- The first of two fragments. -/
def half (id : UInt8) : Packet :=
  ⟨id, 0, 2, .udp, [id]⟩

theorem several_half (id : UInt8) : 1 < (half id).total :=
  UInt8.lt_iff_toNat_lt.mpr Nat.one_lt_two

/-- The table in which halves of the packets `ids` wait since the start. -/
def halves (source : Endpoint) (ids : List UInt8) : Reassembler :=
  ⟨defaultTimeout, ids.map fun id => (⟨source, id⟩, (Group.fresh 2 0).add (half id))⟩

theorem find?_halves {ids : List UInt8} {id : UInt8} (other : id ∉ ids) (source : Endpoint) :
    (halves source ids).find? ⟨source, id⟩ = none := by
  simp only [find?, halves, Option.map_eq_none_iff, List.find?_eq_none, List.mem_map]
  rintro _ ⟨waiting, member, rfl⟩
  simpa using ne_of_mem_of_not_mem member other

theorem push_halves {ids : List UInt8} {id : UInt8} (other : id ∉ ids) (few : ids.length < 4)
    (source : Endpoint) :
    ((halves source ids).push source (half id) 0).2 = halves source (id :: ids) := by
  have absent := find?_halves other source
  have own : (halves source ids).countFrom source = ids.length := by
    simp [countFrom, halves, Function.comp_def]
  have all : (halves source ids).pending.length = ids.length := List.length_map _
  have room : (halves source ids).hasRoom source = true := by
    rw [hasRoom_iff, own, all]
    exact ⟨Nat.lt_trans few (by decide), few⟩
  rw [push_opens (several_half id) absent room, accept,
    if_neg (Bool.eq_false_iff.mp (Group.waits_fresh_add (several_half id) 0))]
  exact congrArg (fun rest : Reassembler => Reassembler.mk defaultTimeout (_ :: rest.pending))
    (remove_of_find?_none absent)

theorem run_halves {ids : List UInt8} (distinct : ids.Nodup) (few : ids.length ≤ 4)
    (source : Endpoint) :
    (empty defaultTimeout).run (ids.map fun id => .push source (half id) 0) =
      halves source ids.reverse := by
  induction ids using List.reverseRecOn with
  | nil => rfl
  | append_singleton ids id ih =>
    rw [List.nodup_append] at distinct
    rw [List.length_append, List.length_singleton, Nat.succ_le_iff] at few
    have other : id ∉ ids := fun member =>
      distinct.2.2 id member id (List.mem_singleton_self id) rfl
    rw [List.map_append, List.map_singleton, run_concat, ih distinct.1 (Nat.le_of_lt few),
      List.reverse_append]
    exact push_halves (by rwa [List.mem_reverse]) (by rwa [List.length_reverse]) source

/-- The fifth group of a source has to wait until the others are old. -/
theorem run_occupancy_fifth :
    let source : Endpoint := ⟨"10.0.0.1", 7⟩
    let r := (empty defaultTimeout).run ([0, 1, 2, 3].map fun id => .push source (half id) 0)
    1 < (half 4).total ∧ r.find? ⟨source, 4⟩ = none ∧
    (r.push source (half 4) (Span.seconds 2)).2.find? ⟨source, 4⟩ = none ∧
    (r.push source (half 4) (Span.seconds 3)).2.find? ⟨source, 4⟩ ≠ none := by
  intro source r
  have waiting : r = halves source [3, 2, 1, 0] := run_halves (by decide) (by decide) source
  have absent : r.find? ⟨source, (half 4).id⟩ = none := by
    rw [waiting]
    exact find?_halves (by decide) source
  have rule := (run_occupancy defaultTimeout
    ([0, 1, 2, 3].map fun id => .push source (half id) 0)).2.2.2.2 source (half 4)
  refine ⟨several_half 4, absent, ?_, fun gone => ?_⟩
  · refine (rule (Span.seconds 2) (several_half 4) absent).1.mpr (Or.inl ?_)
    show 4 ≤ r.pending.countP _
    rw [waiting]
    decide
  · have full := (rule (Span.seconds 3) (several_half 4) absent).1.mp gone
    change 4 ≤ r.pending.countP _ ∨ 256 ≤ r.pending.countP _ at full
    rw [waiting] at full
    revert full
    decide

end Reassembler

end Deathmatch
