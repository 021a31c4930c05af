import Deathmatch.Proofs.Assembly
import Deathmatch.Reassembler

/-!
# How fragments are grouped

A pushed fragment goes one of two ways: it is dropped, or it is added to a group that its key and
count are offered, one that waits and is not stale or a fresh one (`Reassembler.Offers`). The grown
group is assembled if it is complete and waits otherwise. `Reassembler.push_cases` says so once;
what a push can leave behind (`Reassembler.mem_push`) follows from it.

A group counts the numbers that it has. If they are all below its total, it is complete just when
none of them is absent (`Group.isComplete_iff`), and it is then assembled without fail
(`Group.Sound.assemble`).
-/

namespace Deathmatch

/-! ## Rows without a gap -/

namespace ByteMap

variable {α : Type} {m : ByteMap α}

theorem size_eq_countP (m : ByteMap α) :
    m.size = (List.range 256).countP fun i => m.contains (UInt8.ofNat i) := by
  rw [size, ← List.length_map (f := (·.1)), keys_toList, ← List.countP_eq_length_filter, allKeys,
    List.countP_map]
  rfl

/-- The size of a table whose entries stand at the first `n` places. -/
theorem size_eq_of_below {n : Nat} (small : n ≤ 256)
    (below : ∀ k, m.contains k = true → k.toNat < n) :
    m.size = (List.range n).countP fun i => m.contains (UInt8.ofNat i) := by
  have beyond : ((List.range (256 - n)).map fun i => n + i).countP
      (fun i => m.contains (UInt8.ofNat i)) = 0 := by
    rw [List.countP_eq_zero]
    intro i member there
    obtain ⟨j, inside, rfl⟩ := List.mem_map.mp member
    have place := below _ there
    have bound : n + j < 256 := by
      have := List.mem_range.mp inside
      omega
    rw [UInt8.toNat_ofNat_of_lt' bound] at place
    omega
  rw [size_eq_countP, ← Nat.add_sub_cancel' small, List.range_add, List.countP_append, beyond,
    Nat.add_zero]

/-- Such a table has `n` entries just when every place is taken. -/
theorem le_size_iff {n : Nat} (small : n ≤ 256)
    (below : ∀ k, m.contains k = true → k.toNat < n) :
    n ≤ m.size ↔ ∀ i < n, m.contains (UInt8.ofNat i) = true := by
  rw [size_eq_of_below small below]
  have most := List.countP_le_length (p := fun i => m.contains (UInt8.ofNat i)) (l := List.range n)
  rw [List.length_range] at most
  constructor
  · intro full i inside
    have all := List.countP_eq_length.mp
      ((Nat.le_antisymm most full).trans List.length_range.symm)
    exact all i (List.mem_range.mpr inside)
  · intro all
    have full := List.countP_eq_length.mpr fun i member => all i (List.mem_range.mp member)
    rw [List.length_range] at full
    exact Nat.le_of_eq full.symm

end ByteMap

/-! ## Groups -/

namespace Group

variable {g : Group}

/-- Each fragment of the group stands under its number, and has the group's id and total. -/
structure Sound (g : Group) (id : UInt8) : Prop where
  several : 1 < g.total
  own : ∀ k f, g.fragments.get? k = some f → f.index = k ∧ f.id = id ∧ f.total = g.total

theorem sound_fresh {total : UInt8} (several : 1 < total) (now : Time) (id : UInt8) :
    (fresh total now).Sound id where
  several := several
  own k f found := by
    rw [fresh, ByteMap.get?_empty] at found
    cases found

theorem get?_add (g : Group) (fragment : Packet) (k : UInt8) :
    (g.add fragment).fragments.get? k =
      if fragment.index = k then some fragment else g.fragments.get? k :=
  ByteMap.get?_insert g.fragments fragment.index k fragment

theorem Sound.add {id : UInt8} (sound : g.Sound id) {fragment : Packet} (sameId : fragment.id = id)
    (sameTotal : fragment.total = g.total) : (g.add fragment).Sound id where
  several := sound.several
  own k f found := by
    rw [get?_add] at found
    split at found
    · next here =>
      cases found
      exact ⟨here, sameId, sameTotal⟩
    · exact sound.own k f found

/-- A group whose numbers are below its total is complete just when none is absent. -/
theorem isComplete_iff (below : ∀ k f, g.fragments.get? k = some f → k.toNat < g.total.toNat) :
    g.isComplete = true ↔ ∀ i < g.total.toNat, g.fragments.contains (UInt8.ofNat i) = true := by
  rw [isComplete, decide_eq_true_iff]
  refine ByteMap.le_size_iff (Nat.le_of_lt g.total.toNat_lt) ?_
  intro k there
  obtain ⟨f, found⟩ := Option.isSome_iff_exists.mp there
  exact below k f found

/-- Among the fragments of a sound group, assembly finds what stands under a number. -/
theorem Sound.part?_values {id : UInt8} (sound : g.Sound id) {i : Nat} {f : Packet}
    (found : g.fragments.get? (UInt8.ofNat i) = some f) (small : i < 256) :
    Packet.part? g.fragments.values id i = some f.data := by
  have place : (UInt8.ofNat i).toNat = i := UInt8.toNat_ofNat_of_lt' small
  have accepted : ∃ e ∈ g.fragments.values, e.id = id ∧ e.index.toNat = i := by
    obtain ⟨index, ownId, -⟩ := sound.own _ f found
    exact ⟨f, ByteMap.mem_values.mpr ⟨_, found⟩, ownId, index ▸ place⟩
  obtain ⟨e, first⟩ := Option.isSome_iff_exists.mp
    (List.find?_isSome.mpr (by simpa using accepted) :
      (g.fragments.values.find? fun e => e.id = id ∧ e.index.toNat = i).isSome)
  have holds := List.find?_some first
  simp only [decide_eq_true_eq] at holds
  obtain ⟨k, foundThere⟩ := ByteMap.mem_values.mp (List.mem_of_find?_eq_some first)
  have samePlace : k = UInt8.ofNat i := by
    apply UInt8.toNat.inj
    rw [place, ← holds.2, (sound.own k e foundThere).1]
  rw [samePlace, found] at foundThere
  rw [Packet.part?, first, Option.map_some, Option.some.inj foundThere]

/-- A complete sound group whose numbers are below its total has a fragment under each of them, and
is assembled from these in order. -/
theorem Sound.assemble {id : UInt8} (sound : g.Sound id)
    (below : ∀ k f, g.fragments.get? k = some f → k.toNat < g.total.toNat)
    (complete : g.isComplete = true) :
    ∃ part : Nat → Packet,
      (∀ i < g.total.toNat, g.fragments.get? (UInt8.ofNat i) = some (part i)) ∧
      ∃ channel, Packet.assemble g.fragments.values = .ok
        { id, index := 0, total := 1, transport := channel
          data := ((List.range g.total.toNat).map fun i => (part i).data).flatten } := by
  have present := (isComplete_iff below).mp complete
  have full (i : Nat) (inside : i < g.total.toNat) : g.fragments.get? (UInt8.ofNat i) =
      some ((g.fragments.get? (UInt8.ofNat i)).getD default) := by
    obtain ⟨f, there⟩ := Option.isSome_iff_exists.mp (present i inside)
    rw [there, Option.getD_some]
  have positive : 0 < g.total.toNat := Nat.lt_of_succ_lt (UInt8.lt_iff_toNat_lt.mp sound.several)
  have filled : g.fragments.values ≠ [] :=
    List.ne_nil_of_mem (ByteMap.mem_values.mpr ⟨_, full 0 positive⟩)
  obtain ⟨first, rest, split⟩ := List.exists_cons_of_ne_nil filled
  have member : first ∈ g.fragments.values := split ▸ List.mem_cons_self
  obtain ⟨k, found⟩ := ByteMap.mem_values.mp member
  obtain ⟨-, sameId, sameTotal⟩ := sound.own k first found
  have total : max first.total 1 = g.total := by
    rw [sameTotal, atLeastOne_of_le (UInt8.le_of_lt sound.several)]
  have head : g.fragments.values.head? = some first := by
    rw [split]
    rfl
  refine ⟨_, full, first.transport, ?_⟩
  rw [Packet.assemble_of_parts head _, total, sameId]
  intro i inside
  rw [total] at inside
  rw [sameId]
  exact sound.part?_values (full i inside) (Nat.lt_trans inside g.total.toNat_lt)

end Group

/-! ## What a push does -/

namespace Reassembler

variable {r : Reassembler} {source : Endpoint} {fragment : Packet} {now : Time}

/-- Whether a fragment of `key` out of `total` may be added to `g` at `now`: a group that waits for
just such fragments and is not stale, or one without fragments. -/
def Offers (r : Reassembler) (key : GroupKey) (total : UInt8) (now : Time) (g : Group) : Prop :=
  g = .fresh total now ∨
    (key, g) ∈ r.pending ∧ g.isStale r.timeout now = false ∧ g.total = total

theorem mem_of_find? {key : GroupKey} {g : Group} (found : r.find? key = some g) :
    (key, g) ∈ r.pending := by
  obtain ⟨⟨k, h⟩, first, rfl⟩ := Option.map_eq_some_iff.mp found
  have same : k = key := by simpa using List.find?_some first
  exact same ▸ List.mem_of_find?_eq_some first

theorem offers_renewed {key : GroupKey} {g : Group} (found : (key, g) ∈ r.pending)
    (total : UInt8) (now : Time) : r.Offers key total now (g.renewed r.timeout total now) := by
  unfold Group.renewed
  split
  · exact Or.inl rfl
  · next kept =>
    obtain ⟨young, same⟩ := not_or.mp kept
    exact Or.inr ⟨found, Bool.eq_false_iff.mpr young, not_not.mp same⟩

theorem makeRoom_sublist (r : Reassembler) (source : Endpoint) (now : Time) :
    (r.makeRoom source now).pending.Sublist r.pending := by
  unfold makeRoom
  split
  · exact List.Sublist.refl _
  · exact List.filter_sublist

theorem timeout_makeRoom (r : Reassembler) (source : Endpoint) (now : Time) :
    (r.makeRoom source now).timeout = r.timeout := by
  unfold makeRoom
  split <;> rfl

/-- The first fragment of a key opens a group, if there is room. -/
theorem push_opens (several : 1 < fragment.total)
    (absent : r.find? ⟨source, fragment.id⟩ = none) (room : r.hasRoom source = true) :
    r.push source fragment now =
      r.accept ⟨source, fragment.id⟩ (.fresh fragment.total now) fragment := by
  rw [push, if_neg (UInt8.not_le.mpr several)]
  dsimp only
  rw [absent]
  dsimp only
  rw [makeRoom, if_pos room, if_pos room]

/-- A later one joins the group, if that is not stale and expects as many. -/
theorem push_joins {g : Group} (several : 1 < fragment.total)
    (found : r.find? ⟨source, fragment.id⟩ = some g) (young : g.isStale r.timeout now = false)
    (same : g.total = fragment.total) :
    r.push source fragment now = r.accept ⟨source, fragment.id⟩ g fragment := by
  rw [push, if_neg (UInt8.not_le.mpr several)]
  dsimp only
  rw [found]
  dsimp only
  rw [Group.renewed, if_neg]
  rintro (old | other)
  · rw [young] at old
    cases old
  · exact other same

/-- One that comes too late for its group opens it again. -/
theorem push_renews {g : Group} (several : 1 < fragment.total)
    (found : r.find? ⟨source, fragment.id⟩ = some g) (old : g.isStale r.timeout now = true) :
    r.push source fragment now =
      r.accept ⟨source, fragment.id⟩ (.fresh fragment.total now) fragment := by
  rw [push, if_neg (UInt8.not_le.mpr several)]
  dsimp only
  rw [found]
  dsimp only
  rw [Group.renewed, if_pos (Or.inl old)]

/-- The group waits on if a number is still absent. -/
theorem find?_accept {key : GroupKey} {g : Group}
    (waits : (g.add fragment).isComplete = false) :
    (r.accept key g fragment).2.find? key = some (g.add fragment) := by
  rw [accept, if_neg (Bool.eq_false_iff.mp waits)]
  simp [keep, find?]

/-- A fragment of a split packet is added to a group that it is offered, or dropped. -/
theorem push_cases (r : Reassembler) (source : Endpoint) (now : Time)
    (several : 1 < fragment.total) :
    (∃ (base : Reassembler) (g : Group), base.pending ⊆ r.pending ∧ base.timeout = r.timeout ∧
      r.Offers ⟨source, fragment.id⟩ fragment.total now g ∧
      r.push source fragment now = base.accept ⟨source, fragment.id⟩ g fragment) ∨
    ∃ rest : Reassembler, rest.pending ⊆ r.pending ∧ rest.timeout = r.timeout ∧
      r.push source fragment now = (.ok none, rest) := by
  unfold push
  rw [if_neg (UInt8.not_le.mpr several)]
  dsimp only
  split
  · next g found =>
    exact Or.inl ⟨r, _, List.Subset.refl _, rfl,
      offers_renewed (mem_of_find? found) fragment.total now, rfl⟩
  · split
    · exact Or.inl ⟨_, _, (r.makeRoom_sublist source now).subset, r.timeout_makeRoom source now,
        Or.inl rfl, rfl⟩
    · exact Or.inr ⟨_, (r.makeRoom_sublist source now).subset, r.timeout_makeRoom source now, rfl⟩

theorem mem_accept {base : Reassembler} {key k : GroupKey} {g h : Group}
    (member : (k, h) ∈ (base.accept key g fragment).2.pending) :
    (k, h) ∈ base.pending ∨ k = key ∧ h = g.add fragment ∧ h.isComplete = false := by
  unfold accept at member
  dsimp only at member
  split at member
  · exact Or.inl ((List.mem_filter.mp member).1)
  · next waits =>
    rcases List.mem_cons.mp member with here | there
    · cases here
      exact Or.inr ⟨rfl, rfl, Bool.eq_false_iff.mpr waits⟩
    · exact Or.inl ((List.mem_filter.mp there).1)

/-- A group that waits after a push waited before, or has grown by the fragment and is not complete
yet. -/
theorem mem_push {key : GroupKey} {h : Group}
    (member : (key, h) ∈ (r.push source fragment now).2.pending) :
    (key, h) ∈ r.pending ∨ 1 < fragment.total ∧ key = ⟨source, fragment.id⟩ ∧
      ∃ g, r.Offers key fragment.total now g ∧ h = g.add fragment ∧ h.isComplete = false := by
  by_cases single : fragment.total ≤ 1
  · rw [push, if_pos single] at member
    exact Or.inl member
  · have several : 1 < fragment.total := UInt8.not_le.mp single
    rcases push_cases r source now several with
      ⟨base, g, older, -, offered, way⟩ | ⟨rest, older, -, way⟩
    · rw [way] at member
      rcases mem_accept member with old | ⟨here, grown⟩
      · exact Or.inl (older old)
      · exact Or.inr ⟨several, here, g, here ▸ offered, grown⟩
    · rw [way] at member
      exact Or.inl (older member)

theorem timeout_push (r : Reassembler) (source : Endpoint) (fragment : Packet) (now : Time) :
    (r.push source fragment now).2.timeout = r.timeout := by
  by_cases single : fragment.total ≤ 1
  · rw [push, if_pos single]
  · rcases push_cases r source now (UInt8.not_le.mp single) with
      ⟨base, g, -, same, -, way⟩ | ⟨rest, -, same, way⟩
    · rw [way, accept, ← same]
      split <;> rfl
    · rw [way, same]

/-- What a fragment of a split packet is answered: nothing yet, or what becomes of the group that it
completes. -/
theorem answer_push (r : Reassembler) (source : Endpoint) (now : Time)
    (several : 1 < fragment.total) :
    (r.push source fragment now).1 = .ok none ∨
      ∃ g, r.Offers ⟨source, fragment.id⟩ fragment.total now g ∧
        (g.add fragment).isComplete = true ∧
        (r.push source fragment now).1 =
          (Packet.assemble (g.add fragment).fragments.values).map some := by
  rcases push_cases r source now several with ⟨base, g, -, -, offered, way⟩ | ⟨rest, -, -, way⟩
  · rw [way, accept]
    split
    · next complete => exact Or.inr ⟨g, offered, complete, rfl⟩
    · exact Or.inl rfl
  · exact Or.inl (way ▸ rfl)

end Reassembler

end Deathmatch
