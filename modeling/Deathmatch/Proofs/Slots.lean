import Deathmatch.Proofs.Grouping
import Deathmatch.Proofs.Roster

/-!
# Slots

A table of sessions gives out the least slot that is free (`SessionTable.freeSlot?_eq_some_iff`), as
long as there is one (`SessionTable.freeSlot?_eq_none_iff`). Sessions stand under their slots, below
the capacity of the table, whatever happens to it (`SessionTable.Placed`). So a table is full just
when it has as many sessions as its capacity (`SessionTable.Placed.full_iff`), and a slot that has
been given out is not given out again before it is free (`SessionTable.run_slots`).
-/

namespace Deathmatch

namespace SessionTable

variable {t t' : SessionTable} {slot : UInt8} {x : Session}

/-! ## The least free slot -/

theorem contains_iff : t.sessions.contains slot = true ↔ ∃ x, t.get? slot = some x :=
  Option.isSome_iff_exists

/-- The slot that is given out next: no byte below it is free. -/
theorem freeSlot?_eq_some_iff : t.freeSlot? = some slot ↔
    slot.toNat < t.capacity ∧ t.get? slot = none ∧
      ∀ i < slot.toNat, ∃ x, t.get? (UInt8.ofNat i) = some x := by
  rw [freeSlot?, List.find?_map, Option.map_eq_some_iff]
  constructor
  · rintro ⟨n, found, rfl⟩
    obtain ⟨free, inside, taken⟩ := List.find?_range_eq_some.mp found
    have occupied (i : Nat) (earlier : i < n) :
        t.sessions.contains (UInt8.ofNat i) = true := by
      simpa using taken i earlier
    have vacant : t.sessions.contains (UInt8.ofNat n) = false := by simpa using free
    -- a number too large for a byte would stand behind the one with the same byte
    have small : n < maxSlots := by
      by_contra large
      have same : UInt8.ofNat (n % maxSlots) = UInt8.ofNat n := UInt8.ofNat_mod_size
      have earlier : n % maxSlots < n :=
        Nat.lt_of_lt_of_le (Nat.mod_lt n (by decide)) (Nat.le_of_not_lt large)
      cases vacant.symm.trans (same ▸ occupied _ earlier)
    rw [UInt8.toNat_ofNat_of_lt' small]
    refine ⟨List.mem_range.mp inside, ?_, fun i earlier => contains_iff.mp (occupied i earlier)⟩
    simpa [ByteMap.contains, get?] using vacant
  · rintro ⟨below, free, taken⟩
    refine ⟨slot.toNat, List.find?_range_eq_some.mpr
      ⟨?_, List.mem_range.mpr below, fun i least => ?_⟩, UInt8.ofNat_toNat⟩
    · rw [Function.comp_apply, UInt8.ofNat_toNat, ByteMap.contains, ← get?, free]
      rfl
    · rw [Function.comp_apply, Bool.not_not]
      exact contains_iff.mpr (taken i least)

theorem freeSlot?_eq_none_iff : t.freeSlot? = none ↔
    ∀ i < t.capacity, t.sessions.contains (UInt8.ofNat i) = true := by
  rw [freeSlot?, List.find?_map, Option.map_eq_none_iff, List.find?_range_eq_none]
  simp

/-! ## What happens to a table -/

/-- What can happen to a table: a session comes, goes, or logs in. -/
inductive Visit where
  | allocate (address : Address) (connection : Nat)
  | remove (slot : UInt8)
  | authenticate (slot : UInt8) (account name : String)

/-- The table after that. One that has no free slot stays as it is. -/
def after (t : SessionTable) : Visit → SessionTable
  | .allocate address connection => (t.allocate address connection).elim t (·.2)
  | .remove slot => t.remove slot
  | .authenticate slot account name => t.authenticate slot account name

/-- The table after all of it, first to last. -/
def run (t : SessionTable) (visits : List Visit) : SessionTable :=
  visits.foldl after t

/-- Whether every session stands under its slot, and below the capacity `c` of the table. -/
structure Placed (t : SessionTable) (c : Nat) : Prop where
  capacity : t.capacity = c
  indexed : t.Indexed
  below : ∀ k x, t.get? k = some x → k.toNat < c

theorem placed_empty (capacity : Nat) :
    (SessionTable.empty capacity).Placed (min capacity maxSlots) where
  capacity := rfl
  indexed := indexed_empty capacity
  below k x found := by
    rw [get?_empty] at found
    cases found

theorem Placed.after {c : Nat} (placed : t.Placed c) (visit : Visit) :
    (t.after visit).Placed c := by
  cases visit with
  | allocate address connection =>
    rw [SessionTable.after]
    cases allocated : t.allocate address connection with
    | none => exact placed
    | some result =>
      obtain ⟨slot, t'⟩ := result
      obtain ⟨free, found, same⟩ := Option.map_eq_some_iff.mp allocated
      cases same
      refine ⟨placed.capacity, placed.indexed.allocate allocated, fun k x there => ?_⟩
      rw [Option.elim_some, (allocate_cases allocated).2] at there
      split at there
      · next here =>
        rw [← here, ← placed.capacity]
        exact (freeSlot?_eq_some_iff.mp found).1
      · exact placed.below k x there
  | remove slot =>
    refine ⟨placed.capacity, placed.indexed.remove slot, fun k x there => ?_⟩
    rw [SessionTable.after, get?_remove] at there
    split at there
    · cases there
    · exact placed.below k x there
  | authenticate slot account name =>
    have earlier (k : UInt8) (x : Session)
        (there : (t.authenticate slot account name).get? k = some x) :
        ∃ y, t.get? k = some y ∧ x.slot = y.slot := by
      rw [get?_authenticate] at there
      split at there
      · next here =>
        obtain ⟨y, current, rfl⟩ := Option.map_eq_some_iff.mp there
        exact ⟨y, here ▸ current, rfl⟩
      · exact ⟨x, there, rfl⟩
    refine ⟨placed.capacity, fun k x there => ?_, fun k x there => ?_⟩
    · obtain ⟨y, current, same⟩ := earlier k x there
      exact same.trans (placed.indexed k y current)
    · obtain ⟨y, current, -⟩ := earlier k x there
      exact placed.below k y current

theorem Placed.run {c : Nat} (placed : t.Placed c) (visits : List Visit) :
    (t.run visits).Placed c := by
  induction visits generalizing t with
  | nil => exact placed
  | cons visit rest ih => exact ih (placed.after visit)

/-- There is no free slot just when there are as many sessions as the capacity allows. -/
theorem Placed.full_iff {c : Nat} (placed : t.Placed c) (small : c ≤ maxSlots) :
    t.freeSlot? = none ↔ t.size = c := by
  have below : ∀ k, t.sessions.contains k = true → k.toNat < c := fun k there => by
    obtain ⟨x, found⟩ := contains_iff.mp there
    exact placed.below k x found
  have most : t.size ≤ c := by
    rw [size, ByteMap.size_eq_of_below small below]
    exact List.countP_le_length.trans (Nat.le_of_eq List.length_range)
  rw [freeSlot?_eq_none_iff, placed.capacity, ← ByteMap.le_size_iff small below]
  exact ⟨fun full => Nat.le_antisymm most full, Nat.le_of_eq ∘ Eq.symm⟩

theorem Placed.allocate_eq_none_iff {c : Nat} (placed : t.Placed c) (small : c ≤ maxSlots)
    {address : Address} {connection : Nat} :
    t.allocate address connection = none ↔ t.size = c :=
  Option.map_eq_none_iff.trans (placed.full_iff small)

/-! ## Slots that are taken -/

/-- A slot that is taken stays so until it is vacated. -/
theorem taken_after (taken : ∃ x, t.get? slot = some x) {visit : Visit}
    (stays : visit ≠ .remove slot) : ∃ x, (t.after visit).get? slot = some x := by
  obtain ⟨x, found⟩ := taken
  cases visit with
  | allocate address connection =>
    rw [after]
    cases allocated : t.allocate address connection with
    | none => exact ⟨x, found⟩
    | some result =>
      rw [Option.elim_some, (allocate_cases allocated).2]
      split
      · exact ⟨_, rfl⟩
      · exact ⟨x, found⟩
  | remove k =>
    have other : k ≠ slot := fun same => stays (congrArg Visit.remove same)
    exact ⟨x, (get?_remove t k slot).trans ((if_neg other).trans found)⟩
  | authenticate k account name =>
    rw [after, get?_authenticate]
    split
    · next here =>
      rw [here, found]
      exact ⟨_, rfl⟩
    · exact ⟨x, found⟩

theorem taken_run (taken : ∃ x, t.get? slot = some x) {visits : List Visit}
    (stays : .remove slot ∉ visits) : ∃ x, (t.run visits).get? slot = some x := by
  induction visits generalizing t with
  | nil => exact taken
  | cons visit rest ih =>
    obtain ⟨here, later⟩ := not_or.mp (stays ∘ List.mem_cons.mpr)
    exact ih (taken_after taken (Ne.symm here)) later

/-- Between being given out and being given out again a slot is vacated. -/
theorem remove_mem_of_given_twice {t₁ t₂ : SessionTable} {address address' : Address}
    {connection connection' : Nat} {visits : List Visit}
    (given : t.allocate address connection = some (slot, t₁))
    (again : (t₁.run visits).allocate address' connection' = some (slot, t₂)) :
    .remove slot ∈ visits := by
  by_contra stays
  have taken : ∃ x, t₁.get? slot = some x :=
    ⟨_, ((allocate_cases given).2 slot).trans (if_pos rfl)⟩
  obtain ⟨x, found⟩ := taken_run taken stays
  cases (allocate_cases again).1.symm.trans found

/-- What holds of a table of any capacity after any visits. It counts its slots up to the capacity
and up to 256, and a byte holds each of these numbers uncut. Sessions stand under their slots, below
that bound. A new session gets the least slot that is free, as its only change; with as many
sessions as the capacity allows, and only then, the server is full and nothing changes. The end of a
session frees its slot and no other, and a slot that has been given out is not given out again
unless it has been freed. -/
theorem run_slots (capacity : Nat) (visits : List Visit) :
    let c := min capacity 256
    let start := SessionTable.empty capacity
    let t := start.run visits
    (t.capacity = c ∧ ∀ n < t.capacity, (UInt8.ofNat n).toNat = n) ∧
    (∀ k x, t.get? k = some x → k.toNat < c ∧ x.slot = k) ∧
    (∀ address connection slot t', t.allocate address connection = some (slot, t') →
      t.after (.allocate address connection) = t' ∧
      slot.toNat < c ∧ t.get? slot = none ∧
      (∀ n < slot.toNat, ∃ x, t.get? (UInt8.ofNat n) = some x) ∧
      ∀ k, t'.get? k = if k = slot then some
        { slot, address, account := "", name := "", initialized := false, connection }
        else t.get? k) ∧
    (∀ address connection, (t.allocate address connection = none ↔ t.size = c) ∧
      (t.size = c → t.after (.allocate address connection) = t)) ∧
    (∀ s : Server, s.sessions = t → ∀ address queue,
      s.openSession address queue = .error .serverFull ↔ t.size = c) ∧
    (∀ slot k, (t.after (.remove slot)).get? k = if k = slot then none else t.get? k) ∧
    ∀ before later slot address connection address' connection',
      visits = before ++ .allocate address connection :: later →
      ((start.run before).allocate address connection).map (·.1) = some slot →
      (t.allocate address' connection').map (·.1) = some slot → .remove slot ∈ later := by
  intro c start t
  have small : c ≤ maxSlots := Nat.min_le_right capacity 256
  have placed : t.Placed c := (placed_empty capacity).run visits
  have full (address : Address) (connection : Nat) :
      t.allocate address connection = none ↔ t.size = c := placed.allocate_eq_none_iff small
  refine ⟨⟨placed.capacity, fun n inside => ?_⟩,
    fun k x found => ⟨placed.below k x found, placed.indexed k x found⟩, ?_, ?_, ?_, ?_, ?_⟩
  · rw [placed.capacity] at inside
    exact UInt8.toNat_ofNat_of_lt' (Nat.lt_of_lt_of_le inside small)
  · intro address connection slot t' allocated
    obtain ⟨free, entries⟩ := allocate_cases allocated
    obtain ⟨lowest, found, same⟩ := Option.map_eq_some_iff.mp allocated
    cases same
    obtain ⟨below, -, taken⟩ := freeSlot?_eq_some_iff.mp found
    refine ⟨?_, placed.capacity ▸ below, free, taken, fun k => ?_⟩
    · rw [after, allocated, Option.elim_some]
    · rw [entries]
      simp only [eq_comm (a := k), Session.stub]
  · refine fun address connection => ⟨full address connection, fun many => ?_⟩
    rw [after, (full address connection).mpr many, Option.elim_none]
  · intro s same address queue
    rw [← full address s.outlets.nextConnection, Server.openSession, same]
    cases t.allocate address s.outlets.nextConnection <;> simp
  · intro slot k
    rw [after, get?_remove]
    simp only [eq_comm (a := k)]
  · intro before later slot address connection address' connection' split first second
    obtain ⟨⟨slot, t₁⟩, allocated, rfl⟩ := Option.map_eq_some_iff.mp first
    obtain ⟨⟨again, t₂⟩, allocatedAgain, same⟩ := Option.map_eq_some_iff.mp second
    cases same
    have ended : t = t₁.run later := by
      show start.run visits = _
      rw [split, run, List.foldl_append, List.foldl_cons]
      show run ((start.run before).after _) later = _
      rw [after, allocated, Option.elim_some]
    exact remove_mem_of_given_twice allocated (ended ▸ allocatedAgain)

end SessionTable

end Deathmatch
