import Deathmatch.Proofs.WorldRun
import Mathlib.Algebra.GroupWithZero.Nat
import Mathlib.Data.List.DropRight

/-!
# What the history keeps

Snapshots are pushed in the order of their times, so those that are too old stand in front, and
pruning from the front drops all of them (`History.prune_eq_filter`). After any steps the history
keeps the snapshots taken that no pruning has found too old since (`History.snapshots_run`), and
their numbers follow each other (`History.Numbered.run`). As long as there are no more of them than
numbers, no two are the same. `History.run_retention` puts this together.
-/

namespace Deathmatch

/-- If what holds of an entry holds of all in front of it, what is dropped from the front is all it
holds of. -/
theorem dropWhile_eq_filter {α : Type} {p : α → Bool} {as : List α}
    (front : as.Pairwise fun a b => p b = true → p a = true) :
    as.dropWhile p = as.filter fun a => !p a := by
  induction as with
  | nil => rfl
  | cons a as ih =>
    obtain ⟨first, rest⟩ := List.pairwise_cons.mp front
    cases holds : p a with
    | true =>
      rw [List.dropWhile_cons_of_pos holds, ih rest, List.filter_cons_of_neg (by simp [holds])]
    | false =>
      have none : ∀ b ∈ a :: as, (!p b) = true := by
        intro b member
        rcases List.mem_cons.mp member with rfl | later
        · simp [holds]
        · by_contra other
          have dropped : p b = true := by simpa using other
          cases holds.symm.trans (first b later dropped)
      rw [List.dropWhile_cons_of_neg (by simp [holds]), List.filter_eq_self.mpr none]

namespace History

variable {h : History}

/-! ## Steps -/

/-- What happens to a history. -/
inductive Step where
  | push (players : List Player) (entities : List Entity) (now : Time)
  | prune (now : Time)

def Step.time : Step → Time
  | push _ _ now => now
  | prune now => now

/-- The history after one step. -/
def after (h : History) : Step → History
  | .push players entities now => h.push (h.next players entities now)
  | .prune now => h.prune now

/-- The history after the steps, first to last. -/
def run (h : History) (steps : List Step) : History :=
  steps.foldl after h

/-- The times at which steps prune. -/
def prunings : List Step → List Time
  | [] => []
  | .push .. :: rest => prunings rest
  | .prune now :: rest => now :: prunings rest

/-- The snapshots that the steps take, the first of them under `id`, each with the times at which
the history is pruned after it. -/
def taken (id : UInt32) : List Step → List (Snapshot × List Time)
  | [] => []
  | .push players entities now :: rest =>
    (⟨id, now, players, entities⟩, prunings rest) :: taken (id + 1) rest
  | .prune _ :: rest => taken id rest

/-- Whether the snapshot is within the retention at all these times. -/
def outlives (retention : Span) (s : Snapshot) (times : List Time) : Bool :=
  times.all fun now => decide (now.age s.takenAt ≤ retention)

/-- Whether the oldest snapshot stands first. -/
def Sorted (h : History) : Prop :=
  h.snapshots.Pairwise fun s t => s.takenAt ≤ t.takenAt

/-! ## Pruning -/

/-- Pruning drops what is too old, and nothing else. -/
theorem prune_eq_filter (sorted : h.Sorted) (now : Time) : (h.prune now).snapshots =
    h.snapshots.filter fun s => decide (now.age s.takenAt ≤ h.retention) := by
  have front : h.snapshots.Pairwise fun s t =>
      h.isExpired now t = true → h.isExpired now s = true := by
    refine sorted.imp fun {s t} older expired => decide_eq_true ?_
    exact Nat.lt_of_lt_of_le (of_decide_eq_true expired) (Nat.sub_le_sub_left older now)
  rw [prune, dropWhile_eq_filter front]
  refine List.filter_congr fun s _ => ?_
  simp only [isExpired, ← decide_not, Nat.not_lt]

theorem prune_prune (h : History) (now : Time) : (h.prune now).prune now = h.prune now :=
  congrArg (History.mk h.retention h.nextId)
    (List.dropWhile_idempotent (h.isExpired now) h.snapshots)

theorem evicted_prune (h : History) (now : Time) : (h.prune now).evicted now = 0 := by
  rw [evicted, prune_prune, Nat.sub_self]

theorem evicted_eq (sorted : h.Sorted) (now : Time) :
    h.evicted now = h.snapshots.countP fun s => decide (h.retention < now.age s.takenAt) := by
  have parts := List.length_eq_countP_add_countP (l := h.snapshots)
    (fun s => decide (now.age s.takenAt ≤ h.retention))
  simp only [decide_eq_true_eq, Nat.not_le] at parts
  rw [evicted, size, size, prune_eq_filter sorted, ← List.countP_eq_length_filter, parts]
  omega

/-! ## Runs -/

/-- All that was kept is as old as the step at least. -/
def Precedes (h : History) (step : Step) : Prop :=
  ∀ s ∈ h.snapshots, s.takenAt ≤ step.time

theorem Sorted.after (sorted : h.Sorted) {step : Step} (precedes : h.Precedes step) :
    (h.after step).Sorted := by
  cases step with
  | push players entities now =>
    refine List.pairwise_append.mpr ⟨sorted, List.pairwise_singleton _ _, fun s old t new => ?_⟩
    rw [List.mem_singleton.mp new]
    exact precedes s old
  | prune now => exact sorted.sublist (List.dropWhile_sublist _)

theorem Precedes.after {step later : Step} (precedes : h.Precedes step)
    (ordered : step.time ≤ later.time) : (h.after step).Precedes later := by
  intro s member
  cases step with
  | push players entities now =>
    rcases List.mem_append.mp member with old | new
    · exact Nat.le_trans (precedes s old) ordered
    · rw [List.mem_singleton.mp new]
      exact ordered
  | prune now =>
    exact Nat.le_trans (precedes s ((List.dropWhile_sublist _).mem member)) ordered

theorem retention_run (h : History) (steps : List Step) :
    (h.run steps).retention = h.retention := by
  induction steps generalizing h with
  | nil => rfl
  | cons step rest ih =>
    refine (ih (h.after step)).trans ?_
    cases step <;> rfl

/-- Whether the times of the steps never go back. -/
def Ordered (steps : List Step) : Prop :=
  steps.Pairwise fun earlier later => earlier.time ≤ later.time

theorem Sorted.run {steps : List Step} (sorted : h.Sorted) (ordered : Ordered steps)
    (precedes : ∀ step ∈ steps, h.Precedes step) : (h.run steps).Sorted := by
  induction steps generalizing h with
  | nil => exact sorted
  | cons step rest ih =>
    obtain ⟨first, later⟩ := List.pairwise_cons.mp ordered
    have here := precedes step List.mem_cons_self
    exact ih (sorted.after here) later fun next member => here.after (first next member)

/-- After the steps the history keeps what it held and what the steps have taken, as far as no
pruning has found it too old. -/
theorem snapshots_run {steps : List Step} (sorted : h.Sorted) (ordered : Ordered steps)
    (precedes : ∀ step ∈ steps, h.Precedes step) :
    (h.run steps).snapshots =
      (h.snapshots.filter fun s => outlives h.retention s (prunings steps)) ++
      ((taken h.nextId steps).filter fun e => outlives h.retention e.1 e.2).map (·.1) := by
  induction steps generalizing h with
  | nil =>
    have all : h.snapshots.filter (fun s => outlives h.retention s []) = h.snapshots :=
      List.filter_eq_self.mpr fun s _ => rfl
    show h.snapshots = h.snapshots.filter (fun s => outlives h.retention s []) ++ []
    rw [all, List.append_nil]
  | cons step rest ih =>
    obtain ⟨first, later⟩ := List.pairwise_cons.mp ordered
    have here := precedes step List.mem_cons_self
    have onward := ih (sorted.after here) later fun next member => here.after (first next member)
    show ((h.after step).run rest).snapshots = _
    rw [onward]
    cases step with
    | push players entities now =>
      simp only [after, push, next, prunings, taken, List.filter_append, List.filter_cons,
        List.filter_nil, List.append_assoc]
      split <;> rfl
    | prune now =>
      have both : ((h.prune now).snapshots.filter fun s => outlives h.retention s (prunings rest)) =
          h.snapshots.filter fun s => outlives h.retention s (now :: prunings rest) := by
        rw [prune_eq_filter sorted, List.filter_filter]
        refine List.filter_congr fun s _ => ?_
        rw [outlives, outlives, List.all_cons, Bool.and_comm]
      exact congrArg (· ++ _) both

/-! ## Numbers -/

/-- Whether the numbers of what is kept follow each other, up to the one that comes next. -/
def Numbered (h : History) : Prop :=
  ∃ oldest : UInt32,
    h.snapshots.map (·.id) = (List.range h.size).map (fun i => oldest + UInt32.ofNat i) ∧
      h.nextId = oldest + UInt32.ofNat h.size

theorem numbered_empty (retention : Span) (first : UInt32) :
    Numbered { History.empty retention with nextId := first } :=
  ⟨first, rfl, (UInt32.add_zero first).symm⟩

theorem Numbered.after (numbered : h.Numbered) (step : Step) : (h.after step).Numbered := by
  obtain ⟨oldest, ids, upTo⟩ := numbered
  cases step with
  | push players entities now =>
    have more : (h.push (h.next players entities now)).size = h.size + 1 := List.length_append
    refine ⟨oldest, ?_, ?_⟩
    · show (h.snapshots ++ [h.next players entities now]).map (·.id) = _
      rw [List.map_append, ids, History.after, more, List.range_succ, List.map_append]
      exact congrArg (_ ++ [·]) upTo
    · show h.nextId + 1 = _
      rw [upTo, History.after, more, UInt32.ofNat_add, ← UInt32.add_assoc]
      rfl
  | prune now =>
    -- What is left is the end of what there was.
    obtain ⟨dropped, whole⟩ := List.dropWhile_suffix (h.isExpired now) (l := h.snapshots)
    have total : h.size = dropped.length + (h.prune now).size := by
      rw [size, ← whole, List.length_append]
      rfl
    have split : dropped.map (·.id) ++ (h.prune now).snapshots.map (·.id) =
        (List.range dropped.length).map (fun i => oldest + UInt32.ofNat i) ++
          (List.range (h.prune now).size).map fun i =>
            oldest + UInt32.ofNat dropped.length + UInt32.ofNat i := by
      rw [← List.map_append]
      show (dropped ++ h.snapshots.dropWhile (h.isExpired now)).map (·.id) = _
      rw [whole, ids, total, List.range_add, List.map_append, List.map_map]
      simp only [Function.comp_def, UInt32.ofNat_add, UInt32.add_assoc]
    refine ⟨oldest + UInt32.ofNat dropped.length, ?_, ?_⟩
    · exact (List.append_inj split (by simp)).2
    · show h.nextId = _
      rw [upTo, total, UInt32.ofNat_add, ← UInt32.add_assoc]
      rfl

theorem Numbered.run (numbered : h.Numbered) (steps : List Step) : (h.run steps).Numbered := by
  induction steps generalizing h with
  | nil => exact numbered
  | cons step rest ih => exact ih (numbered.after step)

/-- There are 2^32 numbers, so as many snapshots have numbers of their own. -/
theorem Numbered.nodup (numbered : h.Numbered) (few : h.size ≤ UInt32.size) :
    (h.snapshots.map (·.id)).Nodup := by
  obtain ⟨oldest, ids, -⟩ := numbered
  rw [ids]
  refine List.Nodup.map_on (fun i inside j insideToo same => ?_) List.nodup_range
  have values := congrArg UInt32.toNat (UInt32.add_right_inj oldest |>.mp same)
  rwa [UInt32.toNat_ofNat_of_lt' (Nat.lt_of_lt_of_le (List.mem_range.mp inside) few),
    UInt32.toNat_ofNat_of_lt' (Nat.lt_of_lt_of_le (List.mem_range.mp insideToo) few)] at values

theorem contains_eq_isSome (h : History) (id : UInt32) :
    h.contains id = (h.find? id).isSome := by
  cases found : h.find? id with
  | none => exact find?_eq_none_iff.mp found
  | some s => exact contains_iff.mpr ⟨s, mem_of_find? found⟩

/-- If numbers differ, a number finds the snapshot that has it. -/
theorem find?_eq_some_iff (distinct : (h.snapshots.map (·.id)).Nodup) {id : UInt32}
    {s : Snapshot} : h.find? id = some s ↔ s ∈ h.snapshots ∧ s.id = id := by
  refine ⟨mem_of_find?, fun ⟨member, same⟩ => ?_⟩
  obtain ⟨t, found⟩ := exists_find? (contains_iff.mpr ⟨s, member, same⟩)
  obtain ⟨memberToo, sameToo⟩ := mem_of_find? found
  rw [found, List.inj_on_of_nodup_map distinct memberToo member (sameToo.trans same.symm)]

/-- What a history keeps after any steps whose times do not go back, whatever number comes first.
It is what the steps have taken and no pruning has found too old since, oldest first, under numbers
that follow each other modulo 2^32. Pruning drops just what is too old and counts it, and a second
time nothing. Unless there are more snapshots than numbers, the numbers differ, and a number finds
the one snapshot that has it. -/
theorem run_retention (retention : Span) (first : UInt32) (steps : List Step)
    (ordered : Ordered steps) :
    let start : History := { History.empty retention with nextId := first }
    let h := start.run steps
    h.snapshots = ((taken first steps).filter fun e =>
      e.2.all fun now => now.age e.1.takenAt ≤ retention).map (·.1) ∧
    (∃ oldest : UInt32,
      h.snapshots.map (·.id) = (List.range h.size).map (fun i => oldest + UInt32.ofNat i) ∧
        h.nextId = oldest + UInt32.ofNat h.size) ∧
    (∀ now,
      (h.prune now).snapshots = h.snapshots.filter (fun s => now.age s.takenAt ≤ retention) ∧
      h.evicted now = h.snapshots.countP (fun s => retention < now.age s.takenAt) ∧
      (h.prune now).prune now = h.prune now ∧ (h.prune now).evicted now = 0) ∧
    (∀ id, h.contains id = (h.find? id).isSome) ∧
    (h.size ≤ 2 ^ 32 → (h.snapshots.map (·.id)).Nodup ∧
      ∀ id s, h.find? id = some s ↔ s ∈ h.snapshots ∧ s.id = id) := by
  intro start h
  have nothing : ∀ step ∈ steps, start.Precedes step := fun _ _ _ member => nomatch member
  have sorted : h.Sorted := Sorted.run List.Pairwise.nil ordered nothing
  have numbered : h.Numbered := (numbered_empty retention first).run steps
  have kept : h.retention = retention := start.retention_run steps
  refine ⟨?_, numbered, fun now => ⟨?_, ?_, h.prune_prune now, h.evicted_prune now⟩,
    h.contains_eq_isSome, fun few => ⟨numbered.nodup few, fun id s => ?_⟩⟩
  · exact snapshots_run List.Pairwise.nil ordered nothing
  · rw [prune_eq_filter sorted, kept]
  · rw [evicted_eq sorted, kept]
  · exact find?_eq_some_iff (numbered.nodup few)

/-- Three snapshots about the last number, of which the first is too old when the history is
pruned. -/
theorem run_retention_wrapped :
    let steps : List Step := [.push [] [] 0, .push [] [] (Span.seconds 6),
      .push [] [] (Span.seconds 7), .prune (Span.seconds 11)]
    let start : History := { History.empty defaultRetention with nextId := 4294967294 }
    let h := start.run steps
    let older : Snapshot := ⟨4294967295, Span.seconds 6, [], []⟩
    let newer : Snapshot := ⟨0, Span.seconds 7, [], []⟩
    Ordered steps ∧ h.snapshots = [older, newer] ∧ h.size ≤ 2 ^ 32 ∧
      (h.snapshots.map (·.id)).Nodup ∧ h.find? 0 = some newer := by
  intro steps start h older newer
  have ordered : Ordered steps := by
    simp [steps, Ordered, Step.time, Span.seconds]
  obtain ⟨kept, -, -, -, lookup⟩ := run_retention defaultRetention 4294967294 steps ordered
  have both : h.snapshots = [older, newer] := kept
  have few : h.size ≤ 2 ^ 32 := by
    rw [size, both]
    decide
  obtain ⟨distinct, found⟩ := lookup few
  refine ⟨ordered, both, few, distinct, (found 0 newer).mpr ⟨?_, rfl⟩⟩
  exact both ▸ List.mem_cons_of_mem older List.mem_cons_self

end History

end Deathmatch
