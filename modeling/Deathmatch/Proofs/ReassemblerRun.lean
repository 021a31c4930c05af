import Deathmatch.Proofs.Grouping
import Mathlib.Data.List.Induction

/-!
# Runs of a reassembler

A run is a list of steps: the push of a fragment or an expiry, each at a time of its own. What waits
after a step waited before, or has grown by the fragment just pushed (`Reassembler.mem_after`). So
the groups that wait after a run are `Sound`, whatever was pushed (`Reassembler.sound_run`).
-/

namespace Deathmatch

namespace Reassembler

/-! ## Runs -/

/-- One thing that a reassembler does. -/
inductive Step where
  | push (source : Endpoint) (fragment : Packet) (now : Time)
  | expire (now : Time)

def Step.time : Step → Time
  | .push _ _ now => now
  | .expire now => now

def after (r : Reassembler) : Step → Reassembler
  | .push source fragment now => (r.push source fragment now).2
  | .expire now => r.expire now

/-- The reassembler after the steps, first to last. -/
def run (r : Reassembler) (steps : List Step) : Reassembler :=
  steps.foldl after r

/-- Whether no step is earlier than one before it. -/
def Ordered (steps : List Step) : Prop :=
  steps.Pairwise fun earlier later => earlier.time ≤ later.time

variable {r : Reassembler} {steps : List Step} {step : Step} {key : GroupKey} {g : Group}

theorem run_nil (r : Reassembler) : r.run [] = r := rfl

theorem run_push (r : Reassembler) (source : Endpoint) (fragment : Packet) (now : Time)
    (steps : List Step) : r.run (.push source fragment now :: steps) =
      (r.push source fragment now).2.run steps := rfl

theorem run_concat (r : Reassembler) (steps : List Step) (step : Step) :
    r.run (steps ++ [step]) = (r.run steps).after step :=
  List.foldl_append

theorem timeout_after (r : Reassembler) (step : Step) : (r.after step).timeout = r.timeout := by
  cases step with
  | push source fragment now => exact timeout_push r source fragment now
  | expire now => rfl

theorem timeout_run (r : Reassembler) (steps : List Step) : (r.run steps).timeout = r.timeout := by
  induction steps using List.reverseRecOn with
  | nil => rfl
  | append_singleton steps step ih => rw [run_concat, timeout_after, ih]

/-- A group that waits after a step waited before, or was offered to the fragment just pushed and is
not complete yet. -/
theorem mem_after (member : (key, g) ∈ (r.after step).pending) :
    (key, g) ∈ r.pending ∨ ∃ source fragment now, step = .push source fragment now ∧
      1 < fragment.total ∧ key = ⟨source, fragment.id⟩ ∧
      ∃ base, r.Offers key fragment.total now base ∧ g = base.add fragment ∧
        g.isComplete = false := by
  cases step with
  | push source fragment now =>
    rcases mem_push member with old | ⟨several, here, base, offered, grown⟩
    · exact Or.inl old
    · exact Or.inr ⟨source, fragment, now, rfl, several, here, base, offered, grown⟩
  | expire now => exact Or.inl (List.mem_filter.mp member).1

/-! ## Sound groups -/

theorem Offers.total {total : UInt8} {now : Time} (offered : r.Offers key total now g) :
    g.total = total := by
  rcases offered with rfl | ⟨-, -, same⟩
  · rfl
  · exact same

theorem Offers.sound {total : UInt8} {now : Time} (offered : r.Offers key total now g)
    (several : 1 < total) (waiting : ∀ h, (key, h) ∈ r.pending → h.Sound key.id) :
    g.Sound key.id := by
  rcases offered with rfl | ⟨member, -, -⟩
  · exact Group.sound_fresh several now key.id
  · exact waiting g member

/-- The groups that wait after a run are sound, whatever was pushed. -/
theorem sound_run (timeout : Span) (steps : List Step) :
    ∀ key g, (key, g) ∈ ((empty timeout).run steps).pending → g.Sound key.id := by
  induction steps using List.reverseRecOn with
  | nil => exact fun key g member => nomatch member
  | append_singleton steps step ih =>
    intro key g member
    rw [run_concat] at member
    rcases mem_after member with
      old | ⟨source, fragment, now, -, several, rfl, base, offered, rfl, -⟩
    · exact ih key g old
    · exact (offered.sound several (ih _)).add rfl offered.total.symm

end Reassembler

end Deathmatch
