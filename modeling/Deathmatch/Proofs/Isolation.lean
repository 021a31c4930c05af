import Deathmatch.Proofs.Completion

/-!
# Keys do not see each other

A group that has become stale goes in one of three ways: by an expiry, when room is made for a
fragment of some source, or when the next fragment of its own key comes. Nobody can tell which.
Two tables serve a key alike from a time on if the same group of it counts in both at every later
time (`Alike`). Steps of other keys keep a table like itself (`alike_after`), and the pushes of the
key get the same answers from two such tables and leave them alike (`Alike.push`).

So the answers that a key gets along a run are those that it gets alone (`answers_alone`).
-/

namespace Deathmatch

theorem Group.isStale_mono {g : Group} {timeout : Span} {now later : Time} (since : now ≤ later)
    (old : g.isStale timeout now = true) : g.isStale timeout later = true := by
  rw [isStale, decide_eq_true_iff] at old ⊢
  exact Nat.lt_of_lt_of_le old (Nat.sub_le_sub_right since g.firstSeen)

namespace Reassembler

variable {r s : Reassembler} {key : GroupKey} {g : Group} {source : Endpoint} {fragment : Packet}
  {now later : Time} {step : Step}

/-! ## Answers -/

/-- What a step answers to a key: the answer to its push. -/
def answer? (r : Reassembler) (key : GroupKey) :
    Step → Option (Except PacketFault (Option Packet))
  | .push source fragment now =>
    if (⟨source, fragment.id⟩ : GroupKey) = key then some (r.push source fragment now).1 else none
  | .expire _ => none

/-- The answers to the pushes of a key among the steps, in order. -/
def answers (r : Reassembler) (key : GroupKey) :
    List Step → List (Except PacketFault (Option Packet))
  | [] => []
  | step :: rest => (r.answer? key step).toList ++ (r.after step).answers key rest

theorem answer?_of_foreign (foreign : step.key? ≠ some key) : r.answer? key step = none := by
  cases step with
  | expire now => rfl
  | push source fragment now => exact if_neg fun same => foreign (congrArg some same)

theorem answer?_own (own : fragment.id = key.id) :
    r.answer? key (.push key.source fragment now) =
      some (r.push key.source fragment now).1 := by
  rw [answer?, own]
  exact if_pos rfl

/-! ## Tables that serve a key alike -/

/-- From `since` on the same group of the key counts in both tables. -/
structure Alike (key : GroupKey) (since : Time) (r s : Reassembler) : Prop where
  timeout : r.timeout = s.timeout
  current : ∀ now, since ≤ now → r.current? key now = s.current? key now

theorem Alike.trans {since : Time} {t : Reassembler} (first : Alike key since r s)
    (second : Alike key since s t) : Alike key since r t where
  timeout := first.timeout.trans second.timeout
  current now later := (first.current now later).trans (second.current now later)

theorem Alike.mono {since : Time} (alike : Alike key since r s) (later : since ≤ now) :
    Alike key now r s where
  timeout := alike.timeout
  current _ after := alike.current _ (Nat.le_trans later after)

/-- What counts later is among what counts now. -/
theorem filter_current? (r : Reassembler) (key : GroupKey) (since : now ≤ later) :
    (r.current? key now).filter (fun g => !g.isStale r.timeout later) = r.current? key later := by
  rw [current?, current?, Option.filter_filter]
  congr 1
  funext g
  cases old : g.isStale r.timeout now with
  | false => simp
  | true => simp [Group.isStale_mono since old]

/-- A step of another key, or an expiry, changes nothing for a key. -/
theorem alike_after (distinct : (r.pending.map (·.1)).Nodup) (foreign : step.key? ≠ some key) :
    Alike key step.time (r.after step) r where
  timeout := timeout_after r step
  current now later := by
    rcases find?_after_of_foreign distinct foreign with same | current
    · rw [current?, current?, same, timeout_after]
    · rw [current?, current, timeout_after, filter_current? r key later]

/-- The answers to a push of the key are the same, and so is what counts afterwards. -/
theorem Alike.push {since : Time} (alike : Alike key since r s) (own : fragment.id = key.id)
    (later : since ≤ now) (takenLeft : ¬ r.Drops key.source fragment now)
    (takenRight : ¬ s.Drops key.source fragment now) :
    (r.push key.source fragment now).1 = (s.push key.source fragment now).1 ∧
      Alike key now (r.push key.source fragment now).2 (s.push key.source fragment now).2 := by
  by_cases single : fragment.total ≤ 1
  · rw [Reassembler.push, if_pos single, Reassembler.push, if_pos single]
    exact ⟨rfl, alike.mono later⟩
  · have several : 1 < fragment.total := UInt8.not_le.mp single
    have here : (⟨key.source, fragment.id⟩ : GroupKey) = key := by rw [own]
    obtain ⟨left, wayLeft⟩ := push_eq_accept several takenLeft
    obtain ⟨right, wayRight⟩ := push_eq_accept several takenRight
    rw [here] at wayLeft wayRight
    have same : s.joined key fragment.total now = r.joined key fragment.total now := by
      rw [joined, joined, alike.current now later]
    rw [same] at wayRight
    refine ⟨?_, ?_, fun after _ => ?_⟩
    · rw [wayLeft, wayRight, accept, accept]
      split <;> rfl
    · rw [timeout_push, timeout_push, alike.timeout]
    · rw [current?, current?, timeout_push, timeout_push, alike.timeout, wayLeft, wayRight,
        find?_accept_self, find?_accept_self]

/-! ## One key alone -/

/-- Whether all groups are of one key. -/
def Alone (s : Reassembler) (key : GroupKey) : Prop :=
  ∀ e ∈ s.pending, e.1 = key

theorem Alone.push (alone : s.Alone key) (own : fragment.id = key.id) (now : Time) :
    (s.push key.source fragment now).2.Alone key := by
  rintro ⟨k, g⟩ member
  rcases mem_push member with old | ⟨-, rfl, -⟩
  · exact alone _ old
  · rw [own]

/-- Alone, a key always has room. -/
theorem Alone.not_drops (alone : s.Alone key) (own : fragment.id = key.id) :
    ¬ s.Drops key.source fragment now := by
  rintro ⟨-, vacant, full⟩
  have nothing : s.pending = [] := by
    refine List.eq_nil_iff_forall_not_mem.mpr fun e member => ?_
    simp only [find?, Option.map_eq_none_iff, List.find?_eq_none] at vacant
    refine vacant e member (decide_eq_true ?_)
    rw [alone e member, own]
  have room : s.hasRoom key.source = true := by
    rw [hasRoom_iff, countFrom, nothing]
    exact ⟨Nat.zero_lt_of_lt (by decide : 1 < maxPending), Nat.zero_lt_succ 3⟩
  rw [makeRoom, if_pos room, room] at full
  cases full

theorem answers_eq {steps : List Step} {since : Time} (alike : Alike key since r s)
    (bounded : r.Bounded) (alone : s.Alone key) (ordered : Ordered steps)
    (after : ∀ step ∈ steps, since ≤ step.time)
    (taken : ∀ before f now rest, steps = before ++ .push key.source f now :: rest →
      f.id = key.id → ¬ (r.run before).Drops key.source f now) :
    r.answers key steps = s.answers key (steps.filter fun step => step.key? = some key) := by
  induction steps generalizing r s since with
  | nil => rfl
  | cons step rest ih =>
    obtain ⟨first, orderedRest⟩ := List.pairwise_cons.mp ordered
    have takenRest (before : List Step) (f : Packet) (now : Time) (others : List Step)
        (split : rest = before ++ .push key.source f now :: others) (sameId : f.id = key.id) :
        ¬ ((r.after step).run before).Drops key.source f now :=
      taken (step :: before) f now others (congrArg (step :: ·) split) sameId
    have since : since ≤ step.time := after step List.mem_cons_self
    by_cases mine : step.key? = some key
    · cases step with
      | expire now => cases mine
      | push source f now =>
        obtain ⟨rfl, own⟩ : source = key.source ∧ f.id = key.id :=
          GroupKey.mk.inj (Option.some.inj mine)
        obtain ⟨same, alikeRest⟩ := alike.push own since (taken [] f now rest rfl own)
          (alone.not_drops own)
        have later := ih alikeRest (bounded.push key.source f now) (alone.push own now) orderedRest
          first takenRest
        rw [List.filter_cons, if_pos (decide_eq_true mine), answers, answers, answer?_own own,
          answer?_own own]
        exact congrArg₂ (fun answer answers => (some answer).toList ++ answers) same later
    · rw [List.filter_cons_of_neg (by simpa using mine), answers, answer?_of_foreign mine]
      exact ih ((alike_after bounded.distinct mine).trans (alike.mono since)) (bounded.after step)
        alone orderedRest first takenRest

/-- What a key is answered is its own business. Along any steps of ascending times in which no
fragment of the key is dropped for lack of room, the pushes of the key get the very answers that
they get alone, at the same times, on a table where nothing else is pushed and nothing expires. Its
fragments may be malformed. -/
theorem answers_alone (timeout : Span) (key : GroupKey) (steps : List Step)
    (ordered : Ordered steps)
    (taken : ∀ before f now rest, steps = before ++ .push key.source f now :: rest →
      f.id = key.id → ¬ ((empty timeout).run before).Drops key.source f now) :
    (empty timeout).answers key steps =
      (empty timeout).answers key (steps.filter fun step => step.key? = some key) := by
  have alike : Alike key 0 (empty timeout) (empty timeout) := ⟨rfl, fun _ _ => rfl⟩
  exact answers_eq alike (bounded_empty timeout) (fun e member => nomatch member) ordered
    (fun step _ => Nat.zero_le step.time) taken

theorem length_accept_le (r : Reassembler) (key : GroupKey) (g : Group) (fragment : Packet) :
    (r.accept key g fragment).2.pending.length ≤ r.pending.length + 1 := by
  have fewer : (r.remove key).pending.length ≤ r.pending.length := List.filter_sublist.length_le
  unfold accept
  dsimp only
  split
  · exact Nat.le_succ_of_le fewer
  · exact Nat.succ_le_succ fewer

theorem length_push_le (r : Reassembler) (source : Endpoint) (fragment : Packet) (now : Time) :
    (r.push source fragment now).2.pending.length ≤ r.pending.length + 1 := by
  have roomy := (r.makeRoom_sublist source now).length_le
  unfold push
  split
  · exact Nat.le_succ _
  · dsimp only
    split
    · exact length_accept_le _ _ _ _
    · split
      · exact Nat.le_trans (length_accept_le _ _ _ _) (Nat.succ_le_succ roomy)
      · exact Nat.le_succ_of_le roomy

/-- No more groups wait than there were pushes. -/
theorem length_run_le (timeout : Span) (steps : List Step) :
    ((empty timeout).run steps).pending.length ≤ steps.countP fun step => step.key?.isSome := by
  induction steps using List.reverseRecOn with
  | nil => exact Nat.le_refl 0
  | append_singleton steps step ih =>
    rw [run_concat, List.countP_append, List.countP_singleton]
    cases step with
    | push source fragment now =>
      exact Nat.le_trans (length_push_le _ source fragment now) (Nat.succ_le_succ ih)
    | expire now => exact Nat.le_trans List.filter_sublist.length_le ih

/-- The group of a malformed packet expires while another source sends under its id. -/
theorem answers_alone_expired :
    let key : GroupKey := ⟨⟨"10.0.0.1", 7⟩, 3⟩
    let stray : Packet := ⟨3, 7, 2, .udp, [1]⟩
    let steps : List Step :=
      [.push key.source (half 3) 0, .push ⟨"10.0.0.2", 7⟩ (half 3) (Span.seconds 1),
        .expire (Span.seconds 3), .push key.source stray (Span.seconds 3),
        .push key.source (half 3) (Span.seconds 4)]
    Ordered steps ∧
    (∀ before f now rest, steps = before ++ .push key.source f now :: rest → f.id = key.id →
      ¬ ((empty defaultTimeout).run before).Drops key.source f now) ∧
    (empty defaultTimeout).answers key steps = (empty defaultTimeout).answers key
      [.push key.source (half 3) 0, .push key.source stray (Span.seconds 3),
        .push key.source (half 3) (Span.seconds 4)] := by
  intro key stray steps
  have ordered : Ordered steps := by
    simp [Ordered, steps, Step.time, Span.seconds]
  have taken (before : List Step) (f : Packet) (now : Time) (rest : List Step)
      (split : steps = before ++ .push key.source f now :: rest) (_ : f.id = key.id) :
      ¬ ((empty defaultTimeout).run before).Drops key.source f now := by
    rintro ⟨-, -, full⟩
    have pushes : (steps.countP fun step => step.key?.isSome) = 4 := rfl
    rw [split, List.countP_append, List.countP_cons_of_pos rfl] at pushes
    have few := length_run_le defaultTimeout before
    have room : ((empty defaultTimeout).run before).hasRoom key.source = true := by
      have own : ((empty defaultTimeout).run before).countFrom key.source ≤ _ :=
        List.countP_le_length
      rw [hasRoom_iff, maxPending, maxPerSource]
      omega
    rw [makeRoom, if_pos room, room] at full
    cases full
  exact ⟨ordered, taken, answers_alone defaultTimeout key steps ordered taken⟩

end Reassembler

end Deathmatch
