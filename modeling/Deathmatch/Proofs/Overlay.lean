import Deathmatch.Proofs.WorldRun

/-!
# What a client makes of a broadcast

A client keeps a table of slots, the `View`. A block names a slot and lists fields with their
values; each listed field overwrites that of the slot. `overlay_reports` says what the table then
holds in the slot of another player: the value now, where the field is listed, and what the table
held before, where it is not.

The server leaves a field out when the same account had the same value at the baseline. The table,
however, goes by slots. So the two agree just when the slot showed the value already
(`View.overlay_eq_iff`), as it does for everybody who kept their slot. It does not for a player who
came back in another slot as they were.
-/

namespace Deathmatch

/-- The player who stands in a slot of the snapshot. -/
def Snapshot.inSlot? (s : Snapshot) (slot : UInt8) : Option Player :=
  s.players.find? fun p => p.slot = slot

theorem Snapshot.Regular.inSlot?_eq_some_iff {s : Snapshot} (regular : s.Regular) {slot : UInt8}
    {p : Player} : s.inSlot? slot = some p ↔ p ∈ s.players ∧ p.slot = slot := by
  constructor
  · intro found
    exact ⟨List.mem_of_find?_eq_some found, by simpa using List.find?_some found⟩
  · rintro ⟨member, rfl⟩
    rw [inSlot?, ← List.head?_filter, regular.filter_slot member]
    rfl

theorem Beat.inSlot?_shot {b : Beat} (seated : b.world.Seated) (slot : UInt8) :
    b.shot.inSlot? slot = b.moved.players.get? slot := by
  apply Option.ext
  intro p
  rw [(regular_shot seated).inSlot?_eq_some_iff, mem_shot seated]
  constructor
  · rintro ⟨found, rfl⟩
    exact found
  · intro found
    have here := (seated.moved slot p found).1
    exact ⟨here ▸ found, here⟩

/-- What a client knows of each slot. -/
def View : Type :=
  UInt8 → Field → Option FieldValue

namespace View

/-- What a client knows who has the snapshot. -/
def of (s : Snapshot) : View := fun slot f =>
  (s.inSlot? slot).map f.value

/-- The view with one field of a slot overwritten. -/
def write (v : View) (slot : UInt8) (entry : Field × FieldValue) : View := fun k f =>
  if slot = k ∧ entry.1 = f then some entry.2 else v k f

/-- The view with all that the reports say written over it, in order. -/
def overlay (v : View) (reports : List Report) : View :=
  reports.foldl (fun view r => r.entries.foldl (fun known entry => known.write r.slot entry) view) v

/-- Entries written to one slot show there and nowhere else. -/
theorem foldl_write (v : View) (slot k : UInt8) (f : Field) (entries : List (Field × FieldValue)) :
    entries.foldl (fun known entry => known.write slot entry) v k f =
      if slot = k then
        entries.foldl (fun old entry => if entry.1 = f then some entry.2 else old) (v k f)
      else v k f := by
  induction entries generalizing v with
  | nil =>
    rw [List.foldl_nil, List.foldl_nil]
    split <;> rfl
  | cons entry rest ih =>
    rw [List.foldl_cons, List.foldl_cons, ih, write]
    split
    · next here => simp only [here, true_and]
    · next elsewhere => rw [if_neg fun both => elsewhere both.1]

/-- A slot shows what the reports say of it, the latest word on each field. -/
theorem overlay_eq (v : View) (reports : List Report) (slot : UInt8) (f : Field) :
    v.overlay reports slot f =
      (Report.entriesAt reports slot).foldl
        (fun old entry => if entry.1 = f then some entry.2 else old) (v slot f) := by
  induction reports generalizing v with
  | nil => rfl
  | cons r rest ih =>
    rw [overlay, List.foldl_cons]
    refine (ih _).trans ?_
    rw [foldl_write, Report.entriesAt, Report.entriesAt, List.filter_cons]
    by_cases here : r.slot = slot
    · rw [if_pos here, if_pos (decide_eq_true here), List.flatMap_cons, List.foldl_append]
    · rw [if_neg here, if_neg (by simpa using here)]

/-- After a broadcast, the slot of another player shows the listed fields as they are now, and the
others as they were shown before. -/
theorem overlay_reports (v : View) {s : Snapshot} (regular : s.Regular) {receiver : String}
    (baseline : Option Snapshot) {p : Player} (member : p ∈ s.players)
    (other : p.account ≠ receiver) (f : Field) :
    v.overlay (s.reports receiver baseline) p.slot f =
      if f ∈ p.changedFields (baseline.bind fun b => b.playerOf? p.account) then some (f.value p)
      else v p.slot f := by
  rw [overlay_eq, regular.entriesAt_reports baseline member other]
  exact Report.foldl_value some p f _ _

theorem of_mem {s : Snapshot} (regular : s.Regular) {p : Player} (member : p ∈ s.players)
    (f : Field) : of s p.slot f = some (f.value p) := by
  rw [of, regular.inSlot?_eq_some_iff.mpr ⟨member, rfl⟩]
  rfl

/-- A broadcast against `b` brings the slot of another player up to date just when the slot showed
all that the server took for known: the fields that their account had in `b` already. -/
theorem overlay_eq_iff (v : View) {s : Snapshot} (regular : s.Regular) {receiver : String}
    (b : Snapshot) {p : Player} (member : p ∈ s.players) (other : p.account ≠ receiver) :
    (∀ f, v.overlay (s.reports receiver (some b)) p.slot f = some (f.value p)) ↔
      ∀ old, b.playerOf? p.account = some old →
        ∀ f, f.value old = f.value p → v p.slot f = some (f.value old) := by
  have shown (f : Field) : v.overlay (s.reports receiver (some b)) p.slot f =
      if f ∈ p.changedFields (b.playerOf? p.account) then some (f.value p) else v p.slot f :=
    v.overlay_reports regular (some b) member other f
  constructor
  · intro right old known f same
    have atField := right f
    rw [shown, known, Player.changedFields, if_neg (by simpa using fun _ => same)] at atField
    rw [atField, same]
  · intro agree f
    rw [shown]
    split
    · rfl
    · next unlisted =>
      cases known : b.playerOf? p.account with
      | none =>
        rw [known] at unlisted
        exact absurd f.mem_all unlisted
      | some old =>
        rw [known, Player.changedFields, List.mem_filter] at unlisted
        have same : f.value old = f.value p := by
          by_contra differ
          exact unlisted ⟨f.mem_all, decide_eq_true differ⟩
        rw [agree old known f same, same]

end View

/-- The snapshots of a run from the empty world are regular. -/
theorem World.regular_beat {interval : Span} {points : List Vec3} {rolls : Nat → Nat}
    {steps : List World.Step} {b : Beat}
    (member : b ∈ (World.empty interval points rolls).beats steps) : b.shot.Regular := by
  obtain ⟨k, found⟩ := List.mem_iff_getElem?.mp member
  obtain ⟨before, -, -, worldIs, -⟩ := World.split_beats found
  apply Beat.regular_shot
  rw [worldIs]
  exact (World.seated_empty interval points rolls).run before

/-- Whether the report can be told from others by its bytes: its values are such as a player can
have whose name has no zero byte. -/
def Report.Legible (r : Report) : Prop :=
  ∀ e ∈ r.entries, ∃ p : Player, 0 ∉ Text.bytes p.name ∧ e.2 = e.1.value p

/-- Legible reports with the same bytes are the same. -/
theorem Report.eq_of_legible {xs ys : List Report} (left : ∀ r ∈ xs, r.Legible)
    (right : ∀ r ∈ ys, r.Legible) (same : xs.flatMap bytes = ys.flatMap bytes) : xs = ys := by
  refine flatMap_bytes_inj ?_ same
  intro x inLeft y inRight _ e inEntries d inOthers fields
  obtain ⟨p, endsLeft, valueLeft⟩ := left x inLeft e inEntries
  obtain ⟨q, endsRight, valueRight⟩ := right y inRight d inOthers
  rw [valueLeft, valueRight, ← fields]
  exact e.1.value_parted (Or.inr ⟨endsLeft, endsRight⟩)

theorem Snapshot.legible_reports {s : Snapshot} (ends : ∀ p ∈ s.players, 0 ∉ Text.bytes p.name)
    {receiver : String} {baseline : Option Snapshot} :
    ∀ r ∈ s.reports receiver baseline, r.Legible := by
  intro r member e inEntries
  obtain ⟨p, inOthers, rfl⟩ := List.mem_map.mp (List.mem_filter.mp member).1
  obtain ⟨f, -, rfl⟩ := List.mem_map.mp inEntries
  exact ⟨p, ends p (List.mem_filter.mp inOthers).1, rfl⟩

/-- What a client has of two snapshots of a run, if it writes the broadcast of one over the other.
The broadcast consists of the reports, and reads as nothing else unless a name has a zero byte. A
player is shown as they are just when each field in which their account has not changed was shown
in their slot already; in particular when they were not there, or in the same slot. -/
theorem overlay_broadcast (interval : Span) (points : List Vec3) (rolls : Nat → Nat)
    (steps : List World.Step) {b c : Beat}
    (baseTaken : b ∈ (World.empty interval points rolls).beats steps)
    (taken : c ∈ (World.empty interval points rolls).beats steps) (receiver : String) :
    let reports := c.shot.reports receiver (some b.shot)
    let shown := (View.of b.shot).overlay reports
    Snapshot.bodies (c.shot.broadcast receiver (some b.shot)) = reports.flatMap Report.bytes ∧
    ((∀ p ∈ c.shot.players, 0 ∉ Text.bytes p.name) → ∀ read : List Report,
      (∀ r ∈ read, r.Legible) →
      read.flatMap Report.bytes = Snapshot.bodies (c.shot.broadcast receiver (some b.shot)) →
      read = reports) ∧
    ∀ p ∈ c.shot.players, p.account ≠ receiver →
      ((∀ f, shown p.slot f = some (f.value p)) ↔
        ∀ old, b.shot.playerOf? p.account = some old →
          ∀ f, f.value old = f.value p → View.of b.shot p.slot f = some (f.value old)) ∧
      (b.shot.playerOf? p.account = none → ∀ f, shown p.slot f = some (f.value p)) ∧
      ∀ old, b.shot.playerOf? p.account = some old → old.slot = p.slot →
        ∀ f, shown p.slot f = some (f.value p) := by
  intro reports shown
  have regular := World.regular_beat taken
  have bodies := regular.bodies_broadcast receiver (some b.shot)
  refine ⟨bodies, ?_, ?_⟩
  · intro ends read legible same
    exact Report.eq_of_legible legible (Snapshot.legible_reports ends) (same.trans bodies)
  · intro p member other
    have agreement := (View.of b.shot).overlay_eq_iff regular b.shot member other
    refine ⟨agreement, ?_, ?_⟩
    · intro absent
      refine agreement.mpr fun old known => ?_
      rw [absent] at known
      cases known
    · intro old known sameSlot
      refine agreement.mpr fun q knownToo f _ => ?_
      rw [known] at knownToo
      cases knownToo
      rw [← sameSlot]
      exact View.of_mem (World.regular_beat baseTaken) (List.mem_of_find?_eq_some known) f

/-- Who kept their slot is shown with their new weapon. -/
theorem overlay_broadcast_same_slot :
    let start := World.empty 0 [] fun _ => 0
    let entered : List World.Step :=
      [.command (.join 0 "a" "A" none) 0, .command (.join 9 "v" "V" (some ⟨"h", 9⟩)) 0]
    let steps := entered ++ [.tick 0, .command (.infoChange 0 3 0) 1]
    let b : Beat := ⟨start.run entered, 0⟩
    let c : Beat := ⟨start.run steps, 2⟩
    b ∈ start.beats (steps ++ [.tick 2]) ∧ c ∈ start.beats (steps ++ [.tick 2]) ∧
    ∃ p ∈ c.shot.players, p.account = "a" ∧ p.weapon = 3 ∧
      ∀ f, (View.of b.shot).overlay (c.shot.reports "v" (some b.shot)) p.slot f =
        some (f.value p) := by
  intro start entered steps b c
  have baseTaken : b ∈ start.beats (steps ++ [.tick 2]) := List.mem_cons_self
  have taken : c ∈ start.beats (steps ++ [.tick 2]) :=
    List.mem_cons_of_mem b (List.mem_singleton_self c)
  have present : (c.moved.players.get? 0).map (fun p => (p.account, p.weapon, p.slot)) =
      some ("a", 3, 0) := by decide +kernel
  obtain ⟨p, found, player⟩ := Option.map_eq_some_iff.mp present
  obtain ⟨account, weapon, slot⟩ : p.account = "a" ∧ p.weapon = 3 ∧ p.slot = 0 := by
    simpa using player
  have seated : c.world.Seated := (World.seated_empty 0 [] fun _ => 0).run steps
  have member : p ∈ c.shot.players := (Beat.mem_shot seated).mpr (slot ▸ found)
  have before : (b.shot.playerOf? "a").map (·.slot) = some 0 := by decide +kernel
  obtain ⟨old, known, oldSlot⟩ := Option.map_eq_some_iff.mp before
  obtain ⟨-, -, players⟩ := overlay_broadcast 0 [] (fun _ => 0) _ baseTaken taken "v"
  have other : p.account ≠ "v" := by
    rw [account]
    decide
  obtain ⟨-, -, kept⟩ := players p member other
  exact ⟨baseTaken, taken, p, member, account, weapon,
    kept old (account ▸ known) (oldSlot.trans slot.symm)⟩

/-- Who came back in another slot as they were is not shown there: nothing of them is reported. -/
theorem overlay_changed_slot :
    let start := World.empty 0 [] fun _ => 0
    let entered : List World.Step :=
      [.command (.join 0 "a" "A" none) 0, .command (.join 9 "v" "V" (some ⟨"h", 9⟩)) 0]
    let steps := entered ++ [.tick 0, .command (.leave 0) 1, .command (.join 1 "a" "A" none) 1]
    let b : Beat := ⟨start.run entered, 0⟩
    let c : Beat := ⟨start.run steps, 2⟩
    start.beats (steps ++ [.tick 2]) = [b, c] ∧
    ∃ p ∈ c.shot.players, p.account = "a" ∧ p.slot = 1 ∧
      ∀ f, (View.of b.shot).overlay (c.shot.reports "v" (some b.shot)) p.slot f = none := by
  intro start entered steps b c
  have present : (c.moved.players.get? 1).map
      (fun p => (p.account, p.slot, p.changedFields (b.shot.playerOf? p.account))) =
      some ("a", 1, []) := by decide +kernel
  obtain ⟨p, found, player⟩ := Option.map_eq_some_iff.mp present
  obtain ⟨account, slot, unchanged⟩ : p.account = "a" ∧ p.slot = 1 ∧
      p.changedFields (b.shot.playerOf? p.account) = [] := by
    simpa using player
  have vacant : b.moved.players.get? 1 = none := by
    rw [← Option.isNone_iff_eq_none]
    decide +kernel
  have seated : c.world.Seated := (World.seated_empty 0 [] fun _ => 0).run steps
  have seatedBase : b.world.Seated := (World.seated_empty 0 [] fun _ => 0).run entered
  have member : p ∈ c.shot.players := (Beat.mem_shot seated).mpr (slot ▸ found)
  have other : p.account ≠ "v" := by
    rw [account]
    decide
  refine ⟨rfl, p, member, account, slot, fun f => ?_⟩
  refine ((View.of b.shot).overlay_reports (Beat.regular_shot seated) (some b.shot) member other
    f).trans ?_
  rw [Option.bind_some, unchanged, if_neg List.not_mem_nil, View.of, Beat.inSlot?_shot seatedBase,
    slot, vacant]
  rfl

end Deathmatch
