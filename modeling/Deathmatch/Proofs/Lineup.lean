import Deathmatch.Proofs.Assembly
import Mathlib.Data.List.Destutter

/-!
# Assembly of any fragments

Assembly is given any fragments, of several packets and with gaps and repetitions. It depends on the
foremost fragment of each number only (`Packet.part?_eq_some_iff`).

The same comes of putting the fragments in line (`Packet.lineUp`): those of the id in the order of
their numbers, of several with one number the first. The order is stable, so the first in line with
a number is the first of all (`Packet.find?_lineUp`), and as long as no number is absent it stands
in the place of its number (`Packet.getElem?_lineUp`). So it is enough to look whether each place
holds its number (`Packet.assemble_eq_assembleInLine`).

`Packet.assemble_foremost` says what assembly gives in either case.
-/

namespace Deathmatch.Packet

variable {fragments : List Packet} {first f : Packet} {id : UInt8} {i n : Nat}

/-! ## The fragment that counts -/

/-- Whether a fragment has this id and number. -/
def Numbered (id : UInt8) (i : Nat) (f : Packet) : Prop :=
  f.id = id ∧ f.index.toNat = i

instance (id : UInt8) (i : Nat) (f : Packet) : Decidable (f.Numbered id i) :=
  inferInstanceAs (Decidable (_ ∧ _))

/-- Of all fragments `f` is the first with this id and number. -/
def Foremost (fragments : List Packet) (id : UInt8) (i : Nat) (f : Packet) : Prop :=
  f.Numbered id i ∧ ∃ before after, fragments = before ++ f :: after ∧
    ∀ g ∈ before, ¬ g.Numbered id i

theorem foremost_iff :
    Foremost fragments id i f ↔ fragments.find? (·.Numbered id i) = some f := by
  rw [List.find?_eq_some_iff_append, decide_eq_true_eq]
  refine and_congr_right' (exists₂_congr fun before after => and_congr_right' ?_)
  simp only [Bool.not_eq_true', decide_eq_false_iff_not]

theorem part?_eq_map_find? :
    part? fragments id i = (fragments.find? (·.Numbered id i)).map (·.data) := rfl

theorem part?_eq_some_iff {data : Bytes} :
    part? fragments id i = some data ↔ ∃ f, Foremost fragments id i f ∧ f.data = data := by
  rw [part?_eq_map_find?, Option.map_eq_some_iff]
  simp only [foremost_iff]

theorem exists_foremost_iff :
    (∃ f, Foremost fragments id i f) ↔ ∃ f ∈ fragments, f.Numbered id i := by
  simp only [foremost_iff, ← Option.isSome_iff_exists, List.find?_isSome, decide_eq_true_eq]

theorem part?_eq_none_iff :
    part? fragments id i = none ↔ ¬ ∃ f ∈ fragments, f.Numbered id i := by
  rw [← exists_foremost_iff, Option.eq_none_iff_forall_ne_some]
  simp only [ne_eq, part?_eq_some_iff]
  constructor
  · intro none found
    rcases found with ⟨f, foremost⟩
    exact none f.data ⟨f, foremost, rfl⟩
  · intro none data found
    rcases found with ⟨f, foremost, -⟩
    exact none ⟨f, foremost⟩

/-- Up to a bound everything holds, or there is a least number for which something does not. -/
theorem all_or_least {P : Nat → Prop} (n : Nat) :
    (∀ i < n, P i) ∨ ∃ i < n, ¬ P i ∧ ∀ j < i, P j := by
  induction n with
  | zero => exact Or.inl fun i inside => absurd inside (Nat.not_lt_zero i)
  | succ n ih =>
    rcases ih with all | ⟨i, inside, fails, before⟩
    · by_cases here : P n
      · refine Or.inl fun i inside => ?_
        rcases Nat.lt_succ_iff_lt_or_eq.mp inside with earlier | rfl
        · exact all i earlier
        · exact here
      · exact Or.inr ⟨n, Nat.lt_succ_self n, here, all⟩
    · exact Or.inr ⟨i, Nat.lt_succ_of_lt inside, fails, before⟩

/-- What assembly gives for fragments of which the first is known. -/
theorem assemble_cases (head : fragments.head? = some first) :
    ((∀ i < (max first.total 1).toNat, ∃ f ∈ fragments, f.Numbered first.id i) ∧
      ∃ chosen : Nat → Packet,
        (∀ i < (max first.total 1).toNat, Foremost fragments first.id i (chosen i)) ∧
        assemble fragments = .ok
          { id := first.id, index := 0, total := 1, transport := first.transport
            data := ((List.range (max first.total 1).toNat).map fun i =>
              (chosen i).data).flatten }) ∨
    ∃ i < (max first.total 1).toNat, (¬ ∃ f ∈ fragments, f.Numbered first.id i) ∧
      (∀ j < i, ∃ f ∈ fragments, f.Numbered first.id j) ∧
      assemble fragments =
        .error (.missingFragment first.id (UInt8.ofNat i) (max first.total 1)) := by
  rcases all_or_least (P := fun i => ∃ f ∈ fragments, f.Numbered first.id i)
    (max first.total 1).toNat with all | ⟨i, inside, absent, before⟩
  · have foremost (i : Nat) (inside : i < (max first.total 1).toNat) :
        ∃ f, Foremost fragments first.id i f := exists_foremost_iff.mpr (all i inside)
    choose! chosen foremost using foremost
    refine Or.inl ⟨all, chosen, foremost, assemble_of_parts head _ fun i inside => ?_⟩
    exact part?_eq_some_iff.mpr ⟨chosen i, foremost i inside, rfl⟩
  · refine Or.inr ⟨i, inside, absent, before, ?_⟩
    refine assemble_of_missing head inside (part?_eq_none_iff.mpr absent) fun j earlier none => ?_
    exact part?_eq_none_iff.mp none (before j earlier)

/-! ## Fragments in line -/

/-- Whether `f` may stand before `g`. -/
def mayPrecede (f g : Packet) : Bool :=
  f.index ≤ g.index

/-- Whether `g` has another number than `f`. -/
def Renumbers (f g : Packet) : Prop :=
  f.index ≠ g.index

instance : DecidableRel Renumbers :=
  fun _ _ => inferInstanceAs (Decidable (_ ≠ _))

/-- The fragments of one id in the order of their numbers. Of several with one number the first
stays. -/
def lineUp (fragments : List Packet) (id : UInt8) : List Packet :=
  ((fragments.filter (·.id = id)).mergeSort mayPrecede).destutter Renumbers

/-- Assembly of fragments in line: the first place that does not hold its number is missing. -/
def assembleInLine (fragments : List Packet) : Except PacketFault Packet :=
  match fragments.head? with
  | none => .error (.missingFragment 0 0 1)
  | some first =>
    let total := max first.total 1
    let row := lineUp fragments first.id
    match (List.range total.toNat).find? fun i => row[i]?.map (·.index.toNat) ≠ some i with
    | some i => .error (.missingFragment first.id (UInt8.ofNat i) total)
    | none =>
      .ok { id := first.id, index := 0, total := 1, transport := first.transport
            data := ((row.take total.toNat).map (·.data)).flatten }

theorem mayPrecede_iff {f g : Packet} :
    mayPrecede f g = true ↔ f.index.toNat ≤ g.index.toNat := by
  rw [mayPrecede, decide_eq_true_eq, UInt8.le_iff_toNat_le]

theorem mayPrecede_trans (f g h : Packet) (before : mayPrecede f g = true)
    (after : mayPrecede g h = true) : mayPrecede f h = true := by
  rw [mayPrecede_iff] at before after ⊢
  omega

theorem mayPrecede_total (f g : Packet) : (mayPrecede f g || mayPrecede g f) = true := by
  rw [Bool.or_eq_true, mayPrecede_iff, mayPrecede_iff]
  omega

/-- The order is stable: fragments with one number stay in the order in which they are given. -/
theorem filter_mergeSort (fragments : List Packet) (n : Nat) :
    (fragments.mergeSort mayPrecede).filter (·.index.toNat = n) =
      fragments.filter (·.index.toNat = n) := by
  have level : (fragments.filter (·.index.toNat = n)).Pairwise
      fun f g => mayPrecede f g = true := by
    refine List.pairwise_of_forall_mem_list fun f inF g inG => ?_
    rw [List.mem_filter, decide_eq_true_eq] at inF inG
    rw [mayPrecede_iff]
    omega
  have kept := (List.sublist_mergeSort mayPrecede_trans mayPrecede_total level
    List.filter_sublist).filter fun f => decide (f.index.toNat = n)
  simp only [List.filter_filter, Bool.and_self] at kept
  have count := (List.mergeSort_perm fragments mayPrecede).filter
    fun f => decide (f.index.toNat = n)
  exact (kept.eq_of_length count.length_eq.symm).symm

/-- Whatever repeats a number is not the first with it. -/
theorem find?_destutter' (fragments : List Packet) (f : Packet) (n : Nat) :
    (fragments.destutter' Renumbers f).find? (·.index.toNat = n) =
      (f :: fragments).find? (·.index.toNat = n) := by
  induction fragments generalizing f with
  | nil => rfl
  | cons g rest ih =>
    by_cases new : Renumbers f g
    · rw [List.destutter'_cons_pos _ new, List.find?_cons, ih, List.find?_cons (a := f)]
    · have same : f.index = g.index := not_not.mp new
      rw [List.destutter'_cons_neg _ new, ih, List.find?_cons, List.find?_cons, List.find?_cons,
        same]
      split <;> rfl

theorem find?_destutter (fragments : List Packet) (n : Nat) :
    (fragments.destutter Renumbers).find? (·.index.toNat = n) =
      fragments.find? (·.index.toNat = n) := by
  cases fragments with
  | nil => rfl
  | cons f rest => exact find?_destutter' rest f n

/-- The first in line with a number is the first of all. -/
theorem find?_lineUp (fragments : List Packet) (id : UInt8) (n : Nat) :
    (lineUp fragments id).find? (·.index.toNat = n) = fragments.find? (·.Numbered id n) := by
  rw [lineUp, find?_destutter, ← List.head?_filter, filter_mergeSort, List.head?_filter,
    List.find?_filter]
  simp only [decide_eq_true_eq]
  rfl

theorem mem_lineUp (member : f ∈ lineUp fragments id) : f ∈ fragments ∧ f.id = id := by
  have sorted := (List.destutter_sublist _ _).subset member
  rw [List.mem_mergeSort, List.mem_filter, decide_eq_true_eq] at sorted
  exact sorted

/-- The numbers in line rise. -/
theorem rising_lineUp (fragments : List Packet) (id : UInt8) :
    (lineUp fragments id).Pairwise fun f g => f.index.toNat < g.index.toNat := by
  have sorted := ((List.pairwise_mergeSort mayPrecede_trans mayPrecede_total
    (fragments.filter (·.id = id))).sublist (List.destutter_sublist Renumbers _)).isChain
  have changing := List.isChain_destutter Renumbers
    ((fragments.filter (·.id = id)).mergeSort mayPrecede)
  have rising : (lineUp fragments id).IsChain fun f g => f.index.toNat < g.index.toNat := by
    rw [List.isChain_iff_getElem] at sorted changing ⊢
    intro i inside
    have atMost := mayPrecede_iff.mp (sorted i inside)
    exact Nat.lt_of_le_of_ne atMost fun same => changing i inside (UInt8.toNat.inj same)
  have : Trans (fun f g : Packet => f.index.toNat < g.index.toNat)
      (fun f g : Packet => f.index.toNat < g.index.toNat)
      (fun f g : Packet => f.index.toNat < g.index.toNat) := ⟨Nat.lt_trans⟩
  exact List.isChain_iff_pairwise.mp rising

/-- In a row of rising numbers from `least` on, one with no gap before it stands in its place. -/
theorem getElem?_of_rising {row : List Packet} {least : Nat}
    (rising : row.Pairwise fun f g => f.index.toNat < g.index.toNat)
    (above : ∀ f ∈ row, least ≤ f.index.toNat)
    (gapless : ∀ j ≤ i, ∃ f ∈ row, f.index.toNat = least + j) :
    row[i]? = row.find? (·.index.toNat = least + i) := by
  induction row generalizing least i with
  | nil =>
    rcases gapless 0 (Nat.zero_le i) with ⟨f, member, -⟩
    cases member
  | cons f rest ih =>
    have bound := above f List.mem_cons_self
    rw [List.pairwise_cons] at rising
    -- The least number is there, and whatever comes later is larger than the first.
    have here : f.index.toNat = least := by
      rcases gapless 0 (Nat.zero_le i) with ⟨g, member, number⟩
      rcases List.mem_cons.mp member with rfl | later
      · exact number
      · have larger := rising.1 g later
        omega
    cases i with
    | zero => rw [List.getElem?_cons_zero, List.find?_cons_of_pos (by simpa using here)]
    | succ i =>
      have passed : ¬ f.index.toNat = least + (i + 1) := by omega
      have further : least + (i + 1) = least + 1 + i := by omega
      rw [List.getElem?_cons_succ, List.find?_cons_of_neg (by simpa using passed), further]
      refine ih rising.2 (fun g later => ?_) fun j before => ?_
      · have larger := rising.1 g later
        omega
      · rcases gapless (j + 1) (Nat.succ_le_succ before) with ⟨g, member, number⟩
        rcases List.mem_cons.mp member with rfl | later
        · omega
        · exact ⟨g, later, by omega⟩

/-- With no number absent before it, the foremost fragment of a number stands in its place. -/
theorem getElem?_lineUp (before : ∀ j < i, ∃ f ∈ fragments, f.Numbered id j)
    (foremost : Foremost fragments id i f) : (lineUp fragments id)[i]? = some f := by
  have found := foremost_iff.mp foremost
  rw [← find?_lineUp] at found
  rw [getElem?_of_rising (rising_lineUp fragments id) (fun g _ => Nat.zero_le _) ?_, Nat.zero_add,
    found]
  intro j upTo
  rcases Nat.lt_or_eq_of_le upTo with earlier | rfl
  · rcases exists_foremost_iff.mpr (before j earlier) with ⟨g, foremost⟩
    rw [foremost_iff, ← find?_lineUp] at foremost
    have number := List.find?_some foremost
    rw [decide_eq_true_eq] at number
    exact ⟨g, List.mem_of_find?_eq_some foremost, by omega⟩
  · have number := foremost.1.2
    exact ⟨f, List.mem_of_find?_eq_some found, by omega⟩

/-- The place of a number that is absent has another, or none. -/
theorem getElem?_lineUp_ne (absent : ¬ ∃ f ∈ fragments, f.Numbered id i) :
    (lineUp fragments id)[i]?.map (·.index.toNat) ≠ some i := by
  intro held
  rcases Option.map_eq_some_iff.mp held with ⟨f, there, number⟩
  have member := mem_lineUp (List.mem_of_getElem? there)
  exact absent ⟨f, member.1, member.2, number⟩

/-- Assembly gives the same with the fragments in line. -/
theorem assemble_eq_assembleInLine (fragments : List Packet) :
    assemble fragments = assembleInLine fragments := by
  cases head : fragments.head? with
  | none => rw [assemble, assembleInLine, head]
  | some first =>
    rw [assembleInLine, head]
    dsimp only
    rcases assemble_cases head with ⟨all, chosen, foremost, assembled⟩ |
      ⟨i, inside, absent, before, assembled⟩
    · have place (i : Nat) (inside : i < (max first.total 1).toNat) :
          (lineUp fragments first.id)[i]? = some (chosen i) :=
        getElem?_lineUp (fun j earlier => all j (Nat.lt_trans earlier inside)) (foremost i inside)
      have inPlace : (List.range (max first.total 1).toNat).find? (fun i =>
          (lineUp fragments first.id)[i]?.map (·.index.toNat) ≠ some i) = none := by
        rw [List.find?_eq_none]
        intro i member
        have inside := List.mem_range.mp member
        rw [place i inside, Option.map_some, (foremost i inside).1.2]
        simp
      have data : ((lineUp fragments first.id).take (max first.total 1).toNat).map (·.data) =
          (List.range (max first.total 1).toNat).map fun i => (chosen i).data := by
        apply List.ext_getElem?
        intro i
        rw [List.getElem?_map, List.getElem?_map, List.getElem?_take]
        split
        · next inside =>
          rw [place i inside, List.getElem?_range inside, Option.map_some, Option.map_some]
        · next beyond =>
          rw [List.getElem?_eq_none (by rw [List.length_range]; omega), Option.map_none,
            Option.map_none]
      rw [assembled, inPlace, data]
    · have vacant : (List.range (max first.total 1).toNat).find? (fun i =>
          (lineUp fragments first.id)[i]?.map (·.index.toNat) ≠ some i) = some i := by
        rw [List.find?_range_eq_some]
        refine ⟨decide_eq_true (getElem?_lineUp_ne absent), List.mem_range.mpr inside, ?_⟩
        intro j earlier
        rcases exists_foremost_iff.mpr (before j earlier) with ⟨f, foremost⟩
        rw [getElem?_lineUp (fun k sooner => before k (Nat.lt_trans sooner earlier)) foremost,
          Option.map_some, foremost.1.2]
        simp
      rw [assembled, vacant]

/-! ## Any fragments -/

theorem part?_filter {rest : List Packet} (inside : i < (max first.total 1).toNat) :
    part? (first :: rest.filter fun f => f.id = first.id ∧ f.index < max first.total 1) first.id i =
      part? (first :: rest) first.id i := by
  have counted (f : Packet) : (f.id = first.id ∧ f.index < max first.total 1) ∧
      f.Numbered first.id i ↔ f.Numbered first.id i := by
    refine and_iff_right_of_imp fun numbered => ⟨numbered.1, ?_⟩
    rw [UInt8.lt_iff_toNat_lt, numbered.2]
    exact inside
  rw [part?_eq_map_find?, part?_eq_map_find?, List.find?_cons, List.find?_cons, List.find?_filter]
  simp only [decide_eq_true_eq, counted]

/-- Fragments with another id or a number beyond the total change nothing, but for the first one,
which names them. -/
theorem assemble_filter (first : Packet) (rest : List Packet) :
    assemble (first :: rest.filter fun f => f.id = first.id ∧ f.index < max first.total 1) =
      assemble (first :: rest) := by
  have head : (first :: rest).head? = some first := List.head?_cons
  rcases assemble_cases head with ⟨-, chosen, foremost, assembled⟩ |
    ⟨i, inside, absent, before, assembled⟩
  · rw [assembled]
    refine assemble_of_parts rfl (fun i => (chosen i).data) fun i inside => ?_
    rw [part?_filter inside]
    exact part?_eq_some_iff.mpr ⟨chosen i, foremost i inside, rfl⟩
  · rw [assembled]
    refine assemble_of_missing rfl inside ?_ fun j earlier none => ?_
    · rw [part?_filter inside]
      exact part?_eq_none_iff.mpr absent
    · rw [part?_filter (Nat.lt_trans earlier inside)] at none
      exact part?_eq_none_iff.mp none (before j earlier)

/-- No fragments are missing number 0 of one. Of others the first one names the id, the total and
the channel, and they are assembled just when each number below the total is among those of the id.
The payload is then that of the foremost fragment of each number, in order; otherwise the least
number that is absent is named. Whatever has another id or a number beyond the total counts for
nothing, and the fragments may be put in line before. -/
theorem assemble_foremost (fragments : List Packet) :
    (fragments = [] → assemble fragments = .error (.missingFragment 0 0 1)) ∧
    (∀ first rest, fragments = first :: rest →
      let total := max first.total 1
      ((∃ p, assemble fragments = .ok p) ↔
        ∀ i < total.toNat, ∃ f ∈ fragments, f.Numbered first.id i) ∧
      (∀ p, assemble fragments = .ok p →
        p.id = first.id ∧ p.index = 0 ∧ p.total = 1 ∧ p.transport = first.transport ∧
        ∃ chosen : List Packet, chosen.length = total.toNat ∧
          (∀ i f, chosen[i]? = some f → Foremost fragments first.id i f) ∧
          p.data = (chosen.map (·.data)).flatten) ∧
      (∀ fault, assemble fragments = .error fault →
        ∃ i < total.toNat, fault = .missingFragment first.id (UInt8.ofNat i) total ∧
          (¬ ∃ f ∈ fragments, f.Numbered first.id i) ∧
          ∀ j < i, ∃ f ∈ fragments, f.Numbered first.id j) ∧
      assemble fragments =
        assemble (first :: rest.filter fun f => f.id = first.id ∧ f.index < total)) ∧
    assemble fragments = assembleInLine fragments := by
  refine ⟨?_, ?_, assemble_eq_assembleInLine fragments⟩
  · intro none
    rw [none]
    rfl
  intro first rest shape total
  have head : fragments.head? = some first := by rw [shape, List.head?_cons]
  have filtered : assemble fragments =
      assemble (first :: rest.filter fun f => f.id = first.id ∧ f.index < total) := by
    rw [shape]
    exact (assemble_filter first rest).symm
  rcases assemble_cases head with ⟨all, chosen, foremost, assembled⟩ |
    ⟨i, inside, absent, before, assembled⟩
  · refine ⟨iff_of_true ⟨_, assembled⟩ all, ?_, ?_, filtered⟩
    · intro p ok
      cases assembled.symm.trans ok
      refine ⟨rfl, rfl, rfl, rfl, (List.range total.toNat).map chosen, ?_, ?_, ?_⟩
      · rw [List.length_map, List.length_range]
      · intro i f there
        rw [List.getElem?_map, Option.map_eq_some_iff] at there
        rcases there with ⟨j, inRange, rfl⟩
        rcases List.getElem?_eq_some_iff.mp inRange with ⟨inside, here⟩
        rw [List.getElem_range] at here
        rw [List.length_range] at inside
        subst here
        exact foremost i inside
      · rw [List.map_map]
        rfl
    · intro fault error
      cases assembled.symm.trans error
  · refine ⟨iff_of_false ?_ fun all => absent (all i inside), ?_, ?_, filtered⟩
    · intro ok
      rcases ok with ⟨p, ok⟩
      cases assembled.symm.trans ok
    · intro p ok
      cases assembled.symm.trans ok
    · intro fault error
      cases assembled.symm.trans error
      exact ⟨i, inside, rfl, absent, before⟩

/-- Of two fragments with number 1 the first counts. The others with another id or beyond the total
do not. -/
example :
    assemble [⟨3, 1, 2, .tcp, [7]⟩, ⟨3, 1, 2, .udp, [8]⟩, ⟨4, 0, 2, .udp, [9]⟩,
      ⟨3, 6, 2, .udp, [6]⟩, ⟨3, 0, 9, .udp, [5]⟩] = .ok ⟨3, 0, 1, .tcp, [5, 7]⟩ := by
  decide

end Deathmatch.Packet
