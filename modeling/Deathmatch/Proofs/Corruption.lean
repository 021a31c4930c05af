import Deathmatch.Proofs.Datagram
import Mathlib.Algebra.GroupWithZero.Nat
import Mathlib.Data.List.Forall2

/-!
# Corrupted datagrams

The checksum counts the bits that are set, each with the weight of its place, modulo 256
(`toNat_checksum`). Setting bits adds to the count at least one and at most two for each of them
(`weight_of_sets`), so up to 127 bits that change the same way never bring it back to where it was
(`checksum_ne_of_sets`), and `Packet.decode_corrupted` finds them.
-/

namespace Deathmatch

/-! ## Weights -/

/-- What a bit in place `i` weighs. -/
def placeWeight (i : Nat) : Nat :=
  if i % 2 = 0 then 1 else 2

theorem placeWeight_bounds (i : Nat) : 1 ≤ placeWeight i ∧ placeWeight i ≤ 2 := by
  unfold placeWeight
  split <;> decide

/-- What the bits of `b` in these places weigh, those that are set. -/
def weightAt (places : List Nat) (b : UInt8) : Nat :=
  (places.map fun i => if b.toNat.testBit i then placeWeight i else 0).sum

/-- What the set bits of all bytes weigh. -/
def weight (bs : Bytes) : Nat :=
  (bs.map (weightAt (List.range 8))).sum

/-- The running sum of bytes is their sum modulo 256. -/
theorem toNat_foldl_add {α : Type} (f : α → UInt8) (as : List α) (start : UInt8) :
    (as.foldl (fun sum a => sum + f a) start).toNat =
      (start.toNat + (as.map fun a => (f a).toNat).sum) % 256 := by
  induction as generalizing start with
  | nil => exact (Nat.mod_eq_of_lt start.toNat_lt).symm
  | cons a as ih =>
    rw [List.foldl_cons, ih, UInt8.toNat_add, List.map_cons, List.sum_cons]
    omega

theorem weightAt_le (places : List Nat) (b : UInt8) : weightAt places b ≤ 2 * places.length := by
  induction places with
  | nil => exact Nat.le_refl 0
  | cons i places ih =>
    have bound := (placeWeight_bounds i).2
    rw [weightAt] at ih ⊢
    rw [List.map_cons, List.sum_cons, List.length_cons]
    split <;> omega

theorem toNat_bitWeight (b : UInt8) : (bitWeight b).toNat = weightAt (List.range 8) b := by
  have share (i : Nat) :
      (if b.toNat.testBit i then (if i % 2 = 0 then 1 else 2) else 0 : UInt8).toNat =
        if b.toNat.testBit i then placeWeight i else 0 := by
    unfold placeWeight
    split
    · split <;> rfl
    · rfl
  have small : weightAt (List.range 8) b ≤ 16 := weightAt_le (List.range 8) b
  have total := toNat_foldl_add
    (fun i => if b.toNat.testBit i then (if i % 2 = 0 then 1 else 2) else 0) (List.range 8) 0
  simp only [share] at total
  rw [bitWeight, total]
  show (0 + weightAt (List.range 8) b) % 256 = _
  omega

theorem toNat_checksum (bs : Bytes) : (checksum bs).toNat = weight bs % 256 := by
  rw [checksum, toNat_foldl_add, weight]
  simp only [toNat_bitWeight]
  rw [UInt8.toNat_zero, Nat.zero_add]

/-! ## Bits that are set -/

/-- Whether all bits of `x` are bits of `y`. -/
def Sets (x y : UInt8) : Prop :=
  ∀ i < 8, x.toNat.testBit i = true → y.toNat.testBit i = true

instance (x y : UInt8) : Decidable (Sets x y) :=
  inferInstanceAs (Decidable (∀ i < 8, _))

/-- The places in which two bytes differ. -/
def flips (x y : UInt8) : Nat :=
  (List.range 8).countP fun i => x.toNat.testBit i != y.toNat.testBit i

/-- The places in which two byte strings differ, of all their bytes. -/
def flipsAll (xs ys : Bytes) : Nat :=
  (List.zipWith flips xs ys).sum

theorem flipsAll_cons (x y : UInt8) (xs ys : Bytes) :
    flipsAll (x :: xs) (y :: ys) = flips x y + flipsAll xs ys :=
  List.sum_cons

/-- Each bit that is set adds one or two. -/
theorem weightAt_of_sets {x y : UInt8} {places : List Nat}
    (sets : ∀ i ∈ places, x.toNat.testBit i = true → y.toNat.testBit i = true) :
    weightAt places x + places.countP (fun i => x.toNat.testBit i != y.toNat.testBit i) ≤
        weightAt places y ∧
      weightAt places y ≤
        weightAt places x + 2 * places.countP fun i => x.toNat.testBit i != y.toNat.testBit i := by
  induction places with
  | nil => exact ⟨Nat.le_refl _, Nat.le_refl _⟩
  | cons i places ih =>
    have later := ih fun j member => sets j (List.mem_cons_of_mem i member)
    have bounds := placeWeight_bounds i
    have here := sets i List.mem_cons_self
    simp only [weightAt, List.map_cons, List.sum_cons, List.countP_cons] at later ⊢
    cases old : x.toNat.testBit i with
    | true =>
      rw [here old]
      simp only [if_true, bne_self_eq_false, Bool.false_eq_true, if_false]
      omega
    | false =>
      cases new : y.toNat.testBit i with
      | true => simp; omega
      | false => simp; omega

theorem weight_of_sets {xs ys : Bytes} (sets : List.Forall₂ Sets xs ys) :
    weight xs + flipsAll xs ys ≤ weight ys ∧ weight ys ≤ weight xs + 2 * flipsAll xs ys := by
  induction sets with
  | nil => exact ⟨Nat.le_refl _, Nat.le_refl _⟩
  | @cons x y xs ys first _ ih =>
    have here := weightAt_of_sets fun i member => first i (List.mem_range.mp member)
    simp only [weight, flipsAll, flips, List.map_cons, List.zipWith_cons_cons,
      List.sum_cons] at ih here ⊢
    omega

/-- Some bits that are set, but no more than 127, show in the checksum. -/
theorem checksum_ne_of_sets {xs ys : Bytes} (sets : List.Forall₂ Sets xs ys)
    (least : 1 ≤ flipsAll xs ys) (most : flipsAll xs ys ≤ 127) : checksum xs ≠ checksum ys := by
  intro same
  have sums := congrArg UInt8.toNat same
  rw [toNat_checksum, toNat_checksum] at sums
  have added := weight_of_sets sets
  omega

theorem flipsAll_comm (xs ys : Bytes) : flipsAll xs ys = flipsAll ys xs := by
  have flips_comm (x y : UInt8) : flips x y = flips y x := by
    simp only [flips, bne_comm]
  rw [flipsAll, List.zipWith_comm_of_comm flips_comm, flipsAll]

/-! ## Corruption -/

/-- What can become of a datagram on its way: another first byte, or up to 127 bits behind it that
were all clear and are set, or were all set and are clear. -/
inductive Corrupted : Bytes → Bytes → Prop
  | first {a b : UInt8} (rest : Bytes) (other : a ≠ b) : Corrupted (a :: rest) (b :: rest)
  | bits (a : UInt8) {rest rest' : Bytes}
    (oneWay : List.Forall₂ Sets rest rest' ∨ List.Forall₂ Sets rest' rest)
    (least : 1 ≤ flipsAll rest rest') (most : flipsAll rest rest' ≤ 127) :
    Corrupted (a :: rest) (a :: rest')

theorem Corrupted.length_eq {d d' : Bytes} (corrupted : Corrupted d d') :
    d'.length = d.length := by
  cases corrupted with
  | first rest other => rfl
  | bits a oneWay least most =>
    rcases oneWay with sets | sets
    · exact congrArg (· + 1) sets.length_eq.symm
    · exact congrArg (· + 1) sets.length_eq

/-! ### One bit -/

/-- A byte with the bit in place `i` the other way. -/
def flipBit (x : UInt8) (i : Nat) : UInt8 :=
  x ^^^ UInt8.ofNat (2 ^ i)

theorem testBit_flipBit {i : Nat} (place : i < 8) (x : UInt8) (j : Nat) :
    (flipBit x i).toNat.testBit j = (x.toNat.testBit j != decide (i = j)) := by
  have fits : 2 ^ i < 256 := Nat.pow_lt_pow_right (by decide) place
  rw [flipBit, UInt8.toNat_xor, UInt8.toNat_ofNat_of_lt' fits, Nat.testBit_xor,
    Nat.testBit_two_pow]

theorem flips_flipBit {i : Nat} (place : i < 8) (x : UInt8) : flips x (flipBit x i) = 1 := by
  have only (j : Nat) :
      (x.toNat.testBit j != (flipBit x i).toNat.testBit j) = decide (i = j) := by
    rw [testBit_flipBit place]
    cases x.toNat.testBit j <;> cases decide (i = j) <;> rfl
  have once : ∀ i < 8, (List.range 8).countP (fun j => decide (i = j)) = 1 := by decide
  simp only [flips, only]
  exact once i place

/-- A bit was set or is set. -/
theorem sets_flipBit {i : Nat} (place : i < 8) (x : UInt8) :
    Sets x (flipBit x i) ∨ Sets (flipBit x i) x := by
  cases old : x.toNat.testBit i with
  | false =>
    refine Or.inl fun j _ isSet => ?_
    rw [testBit_flipBit place, isSet]
    by_cases here : i = j
    · cases (here ▸ old).symm.trans isSet
    · simp [here]
  | true =>
    refine Or.inr fun j _ isSet => ?_
    rw [testBit_flipBit place] at isSet
    by_cases here : i = j
    · exact here ▸ old
    · simpa [here] using isSet

theorem sets_refl (x : UInt8) : Sets x x := fun _ _ isSet => isSet

theorem flips_self (x : UInt8) : flips x x = 0 := by
  simp [flips]

theorem flipsAll_self (xs : Bytes) : flipsAll xs xs = 0 := by
  induction xs with
  | nil => rfl
  | cons x xs ih => rw [flipsAll_cons, flips_self, ih]

/-- Two byte strings that differ in one byte differ in as many bits as that byte does. -/
theorem flipsAll_set (xs : Bytes) {n : Nat} (inside : n < xs.length) (y : UInt8) :
    flipsAll xs (xs.set n y) = flips xs[n] y := by
  induction xs generalizing n with
  | nil => cases inside
  | cons x xs ih =>
    cases n with
    | zero => rw [List.set_cons_zero, flipsAll_cons, flipsAll_self, List.getElem_cons_zero,
        Nat.add_zero]
    | succ n => rw [List.set_cons_succ, flipsAll_cons, flips_self, Nat.zero_add,
        ih (Nat.lt_of_succ_lt_succ inside), List.getElem_cons_succ]

/-- A relation that holds of a byte and itself holds of two byte strings that differ in one byte if
it holds there. -/
theorem forall₂_set {R : UInt8 → UInt8 → Prop} (refl : ∀ x, R x x) (xs : Bytes) {n : Nat}
    (inside : n < xs.length) {y : UInt8} (here : R xs[n] y) : List.Forall₂ R xs (xs.set n y) := by
  induction xs generalizing n with
  | nil => cases inside
  | cons x xs ih =>
    cases n with
    | zero => exact .cons here (List.forall₂_same.mpr fun x _ => refl x)
    | succ n => exact .cons (refl x) (ih (Nat.lt_of_succ_lt_succ inside) here)

/-- One bit that is flipped, wherever it stands, is such a corruption. -/
theorem corrupted_flipBit (d : Bytes) {n : Nat} (inside : n < d.length) {i : Nat} (place : i < 8) :
    Corrupted d (d.set n (flipBit d[n] i)) := by
  cases d with
  | nil => cases inside
  | cons a rest =>
    cases n with
    | zero =>
      refine .first rest fun same => ?_
      have one := flips_flipBit place a
      rw [show flipBit a i = a from same.symm, flips_self] at one
      cases one
    | succ n =>
      have within : n < rest.length := Nat.lt_of_succ_lt_succ inside
      have one : flipsAll rest (rest.set n (flipBit rest[n] i)) = 1 := by
        rw [flipsAll_set rest within, flips_flipBit place]
      refine .bits a ?_ (Nat.le_of_eq one.symm) (Nat.le_trans (Nat.le_of_eq one) (by decide))
      rcases sets_flipBit place rest[n] with sets | cleared
      · exact Or.inl (forall₂_set sets_refl rest within sets)
      · have flipped := forall₂_set (R := fun x y => Sets y x) sets_refl rest within cleared
        exact Or.inr flipped.flip

/-! ### Detection -/

/-- A datagram that was accepted and has come to be another in one of these ways, of which the flip
of a single bit is one, is refused for its checksum. -/
theorem Packet.decode_corrupted {d : Bytes} {p : Packet} (accepted : Packet.decode d = .ok p) :
    (∀ d', Corrupted d d' → d'.length = d.length ∧ ∃ sum rest, d' = sum :: rest ∧
      Packet.decode d' = .error (.invalidChecksum sum (checksum rest))) ∧
    ∀ n i (inside : n < d.length), i < 8 → Corrupted d (d.set n (flipBit d[n] i)) := by
  refine ⟨fun d' corrupted => ⟨corrupted.length_eq, ?_⟩,
    fun n i inside place => corrupted_flipBit d inside place⟩
  have same := corrupted.length_eq
  cases corrupted with
  | first rest other =>
    obtain ⟨header, valid⟩ := Packet.exists_decode_iff.mp ⟨p, accepted⟩
    exact ⟨_, rest, rfl, Packet.decode_of_ne_checksum header (valid ▸ other.symm)⟩
  | @bits a rest rest' oneWay least most =>
    obtain ⟨header, valid⟩ := Packet.exists_decode_iff.mp ⟨p, accepted⟩
    have differs : checksum rest ≠ checksum rest' := by
      rcases oneWay with sets | cleared
      · exact checksum_ne_of_sets sets least most
      · rw [flipsAll_comm] at least most
        exact (checksum_ne_of_sets cleared least most).symm
    have headerToo : 3 ≤ rest'.length := Nat.succ.inj same ▸ header
    exact ⟨a, rest', rfl, Packet.decode_of_ne_checksum headerToo (valid ▸ differs)⟩

/-- Of 128 set bits all but the last are cleared on the way. -/
theorem Packet.decode_corrupted_cleared :
    let p : Packet := ⟨3, 0, 1, .udp, List.replicate 16 255⟩
    let d : Bytes := 196 :: 3 :: 0 :: 1 :: List.replicate 16 255
    let d' : Bytes := 196 :: 3 :: 0 :: 1 :: (List.replicate 15 0 ++ [128])
    Packet.decode d = .ok p ∧ Corrupted d d' ∧
      Packet.decode d' = .error (.invalidChecksum 196 6) := by
  intro p d d'
  have accepted : Packet.decode d = .ok p := by decide
  have corrupted : Corrupted d d' := .bits 196 (Or.inr (by decide)) (by decide) (by decide)
  obtain ⟨-, sum, rest, same, refused⟩ := (Packet.decode_corrupted accepted).1 d' corrupted
  obtain ⟨rfl, rfl⟩ := List.cons.inj same
  exact ⟨accepted, corrupted, refused⟩

end Deathmatch
