import Deathmatch.Proofs.Gameplay
import Mathlib.Algebra.GroupWithZero.Nat

/-!
# Where fields lie

Nothing in a payload says where a field starts or how long it is: a reader counts the bytes of the
fields before it. `Packet.Item.readAt_of_data` says that a field is read back wherever it stands,
whatever stands behind it, as long as a text has no zero byte of its own.

Readers count in machine words of 64 bits, where a sum can be too large, and a place that they count
can lie behind the payload. `Packet.fieldInWords` and `Packet.textInWords` read in that way, and
have no answer where a sum is lost or bytes are taken that are not there. They always have one, and
it is the one of `Packet.field` and `Packet.textAt`. `Packet.layout_readBack` sums up.
-/

namespace Deathmatch

namespace Packet

/-! ## Fields one behind the other -/

/-- A field to be written. A text ends at its first zero byte, so it has none of its own. -/
inductive Item where
  | raw (bs : Bytes)
  | text (s : String) (zeroFree : 0 ∉ Text.bytes s)
  | word (w : UInt32)
  | scalar (x : Scalar)

def Item.bytes : Item → Bytes
  | raw bs => bs
  | text s _ => Text.terminated s
  | word w => le32 w
  | scalar x => x.bytes

def write (p : Packet) : Item → Packet
  | .raw bs => p.append bs
  | .text s _ => p.appendText s
  | .word w => p.appendWord w
  | .scalar x => p.appendScalar x

/-- Whether the reader for fields of this kind finds the field at the offset. -/
def Item.ReadAt (p : Packet) (offset : Nat) : Item → Prop
  | raw bs => p.field offset bs.length = .ok bs
  | text s _ => p.textAt offset = .ok s
  | word w => p.wordAt offset = .ok w
  | scalar x => p.scalarAt offset = .ok x

variable {p : Packet} {offset length : Nat}

theorem data_write (p : Packet) (item : Item) : (p.write item).data = p.data ++ item.bytes := by
  cases item <;> rfl

theorem data_foldl_write (p : Packet) (items : List Item) :
    (items.foldl write p).data = p.data ++ items.flatMap Item.bytes := by
  induction items generalizing p with
  | nil => exact (List.append_nil p.data).symm
  | cons item items ih =>
    rw [List.foldl_cons, ih, data_write, List.append_assoc, List.flatMap_cons]

/-- A piece of the payload is read where it stands, and nothing else is. -/
theorem field_eq_ok_iff {bs : Bytes} : p.field offset length = .ok bs ↔
    ∃ front back, p.data = front ++ (bs ++ back) ∧ front.length = offset ∧ bs.length = length := by
  unfold field
  split
  · next fits =>
    constructor
    · intro read
      cases read
      refine ⟨p.data.take offset, (p.data.drop offset).drop length, ?_, ?_, ?_⟩
      · rw [List.take_append_drop, List.take_append_drop]
      · rw [List.length_take, Nat.min_eq_left (by omega)]
      · rw [List.length_take, List.length_drop, Nat.min_eq_left (by omega)]
    · rintro ⟨front, back, whole, rfl, rfl⟩
      rw [whole, List.drop_left, List.take_left]
  · next beyond =>
    refine iff_of_false nofun ?_
    rintro ⟨front, back, whole, rfl, rfl⟩
    rw [whole, List.length_append, List.length_append] at beyond
    omega

theorem exists_field_iff :
    (∃ bs, p.field offset length = .ok bs) ↔ offset + length ≤ p.data.length := by
  rw [exists_ok_iff, fails_field, Nat.not_lt]

theorem field_eq_error_iff {fault : PacketFault} : p.field offset length = .error fault ↔
    p.data.length < offset + length ∧ fault = .fieldOutOfRange offset length p.data.length := by
  unfold field
  split
  · next fits => exact iff_of_false nofun fun beyond => Nat.not_lt_of_le fits beyond.1
  · next beyond =>
    rw [Except.error.injEq, eq_comm (a := fault)]
    exact (and_iff_right (Nat.lt_of_not_le beyond)).symm

/-- A text is read where it stands with a zero byte or nothing behind it. -/
theorem textAt_eq_ok_iff_data {s : String} : p.textAt offset = .ok s ↔
    ∃ front back, p.data = front ++ (Text.bytes s ++ back) ∧ front.length = offset ∧
      0 ∉ Text.bytes s ∧ ∀ b ∈ back.head?, b = 0 := by
  rw [textAt_eq_ok_iff]
  constructor
  · rintro ⟨inside, read⟩
    obtain ⟨zeroFree, stops, whole⟩ := cut_iff.mp ⟨read, rfl⟩
    refine ⟨p.data.take offset, _, ?_, ?_, zeroFree, stops⟩
    · rw [whole, List.take_append_drop]
    · rw [List.length_take, Nat.min_eq_left inside]
  · rintro ⟨front, back, whole, rfl, zeroFree, stops⟩
    rw [whole, List.drop_left, List.length_append]
    exact ⟨Nat.le_add_right _ _, (cut_iff.mpr ⟨zeroFree, stops, rfl⟩).1⟩

theorem textAt_eq_error_iff {fault : PacketFault} : p.textAt offset = .error fault ↔
    (p.data.length < offset ∧ fault = .fieldOutOfRange offset 0 p.data.length) ∨
    (offset ≤ p.data.length ∧ fault = .invalidUtf8 offset ∧
      ∀ s, Text.bytes s ≠ (p.data.drop offset).takeWhile (· ≠ 0)) := by
  unfold textAt
  split
  · next inside =>
    have notBeyond : ¬ p.data.length < offset := Nat.not_lt_of_le inside
    cases read : Text.ofBytes? ((p.data.drop offset).takeWhile (· ≠ 0)) with
    | some s =>
      have same := Text.ofBytes?_eq_some_iff.mp read
      refine iff_of_false nofun ?_
      rintro (⟨beyond, -⟩ | ⟨-, -, none⟩)
      · exact notBeyond beyond
      · exact none s same
    | none =>
      have none (s : String) : Text.bytes s ≠ (p.data.drop offset).takeWhile (· ≠ 0) := by
        intro same
        cases read.symm.trans (Text.ofBytes?_eq_some_iff.mpr same)
      simp only [Except.error.injEq, notBeyond, false_and, false_or, inside, true_and]
      exact ⟨fun same => ⟨same.symm, none⟩, fun same => same.1.symm⟩
  · next beyond =>
    simp only [Except.error.injEq, beyond, false_and, or_false, Nat.lt_of_not_le beyond, true_and]
    exact eq_comm

/-- A field is found where it stands, whatever stands behind it. -/
theorem Item.readAt_of_data {item : Item} {front back : Bytes}
    (whole : p.data = front ++ (item.bytes ++ back)) : item.ReadAt p front.length := by
  have here : p.data.drop front.length = item.bytes ++ back := by
    rw [whole, List.drop_left]
  cases item with
  | raw bs => exact field_eq_ok_iff.mpr ⟨front, back, whole, rfl, rfl⟩
  | text s zeroFree =>
    refine textAt_eq_ok_iff_data.mpr ⟨front, 0 :: back, ?_, rfl, zeroFree, ?_⟩
    · rw [whole, bytes, Text.terminated, List.append_assoc, List.singleton_append]
    · exact fun b first => (Option.some.inj first).symm
  | word w => exact wordAt_of_drop here
  | scalar x => exact scalarAt_of_drop here

/-! ## Counting in machine words -/

/-- The sum of two words, unless it is too large: then what is left of it is less than either. -/
def checkedSum (a b : UInt64) : Option UInt64 :=
  if a + b < a then none else some (a + b)

theorem checkedSum_eq_some {a b : UInt64} (small : a.toNat + b.toNat < UInt64.size) :
    checkedSum a b = some (a + b) ∧ (a + b).toNat = a.toNat + b.toNat := by
  have exact : (a + b).toNat = a.toNat + b.toNat := by
    rw [UInt64.toNat_add]
    exact Nat.mod_eq_of_lt small
  refine ⟨if_neg ?_, exact⟩
  rw [UInt64.lt_iff_toNat_lt, exact]
  omega

theorem checkedSum_eq_none {a b : UInt64} (large : UInt64.size ≤ a.toNat + b.toNat) :
    checkedSum a b = none := by
  refine if_pos ?_
  have left := a.toNat_lt
  have right := b.toNat_lt
  rw [UInt64.size] at large
  rw [UInt64.lt_iff_toNat_lt, UInt64.toNat_add]
  omega

/-- The bytes from one place to another, if they are there. -/
def slice? (bs : Bytes) (start stop : UInt64) : Option Bytes :=
  if start ≤ stop ∧ stop.toNat ≤ bs.length then
    some ((bs.take stop.toNat).drop start.toNat)
  else
    none

theorem slice?_eq_some {bs : Bytes} {start stop : UInt64} {n : Nat}
    (count : stop.toNat = start.toNat + n) (inside : start.toNat + n ≤ bs.length) :
    slice? bs start stop = some ((bs.drop start.toNat).take n) := by
  have ordered : start ≤ stop := UInt64.le_iff_toNat_le.mpr (by omega)
  rw [slice?, if_pos ⟨ordered, by omega⟩, List.drop_take, count, Nat.add_sub_cancel_left]

/-- How many bytes the payload has. -/
def sizeWord (p : Packet) : UInt64 :=
  UInt64.ofNat p.data.length

theorem takeWhile_ne_zero (bs : Bytes) :
    bs.takeWhile (· ≠ 0) = bs.take (bs.findIdx (· = 0)) := by
  rw [List.takeWhile_eq_take_findIdx_not]
  simp

/-- The bytes up to the next zero byte or the end. -/
theorem slice?_eq_takeWhile {bs : Bytes} {start : UInt64} (inside : start.toNat ≤ bs.length)
    (stop : UInt64)
    (count : stop.toNat = start.toNat + (bs.drop start.toNat).findIdx (· = 0)) :
    slice? bs start stop = some ((bs.drop start.toNat).takeWhile (· ≠ 0)) := by
  have within : (bs.drop start.toNat).findIdx (· = 0) ≤ (bs.drop start.toNat).length :=
    List.findIdx_le_length
  rw [List.length_drop] at within
  rw [takeWhile_ne_zero]
  exact slice?_eq_some count (by omega)

/-- `field`, counted in machine words. -/
def fieldInWords (p : Packet) (offset length : UInt64) : Option (Except PacketFault Bytes) :=
  match (checkedSum offset length).filter (· ≤ p.sizeWord) with
  | some stop => (slice? p.data offset stop).map .ok
  | none => some (.error (.fieldOutOfRange offset.toNat length.toNat p.data.length))

/-- `textAt`, counted in machine words. The payload is searched for a zero byte from the offset
on. -/
def textInWords (p : Packet) (offset : UInt64) : Option (Except PacketFault String) :=
  if p.sizeWord < offset then
    some (.error (.fieldOutOfRange offset.toNat 0 p.data.length))
  else do
    let behind ← slice? p.data offset p.sizeWord
    let stop ← match behind.findIdx? (· = 0) with
      | some i => checkedSum offset (UInt64.ofNat i)
      | none => some p.sizeWord
    let found ← slice? p.data offset stop
    match Text.ofBytes? found with
    | some s => some (.ok s)
    | none => some (.error (.invalidUtf8 offset.toNat))

section

variable (small : p.data.length < UInt64.size)

include small

theorem toNat_sizeWord : p.sizeWord.toNat = p.data.length :=
  UInt64.toNat_ofNat_of_lt' small

theorem fieldInWords_eq (offset length : UInt64) :
    p.fieldInWords offset length = some (p.field offset.toNat length.toNat) := by
  have size := toNat_sizeWord small
  rw [fieldInWords, field]
  rcases Nat.lt_or_ge (offset.toNat + length.toNat) UInt64.size with fits | large
  · obtain ⟨sum, exact⟩ := checkedSum_eq_some fits
    have compare : offset + length ≤ p.sizeWord ↔
        offset.toNat + length.toNat ≤ p.data.length := by
      rw [UInt64.le_iff_toNat_le, exact, size]
    by_cases inside : offset.toNat + length.toNat ≤ p.data.length
    · rw [sum, Option.filter_some, if_pos (decide_eq_true (compare.mpr inside)), if_pos inside]
      exact congrArg (Option.map Except.ok) (slice?_eq_some exact inside)
    · rw [sum, Option.filter_some, if_neg (by simpa [compare] using inside), if_neg inside]
  · rw [checkedSum_eq_none large, Option.filter_none, if_neg (by omega)]

theorem textInWords_eq (offset : UInt64) :
    p.textInWords offset = some (p.textAt offset.toNat) := by
  have size := toNat_sizeWord small
  have compare : p.sizeWord < offset ↔ ¬ offset.toNat ≤ p.data.length := by
    rw [UInt64.lt_iff_toNat_lt, size, Nat.not_le]
  rw [textInWords, textAt]
  by_cases inside : offset.toNat ≤ p.data.length
  · have behind : slice? p.data offset p.sizeWord = some (p.data.drop offset.toNat) := by
      rw [slice?_eq_some (n := p.data.length - offset.toNat) (by omega) (by omega),
        ← List.length_drop, List.take_length]
    rw [if_neg (fun beyond => compare.mp beyond inside), if_pos inside, behind]
    simp only [Option.bind_eq_bind, Option.bind_some]
    cases search : (p.data.drop offset.toNat).findIdx? (· = 0) with
    | none =>
      have count := List.findIdx?_eq_none_iff_findIdx_eq.mp search
      rw [List.length_drop] at count
      have cut := slice?_eq_takeWhile inside p.sizeWord (by omega)
      simp only [Option.bind_some, cut]
      cases Text.ofBytes? ((p.data.drop offset.toNat).takeWhile (· ≠ 0)) <;> rfl
    | some i =>
      obtain ⟨before, count⟩ := List.findIdx?_eq_some_iff_findIdx_eq.mp search
      rw [List.length_drop] at before
      have index : (UInt64.ofNat i).toNat = i := UInt64.toNat_ofNat_of_lt' (by omega)
      obtain ⟨sum, exact⟩ := checkedSum_eq_some (a := offset) (b := UInt64.ofNat i) (by omega)
      have cut := slice?_eq_takeWhile inside (offset + UInt64.ofNat i) (by omega)
      simp only [sum, Option.bind_some, cut]
      cases Text.ofBytes? ((p.data.drop offset.toNat).takeWhile (· ≠ 0)) <;> rfl
  · rw [if_pos (compare.mpr inside), if_neg inside]

end

/-! ## What is written and what is read -/

/-- Fields that are written onto a packet one behind the other are read back bit for bit, each of
them behind the bytes of those before it, whatever follows. A piece is read just when all of it lies
in the payload, and then it is what stands there. A text is read just when it stands there with a
zero byte or nothing behind it, and is out of range just when its offset is. Both readers have these
answers when they count in machine words: no sum is lost, and no byte is taken that is not there. -/
theorem layout_readBack (p : Packet) :
    (∀ before item after,
      Item.ReadAt ((before ++ item :: after).foldl write p)
        (p.data.length + (before.map (·.bytes.length)).sum) item) ∧
    (∀ offset length,
      ((∃ bs, p.field offset length = .ok bs) ↔ offset + length ≤ p.data.length) ∧
      (∀ bs, p.field offset length = .ok bs ↔
        ∃ front back, p.data = front ++ (bs ++ back) ∧ front.length = offset ∧
          bs.length = length) ∧
      ∀ fault, p.field offset length = .error fault ↔
        p.data.length < offset + length ∧ fault = .fieldOutOfRange offset length p.data.length) ∧
    (∀ offset,
      (∀ start length payload,
        p.textAt offset = .error (.fieldOutOfRange start length payload) ↔
          p.data.length < offset ∧ start = offset ∧ length = 0 ∧ payload = p.data.length) ∧
      ∀ s, p.textAt offset = .ok s ↔
        ∃ front back, p.data = front ++ (Text.bytes s ++ back) ∧ front.length = offset ∧
          0 ∉ Text.bytes s ∧ ∀ b ∈ back.head?, b = 0) ∧
    (p.data.length < UInt64.size → ∀ offset length : UInt64,
      p.fieldInWords offset length = some (p.field offset.toNat length.toNat) ∧
      p.textInWords offset = some (p.textAt offset.toNat)) := by
  refine ⟨fun before item after => ?_, fun offset length => ⟨exists_field_iff,
    fun bs => field_eq_ok_iff, fun fault => field_eq_error_iff⟩,
    fun offset => ⟨fun start length payload => ?_, fun s => textAt_eq_ok_iff_data⟩,
    fun small offset length => ⟨fieldInWords_eq small offset length, textInWords_eq small offset⟩⟩
  · have place : p.data.length + (before.map (·.bytes.length)).sum =
        (p.data ++ before.flatMap Item.bytes).length := by
      rw [List.length_append, List.length_flatMap]
    have written : ((before ++ item :: after).foldl write p).data =
        (p.data ++ before.flatMap Item.bytes) ++ (item.bytes ++ after.flatMap Item.bytes) := by
      rw [data_foldl_write, List.flatMap_append, List.flatMap_cons, List.append_assoc]
    rw [place]
    exact Item.readAt_of_data written
  · rw [textAt_eq_error_iff]
    simp

/-- A piece, a text with a wide character, a word and a scalar that is no number, behind a byte that
was there. An offset at the end of the words is out of range, whatever is added to it. -/
theorem layout_readBack_mixed :
    let p := Packet.udp 4 [7]
    let accent : Item := .text "é" (by decide)
    let front : List Item := [.raw [1, 2], accent, .word 0x04030201]
    let last : Item := .scalar ⟨0x7fc00001⟩
    let q := (front ++ [last]).foldl write p
    q.data = [7, 1, 2, 0xc3, 0xa9, 0, 1, 2, 3, 4, 1, 0, 0xc0, 0x7f] ∧
    q.scalarAt 10 = .ok ⟨0x7fc00001⟩ ∧ q.textAt 3 = .ok "é" ∧
    q.data.length < UInt64.size ∧
    q.fieldInWords 18446744073709551615 2 =
      some (.error (.fieldOutOfRange 18446744073709551615 2 14)) := by
  intro p accent front last q
  have small : q.data.length < UInt64.size := by decide
  obtain ⟨readBack, -⟩ := layout_readBack p
  obtain ⟨-, -, -, counted⟩ := layout_readBack q
  refine ⟨by decide, readBack front last [],
    readBack [.raw [1, 2]] accent [.word 0x04030201, last], small, ?_⟩
  exact (counted small 18446744073709551615 2).1.trans (by decide)

end Packet

end Deathmatch
