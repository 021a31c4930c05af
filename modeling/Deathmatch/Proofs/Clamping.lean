import Deathmatch.Proofs.Roster

/-!
# Texts that are cut

A text can be cut where a character begins, and at its end. In UTF-8 the bytes tell: at most three
that begin no character follow the one that does (`Text.utf8EncodeChar_cases`), so the places where
the bytes can be cut are the ends of the beginnings of the text (`Text.isBoundary_iff`).

`Text.clamp` counts characters from the front. The same place is found from behind, by going back
from the limit a byte at a time until the text can be cut (`Text.bytes_clamp`). Nothing in the walk
looks for the start of the text: it ends after three steps at most, for a character that does not
fit leaves less than its own size unused (`Text.lt_size_clamp`). What is kept is the longest
beginning that fits. `Player.clampName_longest` says all this of names.
-/

namespace Deathmatch

namespace Text

/-! ## Where characters begin -/

/-- Whether a character begins with the byte. -/
def begins (b : UInt8) : Bool :=
  b < 128 || 192 ≤ b

theorem begins_ofNat {n : Nat} (small : n < 256) :
    begins (UInt8.ofNat n) = true ↔ n < 128 ∨ 192 ≤ n := by
  have value : (UInt8.ofNat n).toNat = n := UInt8.toNat_ofNat_of_lt' small
  rw [begins, Bool.or_eq_true, decide_eq_true_iff, decide_eq_true_iff, UInt8.lt_iff_toNat_lt,
    UInt8.le_iff_toNat_le, value]
  rfl

/-- A character has one byte with which it begins, and up to three with which it goes on. -/
theorem utf8EncodeChar_cases (c : Char) : ∃ first more, String.utf8EncodeChar c = first :: more ∧
    begins first = true ∧ (∀ b ∈ more, ¬ begins b = true) ∧ more.length ≤ 3 := by
  have goesOn (v : Nat) : ¬ begins (UInt8.ofNat (v % 64 + 128)) = true := by
    rw [begins_ofNat (by omega)]
    omega
  unfold String.utf8EncodeChar
  dsimp only
  split
  · refine ⟨_, _, rfl, ?_, List.forall_mem_nil _, Nat.zero_le 3⟩
    rw [begins_ofNat (by omega)]
    omega
  split
  · refine ⟨_, _, rfl, ?_, List.forall_mem_singleton.mpr (goesOn _), Nat.le_add_right 1 2⟩
    rw [begins_ofNat (by omega)]
    omega
  split
  · refine ⟨_, _, rfl, ?_, ?_, Nat.le_add_right 2 1⟩
    · rw [begins_ofNat (by omega)]
      omega
    · exact List.forall_mem_cons.mpr ⟨goesOn _, List.forall_mem_singleton.mpr (goesOn _)⟩
  · refine ⟨_, _, rfl, ?_, ?_, Nat.le_refl 3⟩
    · rw [begins_ofNat (by omega)]
      omega
    · exact List.forall_mem_cons.mpr ⟨goesOn _, List.forall_mem_cons.mpr
        ⟨goesOn _, List.forall_mem_singleton.mpr (goesOn _)⟩⟩

theorem bytes_ofList_cons (c : Char) (cs : List Char) :
    bytes (String.ofList (c :: cs)) = String.utf8EncodeChar c ++ bytes (String.ofList cs) := by
  simp [bytes, List.utf8Encode_singleton]

/-- Whether the bytes can be cut in front of the one of this number: a character begins with it, or
there are no more. -/
def isBoundary (bs : Bytes) (i : Nat) : Bool :=
  match bs[i]? with
  | some b => begins b
  | none => i = bs.length

theorem isBoundary_append (front back : Bytes) (i : Nat) :
    isBoundary (front ++ back) (front.length + i) = isBoundary back i := by
  rw [isBoundary, isBoundary, List.getElem?_append_right (Nat.le_add_right _ _),
    Nat.add_sub_cancel_left, List.length_append]
  cases back[i]? with
  | some b => rfl
  | none => simp

/-- Within the first character, the bytes can be cut in front of it only. -/
theorem isBoundary_utf8EncodeChar {c : Char} {n : Nat} (inside : n < c.utf8Size) (rest : Bytes) :
    isBoundary (String.utf8EncodeChar c ++ rest) n = true ↔ n = 0 := by
  obtain ⟨first, more, encoded, starts, goesOn, -⟩ := utf8EncodeChar_cases c
  rw [← String.length_utf8EncodeChar] at inside
  rw [isBoundary, List.getElem?_append_left inside]
  rw [encoded] at inside ⊢
  cases n with
  | zero => exact iff_of_true starts rfl
  | succ n =>
    have within : n < more.length := Nat.lt_of_succ_lt_succ inside
    rw [List.getElem?_cons_succ, List.getElem?_eq_getElem within]
    exact iff_of_false (goesOn _ (List.getElem_mem within)) (Nat.succ_ne_zero n)

theorem isBoundary_ofList {cs : List Char} {n : Nat} :
    isBoundary (bytes (String.ofList cs)) n = true ↔
      ∃ us vs, us ++ vs = cs ∧ charsSize us = n := by
  induction cs generalizing n with
  | nil =>
    constructor
    · intro boundary
      have atEnd : n = 0 := of_decide_eq_true boundary
      exact ⟨[], [], rfl, atEnd.symm⟩
    · rintro ⟨us, vs, split, rfl⟩
      obtain ⟨rfl, -⟩ := List.append_eq_nil_iff.mp split
      rfl
  | cons c cs ih =>
    rw [bytes_ofList_cons]
    rcases Nat.lt_or_ge n c.utf8Size with inside | behind
    · rw [isBoundary_utf8EncodeChar inside]
      constructor
      · rintro rfl
        exact ⟨[], c :: cs, rfl, rfl⟩
      · rintro ⟨us, vs, split, rfl⟩
        cases us with
        | nil => rfl
        | cons d us =>
          obtain ⟨rfl, -⟩ := List.cons.inj split
          rw [charsSize] at inside
          omega
    · obtain ⟨k, rfl⟩ := Nat.exists_eq_add_of_le behind
      rw [← String.length_utf8EncodeChar, isBoundary_append, ih, String.length_utf8EncodeChar]
      constructor
      · rintro ⟨us, vs, rfl, rfl⟩
        exact ⟨c :: us, vs, rfl, rfl⟩
      · rintro ⟨us, vs, split, same⟩
        cases us with
        | nil =>
          have positive := c.utf8Size_pos
          rw [charsSize] at same
          omega
        | cons d us =>
          obtain ⟨rfl, rest⟩ := List.cons.inj split
          rw [charsSize] at same
          exact ⟨us, vs, rest, by omega⟩

/-! ## The longest beginning that fits -/

theorem clampChars_prefix (limit : Nat) (cs : List Char) : clampChars limit cs <+: cs := by
  induction cs generalizing limit with
  | nil => exact List.prefix_refl []
  | cons c cs ih =>
    unfold clampChars
    split
    · exact List.cons_prefix_cons.mpr ⟨rfl, ih _⟩
    · exact List.nil_prefix

theorem prefix_clampChars {limit : Nat} {us cs : List Char} (front : us <+: cs)
    (fits : charsSize us ≤ limit) : us <+: clampChars limit cs := by
  induction cs generalizing limit us with
  | nil => exact front
  | cons c cs ih =>
    cases us with
    | nil => exact List.nil_prefix
    | cons d us =>
      obtain ⟨rfl, rest⟩ := List.cons_prefix_cons.mp front
      rw [charsSize] at fits
      rw [clampChars, if_pos (by omega)]
      exact List.cons_prefix_cons.mpr ⟨rfl, ih rest (by omega)⟩

theorem lt_charsSize_clampChars {limit : Nat} {cs : List Char} (long : limit < charsSize cs) :
    limit < charsSize (clampChars limit cs) + 4 := by
  induction cs generalizing limit with
  | nil => exact absurd long (Nat.not_lt_zero _)
  | cons c cs ih =>
    rw [charsSize] at long
    unfold clampChars
    split
    · have rest : limit - c.utf8Size < charsSize (clampChars (limit - c.utf8Size) cs) + 4 :=
        ih (by omega)
      rw [charsSize]
      omega
    · have size := c.utf8Size_le_four
      rw [charsSize]
      omega

variable {limit : Nat} {s t rest : String}

theorem exists_append_iff : (∃ rest, t ++ rest = s) ↔ t.toList <+: s.toList := by
  constructor
  · rintro ⟨rest, rfl⟩
    rw [String.toList_append]
    exact List.prefix_append _ _
  · rintro ⟨more, whole⟩
    refine ⟨String.ofList more, ?_⟩
    rw [← String.ofList_toList (s := t), ← String.ofList_append, whole, String.ofList_toList]

theorem charsSize_toList (s : String) : charsSize s.toList = s.utf8ByteSize := by
  rw [charsSize_eq, String.ofList_toList]

theorem toList_clamp (limit : Nat) (s : String) :
    (clamp limit s).toList = clampChars limit s.toList :=
  String.toList_ofList

theorem clamp_append (limit : Nat) (s : String) : ∃ rest, clamp limit s ++ rest = s := by
  rw [exists_append_iff, toList_clamp]
  exact clampChars_prefix limit s.toList

/-- A beginning that fits is a beginning of what is kept. -/
theorem append_eq_clamp (whole : t ++ rest = s) (fits : t.utf8ByteSize ≤ limit) :
    ∃ more, t ++ more = clamp limit s := by
  rw [exists_append_iff, toList_clamp]
  refine prefix_clampChars (exists_append_iff.mp ⟨rest, whole⟩) ?_
  rwa [charsSize_toList]

theorem lt_size_clamp (long : limit < s.utf8ByteSize) :
    limit < (clamp limit s).utf8ByteSize + 4 := by
  rw [← charsSize_toList, toList_clamp]
  exact lt_charsSize_clampChars (by rwa [charsSize_toList])

/-! ## Going back from the limit -/

/-- The last place up to `i` where the bytes can be cut, found by going back one at a time. They can
always be cut at the start. -/
def stepBack (bs : Bytes) : Nat → Nat
  | 0 => 0
  | i + 1 => if isBoundary bs (i + 1) then i + 1 else stepBack bs i

/-- The bytes up to the last place within the limit where they can be cut; all of them if they are
not too many. -/
def cutBack (limit : Nat) (bs : Bytes) : Bytes :=
  if bs.length ≤ limit then bs else bs.take (stepBack bs limit)

theorem stepBack_eq {bs : Bytes} {n : Nat} (within : n ≤ limit) (boundary : isBoundary bs n = true)
    (last : ∀ i, n < i → i ≤ limit → ¬ isBoundary bs i = true) : stepBack bs limit = n := by
  induction limit with
  | zero => exact (Nat.le_zero.mp within).symm
  | succ i ih =>
    rw [stepBack]
    rcases Nat.eq_or_lt_of_le within with rfl | before
    · rw [if_pos boundary]
    · rw [if_neg (last (i + 1) before (Nat.le_refl _))]
      exact ih (by omega) fun j after inside => last j after (by omega)

/-- The bytes of a text can be cut where one of its beginnings ends. -/
theorem isBoundary_iff {n : Nat} :
    isBoundary (bytes s) n = true ↔ ∃ t rest, t ++ rest = s ∧ t.utf8ByteSize = n := by
  rw [← String.ofList_toList (s := s), isBoundary_ofList]
  constructor
  · rintro ⟨us, vs, whole, rfl⟩
    refine ⟨String.ofList us, String.ofList vs, ?_, (charsSize_eq us).symm⟩
    rw [← String.ofList_append, whole]
  · rintro ⟨t, rest, whole, rfl⟩
    refine ⟨t.toList, rest.toList, ?_, charsSize_toList t⟩
    rw [← String.toList_append, whole, String.toList_ofList]

theorem isBoundary_clamp (limit : Nat) (s : String) :
    isBoundary (bytes s) (clamp limit s).utf8ByteSize = true := by
  obtain ⟨rest, whole⟩ := clamp_append limit s
  exact isBoundary_iff.mpr ⟨_, rest, whole, rfl⟩

theorem le_size_clamp {n : Nat} (boundary : isBoundary (bytes s) n = true) (fits : n ≤ limit) :
    n ≤ (clamp limit s).utf8ByteSize := by
  obtain ⟨t, rest, whole, rfl⟩ := isBoundary_iff.mp boundary
  obtain ⟨more, kept⟩ := append_eq_clamp whole fits
  rw [← kept, String.utf8ByteSize_append]
  omega

/-- Going back from the limit ends where counting from the front does. -/
theorem stepBack_bytes (limit : Nat) (s : String) :
    stepBack (bytes s) limit = (clamp limit s).utf8ByteSize := by
  refine stepBack_eq (size_clamp_le limit s) (isBoundary_clamp limit s) ?_
  intro i after fits boundary
  have before := le_size_clamp boundary fits
  omega

theorem bytes_clamp (limit : Nat) (s : String) :
    bytes (clamp limit s) = cutBack limit (bytes s) := by
  rw [cutBack, length_bytes]
  split
  · next short => rw [clamp_of_le short]
  · obtain ⟨rest, whole⟩ := clamp_append limit s
    have split : bytes s = bytes (clamp limit s) ++ bytes rest := by
      rw [← bytes_append, whole]
    rw [stepBack_bytes, ← length_bytes, split, List.take_left]

end Text

/-! ## Names -/

namespace Player

/-- A name is cut to its longest beginning of at most 32 bytes. It is left as it is just when it is
not longer, and loses no more than it has to: at least 29 bytes are kept. The same bytes are left
when the name is cut where one gets by going back from byte 32. That takes three steps at most, for
only the last place that is looked at is one where the bytes can be cut. What is left is the form of
a text. To cut it again changes nothing, so a player who joins under a cut name has that name. -/
theorem clampName_longest (name : String) :
    let kept := clampName name
    (∃ rest, kept ++ rest = name) ∧ kept.utf8ByteSize ≤ 32 ∧
    (∀ t rest, t ++ rest = name → t.utf8ByteSize ≤ 32 → ∃ more, t ++ more = kept) ∧
    (kept = name ↔ name.utf8ByteSize ≤ 32) ∧
    (32 < name.utf8ByteSize → 29 ≤ kept.utf8ByteSize) ∧
    Text.ofBytes? (Text.cutBack 32 (Text.bytes name)) = some kept ∧
    (32 < name.utf8ByteSize → ∃ steps ≤ 3,
      Text.stepBack (Text.bytes name) 32 + steps = 32 ∧
      Text.isBoundary (Text.bytes name) (32 - steps) = true ∧
      ∀ i < steps, ¬ Text.isBoundary (Text.bytes name) (32 - i) = true) ∧
    clampName kept = kept ∧
    ∀ slot account spawn, (join slot account kept spawn).name = kept := by
  intro kept
  have short : kept.utf8ByteSize ≤ 32 := size_clampName name
  have enough (long : 32 < name.utf8ByteSize) : 29 ≤ kept.utf8ByteSize := by
    have near : 32 < kept.utf8ByteSize + 4 := Text.lt_size_clamp long
    omega
  refine ⟨Text.clamp_append 32 name, short, fun t rest => Text.append_eq_clamp, ⟨fun same => ?_,
    Text.clamp_of_le⟩, enough, ?_, fun long => ?_, clampName_clampName name,
    fun slot account spawn => clampName_clampName name⟩
  · rw [← same]
    exact short
  · rw [← Text.bytes_clamp]
    exact Text.ofBytes?_bytes kept
  · have last : Text.stepBack (Text.bytes name) 32 = kept.utf8ByteSize :=
      Text.stepBack_bytes 32 name
    have far := enough long
    refine ⟨32 - kept.utf8ByteSize, by omega, by omega, ?_, fun i before boundary => ?_⟩
    · rw [Nat.sub_sub_self short]
      exact Text.isBoundary_clamp 32 name
    · have kept' : 32 - i ≤ kept.utf8ByteSize := Text.le_size_clamp boundary (Nat.sub_le 32 i)
      omega

/-- Byte 32 is the second of the last character, which goes. -/
theorem clampName_longest_accented :
    let name := String.ofList (List.replicate 31 'x' ++ ['é'])
    name.utf8ByteSize = 33 ∧ clampName name = String.ofList (List.replicate 31 'x') ∧
    29 ≤ (clampName name).utf8ByteSize ∧
    ∃ steps ≤ 3, Text.stepBack (Text.bytes name) 32 + steps = 32 := by
  intro name
  have size : name.utf8ByteSize = 33 := by decide
  obtain ⟨-, -, -, -, enough, -, walk, -⟩ := clampName_longest name
  have long : 32 < name.utf8ByteSize := by omega
  obtain ⟨steps, few, back, -⟩ := walk long
  exact ⟨size, by decide, enough long, steps, few, back⟩

end Player

end Deathmatch
