/-!
# Bytes and little-endian words

Everything that travels is a list of bytes. Words of two and four bytes are written least
significant byte first. `word16_le16` and `word32_le32` say that reading undoes writing, and
`le16_word16` and `le32_word32` that every two or four bytes are the form of exactly one word.
-/

namespace Deathmatch

/-- A byte string, first byte first. -/
abbrev Bytes := List UInt8

/-- The two bytes of a word, least significant first. -/
def le16 (w : UInt16) : Bytes :=
  [w.toUInt8, (w / 256).toUInt8]

/-- The four bytes of a word, least significant first. -/
def le32 (w : UInt32) : Bytes :=
  [w.toUInt8, (w / 256).toUInt8, (w / 65536).toUInt8, (w / 16777216).toUInt8]

/-- The word whose bytes are `b₀ b₁`, least significant first. -/
def word16 (b₀ b₁ : UInt8) : UInt16 :=
  b₀.toUInt16 + 256 * b₁.toUInt16

/-- The word whose bytes are `b₀ b₁ b₂ b₃`, least significant first. -/
def word32 (b₀ b₁ b₂ b₃ : UInt8) : UInt32 :=
  b₀.toUInt32 + 256 * b₁.toUInt32 + 65536 * b₂.toUInt32 + 16777216 * b₃.toUInt32

@[simp] theorem length_le16 (w : UInt16) : (le16 w).length = 2 := rfl

@[simp] theorem length_le32 (w : UInt32) : (le32 w).length = 4 := rfl

theorem word16_le16 (w : UInt16) : word16 w.toUInt8 (w / 256).toUInt8 = w := by
  apply UInt16.toNat.inj
  have bound := w.toNat_lt
  simp [word16]
  omega

theorem word32_le32 (w : UInt32) :
    word32 w.toUInt8 (w / 256).toUInt8 (w / 65536).toUInt8 (w / 16777216).toUInt8 = w := by
  apply UInt32.toNat.inj
  have bound := w.toNat_lt
  simp [word32]
  omega

theorem le16_word16 (b₀ b₁ : UInt8) : le16 (word16 b₀ b₁) = [b₀, b₁] := by
  have h₀ := b₀.toNat_lt
  have h₁ := b₁.toNat_lt
  simp only [le16, List.cons.injEq, and_true]
  refine ⟨?_, ?_⟩
  · apply UInt8.toNat.inj
    simp [word16]
  · apply UInt8.toNat.inj
    simp [word16]
    omega

theorem le32_word32 (b₀ b₁ b₂ b₃ : UInt8) : le32 (word32 b₀ b₁ b₂ b₃) = [b₀, b₁, b₂, b₃] := by
  have h₀ := b₀.toNat_lt
  have h₁ := b₁.toNat_lt
  have h₂ := b₂.toNat_lt
  have h₃ := b₃.toNat_lt
  simp only [le32, List.cons.injEq, and_true]
  refine ⟨?_, ?_, ?_, ?_⟩ <;> apply UInt8.toNat.inj <;> simp [word32] <;> omega

theorem le32_injective {v w : UInt32} (h : le32 v = le32 w) : v = w := by
  simp only [le32, List.cons.injEq, and_true] at h
  rw [← word32_le32 v, ← word32_le32 w, h.1, h.2.1, h.2.2.1, h.2.2.2]

end Deathmatch
