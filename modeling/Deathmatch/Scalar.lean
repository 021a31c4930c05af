import Deathmatch.Bytes

/-!
# Scalars

Coordinates and velocities are IEEE 754 singles. A scalar is kept as its bits, so that two of
them are equal exactly when they are the same on the wire: `0.0` and `-0.0` differ, and a NaN
equals itself. Arithmetic rounds every operation to the nearest single.
-/

namespace Deathmatch

structure Scalar where
  bits : UInt32
  deriving DecidableEq, Inhabited

namespace Scalar

def zero : Scalar := ⟨0⟩

/-- The number with these bits. -/
def toFloat (s : Scalar) : Float32 :=
  Float32.ofBits s.bits

def ofFloat (x : Float32) : Scalar :=
  ⟨x.toBits⟩

def add (a b : Scalar) : Scalar :=
  ofFloat (a.toFloat + b.toFloat)

def mul (a b : Scalar) : Scalar :=
  ofFloat (a.toFloat * b.toFloat)

def div (a b : Scalar) : Scalar :=
  ofFloat (a.toFloat / b.toFloat)

/-- The single nearest to a natural number. -/
def ofNat (n : Nat) : Scalar :=
  ofFloat (Float32.ofNat n)

def isNaN (s : Scalar) : Bool :=
  s.toFloat.isNaN

/-- The four bytes of a scalar, least significant first. -/
def bytes (s : Scalar) : Bytes :=
  le32 s.bits

@[simp] theorem length_bytes (s : Scalar) : s.bytes.length = 4 := rfl

theorem bytes_injective {a b : Scalar} (h : a.bytes = b.bytes) : a = b := by
  cases a
  cases b
  exact congrArg Scalar.mk (le32_injective h)

end Scalar

end Deathmatch
