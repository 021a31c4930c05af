import Deathmatch.Snapshot

/-!
# Visible fields

The 15 attributes of a player that other clients see, in the order in which they are written. A
field is written as its tag and its value: a scalar takes four bytes, a byte one, and a text ends
with a zero byte.
-/

namespace Deathmatch

inductive Field where
  | name
  | score
  | positionX
  | positionY
  | positionZ
  | pitch
  | yaw
  | velocityX
  | velocityY
  | velocityZ
  | angularVelocityX
  | angularVelocityY
  | model
  | weapon
  | life
  deriving DecidableEq

inductive FieldValue where
  | scalar (s : Scalar)
  | byte (b : UInt8)
  | text (s : String)
  deriving DecidableEq

def FieldValue.bytes : FieldValue → Bytes
  | scalar s => s.bytes
  | byte b => [b]
  | text s => Text.terminated s

namespace Field

/-- Every field once, in the order in which they are written. -/
def all : List Field :=
  [name, score, positionX, positionY, positionZ, pitch, yaw, velocityX, velocityY, velocityZ,
    angularVelocityX, angularVelocityY, model, weapon, life]

/-- The byte that announces the field, an ASCII letter. -/
def tag : Field → UInt8
  | name => 'N'.toUInt8
  | score => 'L'.toUInt8
  | positionX => 'X'.toUInt8
  | positionY => 'Y'.toUInt8
  | positionZ => 'Z'.toUInt8
  | pitch => 'P'.toUInt8
  | yaw => 'Q'.toUInt8
  | velocityX => 'T'.toUInt8
  | velocityY => 'S'.toUInt8
  | velocityZ => 'R'.toUInt8
  | angularVelocityX => 'U'.toUInt8
  | angularVelocityY => 'V'.toUInt8
  | model => 'M'.toUInt8
  | weapon => 'W'.toUInt8
  | life => 'H'.toUInt8

def value : Field → Player → FieldValue
  | name, p => .text p.name
  | score, p => .byte p.score
  | positionX, p => .scalar p.motion.position.x
  | positionY, p => .scalar p.motion.position.y
  | positionZ, p => .scalar p.motion.position.z
  | pitch, p => .scalar p.motion.rotation.x
  | yaw, p => .scalar p.motion.rotation.y
  | velocityX, p => .scalar p.motion.velocity.x
  | velocityY, p => .scalar p.motion.velocity.y
  | velocityZ, p => .scalar p.motion.velocity.z
  | angularVelocityX, p => .scalar p.motion.angularVelocity.x
  | angularVelocityY, p => .scalar p.motion.angularVelocity.y
  | model, p => .byte p.model
  | weapon, p => .byte p.weapon
  | life, p => .byte p.life.toByte

/-- A field of `p` as it is written. -/
def bytes (f : Field) (p : Player) : Bytes :=
  f.tag :: (f.value p).bytes

end Field

namespace Player

/-- The fields of a player that a client lacks who knows `baseline` of them, or nothing. -/
def changedFields (p : Player) (baseline : Option Player) : List Field :=
  match baseline with
  | none => Field.all
  | some old => Field.all.filter fun f => f.value old ≠ f.value p

/-- The changed fields of a player, as they are written. -/
def fieldBytes (p : Player) (baseline : Option Player) : Bytes :=
  (p.changedFields baseline).flatMap fun f => f.bytes p

/-- One field behind those already written, and their number. A field that the client has as it is
is left out. -/
def writeField (p : Player) (baseline : Option Player) (written : Bytes × Nat) (f : Field) :
    Bytes × Nat :=
  match baseline with
  | some old =>
    if f.value old = f.value p then written else (written.1 ++ f.bytes p, written.2 + 1)
  | none => (written.1 ++ f.bytes p, written.2 + 1)

/-- The buffer `out` with the changed fields of a player appended, and how many they are. -/
def writeFields (p : Player) (baseline : Option Player) (out : Bytes) : Bytes × Nat :=
  Field.all.foldl (p.writeField baseline) (out, 0)

end Player

end Deathmatch
