import Deathmatch.Scalar

/-!
# Motion

Where a thing is, how it is turned, and the rates at which both change. Between reports the
server carries a thing on along its rates.
-/

namespace Deathmatch

/-- A vector of the playing field, or the angles pitch, yaw and roll. -/
structure Vec3 where
  x : Scalar
  y : Scalar
  z : Scalar
  deriving DecidableEq, Inhabited

namespace Vec3

def zero : Vec3 := ⟨.zero, .zero, .zero⟩

def add (u v : Vec3) : Vec3 :=
  ⟨u.x.add v.x, u.y.add v.y, u.z.add v.z⟩

def scale (u : Vec3) (k : Scalar) : Vec3 :=
  ⟨u.x.mul k, u.y.mul k, u.z.mul k⟩

end Vec3

structure Motion where
  position : Vec3
  rotation : Vec3
  velocity : Vec3
  angularVelocity : Vec3
  deriving DecidableEq, Inhabited

namespace Motion

/-- Standing still at `position`, unturned. -/
def rest (position : Vec3) : Motion :=
  ⟨position, .zero, .zero, .zero⟩

/-- The motion after `dt` seconds: position and rotation advance by their rates. -/
def extrapolate (m : Motion) (dt : Scalar) : Motion :=
  { m with
    position := m.position.add (m.velocity.scale dt)
    rotation := m.rotation.add (m.angularVelocity.scale dt) }

/-- The motion stopped where it is. -/
def halted (m : Motion) : Motion :=
  { m with velocity := .zero, angularVelocity := .zero }

end Motion

/-- A thing of the field that no client steers. -/
structure Entity where
  id : UInt32
  model : UInt8
  motion : Motion
  deriving DecidableEq, Inhabited

def Entity.extrapolate (e : Entity) (dt : Scalar) : Entity :=
  { e with motion := e.motion.extrapolate dt }

end Deathmatch
