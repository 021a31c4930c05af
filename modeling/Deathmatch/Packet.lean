import Deathmatch.Text
import Deathmatch.Scalar

/-!
# Packets

A packet is an id and a run of payload bytes. Fields are written back to back with no length
before them: a reader knows where a field starts and how long it is, or reads a text up to its
zero byte. A packet also carries its place among the fragments of a split payload.
-/

namespace Deathmatch

/-- The channel a packet travels on. -/
inductive Transport where
  /-- The ordered control channel. -/
  | tcp
  /-- The datagram channel. -/
  | udp
  deriving DecidableEq, Inhabited

structure Packet where
  id : UInt8
  index : UInt8
  total : UInt8
  transport : Transport
  data : Bytes
  deriving DecidableEq, Inhabited

/-! ## What the ids mean -/

namespace PacketId

def handshake : UInt8 := 0
def connect : UInt8 := 1
def disconnect : UInt8 := 2
def chat : UInt8 := 3
/-- A world broadcast on its way out, an acknowledgement on its way in. -/
def snapshot : UInt8 := 4
def movement : UInt8 := 5
def infoChange : UInt8 := 7
def damage : UInt8 := 12

end PacketId

/-- What can be wrong with a datagram, a field or a set of fragments. -/
inductive PacketFault where
  /-- The datagram has `length` bytes, fewer than the `least` of its header. -/
  | malformed (length least : Nat)
  | invalidChecksum (expected computed : UInt8)
  /-- The payload of `payload` bytes does not hold `length` bytes from `offset` on. -/
  | fieldOutOfRange (offset length payload : Nat)
  | missingFragment (id index total : UInt8)
  | invalidUtf8 (offset : Nat)
  | tooManyFragments (payload : Nat)
  deriving DecidableEq

namespace Packet

/-- An unsplit packet. -/
def unsplit (transport : Transport) (id : UInt8) (data : Bytes) : Packet :=
  { id, index := 0, total := 1, transport, data }

def tcp (id : UInt8) (data : Bytes) : Packet :=
  unsplit .tcp id data

def udp (id : UInt8) (data : Bytes) : Packet :=
  unsplit .udp id data

/-! ## Writing fields -/

def append (p : Packet) (bs : Bytes) : Packet :=
  { p with data := p.data ++ bs }

def appendText (p : Packet) (s : String) : Packet :=
  p.append (Text.terminated s)

def appendWord (p : Packet) (w : UInt32) : Packet :=
  p.append (le32 w)

def appendScalar (p : Packet) (s : Scalar) : Packet :=
  p.append s.bytes

/-! ## Reading fields -/

/-- The `length` bytes from `offset` on. -/
def field (p : Packet) (offset length : Nat) : Except PacketFault Bytes :=
  if offset + length ≤ p.data.length then
    .ok ((p.data.drop offset).take length)
  else
    .error (.fieldOutOfRange offset length p.data.length)

/-- The text from `offset` on, up to the next zero byte or the end of the payload. -/
def textAt (p : Packet) (offset : Nat) : Except PacketFault String :=
  if offset ≤ p.data.length then
    match Text.ofBytes? ((p.data.drop offset).takeWhile (· ≠ 0)) with
    | some s => .ok s
    | none => .error (.invalidUtf8 offset)
  else
    .error (.fieldOutOfRange offset 0 p.data.length)

def byteAt (p : Packet) (offset : Nat) : Except PacketFault UInt8 :=
  match p.data.drop offset with
  | b :: _ => .ok b
  | _ => .error (.fieldOutOfRange offset 1 p.data.length)

def wordAt (p : Packet) (offset : Nat) : Except PacketFault UInt32 :=
  match p.data.drop offset with
  | b₀ :: b₁ :: b₂ :: b₃ :: _ => .ok (word32 b₀ b₁ b₂ b₃)
  | _ => .error (.fieldOutOfRange offset 4 p.data.length)

def scalarAt (p : Packet) (offset : Nat) : Except PacketFault Scalar :=
  (p.wordAt offset).map Scalar.mk

end Packet

end Deathmatch
