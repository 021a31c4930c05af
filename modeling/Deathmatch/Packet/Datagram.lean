import Deathmatch.Packet

/-!
# Datagrams

A datagram is a header of four bytes, `checksum id index total`, and at most 572 bytes of
payload. A payload that fits goes out as one datagram that keeps the packet's own place, so a
sender may split a message by hand. A larger one is cut into numbered fragments, at most 255.
-/

namespace Deathmatch

/-- The most bytes of a datagram. -/
def maxDatagram : Nat := 576

/-- The bytes before the payload. -/
def headerLength : Nat := 4

/-- The most bytes of payload in one datagram. -/
def maxPayload : Nat := maxDatagram - headerLength

/-! ## The checksum -/

/-- A byte's share of the checksum: 1 for each set bit in an even place, 2 in an odd one. -/
def bitWeight (b : UInt8) : UInt8 :=
  let share (i : Nat) : UInt8 := if b.toNat.testBit i then (if i % 2 = 0 then 1 else 2) else 0
  (List.range 8).foldl (fun sum i => sum + share i) 0

/-- The sum of all bit weights, modulo 256. -/
def checksum (bs : Bytes) : UInt8 :=
  bs.foldl (fun sum b => sum + bitWeight b) 0

/-! ## Splitting -/

/-- A payload cut into pieces of `maxPayload` bytes; the last piece holds what remains. -/
def pieces (data : Bytes) : List Bytes :=
  if data.length ≤ maxPayload then [data]
  else data.take maxPayload :: pieces (data.drop maxPayload)
termination_by data.length
decreasing_by
  simp only [List.length_drop, maxPayload, maxDatagram, headerLength] at *
  omega

/-- How many datagrams a payload of `size` bytes takes, if a byte can say so. -/
def fragmentCount? (size : Nat) : Option UInt8 :=
  let count := (size + maxPayload - 1) / maxPayload
  if count < 256 then some (UInt8.ofNat count) else none

/-- The datagram of one fragment. -/
def datagram (id index total : UInt8) (payload : Bytes) : Bytes :=
  checksum (id :: index :: total :: payload) :: id :: index :: total :: payload

namespace Packet

/-- Whether the packet takes more than one datagram, or came in one of several. -/
def isSplit (p : Packet) : Bool :=
  decide (1 < p.total ∨ maxPayload < p.data.length)

/-- The datagrams that carry a packet. -/
def encode (p : Packet) : Except PacketFault (List Bytes) :=
  if p.data.length ≤ maxPayload then
    .ok [datagram p.id p.index (max p.total 1) p.data]
  else
    match fragmentCount? p.data.length with
    | some total =>
      .ok ((pieces p.data).zipIdx.map fun (part, i) => datagram p.id (UInt8.ofNat i) total part)
    | none => .error (.tooManyFragments p.data.length)

/-- The packet or fragment that a datagram carries, as one of the datagram channel. -/
def decode : Bytes → Except PacketFault Packet
  | sum :: id :: index :: total :: payload =>
    let computed := checksum (id :: index :: total :: payload)
    if sum = computed then
      .ok { id, index, total := max total 1, transport := .udp, data := payload }
    else
      .error (.invalidChecksum sum computed)
  | short => .error (.malformed short.length headerLength)

/-! ## Assembly -/

/-- The payload of fragment `i`: the first one given under that id and number. -/
def part? (fragments : List Packet) (id : UInt8) (i : Nat) : Option Bytes :=
  (fragments.find? fun f => f.id = id ∧ f.index.toNat = i).map (·.data)

/-- The packet whose fragments are given, in any order. The first one names the id, the number
of fragments and the channel; fragments of another id are left out, and the first of several
with one number counts. -/
def assemble (fragments : List Packet) : Except PacketFault Packet :=
  match fragments.head? with
  | none => .error (.missingFragment 0 0 1)
  | some first => do
    let total := max first.total 1
    let parts ← (List.range total.toNat).mapM fun i =>
      match part? fragments first.id i with
      | some data => .ok data
      | none => .error (.missingFragment first.id (UInt8.ofNat i) total)
    return { id := first.id, index := 0, total := 1, transport := first.transport,
             data := parts.flatten }

end Packet

end Deathmatch
