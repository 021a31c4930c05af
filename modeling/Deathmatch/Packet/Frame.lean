import Deathmatch.Packet.Datagram

/-!
# Frames

The control channel is a stream without boundaries, so each datagram in it comes after its
length, a little-endian word of two bytes. A length above that of any datagram ends the stream.
-/

namespace Deathmatch.Frame

/-- A datagram with its length before it. The length is cut to two bytes. -/
def encode (datagram : Bytes) : Bytes :=
  le16 (UInt16.ofNat datagram.length) ++ datagram

/-- The length that two bytes announce, if a datagram may have it. -/
def length? (b₀ b₁ : UInt8) : Option Nat :=
  let n := (word16 b₀ b₁).toNat
  if n ≤ maxDatagram then some n else none

/-- What the beginning of a stream holds. -/
inductive Lead where
  /-- No whole frame yet. -/
  | incomplete
  /-- A length that no datagram has, and the bytes after it. -/
  | oversized (rest : Bytes)
  | frame (datagram rest : Bytes)
  deriving DecidableEq

/-- Reads the first frame of a stream. -/
def lead : Bytes → Lead
  | b₀ :: b₁ :: body =>
    match length? b₀ b₁ with
    | none => .oversized body
    | some n => if n ≤ body.length then .frame (body.take n) (body.drop n) else .incomplete
  | _ => .incomplete

theorem length_lead {stream datagram rest : Bytes} (h : lead stream = .frame datagram rest) :
    rest.length < stream.length := by
  unfold lead at h
  split at h
  · split at h
    · cases h
    · split at h
      · cases h
        simp
        omega
      · cases h
  · cases h

/-- Why a finished stream yields no further datagram. -/
inductive End where
  /-- The stream ends inside a frame or between two. -/
  | unexpectedEnd
  | oversized
  deriving DecidableEq

/-- All datagrams of a finished stream, what ended the reading, and the bytes left unread. A
frame that is cut short is consumed, as are the two bytes of an oversized length. -/
def readAll (stream : Bytes) : List Bytes × End × Bytes :=
  match h : lead stream with
  | .incomplete => ([], .unexpectedEnd, [])
  | .oversized rest => ([], .oversized, rest)
  | .frame datagram rest =>
    have : rest.length < stream.length := length_lead h
    let (datagrams, ending, left) := readAll rest
    (datagram :: datagrams, ending, left)
termination_by stream.length

/-- The stream form of a packet: one frame for each of its datagrams. -/
def write (p : Packet) : Except PacketFault Bytes :=
  p.encode.map fun datagrams => (datagrams.map encode).flatten

end Deathmatch.Frame
