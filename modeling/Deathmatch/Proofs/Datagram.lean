import Deathmatch.Packet.Datagram

/-!
# Packets and their datagrams

A payload that fits into one datagram is sent as one, and the datagram gives the packet back. A
datagram is accepted when it has a header and its first byte is the checksum of the others
(`Packet.exists_decode_iff`).
-/

namespace Deathmatch

theorem atLeastOne_of_le {total : UInt8} (counted : 1 ≤ total) : max total 1 = total := by
  show (if total ≤ 1 then 1 else total) = total
  split
  · next small => exact UInt8.le_antisymm counted small
  · rfl

theorem one_le_atLeastOne (total : UInt8) : 1 ≤ max total 1 := by
  show 1 ≤ if total ≤ 1 then 1 else total
  split
  · exact UInt8.le_refl 1
  · next large => exact UInt8.le_of_lt (UInt8.not_le.mp large)

/-- A datagram gives back what was put into it. A total of zero counts as one. -/
theorem Packet.decode_datagram (id index total : UInt8) (payload : Bytes) :
    Packet.decode (datagram id index total payload) =
      .ok { id, index, total := max total 1, transport := .udp, data := payload } := by
  simp [Packet.decode, datagram]

/-- A datagram with a header is accepted or not as its first byte says. -/
theorem Packet.exists_decode_iff {sum : UInt8} {rest : Bytes} :
    (∃ p, Packet.decode (sum :: rest) = .ok p) ↔ 3 ≤ rest.length ∧ sum = checksum rest := by
  rcases rest with _ | ⟨id, _ | ⟨index, _ | ⟨total, payload⟩⟩⟩
  · simp [decode]
  · simp [decode]
  · simp [decode]
  · simp only [decode, List.length_cons]
    split
    · next valid => exact iff_of_true ⟨_, rfl⟩ ⟨by omega, valid⟩
    · next invalid => exact iff_of_false nofun fun ⟨_, valid⟩ => invalid valid

/-- A datagram with a header and another first byte is refused for its checksum. -/
theorem Packet.decode_of_ne_checksum {sum : UInt8} {rest : Bytes} (header : 3 ≤ rest.length)
    (other : sum ≠ checksum rest) :
    Packet.decode (sum :: rest) = .error (.invalidChecksum sum (checksum rest)) := by
  rcases rest with _ | ⟨id, _ | ⟨index, _ | ⟨total, payload⟩⟩⟩
  · simp at header
  · simp at header
  · simp at header
  · exact if_neg other

theorem Packet.encode_of_fits {p : Packet} (fits : p.data.length ≤ maxPayload) :
    p.encode = .ok [datagram p.id p.index (max p.total 1) p.data] := by
  rw [Packet.encode, if_pos fits]

/-- A packet of the datagram channel that fits and counts its fragments from one crosses the wire
unchanged. -/
theorem Packet.decode_of_encode_fits {p : Packet} (fits : p.data.length ≤ maxPayload)
    (counted : 1 ≤ p.total) (channel : p.transport = .udp) :
    ∃ d, p.encode = .ok [d] ∧ Packet.decode d = .ok p := by
  have total := atLeastOne_of_le counted
  refine ⟨_, Packet.encode_of_fits fits, ?_⟩
  rw [Packet.decode_datagram, total, total, ← channel]

end Deathmatch
