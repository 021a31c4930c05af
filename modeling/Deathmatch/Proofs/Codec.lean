import Deathmatch.Proofs.Assembly

/-!
# Packets and datagrams both ways

A packet is cut into as few datagrams as hold its payload. `Packet.encode_numbered` says what each
of them carries, for payloads of any length, those at the limit of 255 pieces among them.

A datagram that is accepted has one form for what it decodes to, but for a total of zero
(`Packet.decode_eq_ok_iff`). So encoding what was decoded gives the datagram back just when it is
short enough to go out whole and its total is not zero (`Packet.encode_decode_iff`).
-/

namespace Deathmatch

theorem length_datagram_eq (id index total : UInt8) (payload : Bytes) :
    (datagram id index total payload).length = payload.length + 4 := rfl

theorem atLeastOne_eq_iff {total : UInt8} : max total 1 = total ↔ total ≠ 0 := by
  constructor
  · intro same zero
    rw [zero] at same
    exact absurd same (by decide)
  · intro counted
    apply atLeastOne_of_le
    rw [UInt8.le_iff_toNat_le]
    exact Nat.pos_of_ne_zero fun zero => counted (UInt8.toNat.inj zero)

namespace Packet

variable {p : Packet} {d : Bytes}

/-! ## Cutting -/

/-- The datagrams of a split packet decode to its fragments, in order. -/
theorem mapM_decode_of_split (splits : Splits p.data) {datagrams : List Bytes}
    (encoded : p.encode = .ok datagrams) :
    datagrams.mapM Packet.decode =
      .ok ((List.range (pieces p.data).length).map (p.fragment .udp)) := by
  rw [encode_of_split splits] at encoded
  cases encoded
  rw [List.mapM_map]
  exact mapM_ok fun i _ => decode_fragment splits i

theorem length_of_encode {datagrams : List Bytes} (encoded : p.encode = .ok datagrams) :
    datagrams.length = max 1 ((p.data.length + 571) / 572) := by
  rw [← length_pieces]
  by_cases whole : p.data.length ≤ maxPayload
  · rw [encode_of_fits whole] at encoded
    cases encoded
    rw [pieces, if_pos whole, List.length_singleton, List.length_singleton]
  · have short := (exists_encode_iff p).mp ⟨datagrams, encoded⟩
    rw [encode_of_split ⟨Nat.lt_of_not_le whole, short⟩] at encoded
    cases encoded
    rw [List.length_map, List.length_range]

/-- A packet is refused just when it needs more than 255 datagrams. Else it goes out in as many as
its payload needs, none longer than 576 bytes, and each of them is accepted. What they decode to,
if there are several, has the packet's id and is numbered in order, out of their number; all pieces
but the last are full, the last is not empty, and together they are the payload. -/
theorem encode_numbered (p : Packet) :
    (p.encode = .error (.tooManyFragments p.data.length) ↔ 255 * 572 < p.data.length) ∧
    (p.data.length ≤ 255 * 572 → ∃ datagrams, p.encode = .ok datagrams ∧
      datagrams.length = max 1 ((p.data.length + 571) / 572) ∧
      (∀ d ∈ datagrams, 4 ≤ d.length ∧ d.length ≤ 576 ∧ ∃ f, Packet.decode d = .ok f) ∧
      (572 < p.data.length → ∃ fragments, datagrams.mapM Packet.decode = .ok fragments ∧
        fragments.length = datagrams.length ∧ (fragments.map (·.data)).flatten = p.data ∧
        ∀ i f, fragments[i]? = some f →
          f.id = p.id ∧ f.index.toNat = i ∧ f.total.toNat = datagrams.length ∧
          (i + 1 < datagrams.length → f.data.length = 572) ∧
          (i + 1 = datagrams.length → 1 ≤ f.data.length))) := by
  refine ⟨⟨?_, encode_of_long⟩, ?_⟩
  · intro refused
    refine Nat.lt_of_not_le fun short => ?_
    rcases (exists_encode_iff p).mpr short with ⟨datagrams, encoded⟩
    cases refused.symm.trans encoded
  intro short
  rcases (exists_encode_iff p).mpr short with ⟨datagrams, encoded⟩
  have count := length_of_encode encoded
  refine ⟨datagrams, encoded, count, ?_, ?_⟩
  · intro d member
    rcases exists_datagram_of_mem_encode encoded member with ⟨index, total, payload, shape, fits⟩
    rw [shape, length_datagram_eq]
    rw [maxPayload_eq] at fits
    exact ⟨by omega, by omega, _, decode_datagram _ _ _ _⟩
  · intro long
    have splits : Splits p.data := ⟨long, short⟩
    have pieceCount : (pieces p.data).length = datagrams.length := by rw [count, length_pieces]
    refine ⟨_, mapM_decode_of_split splits encoded, ?_, ?_, ?_⟩
    · rw [List.length_map, List.length_range, pieceCount]
    · rw [List.map_map]
      exact flatten_map_pieces p.data
    · intro i f there
      rw [List.getElem?_map, Option.map_eq_some_iff] at there
      rcases there with ⟨j, inRange, rfl⟩
      rcases List.getElem?_eq_some_iff.mp inRange with ⟨inside, here⟩
      rw [List.getElem_range] at here
      rw [List.length_range] at inside
      subst here
      have size : (p.fragment .udp i).data.length = min 572 (p.data.length - 572 * i) :=
        length_getD_pieces p.data i
      refine ⟨rfl, toNat_index_fragment splits inside, ?_, ?_, ?_⟩
      · rw [toNat_total_fragment splits, pieceCount]
      · intro more
        rw [size]
        omega
      · intro last
        rw [size]
        omega

/-! ## Decoding and encoding again -/

/-- What decodes to a packet is its datagram, with its total or with zero for one. -/
theorem decode_eq_ok_iff :
    Packet.decode d = .ok p ↔ ∃ total, d = datagram p.id p.index total p.data ∧
      p.total = max total 1 ∧ p.transport = .udp := by
  constructor
  · intro decoded
    rcases d with _ | ⟨sum, _ | ⟨id, _ | ⟨index, _ | ⟨total, payload⟩⟩⟩⟩
    · cases decoded
    · cases decoded
    · cases decoded
    · cases decoded
    simp only [decode] at decoded
    split at decoded
    · next valid =>
      cases decoded
      exact ⟨total, congrArg (· :: _) valid, rfl, rfl⟩
    · cases decoded
  · intro form
    rcases form with ⟨total, shape, counted, channel⟩
    rw [shape, decode_datagram, ← counted, ← channel]

theorem exists_decode_iff_checksum :
    (∃ p, Packet.decode d = .ok p) ↔ 4 ≤ d.length ∧ d[0]? = some (checksum (d.drop 1)) := by
  rcases d with _ | ⟨sum, rest⟩
  · exact iff_of_false nofun fun header => absurd header.1 (by decide)
  · rw [exists_decode_iff, List.getElem?_cons_zero, Option.some.injEq, List.drop_one,
      List.tail_cons, List.length_cons, Nat.succ_le_succ_iff]

/-- One datagram is what a packet of at most 572 bytes is encoded to. -/
theorem encode_eq_singleton_iff :
    p.encode = .ok [d] ↔
      p.data.length ≤ maxPayload ∧ d = datagram p.id p.index (max p.total 1) p.data := by
  by_cases whole : p.data.length ≤ maxPayload
  · rw [encode_of_fits whole, Except.ok.injEq, List.cons.injEq, eq_self, and_true]
    exact ⟨fun same => ⟨whole, same.symm⟩, fun same => same.2.symm⟩
  · refine iff_of_false (fun encoded => ?_) fun fits => whole fits.1
    have count := length_of_encode encoded
    rw [List.length_singleton] at count
    rw [maxPayload_eq] at whole
    omega

/-- A datagram that was accepted is written again the same way unless it is too long for one or
its total, of zero, is written as one. -/
theorem encode_eq_self_iff (decoded : Packet.decode d = .ok p) :
    p.encode = .ok [d] ↔ d.length ≤ 576 ∧ d[3]? ≠ some 0 := by
  rcases decode_eq_ok_iff.mp decoded with ⟨total, shape, counted, -⟩
  have short : d.length ≤ 576 ↔ p.data.length ≤ maxPayload := by
    rw [shape, length_datagram_eq, maxPayload_eq]
    omega
  have fourth : d[3]? = some total := by rw [shape]; rfl
  have counts : max p.total 1 = max total 1 := by
    rw [counted]
    exact atLeastOne_of_le (one_le_atLeastOne total)
  have sameTotal : d = datagram p.id p.index (max p.total 1) p.data ↔ max total 1 = total := by
    rw [counts, shape]
    constructor
    · intro same
      simp only [datagram, List.cons.injEq] at same
      exact same.2.2.2.1.symm
    · intro same
      rw [same]
  rw [encode_eq_singleton_iff, short, sameTotal, atLeastOne_eq_iff, fourth, ne_eq, ne_eq,
    Option.some.injEq]

/-- A datagram is accepted just when it has a header that begins with the checksum of all else.
What it decodes to is encoded to that very datagram just when it is no longer than 576 bytes and its
total is not zero. So no two such datagrams decode to one packet. -/
theorem encode_decode_iff (d : Bytes) :
    ((∃ p, Packet.decode d = .ok p) ↔
      4 ≤ d.length ∧ d[0]? = some (checksum (d.drop 1))) ∧
    (∀ p, Packet.decode d = .ok p →
      (p.encode = .ok [d] ↔ d.length ≤ 576 ∧ d[3]? ≠ some 0)) ∧
    ∀ d' p, Packet.decode d = .ok p → Packet.decode d' = .ok p →
      d.length ≤ 576 → d'.length ≤ 576 → d[3]? ≠ some 0 → d'[3]? ≠ some 0 → d = d' := by
  refine ⟨exists_decode_iff_checksum, fun p decoded => encode_eq_self_iff decoded, ?_⟩
  intro d' p decoded decoded' short short' counted counted'
  have first := (encode_eq_self_iff decoded).mpr ⟨short, counted⟩
  have second := (encode_eq_self_iff decoded').mpr ⟨short', counted'⟩
  exact (List.cons.inj (Except.ok.inj (first.symm.trans second))).1

end Packet

end Deathmatch
