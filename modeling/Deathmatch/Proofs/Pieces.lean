import Deathmatch.Proofs.Datagram
import Mathlib.Data.List.GetD

/-!
# The pieces of a split payload

A payload is cut into runs of 572 bytes and what remains. In order the pieces are the payload again
(`flatten_pieces`), and `length_pieces` counts them: as many as are needed, and one for an empty
payload. A packet of several pieces travels as its fragments, numbered from zero
(`Packet.encode_of_split`).

`p.Carries f` says that `f` is what one of the datagrams of `p` decodes to. Of a split packet these
are the fragments and nothing else (`Packet.carries_iff`).
-/

namespace Deathmatch

theorem maxPayload_eq : maxPayload = 572 := rfl

theorem flatten_pieces (data : Bytes) : (pieces data).flatten = data := by
  fun_induction pieces data with
  | case1 data whole => exact List.flatten_singleton
  | case2 data long ih => rw [List.flatten_cons, ih, List.take_append_drop]

theorem length_pieces (data : Bytes) :
    (pieces data).length = max 1 ((data.length + 571) / 572) := by
  fun_induction pieces data with
  | case1 data whole =>
    rw [maxPayload_eq] at whole
    rw [List.length_singleton]
    omega
  | case2 data long ih =>
    rw [maxPayload_eq] at long
    rw [List.length_cons, ih, List.length_drop, maxPayload_eq]
    omega

/-- The pieces by number are the payload. -/
theorem flatten_map_pieces (data : Bytes) :
    ((List.range (pieces data).length).map fun i => (pieces data).getD i []).flatten = data := by
  have inOrder : (List.range (pieces data).length).map (fun i => (pieces data).getD i []) =
      pieces data := by
    apply List.ext_getElem
    · rw [List.length_map, List.length_range]
    · intro i _ inside
      rw [List.getElem_map, List.getElem_range, List.getD_eq_getElem _ _ inside]
  rw [inOrder, flatten_pieces]

/-- Piece `i` begins after `i` full ones. -/
theorem getD_pieces (data : Bytes) (i : Nat) :
    (pieces data).getD i [] = (data.drop (maxPayload * i)).take maxPayload := by
  fun_induction pieces data generalizing i with
  | case1 data whole =>
    cases i with
    | zero => rw [List.getD_cons_zero, Nat.mul_zero, List.drop_zero, List.take_of_length_le whole]
    | succ i =>
      have beyond : data.length ≤ maxPayload * (i + 1) := by
        rw [maxPayload_eq] at whole ⊢
        omega
      rw [List.getD_cons_succ, List.getD_nil, List.drop_eq_nil_of_le beyond, List.take_nil]
  | case2 data long ih =>
    cases i with
    | zero => rw [List.getD_cons_zero, Nat.mul_zero, List.drop_zero]
    | succ i => rw [List.getD_cons_succ, ih, List.drop_drop, Nat.mul_succ, Nat.add_comm]

theorem length_getD_pieces (data : Bytes) (i : Nat) :
    ((pieces data).getD i []).length = min 572 (data.length - 572 * i) := by
  rw [getD_pieces, List.length_take, List.length_drop, maxPayload_eq]

theorem length_le_of_mem_pieces {data piece : Bytes} (member : piece ∈ pieces data) :
    piece.length ≤ maxPayload := by
  fun_induction pieces data with
  | case1 data whole => exact List.mem_singleton.mp member ▸ whole
  | case2 data long ih =>
    rcases List.mem_cons.mp member with rfl | later
    · exact List.length_take_le _ _
    · exact ih later

/-- Full runs with a shorter one behind them are cut where they were put together. -/
theorem pieces_flatten {row : List Bytes} {last : Bytes}
    (full : ∀ piece ∈ row, piece.length = maxPayload) (more : last ≠ [])
    (short : last.length ≤ maxPayload) : pieces (row ++ [last]).flatten = row ++ [last] := by
  induction row with
  | nil => rw [List.nil_append, List.flatten_singleton, pieces, if_pos short]
  | cons first rest ih =>
    obtain ⟨size, others⟩ := List.forall_mem_cons.mp full
    have long : ¬ (first ++ (rest ++ [last]).flatten).length ≤ maxPayload := by
      have positive := List.length_pos_iff.mpr more
      rw [List.length_append, List.flatten_append, List.flatten_singleton, List.length_append]
      omega
    rw [List.cons_append, List.flatten_cons, pieces, if_neg long, ← size, List.take_left,
      List.drop_left, ih others]

/-- Pieces of several payloads that were cut into as many, one for each number, are the pieces of
what they make together. -/
theorem pieces_flatten_map {n : Nat} (several : 1 < n) {row : Nat → Bytes}
    (cut : ∀ i < n, ∃ data, (pieces data).length = n ∧ row i = (pieces data).getD i []) :
    pieces ((List.range n).map row).flatten = (List.range n).map row := by
  obtain ⟨m, rfl⟩ := Nat.exists_eq_succ_of_ne_zero (Nat.ne_zero_of_lt several)
  have size (i : Nat) (inside : i < m + 1) : 1 ≤ (row i).length ∧ (row i).length ≤ maxPayload ∧
      (i < m → (row i).length = maxPayload) := by
    obtain ⟨data, count, piece⟩ := cut i inside
    rw [length_pieces] at count
    rw [piece, length_getD_pieces, maxPayload_eq]
    omega
  have full : ∀ piece ∈ (List.range m).map row, piece.length = maxPayload := by
    intro piece inRow
    obtain ⟨i, inRange, rfl⟩ := List.mem_map.mp inRow
    have earlier := List.mem_range.mp inRange
    exact (size i (Nat.lt_succ_of_lt earlier)).2.2 earlier
  obtain ⟨more, short, -⟩ := size m (Nat.lt_succ_self m)
  rw [List.range_succ, List.map_append, List.map_singleton]
  exact pieces_flatten full (List.length_pos_iff.mp more) short

/-- Whether a payload needs several datagrams, and no more than a byte can count. -/
def Splits (data : Bytes) : Prop :=
  maxPayload < data.length ∧ data.length ≤ 255 * maxPayload

instance (data : Bytes) : Decidable (Splits data) :=
  inferInstanceAs (Decidable (_ ∧ _))

theorem Splits.count {data : Bytes} (splits : Splits data) :
    2 ≤ (pieces data).length ∧ (pieces data).length ≤ 255 := by
  have long := splits.1
  have short := splits.2
  rw [maxPayload_eq] at long short
  rw [length_pieces]
  omega

theorem Splits.toNat_count {data : Bytes} (splits : Splits data) :
    (UInt8.ofNat (pieces data).length).toNat = (pieces data).length :=
  UInt8.toNat_ofNat_of_lt' (Nat.lt_succ_of_le splits.count.2)

/-- The count of a split payload is that of its pieces. -/
theorem fragmentCount?_of_split {data : Bytes} (splits : Splits data) :
    fragmentCount? data.length = some (UInt8.ofNat (pieces data).length) := by
  have count : (data.length + maxPayload - 1) / maxPayload = (pieces data).length := by
    have long := splits.1
    rw [maxPayload_eq] at long ⊢
    rw [length_pieces]
    omega
  rw [fragmentCount?, count]
  exact if_pos (Nat.lt_succ_of_le splits.count.2)

theorem fragmentCount?_of_long {size : Nat} (long : 255 * maxPayload < size) :
    fragmentCount? size = none := by
  rw [maxPayload_eq] at long
  rw [fragmentCount?, maxPayload_eq]
  exact if_neg (by omega)

/-! ## Fragments -/

namespace Packet

/-- Fragment `i` of a split packet, as it comes out of its datagram on a channel. -/
def fragment (p : Packet) (channel : Transport) (i : Nat) : Packet :=
  { id := p.id
    index := UInt8.ofNat i
    total := UInt8.ofNat (pieces p.data).length
    transport := channel
    data := (pieces p.data).getD i [] }

variable {p : Packet} {channel : Transport} {i : Nat}

theorem toNat_index_fragment (splits : Splits p.data) (inside : i < (pieces p.data).length) :
    (p.fragment channel i).index.toNat = i :=
  UInt8.toNat_ofNat_of_lt' (Nat.lt_of_lt_of_le inside (Nat.le_succ_of_le splits.count.2))

theorem toNat_total_fragment (splits : Splits p.data) :
    (p.fragment channel i).total.toNat = (pieces p.data).length :=
  splits.toNat_count

theorem one_lt_total_fragment (splits : Splits p.data) : 1 < (p.fragment channel i).total := by
  rw [UInt8.lt_iff_toNat_lt, toNat_total_fragment splits]
  exact splits.count.1

/-- A split packet goes out as its fragments, in order. -/
theorem encode_of_split (splits : Splits p.data) :
    p.encode = .ok ((List.range (pieces p.data).length).map fun i =>
      let f := p.fragment .udp i
      datagram f.id f.index f.total f.data) := by
  rw [encode, if_neg (Nat.not_le_of_lt splits.1), fragmentCount?_of_split splits]
  refine congrArg Except.ok (List.ext_getElem ?_ ?_)
  · simp
  · intro i _ inside
    have here : i < (pieces p.data).length := by simpa using inside
    simp [fragment, here]

theorem encode_of_long (long : 255 * maxPayload < p.data.length) :
    p.encode = .error (.tooManyFragments p.data.length) := by
  have notWhole : ¬ p.data.length ≤ maxPayload := by
    rw [maxPayload_eq] at long ⊢
    omega
  rw [encode, if_neg notWhole, fragmentCount?_of_long long]

/-- A packet is encoded just when its payload is not too long to be counted in pieces. -/
theorem exists_encode_iff (p : Packet) :
    (∃ datagrams, p.encode = .ok datagrams) ↔ p.data.length ≤ 255 * maxPayload := by
  constructor
  · rintro ⟨datagrams, encoded⟩
    refine Nat.le_of_not_lt fun long => ?_
    rw [encode_of_long long] at encoded
    cases encoded
  · intro short
    by_cases whole : p.data.length ≤ maxPayload
    · exact ⟨_, encode_of_fits whole⟩
    · exact ⟨_, encode_of_split ⟨Nat.lt_of_not_le whole, short⟩⟩

theorem length_datagram {id index total : UInt8} {payload : Bytes}
    (fits : payload.length ≤ maxPayload) :
    (datagram id index total payload).length ≤ maxDatagram := by
  rw [maxPayload_eq] at fits
  show payload.length + 4 ≤ 576
  omega

/-- The datagrams of a packet have its id and carry a payload that fits. -/
theorem exists_datagram_of_mem_encode {datagrams : List Bytes}
    (encoded : p.encode = .ok datagrams) {d : Bytes} (member : d ∈ datagrams) :
    ∃ index total payload, d = datagram p.id index total payload ∧
      payload.length ≤ maxPayload := by
  by_cases whole : p.data.length ≤ maxPayload
  · rw [encode_of_fits whole] at encoded
    cases encoded
    exact ⟨_, _, _, List.mem_singleton.mp member, whole⟩
  · have splits : Splits p.data :=
      ⟨Nat.lt_of_not_le whole, (exists_encode_iff p).mp ⟨datagrams, encoded⟩⟩
    rw [encode_of_split splits] at encoded
    cases encoded
    rcases List.mem_map.mp member with ⟨i, inRange, rfl⟩
    have piece : (pieces p.data).getD i [] ∈ pieces p.data := by
      rw [List.getD_eq_getElem _ _ (List.mem_range.mp inRange)]
      exact List.getElem_mem _
    exact ⟨_, _, _, rfl, length_le_of_mem_pieces piece⟩

/-- No datagram is too long for a frame. -/
theorem length_le_of_mem_encode {datagrams : List Bytes} (encoded : p.encode = .ok datagrams)
    {d : Bytes} (member : d ∈ datagrams) : d.length ≤ maxDatagram := by
  rcases exists_datagram_of_mem_encode encoded member with ⟨_, _, _, shape, fits⟩
  rw [shape]
  exact length_datagram fits

/-! ## What comes out of the datagrams -/

/-- Whether `f` is what one of the datagrams of `p` decodes to. -/
def Carries (p f : Packet) : Prop :=
  ∃ datagrams, p.encode = .ok datagrams ∧ ∃ d ∈ datagrams, Packet.decode d = .ok f

theorem decode_fragment (splits : Splits p.data) (i : Nat) :
    Packet.decode (datagram (p.fragment .udp i).id (p.fragment .udp i).index
      (p.fragment .udp i).total (p.fragment .udp i).data) = .ok (p.fragment .udp i) := by
  have counted : 1 ≤ (p.fragment .udp i).total := UInt8.le_of_lt (one_lt_total_fragment splits)
  rw [decode_datagram, atLeastOne_of_le counted]
  rfl

theorem carries_iff (splits : Splits p.data) {f : Packet} :
    p.Carries f ↔ ∃ i < (pieces p.data).length, f = p.fragment .udp i := by
  constructor
  · rintro ⟨datagrams, encoded, d, member, decoded⟩
    rw [encode_of_split splits] at encoded
    cases encoded
    obtain ⟨i, inside, rfl⟩ := List.mem_map.mp member
    rw [decode_fragment splits] at decoded
    exact ⟨i, List.mem_range.mp inside, (Except.ok.inj decoded).symm⟩
  · rintro ⟨i, inside, rfl⟩
    exact ⟨_, encode_of_split splits, _, List.mem_map_of_mem (List.mem_range.mpr inside),
      decode_fragment splits i⟩

variable {f : Packet}

theorem Carries.total_eq (carried : p.Carries f) (splits : Splits p.data) :
    f.total.toNat = (pieces p.data).length := by
  obtain ⟨i, -, rfl⟩ := (carries_iff splits).mp carried
  exact toNat_total_fragment splits

theorem Carries.index_lt (carried : p.Carries f) (splits : Splits p.data) :
    f.index.toNat < f.total.toNat := by
  obtain ⟨i, inside, rfl⟩ := (carries_iff splits).mp carried
  rw [toNat_index_fragment splits inside, toNat_total_fragment splits]
  exact inside

theorem Carries.data_eq (carried : p.Carries f) (splits : Splits p.data) :
    f.data = (pieces p.data).getD f.index.toNat [] := by
  obtain ⟨i, inside, rfl⟩ := (carries_iff splits).mp carried
  rw [toNat_index_fragment splits inside]
  rfl

/-- Two packets of one id and one count share a fragment when their pieces under its number are the
same. -/
theorem Carries.of_data_eq {q : Packet} (carried : p.Carries f) (splits : Splits p.data)
    (splitsToo : Splits q.data) (sameId : p.id = q.id)
    (sameCount : (pieces p.data).length = (pieces q.data).length)
    (sameData : f.data = (pieces q.data).getD f.index.toNat []) : q.Carries f := by
  obtain ⟨i, inside, rfl⟩ := (carries_iff splits).mp carried
  refine (carries_iff splitsToo).mpr ⟨i, sameCount ▸ inside, ?_⟩
  rw [toNat_index_fragment splits inside] at sameData
  simp only [fragment] at sameData ⊢
  rw [sameId, sameCount, sameData]

end Packet

end Deathmatch
