import Deathmatch.Proofs.Datagram
import Deathmatch.Snapshot.Broadcast
import Mathlib.Data.List.Basic

/-!
# How blocks lie in the packets of a broadcast

`Snapshot.pack` fills packets with blocks one after the other. `Packed` says what that leaves: the
blocks of each packet, in order and whole, with none left out unless all packets are used up.
`packed_pack` proves it for every list of blocks that fit a packet, and `pack_flatten` that nothing
is left out while the blocks are short enough for the packets there are. The statement about the
packets themselves comes last.
-/

namespace Deathmatch

namespace Snapshot

/-! ## Groups of blocks -/

/-- `groups` holds the blocks of each packet. Every packet of several holds a block, and the first
block left out, if any, found the last of `limit` packets too full. -/
structure Packed (limit : Nat) (blocks : List Bytes) (groups : List (List Bytes)) : Prop where
  nonempty : groups ≠ []
  count : groups.length ≤ limit
  fits : ∀ group ∈ groups, group.flatten.length ≤ maxBlocks
  filled : groups = [[]] ∨ ∀ group ∈ groups, group ≠ []
  placed : groups.flatten = blocks ∨
    groups.length = limit ∧ ∃ last block rest, groups.getLast? = some last ∧
      blocks = groups.flatten ++ block :: rest ∧ maxBlocks < last.flatten.length + block.length

/-- A packet that is closed stands before those that follow it. -/
theorem Packed.cons {limit : Nat} {seed : List Bytes} {blocks : List Bytes}
    {groups : List (List Bytes)} (seedFits : seed.flatten.length ≤ maxBlocks)
    (seedFilled : seed ≠ [])
    (rest : Packed limit blocks groups) (restFilled : ∀ group ∈ groups, group ≠ []) :
    Packed (limit + 1) (seed ++ blocks) (seed :: groups) where
  nonempty := List.cons_ne_nil _ _
  count := Nat.succ_le_succ rest.count
  fits := List.forall_mem_cons.mpr ⟨seedFits, rest.fits⟩
  filled := Or.inr (List.forall_mem_cons.mpr ⟨seedFilled, restFilled⟩)
  placed := by
    rcases rest.placed with whole | ⟨full, last, block, left, lastIs, split, excess⟩
    · exact Or.inl (by rw [List.flatten_cons, whole])
    · refine Or.inr ⟨by rw [List.length_cons, full], last, block, left, ?_, ?_, excess⟩
      · rw [List.getLast?_cons, lastIs]
        rfl
      · rw [split, List.flatten_cons, List.append_assoc]

/-- The packets that `pack` fills, behind a packet that already holds `seed`. -/
theorem packed_pack_seed {blocks : List Bytes}
    (blocksFit : ∀ block ∈ blocks, block.length ≤ maxBlocks) (left : Nat) (seed : List Bytes)
    (seedFits : seed.flatten.length ≤ maxBlocks) :
    ∃ groups, pack left seed.flatten blocks = groups.map List.flatten ∧
      Packed (left + 1) (seed ++ blocks) groups ∧
      (seed ++ blocks ≠ [] → ∀ group ∈ groups, group ≠ []) := by
  -- Over the blocks, with whatever the packet at hand holds by then.
  induction blocks generalizing left seed with
  | nil =>
    refine ⟨[seed], rfl, ?_, ?_⟩
    · refine ⟨List.cons_ne_nil _ _, Nat.succ_le_succ left.zero_le, ?_, ?_, Or.inl ?_⟩
      · simpa using seedFits
      · rcases seed with _ | ⟨first, others⟩
        · exact Or.inl rfl
        · exact Or.inr (by simp)
      · simp
    · simp
  | cons block rest ih =>
    have blockFits := blocksFit block List.mem_cons_self
    have restFit : ∀ b ∈ rest, b.length ≤ maxBlocks := fun b member =>
      blocksFit b (List.mem_cons_of_mem block member)
    unfold pack
    split
    · next room =>
      have grownFits : (seed ++ [block]).flatten.length ≤ maxBlocks := by simpa using room
      obtain ⟨groups, packs, packed, filled⟩ := ih restFit left (seed ++ [block]) grownFits
      rw [List.append_assoc] at packed filled
      refine ⟨groups, ?_, packed, filled⟩
      rw [← packs, List.flatten_append, List.flatten_singleton]
    · next full =>
      have seedFilled : seed ≠ [] := by
        rintro rfl
        exact full (by simpa using blockFits)
      cases left with
      | zero =>
        refine ⟨[seed], rfl, ?_, fun _ => by simpa using seedFilled⟩
        refine ⟨List.cons_ne_nil _ _, Nat.le_refl _, by simpa using seedFits,
          Or.inr (by simpa using seedFilled), Or.inr ?_⟩
        exact ⟨rfl, seed, block, rest, rfl, by simp, Nat.lt_of_not_le full⟩
      | succ left =>
        obtain ⟨groups, packs, packed, filled⟩ := ih restFit left [block] (by simpa using blockFits)
        have allFilled := filled (by simp)
        refine ⟨seed :: groups, ?_, packed.cons seedFits seedFilled allFilled,
          fun _ => List.forall_mem_cons.mpr ⟨seedFilled, allFilled⟩⟩
        rw [List.map_cons, ← packs, List.flatten_singleton]

theorem packed_pack {blocks : List Bytes} (blocksFit : ∀ block ∈ blocks, block.length ≤ maxBlocks)
    (left : Nat) :
    ∃ groups, pack left [] blocks = groups.map List.flatten ∧ Packed (left + 1) blocks groups := by
  obtain ⟨groups, packs, packed, _⟩ := packed_pack_seed blocksFit left [] (Nat.zero_le _)
  exact ⟨groups, packs, packed⟩

/-- Short blocks waste less than one of them in each packet, so that all are placed while their
sum stays below what the packets surely take. -/
theorem pack_flatten {bound : Nat} (boundFits : bound ≤ maxBlocks) {blocks : List Bytes}
    (short : ∀ block ∈ blocks, block.length ≤ bound) (left : Nat) (current : Bytes)
    (room : current.length + blocks.flatten.length ≤ maxBlocks + left * (maxBlocks + 1 - bound)) :
    (pack left current blocks).flatten = current ++ blocks.flatten := by
  induction blocks generalizing left current with
  | nil => simp [pack]
  | cons block rest ih =>
    have blockShort := short block List.mem_cons_self
    have restShort : ∀ b ∈ rest, b.length ≤ bound := fun b member =>
      short b (List.mem_cons_of_mem block member)
    rw [List.flatten_cons, List.length_append] at room
    unfold pack
    split
    · rw [ih restShort left (current ++ block) (by rw [List.length_append]; omega)]
      simp
    · next full =>
      cases left with
      | zero => omega
      | succ left =>
        rw [Nat.succ_mul] at room
        rw [List.flatten_cons, ih restShort left block (by omega), List.flatten_cons]

/-! ## The packets of a broadcast -/

/-- The payloads of a broadcast, without the number of the snapshot before them. -/
def payloads (s : Snapshot) (receiver : String) (baseline : Option Snapshot) : List Bytes :=
  pack (maxPackets - 1) [] (s.blocks receiver baseline)

theorem length_broadcast (s : Snapshot) (receiver : String) (baseline : Option Snapshot) :
    (s.broadcast receiver baseline).length = (s.payloads receiver baseline).length := by
  simp [broadcast, payloads]

/-- Packet `i` carries payload `i` behind the number of the snapshot. -/
theorem getElem?_broadcast (s : Snapshot) (receiver : String) (baseline : Option Snapshot)
    (i : Nat) :
    (s.broadcast receiver baseline)[i]? =
      (s.payloads receiver baseline)[i]?.map fun payload =>
        { id := PacketId.snapshot
          index := UInt8.ofNat i
          total := UInt8.ofNat (s.payloads receiver baseline).length
          transport := .udp
          data := le32 s.id ++ payload } := by
  simp [broadcast, payloads, List.getElem?_zipIdx, Function.comp_def]

theorem map_data_broadcast (s : Snapshot) (receiver : String) (baseline : Option Snapshot) :
    (s.broadcast receiver baseline).map (fun packet => packet.data.drop headerLength) =
      s.payloads receiver baseline := by
  apply List.ext_getElem?
  intro i
  rw [List.getElem?_map, getElem?_broadcast, Option.map_map]
  exact Option.map_id'

theorem blocks_fit (s : Snapshot) (receiver : String) (baseline : Option Snapshot) :
    ∀ block ∈ s.blocks receiver baseline, block.length ≤ maxBlocks := by
  intro block member
  simp only [blocks, List.mem_filterMap, Option.filter_eq_some_iff, decide_eq_true_eq] at member
  obtain ⟨_, _, _, fits⟩ := member
  exact fits

/-- The blocks of a broadcast are those of the players of other accounts who have something to
report that fits a packet. -/
theorem blocks_eq (s : Snapshot) (receiver : String) (baseline : Option Snapshot) :
    s.blocks receiver baseline =
      (s.players.filter fun p => p.account ≠ receiver ∧
        p.changedFields (baseline.bind fun b => b.playerOf? p.account) ≠ [] ∧
        (Player.blockMarker :: p.slot ::
          p.fieldBytes (baseline.bind fun b => b.playerOf? p.account)).length ≤ maxBlocks).map
        fun p => Player.blockMarker :: p.slot ::
          p.fieldBytes (baseline.bind fun b => b.playerOf? p.account) := by
  unfold blocks
  rw [List.filterMap_filter, ← List.filterMap_eq_map, List.filterMap_filter]
  apply List.filterMap_congr
  intro p _
  by_cases own : p.account = receiver
  · simp [own]
  · by_cases unchanged : p.changedFields (baseline.bind fun b => b.playerOf? p.account) = []
    · simp [own, unchanged, Player.block?]
    · simp [own, unchanged, Player.block?, Option.filter]

/-- There is at least one packet, and no more than a byte can count. -/
theorem length_broadcast_bounds (s : Snapshot) (receiver : String) (baseline : Option Snapshot) :
    1 ≤ (s.broadcast receiver baseline).length ∧ (s.broadcast receiver baseline).length ≤ 255 := by
  obtain ⟨groups, packs, packed⟩ := packed_pack (s.blocks_fit receiver baseline) (maxPackets - 1)
  have count : (s.broadcast receiver baseline).length = groups.length := by
    rw [length_broadcast, payloads, packs, List.length_map]
  rw [count]
  exact ⟨List.length_pos_iff.mpr packed.nonempty, packed.count⟩

theorem payloads_fit (s : Snapshot) (receiver : String) (baseline : Option Snapshot) :
    ∀ payload ∈ s.payloads receiver baseline, payload.length ≤ maxBlocks := by
  obtain ⟨groups, packs, packed⟩ := packed_pack (s.blocks_fit receiver baseline) (maxPackets - 1)
  intro payload member
  rw [payloads, packs] at member
  obtain ⟨group, inGroups, rfl⟩ := List.mem_map.mp member
  exact packed.fits group inGroups

/-- Each packet knows its place among the others, starts with the number of the snapshot, and is a
single datagram that gives it back. -/
theorem broadcast_packet {s : Snapshot} {receiver : String} {baseline : Option Snapshot} {i : Nat}
    {packet : Packet} (found : (s.broadcast receiver baseline)[i]? = some packet) :
    packet.id = PacketId.snapshot ∧ packet.transport = .udp ∧ packet.index.toNat = i ∧
      packet.total.toNat = (s.broadcast receiver baseline).length ∧
      packet.data.length ≤ maxPayload ∧ packet.data.take headerLength = le32 s.id ∧
      ∃ datagram, packet.encode = .ok [datagram] ∧ Packet.decode datagram = .ok packet := by
  obtain ⟨least, most⟩ := s.length_broadcast_bounds receiver baseline
  have bound : i < (s.broadcast receiver baseline).length := (List.getElem?_eq_some_iff.mp found).1
  rw [getElem?_broadcast, Option.map_eq_some_iff] at found
  obtain ⟨payload, foundPayload, rfl⟩ := found
  have fits : payload.length ≤ maxBlocks :=
    s.payloads_fit receiver baseline payload (List.mem_of_getElem? foundPayload)
  have dataFits : (le32 s.id ++ payload).length ≤ maxPayload := by
    rw [List.length_append, length_le32]
    exact Nat.add_le_of_le_sub' (by decide) fits
  have index : (UInt8.ofNat i).toNat = i :=
    UInt8.toNat_ofNat_of_lt' (Nat.lt_of_lt_of_le bound (Nat.le_succ_of_le most))
  have total : (UInt8.ofNat (s.payloads receiver baseline).length).toNat =
      (s.broadcast receiver baseline).length := by
    rw [← length_broadcast]
    exact UInt8.toNat_ofNat_of_lt' (Nat.lt_succ_of_le most)
  have counted : 1 ≤ UInt8.ofNat (s.payloads receiver baseline).length := by
    rw [UInt8.le_iff_toNat_le, total]
    exact least
  exact ⟨rfl, rfl, index, total, dataFits, rfl, Packet.decode_of_encode_fits dataFits counted rfl⟩

/-- What a broadcast consists of: up to 255 numbered packets, each a single datagram that gives it
back, and in them the due blocks, whole and in order. Only the 255th packet can cut the row of
blocks short, at the first that it cannot take. -/
theorem broadcast_packed (s : Snapshot) (receiver : String) (baseline : Option Snapshot) :
    let packets := s.broadcast receiver baseline
    let previous (p : Player) := baseline.bind fun b => b.playerOf? p.account
    let block (p : Player) : Bytes := Player.blockMarker :: p.slot :: p.fieldBytes (previous p)
    let due := (s.players.filter fun p => p.account ≠ receiver ∧
      p.changedFields (previous p) ≠ [] ∧ (block p).length ≤ 568).map block
    1 ≤ packets.length ∧ packets.length ≤ 255 ∧
    (∀ i packet, packets[i]? = some packet →
      packet.id = PacketId.snapshot ∧ packet.transport = .udp ∧
      packet.index.toNat = i ∧ packet.total.toNat = packets.length ∧
      packet.data.length ≤ 572 ∧ packet.data.take 4 = le32 s.id ∧
      ∃ datagram, packet.encode = .ok [datagram] ∧ Packet.decode datagram = .ok packet) ∧
    ∃ groups : List (List Bytes),
      packets.map (fun packet => packet.data.drop 4) = groups.map List.flatten ∧
      (1 < packets.length → ∀ group ∈ groups, group ≠ []) ∧
      (groups.flatten = due ∨ packets.length = 255 ∧
        ∃ last next rest, groups.getLast? = some last ∧ due = groups.flatten ++ next :: rest ∧
          568 < last.flatten.length + next.length) := by
  intro packets previous block due
  obtain ⟨groups, packs, packed⟩ := packed_pack (s.blocks_fit receiver baseline) (maxPackets - 1)
  have bodies : s.payloads receiver baseline = groups.map List.flatten := packs
  have count : packets.length = groups.length := by
    rw [length_broadcast, bodies, List.length_map]
  have blocksDue : s.blocks receiver baseline = due := s.blocks_eq receiver baseline
  obtain ⟨least, most⟩ := s.length_broadcast_bounds receiver baseline
  refine ⟨least, most, fun i packet found => broadcast_packet found, groups, ?_, ?_, ?_⟩
  · rw [← bodies]
    exact s.map_data_broadcast receiver baseline
  · intro several group member
    rcases packed.filled with single | filled
    · rw [count, single] at several
      exact absurd several (Nat.lt_irrefl 1)
    · exact filled group member
  · rcases packed.placed with whole | ⟨full, last, next, rest, lastIs, split, excess⟩
    · exact Or.inl (whole.trans blocksDue)
    · exact Or.inr ⟨count.trans full, last, next, rest, lastIs, blocksDue ▸ split, excess⟩

end Snapshot

end Deathmatch
