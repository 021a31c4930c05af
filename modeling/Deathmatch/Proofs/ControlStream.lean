import Deathmatch.ControlChannel
import Deathmatch.Proofs.Grouping

/-!
# What a control channel delivers

A packet is written to the stream as the frames of its datagrams. Reading takes the frames off again
one by one (`Frame.lead_encode`), so a stream of whole frames yields its datagrams and nothing is
left (`Frame.readAll_frames`).

The datagrams of one packet follow each other. A packet that fits one of them passes straight
through; the fragments of another fill the one group there is, which holds the first `k` of them
after `k` pushes (`Group.Holds`), and leave no group behind (`receiveAll_packet`). Packet by packet
this gives back the list that was written (`receiveStream_written`).
-/

namespace Deathmatch

/-! ## Frames -/

namespace Frame

theorem length?_of_fits {n : Nat} (fits : n ≤ maxDatagram) :
    length? (UInt16.ofNat n).toUInt8 (UInt16.ofNat n / 256).toUInt8 = some n := by
  have small : (UInt16.ofNat n).toNat = n :=
    UInt16.toNat_ofNat_of_lt' (Nat.lt_of_le_of_lt fits (by decide))
  rw [length?, word16_le16, small, if_pos fits]

/-- A frame at the beginning of a stream is what is read first. -/
theorem lead_encode {d : Bytes} (fits : d.length ≤ maxDatagram) (rest : Bytes) :
    lead (encode d ++ rest) = .frame d rest := by
  show lead (_ :: _ :: (d ++ rest)) = _
  rw [lead, length?_of_fits fits]
  dsimp only
  rw [if_pos (by rw [List.length_append]; exact Nat.le_add_right _ _), List.take_left,
    List.drop_left]

theorem readAll_nil : readAll [] = ([], .unexpectedEnd, []) := by
  rw [readAll]
  rfl

theorem readAll_encode {d : Bytes} (fits : d.length ≤ maxDatagram) (rest : Bytes) :
    readAll (encode d ++ rest) =
      (d :: (readAll rest).1, (readAll rest).2.1, (readAll rest).2.2) := by
  rw [readAll]
  split
  · next h =>
    rw [lead_encode fits] at h
    cases h
  · next h =>
    rw [lead_encode fits] at h
    cases h
  · next h =>
    rw [lead_encode fits] at h
    cases h
    rfl

/-- A stream of whole frames is read to its end. -/
theorem readAll_frames {datagrams : List Bytes} (fit : ∀ d ∈ datagrams, d.length ≤ maxDatagram) :
    readAll (datagrams.map encode).flatten = (datagrams, .unexpectedEnd, []) := by
  induction datagrams with
  | nil => exact readAll_nil
  | cons d rest ih =>
    rw [List.map_cons, List.flatten_cons, readAll_encode (fit d List.mem_cons_self),
      ih fun e member => fit e (List.mem_cons_of_mem d member)]

/-! ### The frames of packets -/

theorem write_rows {packets : List Packet} {rows : List (List Bytes)}
    (encoded : packets.mapM Packet.encode = .ok rows) :
    packets.mapM write = .ok (rows.map fun row => (row.map encode).flatten) := by
  induction packets generalizing rows with
  | nil =>
    cases encoded
    rfl
  | cons p rest ih =>
    obtain ⟨row, others, first, later, rfl⟩ := mapM_cons_ok encoded
    rw [List.mapM_cons, write, first, ih later]
    rfl

theorem length_le_of_rows {packets : List Packet} {rows : List (List Bytes)}
    (encoded : packets.mapM Packet.encode = .ok rows) :
    ∀ d ∈ rows.flatten, d.length ≤ maxDatagram := by
  induction packets generalizing rows with
  | nil =>
    cases encoded
    exact fun d member => nomatch member
  | cons p rest ih =>
    obtain ⟨row, others, first, later, rfl⟩ := mapM_cons_ok encoded
    intro d member
    rcases List.mem_append.mp (List.flatten_cons ▸ member) with here | there
    · exact Packet.length_le_of_mem_encode first here
    · exact ih later d there

end Frame

/-! ## The group of a packet -/

namespace Group

variable {g : Group} {p : Packet} {channel : Transport} {k : Nat}

/-- The group has the first `k` fragments of a packet and nothing else. -/
structure Holds (g : Group) (p : Packet) (channel : Transport) (k : Nat) : Prop where
  total : g.total.toNat = (pieces p.data).length
  entries : ∀ j, g.fragments.get? j =
    if j.toNat < k then some (p.fragment channel j.toNat) else none

theorem holds_fresh (splits : Splits p.data) (now : Time) (i : Nat) :
    (fresh (p.fragment channel i).total now).Holds p channel 0 where
  total := (Packet.toNat_total_fragment splits : (p.fragment channel i).total.toNat = _)
  entries j := ByteMap.get?_empty j

theorem Holds.add (holds : g.Holds p channel k) (splits : Splits p.data)
    (inside : k < (pieces p.data).length) :
    (g.add (p.fragment channel k)).Holds p channel (k + 1) where
  total := holds.total
  entries j := by
    have place : (p.fragment channel k).index.toNat = k :=
      Packet.toNat_index_fragment splits inside
    rw [get?_add, holds.entries j]
    by_cases here : (p.fragment channel k).index = j
    · have number : j.toNat = k := here ▸ place
      rw [if_pos here, number, if_pos (Nat.lt_succ_self k)]
    · have number : j.toNat ≠ k := fun same => here (UInt8.toNat.inj (place.trans same.symm))
      rw [if_neg here]
      by_cases earlier : j.toNat < k
      · rw [if_pos earlier, if_pos (Nat.lt_succ_of_lt earlier)]
      · rw [if_neg earlier, if_neg (by omega)]

/-- The group is complete with the last fragment. -/
theorem Holds.isComplete_iff (holds : g.Holds p channel k) (splits : Splits p.data)
    (within : k ≤ (pieces p.data).length) :
    g.isComplete = true ↔ k = (pieces p.data).length := by
  have below (j : UInt8) (f : Packet) (found : g.fragments.get? j = some f) :
      j.toNat < g.total.toNat := by
    rw [holds.entries j] at found
    split at found
    · next earlier =>
      rw [holds.total]
      exact Nat.lt_of_lt_of_le earlier within
    · cases found
  have there (i : Nat) (inside : i < (pieces p.data).length) :
      g.fragments.contains (UInt8.ofNat i) = true ↔ i < k := by
    have small : i < 256 := Nat.lt_of_lt_of_le inside (Nat.le_succ_of_le splits.count.2)
    rw [ByteMap.contains, holds.entries, UInt8.toNat_ofNat_of_lt' small]
    split
    · next earlier => exact iff_of_true rfl earlier
    · next later => exact iff_of_false Bool.false_ne_true later
  rw [Group.isComplete_iff below, holds.total]
  constructor
  · intro all
    refine Nat.le_antisymm within (Nat.le_of_not_lt fun short => ?_)
    exact absurd ((there k short).mp (all k short)) (Nat.lt_irrefl k)
  · rintro rfl i inside
    exact (there i inside).mpr inside

/-- With all its fragments a packet is put together again. -/
theorem Holds.assemble (holds : g.Holds p channel (pieces p.data).length)
    (splits : Splits p.data) : Packet.assemble g.fragments.values =
      .ok { id := p.id, index := 0, total := 1, transport := channel, data := p.data } := by
  have member (i : Nat) (inside : i < (pieces p.data).length) :
      p.fragment channel i ∈ g.fragments.values := by
    have small : i < 256 := Nat.lt_of_lt_of_le inside (Nat.le_succ_of_le splits.count.2)
    refine ByteMap.mem_values.mpr ⟨UInt8.ofNat i, ?_⟩
    rw [holds.entries, UInt8.toNat_ofNat_of_lt' small, if_pos inside]
  have several : 0 < (pieces p.data).length := Nat.lt_of_succ_lt splits.count.1
  refine Packet.assemble_fragments splits (List.ne_nil_of_mem (member 0 several)) ?_ ?_
  · intro f inGroup
    obtain ⟨j, found⟩ := ByteMap.mem_values.mp inGroup
    rw [holds.entries] at found
    split at found
    · next inside => exact ⟨j.toNat, inside, (Option.some.inj found).symm⟩
    · cases found
  · intro i inside
    exact ⟨_, member i inside, Packet.toNat_index_fragment splits inside⟩

end Group

/-! ## One packet on the channel -/

namespace ControlChannel

variable {p : Packet} {peer : Endpoint} {timeout : Span}

theorem receiveAll_cons {pending pending' : Reassembler} {now : Time} {d : Bytes}
    {whole : Option Packet} (received : receive pending peer d now = .ok (whole, pending'))
    (rest : List (Time × Bytes)) :
    receiveAll pending peer ((now, d) :: rest) =
      (whole.toList ++ (receiveAll pending' peer rest).1, (receiveAll pending' peer rest).2) := by
  rw [receiveAll, received]

theorem receiveAll_append {pending between : Reassembler} {xs : List (Time × Bytes)}
    {packets : List Packet} (first : receiveAll pending peer xs = (packets, .ok between))
    (ys : List (Time × Bytes)) :
    receiveAll pending peer (xs ++ ys) =
      (packets ++ (receiveAll between peer ys).1, (receiveAll between peer ys).2) := by
  induction xs generalizing pending packets with
  | nil =>
    cases first
    rfl
  | cons x rest ih =>
    obtain ⟨now, d⟩ := x
    cases received : receive pending peer d now with
    | error fault =>
      rw [receiveAll, received] at first
      cases first
    | ok answer =>
      obtain ⟨whole, pending'⟩ := answer
      rw [receiveAll_cons received] at first
      obtain ⟨packetsIs, endingIs⟩ := Prod.mk.inj first
      rw [List.cons_append, receiveAll_cons received, ih (Prod.ext rfl endingIs), ← packetsIs,
        List.append_assoc]

/-- The datagram of fragment `i`. -/
def sheet (p : Packet) (i : Nat) : Bytes :=
  datagram p.id (UInt8.ofNat i) (UInt8.ofNat (pieces p.data).length) ((pieces p.data).getD i [])

theorem decode_sheet (splits : Splits p.data) (i : Nat) :
    Packet.decode (sheet p i) = .ok (p.fragment .udp i) :=
  Packet.decode_fragment splits i

/-- A fragment is pushed as one of the control channel. -/
theorem receive_sheet (splits : Splits p.data) {pending pending' : Reassembler} {i : Nat}
    {now : Time} {whole : Option Packet}
    (pushed : pending.push peer (p.fragment .tcp i) now = (.ok whole, pending')) :
    receive pending peer (sheet p i) now = .ok (whole, pending') := by
  have asTcp : { p.fragment .udp i with transport := .tcp } = p.fragment .tcp i := rfl
  rw [receive, decode_sheet splits]
  dsimp only
  rw [asTcp, pushed]

/-- Fragment `k` joins the group that has those before it. -/
theorem push_sheet (splits : Splits p.data) {g : Group} {k : Nat} (holds : g.Holds p .tcp k)
    {now : Time} (young : now.age g.firstSeen ≤ timeout) :
    (⟨timeout, [(⟨peer, p.id⟩, g)]⟩ : Reassembler).push peer (p.fragment .tcp k) now =
      Reassembler.accept ⟨timeout, [(⟨peer, p.id⟩, g)]⟩ ⟨peer, p.id⟩ g (p.fragment .tcp k) := by
  refine Reassembler.push_joins (Packet.one_lt_total_fragment splits) ?_ ?_ ?_
  · simp [Reassembler.find?, Packet.fragment]
  · rw [Group.isStale, decide_eq_false_iff_not]
    exact Nat.not_lt_of_le young
  · apply UInt8.toNat.inj
    rw [holds.total, Packet.toNat_total_fragment splits]

theorem receive_next (splits : Splits p.data) {g : Group} {k : Nat} (holds : g.Holds p .tcp k)
    (more : k + 1 < (pieces p.data).length) {now : Time} (young : now.age g.firstSeen ≤ timeout) :
    receive ⟨timeout, [(⟨peer, p.id⟩, g)]⟩ peer (sheet p k) now =
      .ok (none, ⟨timeout, [(⟨peer, p.id⟩, g.add (p.fragment .tcp k))]⟩) := by
  have grown := holds.add splits (Nat.lt_of_succ_lt more)
  have waits : ¬ (g.add (p.fragment .tcp k)).isComplete = true := fun complete =>
    Nat.ne_of_lt more ((grown.isComplete_iff splits (Nat.le_of_lt more)).mp complete)
  refine receive_sheet splits ?_
  rw [push_sheet splits holds young, Reassembler.accept, if_neg waits]
  simp [Reassembler.keep, Reassembler.remove]

theorem receive_last (splits : Splits p.data) {g : Group} {k : Nat} (holds : g.Holds p .tcp k)
    (last : k + 1 = (pieces p.data).length) {now : Time} (young : now.age g.firstSeen ≤ timeout) :
    receive ⟨timeout, [(⟨peer, p.id⟩, g)]⟩ peer (sheet p k) now =
      .ok (some { id := p.id, index := 0, total := 1, transport := .tcp, data := p.data },
        .empty timeout) := by
  have full : (g.add (p.fragment .tcp k)).Holds p .tcp (pieces p.data).length :=
    last ▸ holds.add splits (Nat.lt_of_succ_le (Nat.le_of_eq last))
  have complete := (full.isComplete_iff splits (Nat.le_refl _)).mpr rfl
  refine receive_sheet splits ?_
  rw [push_sheet splits holds young, Reassembler.accept, if_pos complete, full.assemble splits]
  simp [Except.map, Reassembler.remove, Reassembler.empty]

/-- The datagrams from number `k` on of a packet whose first `k` fragments wait already. -/
theorem receiveAll_from (splits : Splits p.data) {g : Group} {k : Nat}
    (holds : g.Holds p .tcp k) (clock : Nat → Time) (m : Nat)
    (count : k + (m + 1) = (pieces p.data).length)
    (timely : ∀ i < (pieces p.data).length, (clock i).age g.firstSeen ≤ timeout) :
    receiveAll ⟨timeout, [(⟨peer, p.id⟩, g)]⟩ peer
        ((List.range' k (m + 1)).map fun i => (clock i, sheet p i)) =
      ([{ id := p.id, index := 0, total := 1, transport := .tcp, data := p.data }],
        .ok (.empty timeout)) := by
  have inside : k < (pieces p.data).length := by omega
  -- Over the fragments that come after the next one.
  induction m generalizing g k with
  | zero =>
    rw [List.range'_succ, List.map_cons, receiveAll_cons (receive_last splits holds count
      (timely k inside))]
    rfl
  | succ m ih =>
    have more : k + 1 < (pieces p.data).length := by omega
    have grown := holds.add splits inside
    rw [List.range'_succ, List.map_cons, receiveAll_cons (receive_next splits holds more
      (timely k inside)), ih grown (by omega) timely more]
    rfl

/-- The datagram of a packet that fits one passes straight through. -/
theorem receiveAll_of_fits (total : p.total = 1) (pending : Reassembler) (now : Time) :
    receiveAll pending peer [(now, datagram p.id p.index (max p.total 1) p.data)] =
      ([{ p with transport := .tcp }], .ok pending) := by
  have received : receive pending peer (datagram p.id p.index (max p.total 1) p.data) now =
      .ok (some { p with transport := .tcp }, pending) := by
    have one : max (max p.total 1) 1 = p.total := by rw [total]; rfl
    have single : p.total ≤ 1 := total ▸ UInt8.le_refl 1
    rw [receive, Packet.decode_datagram, one]
    dsimp only
    rw [Reassembler.push, if_pos single]
  rw [receiveAll_cons received]
  rfl

/-- The first datagram of a split packet opens its group, which then takes the others. -/
theorem receiveAll_of_split (splits : Splits p.data) (clock : Nat → Time)
    (timely : ∀ i < (pieces p.data).length, (clock i).age (clock 0) ≤ timeout) :
    receiveAll (.empty timeout) peer
        ((List.range (pieces p.data).length).map fun i => (clock i, sheet p i)) =
      ([{ id := p.id, index := 0, total := 1, transport := .tcp, data := p.data }],
        .ok (.empty timeout)) := by
  have several := splits.count.1
  let opened := (Group.fresh (p.fragment .tcp 0).total (clock 0)).add (p.fragment .tcp 0)
  have held : opened.Holds p .tcp 1 :=
    (Group.holds_fresh splits (clock 0) 0).add splits (Nat.lt_of_succ_lt several)
  have waits : ¬ opened.isComplete = true := by
    rw [held.isComplete_iff splits (Nat.le_of_lt several)]
    exact Nat.ne_of_lt several
  have received : receive (.empty timeout) peer (sheet p 0) (clock 0) =
      .ok (none, ⟨timeout, [(⟨peer, p.id⟩, opened)]⟩) := by
    refine receive_sheet splits ?_
    rw [Reassembler.push_opens (Packet.one_lt_total_fragment splits) rfl rfl, Reassembler.accept,
      if_neg waits]
    rfl
  obtain ⟨m, count⟩ : ∃ m, (pieces p.data).length = 1 + 1 + m := Nat.exists_eq_add_of_le several
  rw [Nat.add_assoc, Nat.add_comm 1 m] at count
  rw [count, List.range_eq_range', Nat.add_comm, List.range'_succ, List.map_cons,
    receiveAll_cons received, receiveAll_from splits held clock m count.symm timely]
  rfl

/-- The datagrams of a packet arrive within the timeout of the first. -/
theorem receiveAll_packet (peer : Endpoint) (index : p.index = 0) (total : p.total = 1)
    (short : p.data.length ≤ 255 * maxPayload) (clock : Nat → Time)
    (timely : ∀ i < (pieces p.data).length, (clock i).age (clock 0) ≤ timeout) :
    ∃ row, p.encode = .ok row ∧ row.length = (pieces p.data).length ∧
      receiveAll (.empty timeout) peer (row.mapIdx fun i d => (clock i, d)) =
        ([{ p with transport := .tcp }], .ok (.empty timeout)) := by
  by_cases fits : p.data.length ≤ maxPayload
  · refine ⟨_, Packet.encode_of_fits fits, ?_, receiveAll_of_fits total _ (clock 0)⟩
    rw [pieces, if_pos fits]
    rfl
  · have splits : Splits p.data := ⟨Nat.lt_of_not_le fits, short⟩
    have timed : ((List.range (pieces p.data).length).map (sheet p)).mapIdx
          (fun i d => (clock i, d)) =
        (List.range (pieces p.data).length).map fun i => (clock i, sheet p i) := by
      apply List.ext_getElem
      · simp
      · intro i _ _
        simp
    refine ⟨_, Packet.encode_of_split splits, by simp, ?_⟩
    refine (congrArg (receiveAll _ peer) timed).trans ?_
    rw [receiveAll_of_split splits clock timely, ← index, ← total]

/-! ## Many packets -/

/-- The datagrams of packet after packet. -/
theorem receiveAll_packets (peer : Endpoint) (packets : List Packet)
    (whole : ∀ p ∈ packets, p.index = 0 ∧ p.total = 1 ∧ p.data.length ≤ 255 * maxPayload)
    (clock : Nat → Time)
    (timely : ∀ before p after, packets = before ++ p :: after →
      let first := (before.flatMap fun q => pieces q.data).length
      ∀ i < (pieces p.data).length, (clock (first + i)).age (clock first) ≤ timeout) :
    ∃ rows, packets.mapM Packet.encode = .ok rows ∧
      rows.map List.length = packets.map (fun p => (pieces p.data).length) ∧
      receiveAll (.empty timeout) peer (rows.flatten.mapIdx fun i d => (clock i, d)) =
        (packets.map fun p => { p with transport := .tcp }, .ok (.empty timeout)) := by
  -- The clock of the later packets begins where the datagrams of the first end.
  induction packets generalizing clock with
  | nil => exact ⟨[], rfl, rfl, rfl⟩
  | cons p rest ih =>
    obtain ⟨index, total, short⟩ := whole p List.mem_cons_self
    obtain ⟨row, encoded, counted, received⟩ := receiveAll_packet peer index total short
      clock (by simpa using timely [] p rest rfl)
    have laterWhole := fun q member => whole q (List.mem_cons_of_mem p member)
    obtain ⟨rows, others, counts, later⟩ := ih laterWhole
      (fun i => clock ((pieces p.data).length + i)) (by
        intro before q after split
        have here := timely (p :: before) q after (by rw [split, List.cons_append])
        simpa [Nat.add_assoc] using here)
    refine ⟨row :: rows, ?_, ?_, ?_⟩
    · rw [List.mapM_cons, encoded, others]
      rfl
    · rw [List.map_cons, List.map_cons, counted, counts]
    · rw [List.flatten_cons, List.mapIdx_append, receiveAll_append received, counted]
      simp only [Nat.add_comm _ (pieces p.data).length]
      rw [later]
      rfl

/-- What is written is what is handed on: the packets in order, each once, on the control channel.
No fragment is left waiting, and every byte of the stream is in one of the frames read. -/
theorem receiveStream_written (peer : Endpoint) (clock : Nat → Time) (packets : List Packet)
    (whole : ∀ p ∈ packets, p.index = 0 ∧ p.total = 1 ∧ p.data.length ≤ 145860)
    (timely : ∀ before p after, packets = before ++ p :: after →
      let first := (before.flatMap fun q => pieces q.data).length
      ∀ i < (pieces p.data).length,
        (clock (first + i)).age (clock first) ≤ Reassembler.defaultTimeout) :
    ∃ streams, packets.mapM Frame.write = .ok streams ∧
      receiveStream peer clock streams.flatten =
        (packets.map fun p => { p with transport := .tcp },
          .ok (.empty Reassembler.defaultTimeout)) ∧
      ∃ rows, packets.mapM Packet.encode = .ok rows ∧
        rows.map List.length = packets.map (fun p => (pieces p.data).length) ∧
        Frame.readAll streams.flatten = (rows.flatten, .unexpectedEnd, []) ∧
        streams.flatten = (rows.flatten.map Frame.encode).flatten := by
  obtain ⟨rows, encoded, counts, received⟩ := receiveAll_packets peer packets whole clock
    timely
  have frames : (rows.map fun row => (row.map Frame.encode).flatten).flatten =
      (rows.flatten.map Frame.encode).flatten := by
    rw [List.map_flatten, List.flatten_flatten, List.map_map]
    rfl
  have read : Frame.readAll (rows.map fun row => (row.map Frame.encode).flatten).flatten =
      (rows.flatten, .unexpectedEnd, []) := by
    rw [frames]
    exact Frame.readAll_frames (Frame.length_le_of_rows encoded)
  refine ⟨_, Frame.write_rows encoded, ?_, rows, encoded, counts, read, frames⟩
  rw [receiveStream, read]
  exact received

/-- Split packets and a whole one with a single id, whose datagrams come a millisecond apart. -/
theorem receiveStream_written_mixed :
    let packets : List Packet :=
      [.tcp 3 (List.replicate 600 7), .tcp 3 [1, 2], .udp 3 (List.replicate 573 9)]
    let clock (i : Nat) : Time := Span.millis i
    (∀ p ∈ packets, p.index = 0 ∧ p.total = 1 ∧ p.data.length ≤ 145860) ∧
    (∀ before p after, packets = before ++ p :: after →
      let first := (before.flatMap fun q => pieces q.data).length
      ∀ i < (pieces p.data).length,
        (clock (first + i)).age (clock first) ≤ Reassembler.defaultTimeout) ∧
    ∃ streams, packets.mapM Frame.write = .ok streams ∧
      receiveStream ⟨"10.0.0.1", 7⟩ clock streams.flatten =
        (packets.map fun p => { p with transport := .tcp },
          .ok (.empty Reassembler.defaultTimeout)) := by
  intro packets clock
  have whole : ∀ p ∈ packets, p.index = 0 ∧ p.total = 1 ∧ p.data.length ≤ 145860 := by
    have long (n : Nat) (b : UInt8) (small : n ≤ 145860) : (List.replicate n b).length ≤ 145860 :=
      List.length_replicate ▸ small
    intro p member
    rcases List.mem_cons.mp member with rfl | member
    · exact ⟨rfl, rfl, long 600 7 (by decide)⟩
    rcases List.mem_cons.mp member with rfl | member
    · exact ⟨rfl, rfl, by decide⟩
    rcases List.mem_singleton.mp member with rfl
    exact ⟨rfl, rfl, long 573 9 (by decide)⟩
  have timely (before : List Packet) (p : Packet) (after : List Packet)
      (split : packets = before ++ p :: after) :
      let first := (before.flatMap fun q => pieces q.data).length
      ∀ i < (pieces p.data).length,
        (clock (first + i)).age (clock first) ≤ Reassembler.defaultTimeout := by
    intro first i inside
    have short := (whole p (split ▸ List.mem_append_right _ List.mem_cons_self)).2.2
    have count : (pieces p.data).length ≤ 255 := by
      rw [length_pieces]
      omega
    show (first + i) * 1000000 - first * 1000000 ≤ 2000000000
    omega
  obtain ⟨streams, written, received, -⟩ := receiveStream_written ⟨"10.0.0.1", 7⟩ clock packets
    whole timely
  exact ⟨whole, timely, streams, written, received⟩

end ControlChannel

end Deathmatch
