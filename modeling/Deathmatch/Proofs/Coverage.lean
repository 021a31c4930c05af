import Deathmatch.Proofs.Baseline
import Deathmatch.Proofs.Pieces
import Deathmatch.Proofs.Roster

/-!
# Nobody is left out of a broadcast

Blocks of short names are so short that all other players fit into far fewer packets than a
broadcast may have (`Snapshot.length_pack_le`), so neither is a block left out for its size nor the
row of blocks cut. The packets then hold the reports of a snapshot, whole and in order
(`Regular.exists_groups`), and the report of each player is due or not by what the receiver has of
them (`Player.Due`). Since slots differ, what is due stands in one packet, once.

In a world that started empty, every slot with an endpoint has a player (`Roster.Manned`).
`run_broadcasts` is the statement about its ticks.
-/

namespace Deathmatch

/-! ## Elements and their groups -/

/-- What a row of groups makes of the images of a list, it makes of the list. -/
theorem exists_groups_of_map {α β : Type} {f : α → β} {images : List (List β)} {l : List α}
    (split : images.flatten = l.map f) :
    ∃ groups : List (List α), groups.flatten = l ∧ groups.map (List.map f) = images := by
  induction images generalizing l with
  | nil =>
    refine ⟨[], ?_, rfl⟩
    exact (List.map_eq_nil_iff.mp split.symm).symm
  | cons image images ih =>
    rw [List.flatten_cons] at split
    rcases List.append_eq_map_iff.mp split with ⟨xs, ys, rfl, first, others⟩
    rcases ih others.symm with ⟨groups, rfl, rest⟩
    refine ⟨xs :: groups, List.flatten_cons, ?_⟩
    rw [List.map_cons, first, rest]

/-- The only element of its kind stands in one of the groups, alone of its kind. -/
theorem exists_group_of_filter {α : Type} {kind : α → Bool} {groups : List (List α)} {a : α}
    (only : groups.flatten.filter kind = [a]) :
    ∃ i < groups.length, ∀ j group, groups[j]? = some group →
      group.filter kind = if j = i then [a] else [] := by
  induction groups with
  | nil => cases only
  | cons first rest ih =>
    rw [List.flatten_cons, List.filter_append, List.append_eq_singleton_iff] at only
    rcases only with ⟨none, later⟩ | ⟨here, none⟩
    · rcases ih later with ⟨i, inside, rule⟩
      refine ⟨i + 1, Nat.succ_lt_succ inside, fun j group found => ?_⟩
      cases j with
      | zero =>
        cases found
        exact none
      | succ j => simpa using rule j group found
    · refine ⟨0, Nat.succ_pos _, fun j group found => ?_⟩
      cases j with
      | zero =>
        cases found
        exact here
      | succ j =>
        have member : group ∈ rest := List.mem_of_getElem? found
        rw [if_neg j.succ_ne_zero, List.filter_eq_nil_iff]
        exact fun b inside =>
          List.filter_eq_nil_iff.mp none b (List.mem_flatten_of_mem member inside)

namespace Snapshot

/-! ## The number of packets -/

/-- Each packet but the last is filled up to less than the longest block. -/
theorem length_pack_le {bound : Nat} (boundFits : bound ≤ maxBlocks) {blocks : List Bytes}
    (short : ∀ block ∈ blocks, block.length ≤ bound) (left : Nat) (current : Bytes) :
    (pack left current blocks).length * (maxBlocks + 1 - bound) ≤
      current.length + blocks.flatten.length + (maxBlocks + 1 - bound) := by
  induction blocks generalizing left current with
  | nil =>
    rw [pack, List.length_singleton, Nat.one_mul]
    exact Nat.le_add_left _ _
  | cons block rest ih =>
    have blockShort := short block List.mem_cons_self
    have restShort : ∀ b ∈ rest, b.length ≤ bound := fun b member =>
      short b (List.mem_cons_of_mem block member)
    rw [List.flatten_cons, List.length_append]
    unfold pack
    split
    · have packed := ih restShort left (current ++ block)
      rw [List.length_append] at packed
      omega
    · cases left with
      | zero =>
        rw [List.length_singleton, Nat.one_mul]
        exact Nat.le_add_left _ _
      | succ left =>
        have packed := ih restShort left block
        rw [List.length_cons, Nat.succ_mul]
        omega

end Snapshot

/-! ## What is due -/

/-- Whether the client of `receiver`, who has `baseline`, lacks something of the player: they play
with another account, and a field differs from the one in the baseline, if they are there. -/
def Player.Due (p : Player) (receiver : String) (baseline : Option Snapshot) : Prop :=
  p.account ≠ receiver ∧ ∀ old, (baseline.bind fun s => s.playerOf? p.account) = some old →
    ∃ f : Field, f.value old ≠ f.value p

theorem Player.changedFields_ne_nil_iff {p : Player} {baseline : Option Player} :
    p.changedFields baseline ≠ [] ↔
      ∀ old, baseline = some old → ∃ f : Field, f.value old ≠ f.value p := by
  cases baseline with
  | none => exact iff_of_true (List.cons_ne_nil _ _) fun old there => nomatch there
  | some old => simp [changedFields, Field.mem_all]

namespace Snapshot.Regular

variable {s : Snapshot} {receiver : String} {baseline : Option Snapshot} {p : Player}

theorem due_of_mem_reports {r : Report} (member : r ∈ s.reports receiver baseline) :
    ∃ p ∈ s.players, p.slot = r.slot ∧ p.Due receiver baseline := by
  rcases List.mem_filter.mp member with ⟨inside, reported⟩
  rcases List.mem_map.mp inside with ⟨p, there, rfl⟩
  rcases List.mem_filter.mp there with ⟨inPlayers, other⟩
  refine ⟨p, inPlayers, rfl, of_decide_eq_true other, Player.changedFields_ne_nil_iff.mp ?_⟩
  simpa [Player.report] using reported

/-- The report of a player who is due is the only one of their slot. -/
theorem filter_reports_of_due (regular : s.Regular) (member : p ∈ s.players)
    (due : p.Due receiver baseline) :
    (s.reports receiver baseline).filter (fun r => r.slot = p.slot) =
      [p.report (baseline.bind fun b => b.playerOf? p.account)] := by
  have news := Player.changedFields_ne_nil_iff.mpr due.2
  rw [regular.filter_slot_reports baseline member due.1]
  exact List.filter_cons_of_pos (by simpa [Player.report] using news)

/-- There is no report of a player who is not due. -/
theorem slot_ne_of_not_due (regular : s.Regular) (member : p ∈ s.players)
    (current : ¬ p.Due receiver baseline) {r : Report}
    (reported : r ∈ s.reports receiver baseline) : r.slot ≠ p.slot := by
  intro same
  rcases due_of_mem_reports reported with ⟨q, there, slotIs, due⟩
  have one : q = p := List.inj_on_of_nodup_map regular.slots there member (slotIs.trans same)
  exact current (one ▸ due)

/-! ## What the packets hold -/

/-- A regular snapshot does not come near the most packets of a broadcast. -/
theorem length_broadcast_le (regular : s.Regular) (receiver : String) (baseline : Option Snapshot) :
    (s.broadcast receiver baseline).length ≤ 254 := by
  have packed := length_pack_le (show Report.maxBytes ≤ maxBlocks by decide)
    (regular.short_blocks receiver baseline) (maxPackets - 1) []
  have sum := regular.length_flatten_blocks receiver baseline
  rw [length_broadcast, payloads]
  simp only [Report.maxBytes, maxBlocks, maxPayload, maxDatagram, Deathmatch.headerLength,
    headerLength, List.length_nil] at packed sum ⊢
  omega

/-- The packets hold the reports of the snapshot, whole and in order. -/
theorem exists_groups (regular : s.Regular) (receiver : String) (baseline : Option Snapshot) :
    ∃ groups : List (List Report),
      (s.broadcast receiver baseline).map (fun packet => packet.data.drop headerLength) =
        groups.map (fun group => group.flatMap Report.bytes) ∧
      groups.flatten = s.reports receiver baseline := by
  obtain ⟨images, packs, packed⟩ := packed_pack (s.blocks_fit receiver baseline) (maxPackets - 1)
  have all : images.flatten = (s.reports receiver baseline).map Report.bytes := by
    rw [← regular.blocks_eq_reports]
    refine packed.placed.resolve_right fun ⟨full, _⟩ => ?_
    have few := regular.length_broadcast_le receiver baseline
    rw [length_broadcast, payloads, packs, List.length_map, full] at few
    exact absurd few (by decide)
  obtain ⟨groups, whole, rfl⟩ := exists_groups_of_map all
  refine ⟨groups, ?_, whole⟩
  rw [map_data_broadcast, payloads, packs, List.map_map]
  exact List.map_congr_left fun group _ => List.flatMap_def.symm

/-- No block is too large for a packet. -/
theorem length_block_le (regular : s.Regular) (member : p ∈ s.players) {known : Option Player}
    {block : Bytes} (there : p.block? known = some block) : block.length ≤ maxBlocks := by
  rw [Player.block?] at there
  split at there
  · cases there
  · cases there
    rw [← Player.bytes_report]
    exact Nat.le_trans (Player.length_bytes_report (regular.names p member) known) (by decide)

end Snapshot.Regular

/-! ## Endpoints without a player -/

namespace Roster

/-- Whether snapshots go to players only. -/
def Manned (r : Roster) : Prop :=
  ∀ slot, (r slot).who = none → (r slot).udp = none

theorem manned_empty : empty.Manned := fun _ _ => rfl

theorem Manned.reseat {r : Roster} (manned : r.Manned) (command : Command) :
    (command.reseat r).Manned := by
  cases command with
  | join slot account name udp =>
    intro k nobody
    simp only [Command.reseat, Function.update_apply] at nobody ⊢
    split at nobody
    · cases nobody
    · next other => exact (if_neg other).symm ▸ manned k nobody
  | leave slot =>
    intro k nobody
    simp only [Command.reseat, Function.update_apply] at nobody ⊢
    split
    · rfl
    · next other => exact manned k (by rwa [if_neg other] at nobody)
  | move | infoChange | damage | acknowledge => exact manned

end Roster

namespace World

theorem manned_after {w : World} (manned : w.roster.Manned) (step : Step) :
    (w.after step).roster.Manned := by
  cases step with
  | command c now =>
    rw [after, roster_apply]
    exact manned.reseat c
  | integrate now dt => exact (roster_after (.integrate now dt) rfl).symm ▸ manned
  | tick now => exact (roster_after (.tick now) rfl).symm ▸ manned

theorem manned_run {w : World} (manned : w.roster.Manned) (steps : List Step) :
    (w.run steps).roster.Manned := by
  induction steps generalizing w with
  | nil => exact manned
  | cons step rest ih => exact ih (manned_after manned step)

/-- Who is sent snapshots plays. -/
theorem exists_player {w : World} (manned : w.roster.Manned) {slot : UInt8} {target : Endpoint}
    (bound : w.endpoints.get? slot = some target) : ∃ p, w.players.get? slot = some p := by
  refine Option.ne_none_iff_exists'.mp fun nobody => ?_
  have vacant : (w.roster slot).who = none := congrArg (Option.map _) nobody
  exact absurd ((manned slot vacant).symm.trans bound) nofun

end World

/-- What a tick sends after any steps from an empty world. It sends packets to each endpoint, in
slot order. Every slot with an endpoint has a player, and is sent at most 254 packets, each of them
one datagram; no player's block is too large for a packet. The packets consist of reports behind
their headers. The report of a player who plays with another account than the receiver and differs
from what the baseline says of them, if anything, stands in one of the packets, once. There is none
of other players. -/
theorem run_broadcasts (interval : Span) (points : List Vec3) (rolls : Nat → Nat)
    (steps : List World.Step) (now : Time) :
    let w := (World.empty interval points rolls).run steps
    let b : Beat := ⟨w, now⟩
    (w.tick now).2 = (w.endpoints.toList.flatMap fun (slot, target) =>
      (b.sent slot).map fun packet => ⟨target, packet⟩) ∧
    ∀ slot target, w.endpoints.get? slot = some target →
      ∃ receiver, w.players.get? slot = some receiver ∧
        let baseline := b.baseline? slot
        let known (p : Player) := baseline.bind fun s => s.playerOf? p.account
        (b.sent slot).length ≤ 254 ∧
        (∀ packet ∈ b.sent slot, ∃ d, packet.encode = .ok [d] ∧ d.length ≤ 576) ∧
        (∀ p ∈ b.shot.players, ∀ block, p.block? (known p) = some block → block.length ≤ 568) ∧
        ∃ groups : List (List Report),
          (b.sent slot).map (fun packet => packet.data.drop 4) =
            groups.map (fun group => group.flatMap Report.bytes) ∧
          ∀ p ∈ b.shot.players,
            (p.Due receiver.account baseline → ∃ i < groups.length,
              ∀ j group, groups[j]? = some group → group.filter (fun r => r.slot = p.slot) =
                if j = i then [p.report (known p)] else []) ∧
            (¬ p.Due receiver.account baseline →
              ∀ group ∈ groups, ∀ r ∈ group, r.slot ≠ p.slot) := by
  intro w b
  have seated : b.world.Seated := (World.seated_empty interval points rolls).run steps
  have regular : b.shot.Regular := Beat.regular_shot seated
  have manned : w.roster.Manned :=
    World.manned_run (World.roster_empty interval points rolls ▸ Roster.manned_empty) steps
  refine ⟨?_, fun slot target bound => ?_⟩
  · rw [show w.tick now = (b.kept, b.kept.updates b.shot) from b.tick_eq, b.updates_eq,
      b.endpoints_kept]
  obtain ⟨receiver, found⟩ := World.exists_player manned bound
  refine ⟨receiver, found, ?_⟩
  intro baseline known
  have sent : b.sent slot = b.shot.broadcast receiver.account baseline :=
    Beat.sent_eq (b := b) bound found
  obtain ⟨groups, bodies, whole⟩ := regular.exists_groups receiver.account baseline
  rw [sent]
  refine ⟨regular.length_broadcast_le receiver.account baseline, fun packet member => ?_,
    fun p member block => regular.length_block_le member, groups, bodies, fun p member => ⟨?_, ?_⟩⟩
  · obtain ⟨i, place⟩ := List.mem_iff_getElem?.mp member
    obtain ⟨-, -, -, -, -, -, d, encoded, -⟩ := Snapshot.broadcast_packet place
    exact ⟨d, encoded, Packet.length_le_of_mem_encode encoded (List.mem_singleton_self d)⟩
  · intro due
    exact exists_group_of_filter (whole ▸ regular.filter_reports_of_due member due)
  · intro current group inside r reported
    exact regular.slot_ne_of_not_due member current
      (whole ▸ List.mem_flatten_of_mem inside reported)

/-- Of two players, the one with an endpoint is told about the other in one packet. -/
theorem run_broadcasts_pair :
    let steps : List World.Step :=
      [.command (.join 0 "a" "A" none) 0, .command (.join 1 "b" "B" (some ⟨"h", 9⟩)) 0]
    let w := (World.empty 0 [] fun _ => 0).run steps
    let b : Beat := ⟨w, 0⟩
    w.endpoints.get? 1 = some ⟨"h", 9⟩ ∧
    ∃ p ∈ b.shot.players, p.slot = 0 ∧ p.Due "b" (b.baseline? 1) ∧
      ∃ groups : List (List Report),
        (b.sent 1).map (fun packet => packet.data.drop 4) =
          groups.map (fun group => group.flatMap Report.bytes) ∧
        ∃ i < groups.length, ∀ j group, groups[j]? = some group →
          group.filter (fun r => r.slot = 0) = if j = i then [p.report none] else [] := by
  intro steps w b
  have bound : w.endpoints.get? 1 = some ⟨"h", 9⟩ := by decide +kernel
  have accounts : (w.players.get? 0).map (·.account) = some "a" ∧
      (w.players.get? 1).map (·.account) = some "b" := by
    decide +kernel
  have fresh : b.baseline? 1 = none := by
    rw [← Option.isNone_iff_eq_none]
    decide +kernel
  have seated : b.world.Seated := (World.seated_empty 0 [] fun _ => 0).run steps
  obtain ⟨first, foundFirst, accountIs⟩ := Option.map_eq_some_iff.mp accounts.1
  obtain ⟨p, foundThere, same⟩ := Beat.exists_kept (b := b) foundFirst
  have slotIs : p.slot = 0 := (seated.moved 0 p foundThere).1
  have member : p ∈ b.shot.players := (Beat.mem_shot seated).mpr (slotIs.symm ▸ foundThere)
  rcases (run_broadcasts 0 [] (fun _ => 0) steps 0).2 1 ⟨"h", 9⟩ bound with
    ⟨receiver, found, -, -, -, groups, bodies, each⟩
  have receiverIs : receiver.account = "b" := by
    have named := accounts.2
    rw [found] at named
    exact Option.some.inj named
  have due : p.Due receiver.account (b.baseline? 1) := by
    rw [fresh, receiverIs]
    refine ⟨by rw [same, accountIs]; decide, fun old known => ?_⟩
    exact absurd known.symm (Option.some_ne_none old)
  have once := (each p member).1 due
  rw [slotIs] at once
  refine ⟨bound, p, member, slotIs, receiverIs ▸ due, groups, bodies, ?_⟩
  rwa [show (⟨(World.empty 0 [] fun _ => 0).run steps, 0⟩ : Beat).baseline? 1 = none from fresh]
    at once

end Deathmatch
