import Deathmatch.Proofs.Packing
import Deathmatch.ByteMap
import Mathlib.Data.List.Flatten
import Mathlib.Data.List.Perm.Subperm
import Mathlib.Data.List.TakeWhile

/-!
# What a broadcast reports

A block is the written form of a `Report`: a slot, and some fields with their values. A broadcast
writes the reports of all other players with something to report, one behind the other, over its
packets.

Nothing in a block says where it ends. Still the bytes of a row of reports determine the reports
(`Report.flatMap_bytes_inj`), provided that no two values of one field can be taken for each other:
a text is told from another one by its zero byte, or else both have to be the same
(`FieldValue.Parted`).

The snapshots of a world are `Regular`: slots differ and names are short. For those no block is left
out (`Snapshot.Regular.bodies_broadcast`).
-/

namespace Deathmatch

/-- Where bytes are cut by looking for the first zero byte. -/
theorem cut_iff {bs front tail : Bytes} :
    bs.takeWhile (· ≠ 0) = front ∧ bs.dropWhile (· ≠ 0) = tail ↔
      0 ∉ front ∧ (∀ b ∈ tail.head?, b = 0) ∧ front ++ tail = bs := by
  constructor
  · rintro ⟨rfl, rfl⟩
    refine ⟨fun zero => ?_, fun b first => ?_, List.takeWhile_append_dropWhile⟩
    · simpa using List.mem_takeWhile_imp zero
    · have stops := List.head?_dropWhile_not (· ≠ 0) bs
      rw [first] at stops
      simpa using stops
  · rintro ⟨zeroFree, stops, rfl⟩
    have kept : ∀ b ∈ front, decide (b ≠ 0) = true := fun b member =>
      decide_eq_true fun zero => zeroFree (zero ▸ member)
    rw [List.takeWhile_append_of_pos kept, List.dropWhile_append_of_pos kept]
    cases tail with
    | nil => exact ⟨List.append_nil front, rfl⟩
    | cons b rest => simp [stops b rfl]

theorem cut_zero {front : Bytes} (zeroFree : 0 ∉ front) (rest : Bytes) :
    (front ++ 0 :: rest).takeWhile (· ≠ 0) = front ∧
      (front ++ 0 :: rest).dropWhile (· ≠ 0) = 0 :: rest :=
  cut_iff.mpr ⟨zeroFree, fun _ first => (Option.some.inj first).symm, rfl⟩

/-! ## Fields -/

theorem Field.mem_all (f : Field) : f ∈ Field.all := by
  cases f <;> decide

theorem Field.tag_injective {f g : Field} (same : f.tag = g.tag) : f = g := by
  have apart : ∀ f ∈ Field.all, ∀ g ∈ Field.all, f.tag = g.tag → f = g := by decide
  exact apart f f.mem_all g g.mem_all same

theorem Field.tag_ne_blockMarker (f : Field) : f.tag ≠ Player.blockMarker := by
  cases f <;> decide

/-- Neither value can be taken for the other with bytes behind it. -/
def FieldValue.Parted : FieldValue → FieldValue → Prop
  | scalar _, scalar _ => True
  | byte _, byte _ => True
  | text s, text t => s = t ∨ (0 ∉ Text.bytes s ∧ 0 ∉ Text.bytes t)
  | _, _ => False

theorem FieldValue.Parted.inj {v u : FieldValue} (parted : v.Parted u) {xs ys : Bytes}
    (same : v.bytes ++ xs = u.bytes ++ ys) : v = u ∧ xs = ys := by
  cases v with
  | scalar a =>
    cases u with
    | scalar b =>
      obtain ⟨value, rest⟩ := List.append_inj same rfl
      exact ⟨congrArg scalar (Scalar.bytes_injective value), rest⟩
    | byte => cases parted
    | text => cases parted
  | byte a =>
    cases u with
    | byte b =>
      obtain ⟨value, rest⟩ := List.append_inj same rfl
      exact ⟨congrArg byte (List.cons.inj value).1, rest⟩
    | scalar => cases parted
    | text => cases parted
  | text s =>
    cases u with
    | scalar => cases parted
    | byte => cases parted
    | text t =>
      rcases parted with rfl | ⟨endsLeft, endsRight⟩
      · exact ⟨rfl, List.append_cancel_left same⟩
      · -- The first zero byte of either side ends its text.
        have cut (w : String) (ends : 0 ∉ Text.bytes w) (zs : Bytes) :
            (Text.terminated w ++ zs).takeWhile (· ≠ 0) = Text.bytes w := by
          rw [Text.terminated, List.append_assoc]
          exact (cut_zero ends zs).1
        have texts : s = t := by
          apply Text.bytes_injective
          rw [← cut s endsLeft xs, ← cut t endsRight ys]
          exact congrArg _ same
        subst texts
        exact ⟨rfl, List.append_cancel_left same⟩

/-- Values of one field are parted if the names are. -/
theorem Field.value_parted {p q : Player}
    (names : p.name = q.name ∨ (0 ∉ Text.bytes p.name ∧ 0 ∉ Text.bytes q.name)) (f : Field) :
    (f.value p).Parted (f.value q) := by
  cases f
  case name => exact names
  all_goals trivial

/-! ## Reports -/

/-- What a block says of the player in a slot: the values of some fields. -/
structure Report where
  slot : UInt8
  entries : List (Field × FieldValue)
  deriving DecidableEq

namespace Report

def entryBytes (entry : Field × FieldValue) : Bytes :=
  entry.1.tag :: entry.2.bytes

/-- The block that says it. -/
def bytes (r : Report) : Bytes :=
  Player.blockMarker :: r.slot :: r.entries.flatMap entryBytes

/-- Whether a block can begin here, or nothing more comes. -/
def Opens (bs : Bytes) : Prop :=
  ∀ b ∈ bs.head?, b = Player.blockMarker

theorem opens_flatMap_bytes (reports : List Report) : Opens (reports.flatMap bytes) := by
  cases reports with
  | nil => exact fun b member => nomatch member
  | cons r rest => exact fun b member => (Option.some.inj member).symm

theorem not_opens_entries (entry : Field × FieldValue) (rest : List (Field × FieldValue))
    (bs : Bytes) : ¬ Opens ((entry :: rest).flatMap entryBytes ++ bs) := by
  intro opens
  exact entry.1.tag_ne_blockMarker (opens entry.1.tag rfl)

/-- The entries of a block end where a block can begin. -/
theorem entries_inj {xs ys : List (Field × FieldValue)} {left right : Bytes}
    (parted : ∀ x ∈ xs, ∀ y ∈ ys, x.1 = y.1 → x.2.Parted y.2) (opensLeft : Opens left)
    (opensRight : Opens right)
    (same : xs.flatMap entryBytes ++ left = ys.flatMap entryBytes ++ right) :
    xs = ys ∧ left = right := by
  induction xs generalizing ys with
  | nil =>
    cases ys with
    | nil => exact ⟨rfl, same⟩
    | cons y ys => exact absurd (same ▸ opensLeft) (not_opens_entries y ys right)
  | cons x xs ih =>
    cases ys with
    | nil => exact absurd (same ▸ opensRight) (not_opens_entries x xs left)
    | cons y ys =>
      rw [List.flatMap_cons, List.flatMap_cons, List.append_assoc, List.append_assoc] at same
      obtain ⟨tags, values⟩ := List.cons.inj same
      have fields := Field.tag_injective tags
      obtain ⟨value, rest⟩ :=
        (parted x List.mem_cons_self y List.mem_cons_self fields).inj values
      obtain ⟨tails, ends⟩ := ih (fun a inLeft b inRight =>
        parted a (List.mem_cons_of_mem x inLeft) b (List.mem_cons_of_mem y inRight)) rest
      exact ⟨by rw [tails, Prod.ext fields value], ends⟩

/-- The bytes of a row of reports determine the reports. -/
theorem flatMap_bytes_inj {xs ys : List Report}
    (parted : ∀ x ∈ xs, ∀ y ∈ ys, x.slot = y.slot →
      ∀ e ∈ x.entries, ∀ d ∈ y.entries, e.1 = d.1 → e.2.Parted d.2)
    (same : xs.flatMap bytes = ys.flatMap bytes) : xs = ys := by
  induction xs generalizing ys with
  | nil =>
    cases ys with
    | nil => rfl
    | cons y ys => cases same
  | cons x xs ih =>
    cases ys with
    | nil => cases same
    | cons y ys =>
      rw [List.flatMap_cons, List.flatMap_cons] at same
      obtain ⟨slots, blocks⟩ := List.cons.inj (List.cons.inj same).2
      obtain ⟨entries, rest⟩ := entries_inj
        (parted x List.mem_cons_self y List.mem_cons_self slots) (opens_flatMap_bytes xs)
        (opens_flatMap_bytes ys) blocks
      have heads : x = y := by
        cases x
        cases y
        cases slots
        cases entries
        rfl
      rw [heads, ih (fun a inLeft b inRight =>
        parted a (List.mem_cons_of_mem x inLeft) b (List.mem_cons_of_mem y inRight)) rest]

/-- All that the reports say of a slot. -/
def entriesAt (reports : List Report) (slot : UInt8) : List (Field × FieldValue) :=
  (reports.filter (·.slot = slot)).flatMap entries

end Report

/-- The latest word on a field, where the values of a player are told for some fields. -/
theorem Report.foldl_value {α : Type} (shown : FieldValue → α) (p : Player) (f : Field)
    (fields : List Field) (old : α) :
    (fields.map fun g => (g, g.value p)).foldl
        (fun known entry => if entry.1 = f then shown entry.2 else known) old =
      if f ∈ fields then shown (f.value p) else old := by
  induction fields generalizing old with
  | nil => rfl
  | cons g rest ih =>
    rw [List.map_cons, List.foldl_cons, ih]
    by_cases listed : f ∈ rest
    · rw [if_pos listed, if_pos (List.mem_cons_of_mem g listed)]
    · rw [if_neg listed]
      by_cases here : g = f
      · rw [if_pos here, here, if_pos List.mem_cons_self]
      · rw [if_neg here, if_neg]
        rintro (_ | ⟨_, there⟩)
        · exact here rfl
        · exact listed there

/-! ## The reports of a snapshot -/

/-- What a client lacks of a player who knows `baseline` of them. -/
def Player.report (p : Player) (baseline : Option Player) : Report :=
  ⟨p.slot, (p.changedFields baseline).map fun f => (f, f.value p)⟩

theorem Player.bytes_report (p : Player) (baseline : Option Player) :
    (p.report baseline).bytes = Player.blockMarker :: p.slot :: p.fieldBytes baseline := by
  simp only [Report.bytes, Player.report, Player.fieldBytes, List.flatMap_map]
  rfl

namespace Snapshot

/-- What a broadcast to the client of `receiver` has to report. -/
def reports (s : Snapshot) (receiver : String) (baseline : Option Snapshot) : List Report :=
  ((s.players.filter fun p => p.account ≠ receiver).map fun p =>
    p.report (baseline.bind fun b => b.playerOf? p.account)).filter fun r => r.entries ≠ []

/-- The payloads of packets behind the number of the snapshot, one after the other. -/
def bodies (packets : List Packet) : Bytes :=
  packets.flatMap fun packet => packet.data.drop headerLength

/-- What the snapshots of a world have in common: slots differ, and names are short. -/
structure Regular (s : Snapshot) : Prop where
  slots : (s.players.map (·.slot)).Nodup
  names : ∀ p ∈ s.players, p.name.utf8ByteSize ≤ Player.maxNameBytes

end Snapshot

/-- The most bytes of a block with a short name. -/
def Report.maxBytes : Nat := 94

theorem Player.changedFields_sublist (p : Player) (baseline : Option Player) :
    (p.changedFields baseline).Sublist Field.all := by
  cases baseline with
  | none => exact List.Sublist.refl _
  | some old => exact List.filter_sublist

theorem Player.length_bytes_report {p : Player} (short : p.name.utf8ByteSize ≤ maxNameBytes)
    (baseline : Option Player) : (p.report baseline).bytes.length ≤ Report.maxBytes := by
  have all : (Field.all.flatMap fun f => f.bytes p).length = 60 + p.name.utf8ByteSize := by
    simp [Field.all, Field.bytes, Field.value, FieldValue.bytes, Text.terminated]
    omega
  have some := ((p.changedFields_sublist baseline).flatMap fun f => f.bytes p).length_le
  have name : p.name.utf8ByteSize ≤ 32 := short
  rw [bytes_report, List.length_cons, List.length_cons, fieldBytes, Report.maxBytes]
  omega

theorem length_flatten_le {bound : Nat} {blocks : List Bytes}
    (short : ∀ block ∈ blocks, block.length ≤ bound) :
    blocks.flatten.length ≤ blocks.length * bound := by
  induction blocks with
  | nil => exact Nat.zero_le _
  | cons block rest ih =>
    obtain ⟨first, others⟩ := List.forall_mem_cons.mp short
    rw [List.flatten_cons, List.length_append, List.length_cons, Nat.succ_mul, Nat.add_comm]
    exact Nat.add_le_add (ih others) first

/-- Elements that differ under `f` are told apart by it. -/
theorem filter_eq_singleton {α β : Type} [DecidableEq β] {f : α → β} {l : List α} {a : α}
    (distinct : (l.map f).Nodup) (member : a ∈ l) : l.filter (fun b => f b = f a) = [a] := by
  induction l with
  | nil => cases member
  | cons b rest ih =>
    obtain ⟨fresh, distinctRest⟩ := List.nodup_cons.mp distinct
    rcases List.mem_cons.mp member with rfl | there
    · have none : rest.filter (fun b => f b = f a) = [] := by
        rw [List.filter_eq_nil_iff]
        intro b inRest
        have other : f b ≠ f a := fun same => fresh (same ▸ List.mem_map_of_mem inRest)
        simpa using other
      rw [List.filter_cons_of_pos (by simp), none]
    · have other : f b ≠ f a := fun same => fresh (same ▸ List.mem_map_of_mem there)
      rw [List.filter_cons_of_neg (by simpa using other)]
      exact ih distinctRest there

theorem ByteMap.length_allKeys : ByteMap.allKeys.length = 256 := by
  rw [allKeys, List.length_map, List.length_range]

namespace Snapshot

theorem length_reports (s : Snapshot) (receiver : String) (baseline : Option Snapshot) :
    (s.reports receiver baseline).length ≤ s.players.length := by
  refine Nat.le_trans (List.length_filter_le _ _) ?_
  rw [List.length_map]
  exact List.length_filter_le _ _

namespace Regular

variable {s : Snapshot}

theorem length_players (regular : s.Regular) : s.players.length ≤ 256 := by
  have within : (s.players.map (·.slot)).Subperm ByteMap.allKeys :=
    regular.slots.subperm fun k _ => ByteMap.mem_allKeys k
  have count := within.length_le
  rwa [List.length_map, ByteMap.length_allKeys] at count

/-- Only the player of a slot stands in it. -/
theorem filter_slot (regular : s.Regular) {p : Player} (member : p ∈ s.players) :
    s.players.filter (fun q => q.slot = p.slot) = [p] :=
  filter_eq_singleton regular.slots member

theorem length_reported (regular : s.Regular) {receiver : String} {baseline : Option Snapshot}
    {r : Report} (member : r ∈ s.reports receiver baseline) : r.bytes.length ≤ Report.maxBytes := by
  obtain ⟨p, inOthers, rfl⟩ := List.mem_map.mp (List.mem_filter.mp member).1
  exact Player.length_bytes_report (regular.names p (List.mem_filter.mp inOthers).1) _

theorem blocks_eq_reports (regular : s.Regular) (receiver : String) (baseline : Option Snapshot) :
    s.blocks receiver baseline = (s.reports receiver baseline).map Report.bytes := by
  rw [blocks_eq, reports, List.filter_map, List.map_map, List.filter_filter]
  have same : ∀ p ∈ s.players,
      decide (p.account ≠ receiver ∧
        p.changedFields (baseline.bind fun b => b.playerOf? p.account) ≠ [] ∧
        (Player.blockMarker :: p.slot ::
          p.fieldBytes (baseline.bind fun b => b.playerOf? p.account)).length ≤ maxBlocks) =
      (((fun r => decide (r.entries ≠ [])) ∘ fun p : Player =>
        p.report (baseline.bind fun b => b.playerOf? p.account)) p &&
        decide (p.account ≠ receiver)) := by
    intro p member
    have short := Player.length_bytes_report (regular.names p member)
      (baseline.bind fun b => b.playerOf? p.account)
    have fits := Nat.le_trans short (show Report.maxBytes ≤ maxBlocks by decide)
    rw [Player.bytes_report] at fits
    by_cases own : p.account = receiver
    · simp [own]
    · simpa [own, Player.report] using fun _ => fits
  rw [List.filter_congr same]
  exact List.map_congr_left fun p _ => (p.bytes_report _).symm

/-- Only the report of its player says something of a slot, if there is something to say. -/
theorem filter_slot_reports (regular : s.Regular) {receiver : String} (baseline : Option Snapshot)
    {p : Player} (member : p ∈ s.players) (other : p.account ≠ receiver) :
    (s.reports receiver baseline).filter (fun r => r.slot = p.slot) =
      [p.report (baseline.bind fun b => b.playerOf? p.account)].filter fun r => r.entries ≠ [] := by
  have alone : (s.players.filter fun q => q.account ≠ receiver).filter
      (fun q => q.slot = p.slot) = [p] := by
    rw [List.filter_filter, List.filter_congr fun q _ => Bool.and_comm _ _, ← List.filter_filter,
      regular.filter_slot member]
    simpa using other
  rw [reports, List.filter_filter,
    List.filter_congr fun r _ => Bool.and_comm _ _, ← List.filter_filter, List.filter_map]
  rw [show (fun r : Report => decide (r.slot = p.slot)) ∘ (fun q : Player =>
      q.report (baseline.bind fun b => b.playerOf? q.account)) =
      fun q : Player => decide (q.slot = p.slot) from rfl, alone, List.map_singleton]

/-- The reports say of another player what the client lacks of them. -/
theorem entriesAt_reports (regular : s.Regular) {receiver : String} (baseline : Option Snapshot)
    {p : Player} (member : p ∈ s.players) (other : p.account ≠ receiver) :
    Report.entriesAt (s.reports receiver baseline) p.slot =
      (p.report (baseline.bind fun b => b.playerOf? p.account)).entries := by
  rw [Report.entriesAt, regular.filter_slot_reports baseline member other]
  by_cases silent : (p.report (baseline.bind fun b => b.playerOf? p.account)).entries = []
  · rw [List.filter_cons_of_neg (by simpa using silent), silent]
    rfl
  · rw [List.filter_cons_of_pos (by simpa using silent)]
    simp

theorem short_blocks (regular : s.Regular) (receiver : String) (baseline : Option Snapshot) :
    ∀ block ∈ s.blocks receiver baseline, block.length ≤ Report.maxBytes := by
  rw [regular.blocks_eq_reports]
  intro block member
  obtain ⟨r, inReports, rfl⟩ := List.mem_map.mp member
  exact regular.length_reported inReports

theorem length_flatten_blocks (regular : s.Regular) (receiver : String)
    (baseline : Option Snapshot) :
    (s.blocks receiver baseline).flatten.length ≤ 256 * Report.maxBytes := by
  have count : (s.blocks receiver baseline).length ≤ 256 := by
    rw [regular.blocks_eq_reports, List.length_map]
    exact Nat.le_trans (s.length_reports receiver baseline) regular.length_players
  exact Nat.le_trans (length_flatten_le (regular.short_blocks receiver baseline))
    (Nat.mul_le_mul_right _ count)

/-- No block of a regular snapshot is left out. -/
theorem bodies_broadcast (regular : s.Regular) (receiver : String) (baseline : Option Snapshot) :
    bodies (s.broadcast receiver baseline) =
      (s.reports receiver baseline).flatMap Report.bytes := by
  have all : (s.payloads receiver baseline).flatten = (s.blocks receiver baseline).flatten := by
    apply pack_flatten (by decide) (regular.short_blocks receiver baseline)
    have sum := regular.length_flatten_blocks receiver baseline
    simp only [Report.maxBytes, maxBlocks, maxPayload, maxDatagram, Deathmatch.headerLength,
      headerLength, maxPackets, List.length_nil] at sum ⊢
    omega
  rw [bodies, List.flatMap_def, map_data_broadcast, all, regular.blocks_eq_reports,
    ← List.flatMap_def]

/-- Without a baseline, all other players are reported in full. -/
theorem bodies_broadcast_none (regular : s.Regular) (receiver : String) :
    bodies (s.broadcast receiver none) =
      (s.players.filter fun p => p.account ≠ receiver).flatMap fun p =>
        Player.blockMarker :: p.slot :: Field.all.flatMap fun f => f.bytes p := by
  have full : s.reports receiver none =
      (s.players.filter fun p => p.account ≠ receiver).map fun p => p.report none := by
    refine List.filter_eq_self.mpr ?_
    intro r member
    obtain ⟨p, _, rfl⟩ := List.mem_map.mp member
    exact decide_eq_true (List.cons_ne_nil _ _)
  rw [regular.bodies_broadcast, full, List.flatMap_map]
  apply List.flatMap_congr
  intro p _
  exact p.bytes_report none

end Regular

end Snapshot

end Deathmatch
