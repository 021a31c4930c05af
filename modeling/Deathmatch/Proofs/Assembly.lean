import Deathmatch.Proofs.Pieces

/-!
# Assembly of fragments

`Packet.assemble` goes by the parts that it finds: with one for each number it joins them
(`assemble_of_parts`), and else it names the least number without one (`assemble_of_missing`).

Any selection of the fragments of one packet, in any order and with any repetitions, finds under
each number the piece of that number or nothing (`part?_of_fragments`). So assembly undoes splitting
as soon as no number is absent (`assemble_encode`).
-/

namespace Deathmatch

/-! ## Rows of fallible steps -/

variable {α β ε : Type}

theorem mapM_ok {f : α → Except ε β} {g : α → β} {items : List α}
    (good : ∀ a ∈ items, f a = .ok (g a)) : items.mapM f = .ok (items.map g) := by
  induction items with
  | nil => rfl
  | cons a rest ih =>
    rw [List.mapM_cons, good a List.mem_cons_self,
      ih fun b member => good b (List.mem_cons_of_mem a member)]
    rfl

theorem mapM_error {f : α → Except ε β} {before rest : List α} {a : α} (fault : ε)
    (good : ∀ b ∈ before, ∃ value, f b = .ok value) (bad : f a = .error fault) :
    (before ++ a :: rest).mapM f = .error fault := by
  induction before with
  | nil =>
    rw [List.nil_append, List.mapM_cons, bad]
    rfl
  | cons b others ih =>
    obtain ⟨value, goodHere⟩ := good b List.mem_cons_self
    rw [List.cons_append, List.mapM_cons, goodHere,
      ih fun c member => good c (List.mem_cons_of_mem b member)]
    rfl

theorem mapM_cons_ok {f : α → Except ε β} {a : α} {rest : List α} {values : List β}
    (good : (a :: rest).mapM f = .ok values) :
    ∃ b others, f a = .ok b ∧ rest.mapM f = .ok others ∧ values = b :: others := by
  rw [List.mapM_cons] at good
  cases first : f a with
  | error fault =>
    rw [first] at good
    cases good
  | ok b =>
    cases later : rest.mapM f with
    | error fault =>
      rw [first, later] at good
      cases good
    | ok others =>
      rw [first, later] at good
      cases good
      exact ⟨b, others, rfl, rfl, rfl⟩

theorem range_split {i n : Nat} (inside : i < n) :
    ∃ rest, List.range n = List.range i ++ i :: rest := by
  obtain ⟨k, rfl⟩ := Nat.exists_eq_add_of_lt inside
  refine ⟨(List.range k).map fun j => i + (j + 1), ?_⟩
  rw [Nat.add_assoc, List.range_add, List.range_succ_eq_map, List.map_cons, List.map_map]
  rfl

namespace Packet

/-! ## What assembly goes by -/

variable {fragments : List Packet} {first : Packet}

theorem assemble_of_parts (head : fragments.head? = some first) (part : Nat → Bytes)
    (found : ∀ i < (max first.total 1).toNat, part? fragments first.id i = some (part i)) :
    assemble fragments = .ok
      { id := first.id, index := 0, total := 1, transport := first.transport
        data := ((List.range (max first.total 1).toNat).map part).flatten } := by
  unfold assemble
  rw [head]
  dsimp only
  rw [mapM_ok (g := part)]
  · rfl
  · intro i member
    rw [found i (List.mem_range.mp member)]

theorem assemble_of_missing (head : fragments.head? = some first) {i : Nat}
    (inside : i < (max first.total 1).toNat) (missing : part? fragments first.id i = none)
    (before : ∀ j < i, part? fragments first.id j ≠ none) :
    assemble fragments =
      .error (.missingFragment first.id (UInt8.ofNat i) (max first.total 1)) := by
  obtain ⟨rest, split⟩ := range_split inside
  unfold assemble
  rw [head]
  dsimp only
  rw [split, mapM_error (.missingFragment first.id (UInt8.ofNat i) (max first.total 1))]
  · rfl
  · intro j member
    obtain ⟨data, found⟩ := Option.ne_none_iff_exists'.mp (before j (List.mem_range.mp member))
    rw [found]
    exact ⟨data, rfl⟩
  · rw [missing]

/-! ## Fragments of one packet -/

variable {p : Packet} {channel : Transport}

/-- Under each number stands the piece of that number, if any fragment has the number. -/
theorem part?_of_fragments (splits : Splits p.data)
    (own : ∀ f ∈ fragments, ∃ i < (pieces p.data).length, f = p.fragment channel i) {i : Nat} :
    part? fragments p.id i =
      if ∃ f ∈ fragments, f.index.toNat = i then some (p.fragment channel i).data else none := by
  unfold part?
  split
  · next present =>
    obtain ⟨f, member, numbered⟩ := present
    have accepted : ∃ g ∈ fragments, g.id = p.id ∧ g.index.toNat = i := by
      obtain ⟨_, _, rfl⟩ := own f member
      exact ⟨_, member, rfl, numbered⟩
    obtain ⟨g, found⟩ := Option.isSome_iff_exists.mp
      (List.find?_isSome.mpr (by simpa using accepted) :
        (fragments.find? fun g => g.id = p.id ∧ g.index.toNat = i).isSome)
    obtain ⟨j, inside, rfl⟩ := own g (List.mem_of_find?_eq_some found)
    have here : (p.fragment channel j).index.toNat = i := by
      have holds := List.find?_some found
      simp only [decide_eq_true_eq] at holds
      exact holds.2
    rw [found, ← here, toNat_index_fragment splits inside]
    rfl
  · next absent =>
    have nowhere : (fragments.find? fun g => g.id = p.id ∧ g.index.toNat = i) = none := by
      rw [List.find?_eq_none]
      intro g member holds
      simp only [decide_eq_true_eq] at holds
      exact absent ⟨g, member, holds.2⟩
    rw [nowhere]
    rfl

/-- The first fragment of a selection says what every fragment of the packet says. -/
theorem exists_head (splits : Splits p.data) (some_ : fragments ≠ [])
    (own : ∀ f ∈ fragments, ∃ i < (pieces p.data).length, f = p.fragment channel i) :
    ∃ first, fragments.head? = some first ∧ first.id = p.id ∧ first.transport = channel ∧
      max first.total 1 = UInt8.ofNat (pieces p.data).length := by
  obtain ⟨first, rest, rfl⟩ := List.exists_cons_of_ne_nil some_
  obtain ⟨i, _, rfl⟩ := own first List.mem_cons_self
  refine ⟨_, rfl, rfl, rfl, ?_⟩
  rw [atLeastOne_of_le (UInt8.le_of_lt (one_lt_total_fragment splits))]
  rfl

/-- Fragments of a packet are assembled to it once every number is there. -/
theorem assemble_fragments (splits : Splits p.data) (some_ : fragments ≠ [])
    (own : ∀ f ∈ fragments, ∃ i < (pieces p.data).length, f = p.fragment channel i)
    (all : ∀ i < (pieces p.data).length, ∃ f ∈ fragments, f.index.toNat = i) :
    assemble fragments =
      .ok { id := p.id, index := 0, total := 1, transport := channel, data := p.data } := by
  obtain ⟨first, head, id, transport, total⟩ := exists_head splits some_ own
  rw [assemble_of_parts head fun i => (pieces p.data).getD i []]
  · rw [total, splits.toNat_count, flatten_map_pieces, id, transport]
  · intro i inside
    rw [total, splits.toNat_count] at inside
    rw [id, part?_of_fragments splits own, if_pos (all i inside)]
    rfl

/-- Assembly names the least number that no fragment has. -/
theorem assemble_fragments_missing (splits : Splits p.data) (some_ : fragments ≠ [])
    (own : ∀ f ∈ fragments, ∃ i < (pieces p.data).length, f = p.fragment channel i) {i : Nat}
    (inside : i < (pieces p.data).length) (absent : ∀ f ∈ fragments, f.index.toNat ≠ i)
    (before : ∀ j < i, ∃ f ∈ fragments, f.index.toNat = j) :
    assemble fragments =
      .error (.missingFragment p.id (UInt8.ofNat i) (UInt8.ofNat (pieces p.data).length)) := by
  obtain ⟨first, head, id, transport, total⟩ := exists_head splits some_ own
  rw [assemble_of_missing head (i := i), total, id]
  · rw [total, splits.toNat_count]
    exact inside
  · rw [id, part?_of_fragments splits own, if_neg]
    rintro ⟨f, member, numbered⟩
    exact absent f member numbered
  · intro j earlier
    rw [id, part?_of_fragments splits own, if_pos (before j earlier)]
    exact Option.some_ne_none _

/-! ## The wire and back -/

theorem exists_datagram_of_split (splits : Splits p.data) {datagrams : List Bytes}
    (encoded : p.encode = .ok datagrams) {i : Nat} {d : Bytes} (there : datagrams[i]? = some d) :
    i < (pieces p.data).length ∧ Packet.decode d = .ok (p.fragment .udp i) := by
  rw [encode_of_split splits] at encoded
  cases encoded
  rw [List.getElem?_map, Option.map_eq_some_iff] at there
  obtain ⟨j, inRange, rfl⟩ := there
  obtain ⟨inside, here⟩ := List.getElem?_eq_some_iff.mp inRange
  rw [List.getElem_range] at here
  rw [List.length_range] at inside
  exact ⟨inside, here ▸ decode_fragment splits i⟩

/-- What comes out of the datagrams of a packet. One that fits a datagram comes out as it was, but
for the channel and a total of zero, which counts as one. Of a longer one, the datagrams decode to
fragments, numbered in order out of their count. Any of these, in any order and as often as one
likes, give the packet back if every number is among them, and else the least number that is
absent. -/
theorem assemble_encode (p : Packet) (short : p.data.length ≤ 145860) :
    ∃ datagrams, p.encode = .ok datagrams ∧
      (p.data.length ≤ 572 → ∃ d, datagrams = [d] ∧
        Packet.decode d = .ok { p with total := max p.total 1, transport := .udp }) ∧
      (572 < p.data.length →
        2 ≤ datagrams.length ∧ datagrams.length ≤ 255 ∧
        (∀ i d, datagrams[i]? = some d → ∃ f, Packet.decode d = .ok f ∧
          f.index.toNat = i ∧ f.total.toNat = datagrams.length) ∧
        ∀ received : List Packet, received ≠ [] →
          (∀ f ∈ received, ∃ d ∈ datagrams, Packet.decode d = .ok f) →
          ((∀ i < datagrams.length, ∃ f ∈ received, f.index.toNat = i) →
            assemble received =
              .ok { id := p.id, index := 0, total := 1, transport := .udp, data := p.data }) ∧
          ∀ i < datagrams.length, (∀ f ∈ received, f.index.toNat ≠ i) →
            (∀ j < i, ∃ f ∈ received, f.index.toNat = j) →
            assemble received =
              .error (.missingFragment p.id (UInt8.ofNat i) (UInt8.ofNat datagrams.length))) := by
  obtain ⟨datagrams, encoded⟩ := p.exists_encode_iff.mpr short
  refine ⟨datagrams, encoded, ?_, ?_⟩
  · intro fits
    rw [encode_of_fits fits] at encoded
    cases encoded
    refine ⟨_, rfl, ?_⟩
    rw [decode_datagram, atLeastOne_of_le (one_le_atLeastOne p.total)]
  · intro long
    have splits : Splits p.data := ⟨long, short⟩
    have count : datagrams.length = (pieces p.data).length := by
      rw [encode_of_split splits] at encoded
      cases encoded
      rw [List.length_map, List.length_range]
    have bounds := splits.count
    rw [← count] at bounds
    refine ⟨bounds.1, bounds.2, ?_, ?_⟩
    · intro i d there
      obtain ⟨inside, decoded⟩ := exists_datagram_of_split splits encoded there
      refine ⟨_, decoded, toNat_index_fragment splits inside, ?_⟩
      rw [toNat_total_fragment splits, count]
    · intro received some_ fromWire
      have own : ∀ f ∈ received, ∃ i < (pieces p.data).length, f = p.fragment .udp i :=
        fun f member => (carries_iff splits).mp ⟨datagrams, encoded, fromWire f member⟩
      refine ⟨?_, ?_⟩
      · intro all
        rw [count] at all
        exact assemble_fragments splits some_ own all
      · intro i inside absent before
        rw [count] at inside ⊢
        exact assemble_fragments_missing splits some_ own inside absent before

/-- Two fragments in the wrong order, one of them twice, and one of them alone. -/
theorem assemble_encode_shuffled :
    let p := Packet.udp 5 (List.replicate 600 7)
    p.data.length ≤ 145860 ∧ 572 < p.data.length ∧
    ∃ first second, p.Carries first ∧ p.Carries second ∧
      assemble [second, first, second] = .ok p ∧
      assemble [second] = .error (.missingFragment 5 0 2) := by
  intro p
  have size : p.data.length = 600 := List.length_replicate
  have short : p.data.length ≤ 145860 := by omega
  have long : 572 < p.data.length := by omega
  obtain ⟨datagrams, encoded, -, split⟩ := assemble_encode p short
  obtain ⟨-, -, numbered, deliver⟩ := split long
  have count : datagrams.length = 2 := by
    have cut := encode_of_split (p := p) ⟨long, short⟩
    rw [cut] at encoded
    cases encoded
    rw [List.length_map, List.length_range, length_pieces, size]
    rfl
  have received (i : Nat) (inside : i < datagrams.length) :
      ∃ f, f.index.toNat = i ∧ ∃ d ∈ datagrams, Packet.decode d = .ok f := by
    have there := List.getElem?_eq_getElem inside
    obtain ⟨f, decoded, index, -⟩ := numbered i _ there
    exact ⟨f, index, _, List.mem_of_getElem? there, decoded⟩
  obtain ⟨first, firstIndex, firstSent⟩ := received 0 (by omega)
  obtain ⟨second, secondIndex, secondSent⟩ := received 1 (by omega)
  refine ⟨short, long, first, second, ⟨datagrams, encoded, firstSent⟩,
    ⟨datagrams, encoded, secondSent⟩, ?_, ?_⟩
  · refine (deliver [second, first, second] (List.cons_ne_nil _ _) ?_).1 ?_
    · intro f member
      rcases List.mem_cons.mp member with rfl | member
      · exact secondSent
      rcases List.mem_cons.mp member with rfl | member
      · exact firstSent
      · exact List.mem_singleton.mp member ▸ secondSent
    · intro i inside
      rw [count] at inside
      rcases (by omega : i = 0 ∨ i = 1) with rfl | rfl
      · exact ⟨first, by simp, firstIndex⟩
      · exact ⟨second, by simp, secondIndex⟩
  · have missing := (deliver [second] (List.cons_ne_nil _ _)
      (fun f member => List.mem_singleton.mp member ▸ secondSent)).2 0 (by omega) ?_ ?_
    · rw [missing, count]
      rfl
    · intro f member
      rw [List.mem_singleton.mp member, secondIndex]
      exact Nat.one_ne_zero
    · intro j earlier
      exact absurd earlier (Nat.not_lt_zero j)

end Packet

end Deathmatch
