import Deathmatch.Proofs.ControlStream

/-!
# Streams of any bytes

What comes in over a control connection need not have been written as frames. A read can go three
ways (`Frame.lead_cases`), and the first bytes tell which: it takes a datagram just when its frame
comes first (`Frame.lead_eq_frame_iff`), and else the length is too large
(`Frame.lead_eq_oversized_iff`) or the bytes are too few (`Frame.lead_eq_incomplete_iff`).

`Frame.Reads stream datagrams rest` says that reads from the beginning of `stream` take these
datagrams, one after the other, and get as far as `rest`. No byte is lost or read twice
(`Frame.Reads.eq_append`), and there are at most half as many datagrams as bytes
(`Frame.Reads.length_le`). Reading a finished stream goes on to the read that fails
(`Frame.reads_readAll`), so its datagrams and what is left from there are the stream
(`Frame.readAll_stream`).
-/

namespace Deathmatch.Frame

/-! ## One read -/

section Lead

variable {stream rest d : Bytes}

/-- The length that the first two bytes announce decides. -/
theorem lead_cons_cons (b₀ b₁ : UInt8) (body : Bytes) :
    lead (b₀ :: b₁ :: body) =
      let n := (word16 b₀ b₁).toNat
      if n ≤ maxDatagram then
        if n ≤ body.length then .frame (body.take n) (body.drop n) else .incomplete
      else .oversized body := by
  by_cases fits : (word16 b₀ b₁).toNat ≤ maxDatagram
  · simp only [lead, length?, if_pos fits]
  · simp only [lead, length?, if_neg fits]

theorem lead_of_short (short : stream.length < 2) : lead stream = .incomplete := by
  match stream, short with
  | [], _ => rfl
  | [_], _ => rfl

/-- The frame of as many bytes as two bytes announce begins with these two. -/
theorem encode_take {b₀ b₁ : UInt8} {body : Bytes} (whole : (word16 b₀ b₁).toNat ≤ body.length) :
    encode (body.take (word16 b₀ b₁).toNat) = b₀ :: b₁ :: body.take (word16 b₀ b₁).toNat := by
  have size := List.length_take_of_le whole
  rw [encode, size, UInt16.ofNat_toNat, le16_word16, List.cons_append, List.singleton_append]

/-- The three ways a read can go. -/
theorem lead_cases (stream : Bytes) :
    (∃ d rest, lead stream = .frame d rest ∧ stream = encode d ++ rest ∧
      d.length ≤ maxDatagram) ∨
    (∃ b₀ b₁ rest, lead stream = .oversized rest ∧ stream = b₀ :: b₁ :: rest ∧
      maxDatagram < (word16 b₀ b₁).toNat) ∨
    lead stream = .incomplete ∧ (stream.length < 2 ∨
      ∃ b₀ b₁ body, stream = b₀ :: b₁ :: body ∧ (word16 b₀ b₁).toNat ≤ maxDatagram ∧
        body.length < (word16 b₀ b₁).toNat) := by
  rcases stream with _ | ⟨b₀, _ | ⟨b₁, body⟩⟩
  · exact Or.inr (Or.inr ⟨lead_of_short (by decide), Or.inl (by decide)⟩)
  · have short : [b₀].length < 2 := Nat.lt_succ_self 1
    exact Or.inr (Or.inr ⟨lead_of_short short, Or.inl short⟩)
  rw [lead_cons_cons]
  by_cases fits : (word16 b₀ b₁).toNat ≤ maxDatagram
  · by_cases whole : (word16 b₀ b₁).toNat ≤ body.length
    · refine Or.inl ⟨_, _, (if_pos fits).trans (if_pos whole), ?_, ?_⟩
      · rw [encode_take whole, List.cons_append, List.cons_append, List.take_append_drop]
      · rw [List.length_take]
        omega
    · have cut := Nat.lt_of_not_le whole
      exact Or.inr (Or.inr ⟨(if_pos fits).trans (if_neg whole),
        Or.inr ⟨b₀, b₁, body, rfl, fits, cut⟩⟩)
  · exact Or.inr (Or.inl ⟨b₀, b₁, body, if_neg fits, rfl, Nat.lt_of_not_le fits⟩)

/-- A read takes a datagram just when its frame comes first. -/
theorem lead_eq_frame_iff :
    lead stream = .frame d rest ↔ stream = encode d ++ rest ∧ d.length ≤ maxDatagram := by
  constructor
  · intro read
    rcases lead_cases stream with ⟨_, _, other, framed⟩ | ⟨_, _, _, other, -⟩ | ⟨other, -⟩
    · cases read.symm.trans other
      exact framed
    · cases read.symm.trans other
    · cases read.symm.trans other
  · intro framed
    rw [framed.1]
    exact lead_encode framed.2 rest

theorem lead_eq_oversized_iff :
    lead stream = .oversized rest ↔
      ∃ b₀ b₁, stream = b₀ :: b₁ :: rest ∧ maxDatagram < (word16 b₀ b₁).toNat := by
  constructor
  · intro read
    rcases lead_cases stream with ⟨_, _, other, -⟩ | ⟨b₀, b₁, _, other, large⟩ | ⟨other, -⟩
    · cases read.symm.trans other
    · cases read.symm.trans other
      exact ⟨b₀, b₁, large⟩
    · cases read.symm.trans other
  · intro large
    rcases large with ⟨b₀, b₁, shape, large⟩
    rw [shape, lead_cons_cons]
    exact if_neg (Nat.not_le_of_lt large)

theorem lead_eq_incomplete_iff :
    lead stream = .incomplete ↔ stream.length < 2 ∨
      ∃ b₀ b₁ body, stream = b₀ :: b₁ :: body ∧ (word16 b₀ b₁).toNat ≤ maxDatagram ∧
        body.length < (word16 b₀ b₁).toNat := by
  constructor
  · intro read
    rcases lead_cases stream with ⟨_, _, other, -⟩ | ⟨_, _, _, other, -⟩ | ⟨-, cut⟩
    · cases read.symm.trans other
    · cases read.symm.trans other
    · exact cut
  · intro cut
    rcases cut with short | ⟨b₀, b₁, body, shape, fits, cut⟩
    · exact lead_of_short short
    · rw [shape, lead_cons_cons]
      exact (if_pos fits).trans (if_neg (Nat.not_le_of_lt cut))

end Lead

/-! ## Reads one after the other -/

/-- Reads from the beginning of a stream take these datagrams and get as far as the rest. -/
inductive Reads : Bytes → List Bytes → Bytes → Prop
  | none (stream : Bytes) : Reads stream [] stream
  | next {stream between rest d : Bytes} {datagrams : List Bytes}
    (read : lead stream = .frame d between) (later : Reads between datagrams rest) :
    Reads stream (d :: datagrams) rest

variable {stream rest : Bytes} {datagrams : List Bytes}

/-- The frames of what is read are what is gone from the stream. -/
theorem Reads.eq_append (reads : Reads stream datagrams rest) :
    stream = (datagrams.map encode).flatten ++ rest := by
  induction reads with
  | none stream => rfl
  | next read _ ih =>
    rw [List.map_cons, List.flatten_cons, List.append_assoc, ← ih]
    exact (lead_eq_frame_iff.mp read).1

theorem Reads.fit (reads : Reads stream datagrams rest) :
    ∀ d ∈ datagrams, d.length ≤ maxDatagram := by
  induction reads with
  | none stream => exact fun d member => nomatch member
  | next read _ ih => exact List.forall_mem_cons.mpr ⟨(lead_eq_frame_iff.mp read).2, ih⟩

/-- Each read takes two bytes at least. -/
theorem Reads.length_le (reads : Reads stream datagrams rest) :
    2 * datagrams.length ≤ stream.length := by
  induction reads with
  | none stream => exact Nat.zero_le _
  | next read _ ih =>
    rw [(lead_eq_frame_iff.mp read).1, encode, List.length_append, List.length_append, length_le16,
      List.length_cons]
    omega

/-- Reading a finished stream goes on until a read fails. -/
theorem reads_readAll (stream : Bytes) :
    ∃ rest, Reads stream (readAll stream).1 rest ∧
      (lead rest = .incomplete ∧ (readAll stream).2 = (.unexpectedEnd, []) ∨
        ∃ left, lead rest = .oversized left ∧ (readAll stream).2 = (.oversized, left)) := by
  fun_induction readAll stream with
  | case1 stream stops => exact ⟨stream, .none stream, Or.inl ⟨stops, rfl⟩⟩
  | case2 stream left stops => exact ⟨stream, .none stream, Or.inr ⟨left, stops, rfl⟩⟩
  | case3 stream d between read _ datagrams ending left all ih =>
    rw [all] at ih
    rcases ih with ⟨rest, reads, stops⟩
    exact ⟨rest, .next read reads, stops⟩

/-! ## Streams -/

/-- Of any stream, only so many reads can succeed as it has pairs of bytes. Their datagrams, as
frames again, and the bytes from where the failing read begins are the stream. The reading ends for
a length that these bytes announce and no datagram has, or because they are too few. -/
theorem readAll_stream (stream : Bytes) :
    (∀ datagrams rest, Reads stream datagrams rest → datagrams.length ≤ stream.length / 2) ∧
    ∃ datagrams ending left rest, readAll stream = (datagrams, ending, left) ∧
      Reads stream datagrams rest ∧ (∀ d further, lead rest ≠ .frame d further) ∧
      (∀ d ∈ datagrams, d.length ≤ 576) ∧
      (datagrams.map encode).flatten ++ rest = stream ∧
      (ending = .oversized ↔
        ∃ b₀ b₁ body, rest = b₀ :: b₁ :: body ∧ 576 < (word16 b₀ b₁).toNat) ∧
      (ending = .unexpectedEnd ↔ rest.length < 2 ∨
        ∃ b₀ b₁ body, rest = b₀ :: b₁ :: body ∧ (word16 b₀ b₁).toNat ≤ 576 ∧
          body.length < (word16 b₀ b₁).toNat) := by
  refine ⟨fun datagrams rest reads => ?_, ?_⟩
  · have pairs := reads.length_le
    omega
  rcases reads_readAll stream with ⟨rest, reads, ⟨read, ends⟩ | ⟨left, read, ends⟩⟩
  · refine ⟨_, .unexpectedEnd, [], rest, Prod.ext rfl ends, reads, ?_, reads.fit,
      reads.eq_append.symm, ?_, ?_⟩
    · rw [read]
      exact fun d further => nofun
    · refine iff_of_false nofun fun announced => ?_
      rcases announced with ⟨b₀, b₁, body, shape, large⟩
      cases read.symm.trans (lead_eq_oversized_iff.mpr ⟨b₀, b₁, shape, large⟩)
    · exact iff_of_true rfl (lead_eq_incomplete_iff.mp read)
  · refine ⟨_, .oversized, left, rest, Prod.ext rfl ends, reads, ?_, reads.fit,
      reads.eq_append.symm, ?_, ?_⟩
    · rw [read]
      exact fun d further => nofun
    · refine iff_of_true rfl ?_
      rcases lead_eq_oversized_iff.mp read with ⟨b₀, b₁, shape, large⟩
      exact ⟨b₀, b₁, left, shape, large⟩
    · refine iff_of_false nofun fun short => ?_
      cases read.symm.trans (lead_eq_incomplete_iff.mpr short)

end Deathmatch.Frame
