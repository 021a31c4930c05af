import Deathmatch.Proofs.Reports

/-!
# Changed fields and what a client makes of them

A client reads fields off a row of bytes from the left: the tag says which field follows, and the
field how long its value is, or that a zero byte ends it (`readEntries`). A row of bytes is read as
entries just when it is their written form (`readEntries_eq_some_iff`), so there is at most one way
to read it.

What a server writes for a client who has a baseline (`Player.writeFields_eq`) is read as the
changed fields with their values. Written over the baseline, they give the player as they are now:
`Player.readEntries_writeFields`.
-/

namespace Deathmatch

/-! ## Kinds of values -/

/-- How a value is written. -/
inductive FieldKind where
  | scalar
  | byte
  | text
  deriving DecidableEq

/-- How the values of a field are written. -/
def Field.kind : Field → FieldKind
  | name => .text
  | score | model | weapon | life => .byte
  | positionX | positionY | positionZ | pitch | yaw | velocityX | velocityY | velocityZ
  | angularVelocityX | angularVelocityY => .scalar

/-- Whether a value is of the kind and its end can be seen. -/
def FieldValue.Fits : FieldValue → FieldKind → Prop
  | scalar _, .scalar => True
  | byte _, .byte => True
  | text s, .text => 0 ∉ Text.bytes s
  | _, _ => False

/-- Whether the field can have the value. -/
def Field.Takes (f : Field) (v : FieldValue) : Prop :=
  v.Fits f.kind

theorem Field.takes_value {p : Player} (zeroFree : 0 ∉ Text.bytes p.name) (f : Field) :
    f.Takes (f.value p) := by
  cases f
  case name => exact zeroFree
  all_goals trivial

theorem FieldValue.Fits.parted {v u : FieldValue} {kind : FieldKind} (left : v.Fits kind)
    (right : u.Fits kind) : v.Parted u := by
  cases kind <;> cases v <;> cases u <;> first | trivial | cases left | cases right | skip
  exact .inr ⟨left, right⟩

/-- Two players have a field in common if it is written alike. -/
theorem Field.bytes_value_inj {p q : Player} (f : Field) :
    (f.value p).bytes = (f.value q).bytes ↔ f.value p = f.value q := by
  refine ⟨fun same => ?_, congrArg _⟩
  cases f
  case name => exact congrArg FieldValue.text (Text.bytes_injective (List.append_cancel_right same))
  case score | model | weapon | life => exact congrArg FieldValue.byte (List.cons.inj same).1
  all_goals exact congrArg FieldValue.scalar (Scalar.bytes_injective same)

/-! ## Reading -/

/-- The field that the byte announces. -/
def Field.ofTag? (tag : UInt8) : Option Field :=
  Field.all.find? (·.tag = tag)

theorem Field.ofTag?_eq_some_iff {tag : UInt8} {f : Field} :
    ofTag? tag = some f ↔ f.tag = tag := by
  constructor
  · intro found
    simpa using List.find?_some found
  · rintro rfl
    cases found : ofTag? f.tag with
    | none => simpa using List.find?_eq_none.mp found f f.mem_all
    | some g =>
      have same : g.tag = f.tag := by simpa using List.find?_some found
      rw [tag_injective same]

/-- The value at the front of the bytes, and the bytes behind it. -/
def readValue (kind : FieldKind) (bs : Bytes) : Option (FieldValue × Bytes) :=
  match kind with
  | .scalar =>
    match bs with
    | b₀ :: b₁ :: b₂ :: b₃ :: rest => some (.scalar ⟨word32 b₀ b₁ b₂ b₃⟩, rest)
    | _ => none
  | .byte =>
    match bs with
    | b :: rest => some (.byte b, rest)
    | [] => none
  | .text =>
    match bs.dropWhile (· ≠ 0) with
    | _ :: rest => (Text.ofBytes? (bs.takeWhile (· ≠ 0))).map fun s => (.text s, rest)
    | [] => none

/-- A value is read just where it is written. -/
theorem readValue_eq_some_iff {kind : FieldKind} {bs rest : Bytes} {v : FieldValue} :
    readValue kind bs = some (v, rest) ↔ v.Fits kind ∧ v.bytes ++ rest = bs := by
  cases kind with
  | scalar =>
    constructor
    · intro read
      dsimp only [readValue] at read
      split at read <;> cases read
      exact ⟨trivial, congrArg (· ++ rest) (le32_word32 _ _ _ _)⟩
    · rintro ⟨fits, rfl⟩
      cases v <;> cases fits
      exact congrArg (fun bits => some (FieldValue.scalar ⟨bits⟩, rest)) (word32_le32 _)
  | byte =>
    constructor
    · intro read
      dsimp only [readValue] at read
      split at read <;> cases read
      exact ⟨trivial, rfl⟩
    · rintro ⟨fits, rfl⟩
      cases v <;> cases fits
      rfl
  | text =>
    constructor
    · intro read
      dsimp only [readValue] at read
      split at read
      · next first tail behind =>
        obtain ⟨s, known, same⟩ := Option.map_eq_some_iff.mp read
        obtain ⟨rfl, rfl⟩ := Prod.mk.inj same
        have front := (Text.ofBytes?_eq_some_iff.mp known).symm
        obtain ⟨zeroFree, zero, whole⟩ := cut_iff.mp ⟨front, behind⟩
        rw [zero first rfl] at whole
        exact ⟨zeroFree, (List.append_assoc _ _ _).trans whole⟩
      · cases read
    · rintro ⟨fits, rfl⟩
      cases v with
      | scalar | byte => cases fits
      | text s =>
        have written : (FieldValue.text s).bytes ++ rest = Text.bytes s ++ 0 :: rest :=
          List.append_assoc _ _ _
        obtain ⟨front, behind⟩ := cut_zero fits rest
        rw [written]
        simp only [readValue, front, behind, Text.ofBytes?_bytes, Option.map_some]

theorem readValue_shorter {kind : FieldKind} {bs rest : Bytes} {v : FieldValue}
    (read : readValue kind bs = some (v, rest)) : rest.length ≤ bs.length := by
  rw [← (readValue_eq_some_iff.mp read).2, List.length_append]
  exact Nat.le_add_left _ _

/-- The fields and values that the bytes list, if they are of that form throughout. -/
def readEntries (bs : Bytes) : Option (List (Field × FieldValue)) :=
  match bs with
  | [] => some []
  | tag :: body =>
    match Field.ofTag? tag with
    | none => none
    | some f =>
      match _ : readValue f.kind body with
      | none => none
      | some (v, rest) => (readEntries rest).map ((f, v) :: ·)
termination_by bs.length
decreasing_by exact Nat.lt_succ_of_le (readValue_shorter (by assumption))

/-- Whether the bytes are the written form of the entries. -/
def Lists (bs : Bytes) (entries : List (Field × FieldValue)) : Prop :=
  (∀ e ∈ entries, e.1.Takes e.2) ∧ entries.flatMap Report.entryBytes = bs

theorem lists_nil {entries : List (Field × FieldValue)} : Lists [] entries ↔ entries = [] := by
  constructor
  · rintro ⟨-, written⟩
    cases entries with
    | nil => rfl
    | cons e rest => cases written
  · rintro rfl
    exact ⟨fun e member => (nomatch member), rfl⟩

/-- The first entry is the one that the tag announces and the reader finds. -/
theorem lists_cons {tag : UInt8} {body : Bytes} {entries : List (Field × FieldValue)} :
    Lists (tag :: body) entries ↔ ∃ f v rest more, Field.ofTag? tag = some f ∧
      readValue f.kind body = some (v, rest) ∧ Lists rest more ∧ entries = (f, v) :: more := by
  constructor
  · rintro ⟨takes, written⟩
    cases entries with
    | nil => cases written
    | cons e more =>
      obtain ⟨first, others⟩ := List.forall_mem_cons.mp takes
      obtain ⟨announced, behind⟩ := List.cons.inj written
      exact ⟨e.1, e.2, _, more, Field.ofTag?_eq_some_iff.mpr announced,
        readValue_eq_some_iff.mpr ⟨first, behind⟩, ⟨others, rfl⟩, rfl⟩
  · rintro ⟨f, v, rest, more, announced, read, ⟨others, written⟩, rfl⟩
    obtain ⟨first, behind⟩ := readValue_eq_some_iff.mp read
    refine ⟨List.forall_mem_cons.mpr ⟨first, others⟩, ?_⟩
    rw [List.flatMap_cons, Report.entryBytes, Field.ofTag?_eq_some_iff.mp announced, written,
      List.cons_append, behind]

/-- Bytes are read as entries just when they are their written form. -/
theorem readEntries_eq_some_iff {bs : Bytes} {entries : List (Field × FieldValue)} :
    readEntries bs = some entries ↔ Lists bs entries := by
  fun_induction readEntries bs generalizing entries with
  | case1 => rw [lists_nil, Option.some.injEq, eq_comm]
  | case2 tag body unknown => simp [lists_cons, unknown]
  | case3 tag body f known unreadable => simp [lists_cons, known, unreadable]
  | case4 tag body f known v rest read ih =>
    rw [Option.map_eq_some_iff]
    simp [lists_cons, known, read, ih, eq_comm]

/-! ## Writing -/

namespace Player

variable {p : Player}

/-- What is appended does not depend on the buffer. -/
theorem foldl_writeField (baseline : Option Player) (fields : List Field) (written : Bytes × Nat) :
    fields.foldl (p.writeField baseline) written =
      let due := fields.filter fun f => baseline.all fun old => f.value old ≠ f.value p
      (written.1 ++ due.flatMap fun f => f.bytes p, written.2 + due.length) := by
  induction fields generalizing written with
  | nil => simp
  | cons f rest ih =>
    rw [List.foldl_cons, ih]
    cases baseline with
    | none => simp [writeField]; omega
    | some old =>
      by_cases same : f.value old = f.value p
      · simp [writeField, same]
      · simp [writeField, same]; omega

theorem writeFields_eq (p : Player) (baseline : Option Player) (out : Bytes) :
    p.writeFields baseline out =
      (out ++ p.fieldBytes baseline, (p.changedFields baseline).length) := by
  rw [writeFields, foldl_writeField]
  cases baseline <;> simp [fieldBytes, changedFields]

/-- What the server writes lists the changed fields with their values. -/
theorem lists_fieldBytes (zeroFree : 0 ∉ Text.bytes p.name) (baseline : Option Player) :
    Lists (p.fieldBytes baseline) (p.report baseline).entries := by
  constructor
  · intro e member
    obtain ⟨f, -, rfl⟩ := List.mem_map.mp member
    exact f.takes_value zeroFree
  · exact (List.flatMap_map ..).trans rfl

theorem mem_changedFields_iff {old : Player} {f : Field} :
    f ∈ p.changedFields (some old) ↔ (f.value old).bytes ≠ (f.value p).bytes := by
  simp [changedFields, f.mem_all, Field.bytes_value_inj]

/-- Nothing is written just when the client has all as it is. -/
theorem fieldBytes_eq_nil_iff {old : Player} :
    p.fieldBytes (some old) = [] ↔ ∀ f : Field, f.value old = f.value p := by
  simp [fieldBytes, Field.bytes, changedFields, Field.mem_all]

end Player

/-! ## A client's side -/

/-- What is shown of a player once the entries are written over it, first to last. -/
def overwrite (shown : Field → FieldValue) (entries : List (Field × FieldValue)) (f : Field) :
    FieldValue :=
  entries.foldl (fun known e => if e.1 = f then e.2 else known) (shown f)

/-- The server appends to a buffer what can be read in one way only: fields with their values, each
field at most once, in the order of the table, and as many as the server counts. Without a baseline
these are all fields. With one, these are the fields that are written otherwise than at the
baseline, and written over the baseline they give the player as they are now. -/
theorem Player.lists_writeFields (p : Player) (zeroFree : 0 ∉ Text.bytes p.name)
    (baseline : Option Player) :
    ∃ body entries,
      (∀ out, p.writeFields baseline out = (out ++ body, entries.length)) ∧
      readEntries body = some entries ∧ (∀ others, Lists body others ↔ others = entries) ∧
      (entries.map fun e => e.1).Sublist Field.all ∧ (entries.map fun e => e.1.tag).Nodup ∧
      (baseline = none → (entries.map fun e => e.1) = Field.all) ∧
      ∀ old, baseline = some old →
        (∀ f, f ∈ entries.map (fun e => e.1) ↔ (f.value old).bytes ≠ (f.value p).bytes) ∧
        (∀ f, overwrite (fun g => g.value old) entries f = f.value p) ∧
        (body = [] ↔ ∀ f : Field, f.value old = f.value p) := by
  have fields : ((p.report baseline).entries.map fun e => e.1) = p.changedFields baseline :=
    List.map_map.trans (List.map_id _)
  have sublist := p.changedFields_sublist baseline
  have read := readEntries_eq_some_iff.mpr (lists_fieldBytes zeroFree baseline)
  refine ⟨p.fieldBytes baseline, (p.report baseline).entries, fun out => ?_, read,
    fun others => ?_, fields ▸ sublist, ?_, ?_, ?_⟩
  · rw [writeFields_eq, report, List.length_map]
  · rw [← readEntries_eq_some_iff, read, Option.some.injEq, eq_comm]
  · have tags : (Field.all.map Field.tag).Nodup := by decide
    have listed : (p.report baseline).entries.map (fun e => e.1.tag) =
        (p.changedFields baseline).map Field.tag := by
      rw [← fields, List.map_map]
      rfl
    exact listed ▸ tags.sublist (sublist.map Field.tag)
  · rintro rfl
    exact fields
  · rintro old rfl
    rw [fields]
    refine ⟨fun f => mem_changedFields_iff, fun f => ?_, fieldBytes_eq_nil_iff⟩
    refine (Report.foldl_value id p f _ _).trans ?_
    split
    · rfl
    · next unlisted =>
      rw [mem_changedFields_iff, not_not] at unlisted
      exact f.bytes_value_inj.mp unlisted

/-- A new name, and a coordinate that went from zero to the other zero. One that is no number and
stays as it is is left out. -/
theorem Player.lists_writeFields_zeros :
    let old := Player.join 1 "a" "Ann" ⟨⟨0⟩, ⟨0x7fc00000⟩, ⟨0⟩⟩
    let p := { old with
      name := "Bob"
      motion := { old.motion with position := ⟨⟨0x80000000⟩, ⟨0x7fc00000⟩, ⟨0⟩⟩ } }
    let entries : List (Field × FieldValue) :=
      [(.name, .text "Bob"), (.positionX, .scalar ⟨0x80000000⟩)]
    0 ∉ Text.bytes p.name ∧
    p.writeFields (some old) [7] = ([7, 78, 66, 111, 98, 0, 88, 0, 0, 0, 128], 2) ∧
    readEntries [78, 66, 111, 98, 0, 88, 0, 0, 0, 128] = some entries ∧
    ∀ f, overwrite (fun g => g.value old) entries f = f.value p := by
  intro old p entries
  have zeroFree : 0 ∉ Text.bytes p.name := by decide
  have written : p.writeFields (some old) [7] = ([7, 78, 66, 111, 98, 0, 88, 0, 0, 0, 128], 2) := by
    decide +kernel
  obtain ⟨body, found, appended, read, unique, -, -, -, against⟩ :=
    p.lists_writeFields zeroFree (some old)
  have bodyIs : [78, 66, 111, 98, 0, 88, 0, 0, 0, 128] = body :=
    (List.cons.inj (Prod.mk.inj (written.symm.trans (appended [7]))).1).2
  have takes : ∀ e ∈ entries, e.1.Takes e.2 :=
    List.forall_mem_cons.mpr ⟨zeroFree, List.forall_mem_singleton.mpr trivial⟩
  have listed : Lists body entries := ⟨takes, bodyIs ▸ by decide⟩
  have foundIs : entries = found := (unique entries).mp listed
  rw [bodyIs, foundIs]
  exact ⟨zeroFree, bodyIs ▸ written, read, (against old rfl).2.1⟩

end Deathmatch
