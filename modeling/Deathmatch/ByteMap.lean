/-!
# Tables with a place for every byte

Slots and fragment numbers are bytes, so a table over them is a row of 256 places, each empty or
taken. Two tables with the same entries are equal (`ext_get?`), and listing a table goes through
it in ascending order of the byte (`mem_toList`, `keys_toList`).
-/

namespace Deathmatch

/-- A partial function from bytes. -/
structure ByteMap (α : Type) where
  cells : Vector (Option α) 256
  deriving DecidableEq

namespace ByteMap

variable {α β : Type}

/-- All bytes, ascending. -/
def allKeys : List UInt8 :=
  (List.range 256).map UInt8.ofNat

def empty : ByteMap α :=
  ⟨Vector.replicate 256 none⟩

instance : Inhabited (ByteMap α) := ⟨empty⟩

/-- What stands at the place `k`. -/
def get? (m : ByteMap α) (k : UInt8) : Option α :=
  have bound : k.toNat < 256 := k.toNat_lt
  m.cells[k.toNat]

/-- Makes `v` the content of the place `k`. -/
def put (m : ByteMap α) (k : UInt8) (v : Option α) : ByteMap α :=
  ⟨m.cells.set k.toNat v k.toNat_lt⟩

def insert (m : ByteMap α) (k : UInt8) (a : α) : ByteMap α :=
  m.put k (some a)

def erase (m : ByteMap α) (k : UInt8) : ByteMap α :=
  m.put k none

/-- Changes the entry at `k`, if there is one. -/
def modify (m : ByteMap α) (k : UInt8) (f : α → α) : ByteMap α :=
  m.put k ((m.get? k).map f)

/-- Changes every entry. -/
def map (f : α → β) (m : ByteMap α) : ByteMap β :=
  ⟨m.cells.map (Option.map f)⟩

def contains (m : ByteMap α) (k : UInt8) : Bool :=
  (m.get? k).isSome

/-- The entries with their bytes, ascending. -/
def toList (m : ByteMap α) : List (UInt8 × α) :=
  allKeys.filterMap fun k => (m.get? k).map (k, ·)

/-- The entries in ascending order of their bytes. -/
def values (m : ByteMap α) : List α :=
  m.toList.map (·.2)

def size (m : ByteMap α) : Nat :=
  m.toList.length

/-! ## Reading after writing -/

theorem mem_allKeys (k : UInt8) : k ∈ allKeys := by
  simp only [allKeys, List.mem_map, List.mem_range]
  exact ⟨k.toNat, k.toNat_lt, by simp⟩

@[simp] theorem get?_empty (k : UInt8) : (empty : ByteMap α).get? k = none := by
  simp [get?, empty]

theorem get?_put (m : ByteMap α) (k j : UInt8) (v : Option α) :
    (m.put k v).get? j = if k = j then v else m.get? j := by
  simp only [get?, put, Vector.getElem_set, UInt8.toNat_inj]

@[simp] theorem get?_put_self (m : ByteMap α) (k : UInt8) (v : Option α) :
    (m.put k v).get? k = v := by
  simp [get?_put]

theorem get?_put_of_ne (m : ByteMap α) {k j : UInt8} (v : Option α) (h : k ≠ j) :
    (m.put k v).get? j = m.get? j := by
  simp [get?_put, h]

theorem get?_insert (m : ByteMap α) (k j : UInt8) (a : α) :
    (m.insert k a).get? j = if k = j then some a else m.get? j :=
  get?_put m k j (some a)

theorem get?_erase (m : ByteMap α) (k j : UInt8) :
    (m.erase k).get? j = if k = j then none else m.get? j :=
  get?_put m k j none

theorem get?_modify (m : ByteMap α) (k j : UInt8) (f : α → α) :
    (m.modify k f).get? j = if k = j then (m.get? k).map f else m.get? j :=
  get?_put m k j _

@[simp] theorem get?_map (f : α → β) (m : ByteMap α) (k : UInt8) :
    (m.map f).get? k = (m.get? k).map f := by
  simp [get?, map]

/-- A table is determined by its entries. -/
theorem ext_get? {m n : ByteMap α} (h : ∀ k, m.get? k = n.get? k) : m = n := by
  obtain ⟨m⟩ := m
  obtain ⟨n⟩ := n
  congr 1
  apply Vector.ext
  intro i hi
  have entry := h (UInt8.ofNat i)
  simpa [get?, Nat.mod_eq_of_lt hi] using entry

/-! ## Listing -/

theorem mem_toList {m : ByteMap α} {k : UInt8} {a : α} :
    (k, a) ∈ m.toList ↔ m.get? k = some a := by
  simp only [toList, List.mem_filterMap, Option.map_eq_some_iff, Prod.mk.injEq]
  constructor
  · rintro ⟨_, _, _, entry, rfl, rfl⟩
    exact entry
  · intro entry
    exact ⟨k, mem_allKeys k, a, entry, rfl, rfl⟩

theorem mem_values {m : ByteMap α} {a : α} : a ∈ m.values ↔ ∃ k, m.get? k = some a := by
  simp only [values, List.mem_map, Prod.exists, exists_eq_right, mem_toList]

theorem keys_toList (m : ByteMap α) :
    m.toList.map (·.1) = allKeys.filter fun k => m.contains k := by
  unfold toList
  induction allKeys with
  | nil => rfl
  | cons k ks ih =>
    cases entry : m.get? k <;> simp [contains, entry] at ih ⊢ <;> exact ih

end ByteMap

end Deathmatch
