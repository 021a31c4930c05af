import Deathmatch.Bytes

/-!
# Text on the wire

Text travels as UTF-8. `ofBytes?_eq_some_iff` says that a byte string is the form of at most one
text and that reading finds it. A text that has to stay short is cut between characters:
`clamp limit s` is the longest beginning of `s` whose form has at most `limit` bytes.
-/

namespace Deathmatch.Text

/-- The UTF-8 form of a text. -/
def bytes (s : String) : Bytes :=
  s.toByteArray.data.toList

/-- The text whose UTF-8 form is `bs`, if there is one. -/
def ofBytes? (bs : Bytes) : Option String :=
  String.fromUTF8? ⟨bs.toArray⟩

/-- The form of a text in a payload: its bytes and a zero byte that ends it. -/
def terminated (s : String) : Bytes :=
  bytes s ++ [0]

theorem bytes_injective {s t : String} (h : bytes s = bytes t) : s = t := by
  apply String.toByteArray_inj.mp
  exact ByteArray.ext (Array.toList_inj.mp h)

@[simp] theorem ofBytes?_bytes (s : String) : ofBytes? (bytes s) = some s := by
  simp [ofBytes?, bytes, String.fromUTF8?, s.isValidUTF8, String.fromUTF8]

theorem ofBytes?_eq_some_iff {bs : Bytes} {s : String} : ofBytes? bs = some s ↔ bytes s = bs := by
  constructor
  · intro h
    simp only [ofBytes?, String.fromUTF8?] at h
    split at h
    · cases h
      simp [bytes, String.fromUTF8]
    · cases h
  · intro h
    rw [← h, ofBytes?_bytes]

@[simp] theorem length_bytes (s : String) : (bytes s).length = s.utf8ByteSize := rfl

@[simp] theorem bytes_empty : bytes "" = [] := by decide

theorem bytes_append (s t : String) : bytes (s ++ t) = bytes s ++ bytes t := by
  simp [bytes]

/-! ## Cutting between characters -/

/-- The longest beginning of `cs` whose UTF-8 form has at most `limit` bytes. -/
def clampChars (limit : Nat) : List Char → List Char
  | [] => []
  | c :: cs => if c.utf8Size ≤ limit then c :: clampChars (limit - c.utf8Size) cs else []

/-- The longest beginning of `s` whose UTF-8 form has at most `limit` bytes. -/
def clamp (limit : Nat) (s : String) : String :=
  String.ofList (clampChars limit s.toList)

/-- The bytes that the UTF-8 form of `cs` takes. -/
def charsSize : List Char → Nat
  | [] => 0
  | c :: cs => c.utf8Size + charsSize cs

theorem charsSize_clampChars (limit : Nat) (cs : List Char) :
    charsSize (clampChars limit cs) ≤ limit := by
  induction cs generalizing limit with
  | nil => simp [clampChars, charsSize]
  | cons c cs ih =>
    unfold clampChars
    split
    · have rest := ih (limit - c.utf8Size)
      simp only [charsSize]
      omega
    · simp [charsSize]

end Deathmatch.Text
