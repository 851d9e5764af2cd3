/-!
# Bytes and text

A stored body, a request body and a key are byte lists; an account id, a log message and a
password are strings. A string is its UTF-8 bytes, so the two directions below are inverse: reading
accepts exactly what writing produces, and each text has one byte form.
-/

namespace AccountVault

abbrev Bytes := List UInt8

namespace Utf8

def encode (text : String) : Bytes := text.toUTF8.data.toList

def decode? (bytes : Bytes) : Option String := String.fromUTF8? ⟨bytes.toArray⟩

def firstLength? (bytes : Bytes) : Option Nat :=
  [1, 2, 3, 4].find? fun n => n ≤ bytes.length && (decode? (bytes.take n)).isSome

def dropValid : (rounds : Nat) → Bytes → Bytes
  | 0, bytes => bytes
  | rounds + 1, bytes =>
    match firstLength? bytes with
    | some n => dropValid rounds (bytes.drop n)
    | none => bytes

/-- What is left after the longest part of a byte list that is UTF-8. -/
def afterValid (bytes : Bytes) : Bytes := dropValid bytes.length bytes

theorem array_of_encode (text : String) : ⟨(encode text).toArray⟩ = text.toByteArray := by
  simp [encode, String.toUTF8]

@[simp] theorem decode?_encode (text : String) : decode? (encode text) = some text := by
  rw [decode?, array_of_encode, String.fromUTF8?, dif_pos text.isValidUTF8]
  rfl

theorem eq_encode_of_decode? {bytes : Bytes} {text : String} (h : decode? bytes = some text) :
    bytes = encode text := by
  unfold decode? String.fromUTF8? at h
  split at h
  · injection h with h
    subst h
    simp [encode, String.toUTF8, String.fromUTF8]
  · cases h

theorem decode?_eq_some_iff {bytes : Bytes} {text : String} :
    decode? bytes = some text ↔ bytes = encode text :=
  ⟨eq_encode_of_decode?, fun h => h ▸ decode?_encode text⟩

theorem encode_eq_flatMap (text : String) :
    encode text = text.toList.flatMap String.utf8EncodeChar := by
  conv => lhs; rw [encode, String.toUTF8, ← String.ofList_toList (s := text)]
  rw [String.toByteArray_ofList, List.utf8Encode]
  simp

end Utf8

end AccountVault
