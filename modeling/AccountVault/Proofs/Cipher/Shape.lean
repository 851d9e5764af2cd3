import Mathlib
import AccountVault.Proofs.Cipher.Unsealing

/-!
# The shape of sealed texts

The text of a sealed value is the vector in hexadecimal, one colon, and the ciphertext in
hexadecimal, with lower-case digits only. The ciphertext is as long as the padded plaintext, so its
length is known from that of the plaintext: always whole blocks, and one block more than fits into
the plaintext. The vector can be read off the text.
-/

namespace AccountVault

namespace Hex

def IsLower (c : Char) : Prop := ('0' ≤ c ∧ c ≤ '9') ∨ ('a' ≤ c ∧ c ≤ 'f')

instance (c : Char) : Decidable (IsLower c) := inferInstanceAs (Decidable (_ ∨ _))

theorem isLower_of_mem_pair {byte : UInt8} {c : Char} (h : c ∈ pair byte) : IsLower c := by
  have digits : ∀ n : Fin 16, IsLower (digit n) := by decide
  have small := byte.toNat_lt
  simp only [pair, List.mem_cons, List.not_mem_nil, or_false] at h
  rcases h with rfl | rfl
  · exact digits ⟨byte.toNat / 16, by omega⟩
  · exact digits ⟨byte.toNat % 16, by omega⟩

theorem isLower_of_mem_encode {bytes : Bytes} {c : Char} (h : c ∈ (encode bytes).toList) :
    IsLower c := by
  rw [encode, String.toList_ofList] at h
  obtain ⟨byte, -, digit⟩ := List.mem_flatMap.1 h
  exact isLower_of_mem_pair digit

theorem length_encode (bytes : Bytes) : (encode bytes).toList.length = 2 * bytes.length := by
  rw [encode, String.toList_ofList]
  induction bytes with
  | nil => rfl
  | cons byte rest ih =>
    rw [List.flatMap_cons, List.length_append, ih, List.length_cons]
    simp [pair]
    omega

end Hex

namespace Sealed

/-- The text of a value of `n` bytes that is sealed under a vector. -/
inductive Shaped (iv : Bytes) (n : Nat) : String → Prop
  | mk {vector rest : String} (digits : vector.toList.length = 32)
      (lower : ∀ c ∈ vector.toList, Hex.IsLower c) (names : Hex.decode? vector = some iv)
      (blocks : rest.toList.length = 32 * (n / 16 + 1))
      (lower' : ∀ c ∈ rest.toList, Hex.IsLower c) :
    Shaped iv n (vector ++ ":" ++ rest)

theorem Shaped.count_colon {iv : Bytes} {n : Nat} {text : String} (h : Shaped iv n text) :
    text.toList.count ':' = 1 := by
  have foreign : ¬Hex.IsLower ':' := by decide
  cases h with
  | mk digits lower names blocks lower' =>
    have before := List.count_eq_zero.2 fun mem => foreign (lower _ mem)
    have after := List.count_eq_zero.2 fun mem => foreign (lower' _ mem)
    simp [before, after]

variable {key : DataKey} {iv plaintext : Bytes} {sealed : Sealed}

theorem eq_chained_of_encrypt (whole : iv.length = Cipher.ivLength)
    (encrypted : encrypt key iv plaintext = .ok sealed) :
    sealed = ⟨iv, Cipher.chained key iv plaintext⟩ :=
  Except.ok.inj (encrypted.symm.trans (Cipher.encrypt_eq_chained whole plaintext))

theorem shaped_text (whole : iv.length = Cipher.ivLength)
    (encrypted : encrypt key iv plaintext = .ok sealed) :
    Shaped iv plaintext.length sealed.text := by
  obtain rfl := eq_chained_of_encrypt whole encrypted
  apply Shaped.mk
  · rw [Hex.length_encode, whole]
    rfl
  · exact fun c => Hex.isLower_of_mem_encode
  · exact Hex.decode?_encode iv
  · rw [Hex.length_encode, Cipher.length_chained]
    omega
  · exact fun c => Hex.isLower_of_mem_encode

def vector? (text : String) : Option Bytes := (parse? text).map (·.iv)

theorem vector?_text (whole : iv.length = Cipher.ivLength)
    (encrypted : encrypt key iv plaintext = .ok sealed) : vector? sealed.text = some iv := by
  obtain rfl := eq_chained_of_encrypt whole encrypted
  have filled : Cipher.chained key iv plaintext ≠ [] := by
    rw [← List.length_pos_iff, Cipher.length_chained]
    omega
  rw [vector?, parse?_text whole filled]
  rfl

end Sealed

end AccountVault
