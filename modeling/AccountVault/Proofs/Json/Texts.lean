import Mathlib
import AccountVault.Json.Field
import AccountVault.Json.Writer

/-!
# Written texts are read back

Reading a written text gives the text and leaves what stood after it. The machine that reads texts
goes over the bytes of one written character at a time and has then collected the UTF-8 bytes of
that character, whichever of the three ways it was written in.
-/

namespace AccountVault.Json

theorem hexValue?_hexDigit : ∀ value < 16, Scan.hexValue? (hexDigit value) = some value := by
  decide

theorem toNat_of_mem_utf8EncodeChar {c : Char} {byte : UInt8}
    (h : byte ∈ String.utf8EncodeChar c) : byte.toNat = c.toNat ∨ 0x80 ≤ byte.toNat := by
  have hv : c.val.toNat = c.toNat := rfl
  simp only [String.utf8EncodeChar, hv] at h
  split_ifs at h with h1 h2 h3
  · left
    simp only [List.mem_singleton] at h
    subst h
    simp only [UInt8.toNat_ofNat']
    omega
  all_goals
    right
    simp only [List.mem_cons, List.not_mem_nil, or_false] at h
    rcases h with rfl | rfl | rfl | rfl <;> simp only [UInt8.toNat_ofNat'] <;> omega

namespace Scan

theorem textBytes_append {bytes : Bytes} (seen rest : Bytes)
    (h : ∀ byte ∈ bytes, byte ≠ 0x22 ∧ byte ≠ 0x5c ∧ ¬byte < 0x20) :
    textBytes .plain seen (bytes ++ rest) = textBytes .plain (bytes.reverse ++ seen) rest := by
  induction bytes generalizing seen with
  | nil => rfl
  | cons byte bytes ih =>
    obtain ⟨quote, backslash, control⟩ := h byte (by simp)
    rw [List.cons_append, textBytes, if_neg quote, if_neg backslash, if_neg control,
      ih _ fun b hb => h b (List.mem_cons_of_mem _ hb)]
    simp

theorem textBytes_hex (seen rest : Bytes) {value : Nat} (h : value < 0x20) :
    textBytes .plain seen
        (0x5c :: 0x75 :: 0x30 :: 0x30 :: hexDigit (value / 16) :: hexDigit (value % 16) :: rest) =
      textBytes .plain ((codePoint value).reverse ++ seen) rest := by
  have high := hexValue?_hexDigit (value / 16) (by omega)
  have low := hexValue?_hexDigit (value % 16) (by omega)
  have zero : hexValue? 0x30 = some 0 := by decide
  have whole : 16 * (value / 16) + value % 16 = value := Nat.div_add_mod value 16
  have meaning : hexMeaning none (some value) = .ok (.inl (codePoint value)) := by
    have hl : isLead value = false := by simp [isLead]; omega
    have ht : isTrail value = false := by simp [isTrail]; omega
    simp [hexMeaning, hl, ht]
  simp [textBytes, high, low, zero, whole, meaning]

theorem textBytes_escapeChar (seen rest : Bytes) (c : Char) :
    textBytes .plain seen (escapeChar c ++ rest) =
      textBytes .plain ((String.utf8EncodeChar c).reverse ++ seen) rest := by
  have code : codePoint c.toNat = String.utf8EncodeChar c := by
    rw [codePoint, Char.ofNat_toNat]
  unfold escapeChar
  split_ifs with quote backslash backspace feed line ret tab control
  · subst quote; rfl
  · subst backslash; rfl
  · rw [← code, backspace]; rfl
  · rw [← code, feed]; rfl
  · subst line; rfl
  · subst ret; rfl
  · subst tab; rfl
  · rw [← code]
    exact textBytes_hex seen rest control
  · -- No escape: none of the bytes of the character is one that the machine looks for.
    refine textBytes_append seen rest fun byte hb => ?_
    have hq : c.toNat ≠ 0x22 := fun h => quote (Char.ext (UInt32.toNat_inj.1 h))
    have hs : c.toNat ≠ 0x5c := fun h => backslash (Char.ext (UInt32.toNat_inj.1 h))
    refine ⟨?_, ?_, ?_⟩
    · rintro rfl
      rcases toNat_of_mem_utf8EncodeChar hb with h | h
      · exact hq h.symm
      · exact absurd h (by decide)
    · rintro rfl
      rcases toNat_of_mem_utf8EncodeChar hb with h | h
      · exact hs h.symm
      · exact absurd h (by decide)
    · rw [UInt8.lt_iff_toNat_lt, show (0x20 : UInt8).toNat = 0x20 from rfl]
      rcases toNat_of_mem_utf8EncodeChar hb with h | h <;> omega

theorem textBytes_flatMap (cs : List Char) (seen rest : Bytes) :
    textBytes .plain seen (cs.flatMap escapeChar ++ 0x22 :: rest) =
      .ok (seen.reverse ++ cs.flatMap String.utf8EncodeChar, rest) := by
  induction cs generalizing seen with
  | nil => simp [textBytes]
  | cons c cs ih =>
    rw [List.flatMap_cons, List.append_assoc, textBytes_escapeChar, ih]
    simp

theorem text_written (s : String) (rest : Bytes) :
    text (s.toList.flatMap escapeChar ++ 0x22 :: rest) = .ok (s, rest) := by
  rw [text, textBytes_flatMap]
  simp only [List.reverse_nil, List.nil_append]
  rw [← Utf8.encode_eq_flatMap, Utf8.decode?_encode]

end Scan

theorem writeText_append (s : String) (rest : Bytes) :
    writeText s ++ rest = 0x22 :: (s.toList.flatMap escapeChar ++ 0x22 :: rest) := by
  simp [writeText]

theorem skipBlank_cons {byte : UInt8} {rest : Bytes} (h : Scan.isBlank byte = false) :
    Scan.skipBlank (byte :: rest) = byte :: rest := by
  simp [Scan.skipBlank, h]

namespace Field

theorem text_writeText (s : String) (rest : Bytes) :
    text (writeText s ++ rest) = .ok (s, rest) := by
  rw [writeText_append, text, leading, skipBlank_cons (by decide)]
  exact Scan.text_written s rest

theorem optional_writeText (s : String) (rest : Bytes) :
    optional text (writeText s ++ rest) = .ok (some s, rest) := by
  have read := text_writeText s rest
  rw [writeText_append] at read ⊢
  rw [optional, skipBlank_cons (by decide)]
  simp [read]

end Field

end AccountVault.Json
