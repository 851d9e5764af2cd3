import Mathlib
import AccountVault.Proofs.Cipher.Blocks
import AccountVault.Proofs.Cipher.Rounds

/-!
# Sealed values can be unsealed

The service only seals. Whoever has the key can read the written form of a sealed value and unseal
it, and gets the plaintext that was sealed, whatever its length. The written form is split at its
first colon, which is the one between the two halves because neither half contains any.
-/

namespace AccountVault

namespace Cipher

theorem unchain_chain (keys : RoundKeys) (previous : Block) (list : List Block) :
    unchain keys previous (chain keys previous list) = list := by
  induction list generalizing previous with
  | nil => rfl
  | cons block list ih =>
    rw [chain, unchain, decryptBlock_encryptBlock, Block.add_add, ih]

theorem length_chain (keys : RoundKeys) (previous : Block) (list : List Block) :
    (chain keys previous list).length = list.length := by
  induction list generalizing previous with
  | nil => rfl
  | cons block list ih => rw [chain, List.length_cons, ih, List.length_cons]

theorem length_chained (key : DataKey) (iv plaintext : Bytes) :
    (chained key iv plaintext).length = 16 * (plaintext.length / 16 + 1) := by
  rw [chained, length_joinBlocks, length_chain, length_blocks, length_pad, Nat.mul_div_cancel_left]
  decide

end Cipher

theorem Hex.ne_colon_of_mem_pair {byte : UInt8} {c : Char} (h : c ∈ Hex.pair byte) : c ≠ ':' := by
  have digit : ∀ n : Fin 16, Hex.digit n ≠ ':' := by decide
  have small := byte.toNat_lt
  simp only [Hex.pair, List.mem_cons, List.not_mem_nil, or_false] at h
  rcases h with rfl | rfl
  · exact digit ⟨byte.toNat / 16, by omega⟩
  · exact digit ⟨byte.toNat % 16, by omega⟩

namespace Sealed

theorem toList_text (s : Sealed) :
    s.text.toList = s.iv.flatMap Hex.pair ++ ':' :: s.ciphertext.flatMap Hex.pair := by
  simp [text, Hex.encode]

theorem parse?_text {s : Sealed} (whole : s.iv.length = Cipher.ivLength)
    (filled : s.ciphertext ≠ []) : parse? s.text = some s := by
  have noColon : ∀ c ∈ s.iv.flatMap Hex.pair, (c ≠ ':') = true := by
    intro c hc
    obtain ⟨byte, -, hb⟩ := List.mem_flatMap.1 hc
    simpa using Hex.ne_colon_of_mem_pair hb
  have before : s.text.toList.takeWhile (· ≠ ':') = s.iv.flatMap Hex.pair := by
    rw [toList_text, List.takeWhile_append_of_pos (by simpa using noColon)]
    simp
  have after : s.text.toList.dropWhile (· ≠ ':') = ':' :: s.ciphertext.flatMap Hex.pair := by
    rw [toList_text, List.dropWhile_append_of_pos (by simpa using noColon)]
    simp
  unfold parse?
  rw [before, after, Hex.decodeDigits?_flatMap_pair]
  simp [Hex.decodeDigits?_flatMap_pair, whole, filled]

theorem decrypt?_chained {key : DataKey} {iv : Bytes} (h : iv.length = Cipher.ivLength)
    (plaintext : Bytes) :
    decrypt? key ⟨iv, Cipher.chained key iv plaintext⟩ = some plaintext := by
  have one : (Cipher.blocks iv).length = 1 := by
    rw [Cipher.length_blocks, h]
    rfl
  obtain ⟨vector, hv⟩ := List.length_eq_one_iff.1 one
  have whole : (Cipher.chained key iv plaintext).length % 16 = 0 := by
    rw [Cipher.length_chained]
    omega
  have padded : 16 ∣ (Cipher.pad plaintext).length := by
    rw [Cipher.length_pad]
    omega
  have back : Cipher.joinBlocks (Cipher.unchain key.roundKeys vector
      (Cipher.blocks (Cipher.chained key iv plaintext))) = Cipher.pad plaintext := by
    rw [Cipher.chained, Cipher.blocks_joinBlocks, hv, List.headD_cons, Cipher.unchain_chain,
      Cipher.joinBlocks_blocks padded]
  simp only [decrypt?, hv, if_pos whole, back, Cipher.unpad?_pad]

end Sealed

/-- Unsealing undoes sealing: under every key and every vector of sixteen bytes every plaintext is
sealed, the written form is read back as the sealed value, and that unseals to the plaintext. -/
theorem unsealing_undoes_sealing (key : DataKey) {iv : Bytes} (h : iv.length = Cipher.ivLength)
    (plaintext : Bytes) :
    ∃ sealed, Sealed.encrypt key iv plaintext = .ok sealed ∧ sealed.iv = iv ∧
      Sealed.parse? sealed.text = some sealed ∧ sealed.decrypt? key = some plaintext := by
  have filled : Cipher.chained key iv plaintext ≠ [] := by
    rw [← List.length_pos_iff, Cipher.length_chained]
    omega
  exact ⟨⟨iv, Cipher.chained key iv plaintext⟩, Cipher.encrypt_eq_chained h plaintext, rfl,
    Sealed.parse?_text h filled, Sealed.decrypt?_chained h plaintext⟩

theorem unsealing_undoes_sealing_whole_block :
    let key : DataKey := ⟨List.replicate 32 0x42, rfl⟩
    let iv : Bytes := [0, 1, 2, 3, 4, 5, 6, 7, 8, 9, 10, 11, 12, 13, 14, 15]
    ∃ sealed, Sealed.encrypt key iv (Utf8.encode "sixteen letters!") = .ok sealed ∧ sealed.iv = iv ∧
      Sealed.parse? sealed.text = some sealed ∧
      sealed.decrypt? key = some (Utf8.encode "sixteen letters!") :=
  unsealing_undoes_sealing _ (by decide) _

example : (Sealed.encrypt ⟨List.replicate 32 0x42, rfl⟩
      [0, 1, 2, 3, 4, 5, 6, 7, 8, 9, 10, 11, 12, 13, 14, 15] (Utf8.encode "hunter2")).map
        Sealed.text =
    .ok "000102030405060708090a0b0c0d0e0f:bcb20ba68308cc4e841faad30f85187d" := by
  decide +kernel

end AccountVault
