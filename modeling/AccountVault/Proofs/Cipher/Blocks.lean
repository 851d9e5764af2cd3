import Mathlib
import AccountVault.Cipher.Sealed

/-!
# Bytes as blocks

Bytes whose number is a multiple of sixteen are the same thing as a list of blocks. Padding makes
any bytes such bytes and can be told from what it was added to, a full block of it included.
-/

namespace AccountVault.Cipher

theorem length_columns (bytes : Bytes) : (columns bytes).length = bytes.length / 4 := by
  fun_induction columns bytes with
  | case1 a b c d rest ih =>
    simp only [List.length_cons, ih]
    omega
  | case2 bytes short =>
    rcases bytes with _ | ⟨a, _ | ⟨b, _ | ⟨c, _ | ⟨d, rest⟩⟩⟩⟩
    case cons.cons.cons.cons => exact absurd rfl (short a b c d rest)
    all_goals simp

theorem length_blocksOfColumns (list : List Column) :
    (blocksOfColumns list).length = list.length / 4 := by
  fun_induction blocksOfColumns list with
  | case1 w x y z rest ih =>
    simp only [List.length_cons, ih]
    omega
  | case2 list short =>
    rcases list with _ | ⟨w, _ | ⟨x, _ | ⟨y, _ | ⟨z, rest⟩⟩⟩⟩
    case cons.cons.cons.cons => exact absurd rfl (short w x y z rest)
    all_goals simp

theorem length_blocks (bytes : Bytes) : (blocks bytes).length = bytes.length / 16 := by
  rw [blocks, length_blocksOfColumns, length_columns, Nat.div_div_eq_div_mul]

theorem flatMap_columns {bytes : Bytes} (h : 4 ∣ bytes.length) :
    (columns bytes).flatMap Column.toBytes = bytes := by
  fun_induction columns bytes with
  | case1 a b c d rest ih =>
    have whole : 4 ∣ rest.length := by
      simp only [List.length_cons] at h
      omega
    rw [List.flatMap_cons, ih whole]
    rfl
  | case2 bytes short =>
    rcases bytes with _ | ⟨a, _ | ⟨b, _ | ⟨c, _ | ⟨d, rest⟩⟩⟩⟩
    case nil => rfl
    case cons.cons.cons.cons => exact absurd rfl (short a b c d rest)
    all_goals
      simp only [List.length_cons, List.length_nil] at h
      omega

def Block.columns (block : Block) : List Column := [block.w, block.x, block.y, block.z]

theorem flatMap_blocksOfColumns {list : List Column} (h : 4 ∣ list.length) :
    (blocksOfColumns list).flatMap Block.columns = list := by
  fun_induction blocksOfColumns list with
  | case1 w x y z rest ih =>
    have whole : 4 ∣ rest.length := by
      simp only [List.length_cons] at h
      omega
    rw [List.flatMap_cons, ih whole]
    rfl
  | case2 list short =>
    rcases list with _ | ⟨w, _ | ⟨x, _ | ⟨y, _ | ⟨z, rest⟩⟩⟩⟩
    case nil => rfl
    case cons.cons.cons.cons => exact absurd rfl (short w x y z rest)
    all_goals
      simp only [List.length_cons, List.length_nil] at h
      omega

theorem joinBlocks_eq (list : List Block) :
    joinBlocks list = (list.flatMap Block.columns).flatMap Column.toBytes := by
  rw [joinBlocks, List.flatMap_assoc]
  congr 1

theorem joinBlocks_blocks {bytes : Bytes} (h : 16 ∣ bytes.length) :
    joinBlocks (blocks bytes) = bytes := by
  have quarters : 4 ∣ (columns bytes).length := by
    rw [length_columns]
    omega
  rw [joinBlocks_eq, blocks, flatMap_blocksOfColumns quarters, flatMap_columns (by omega)]

theorem blocks_joinBlocks (list : List Block) : blocks (joinBlocks list) = list := by
  induction list with
  | nil => rfl
  | cons block list ih =>
    have first : blocks (joinBlocks (block :: list)) = block :: blocks (joinBlocks list) := rfl
    rw [first, ih]

theorem length_joinBlocks (list : List Block) : (joinBlocks list).length = 16 * list.length := by
  induction list with
  | nil => rfl
  | cons block list ih =>
    have first : (joinBlocks (block :: list)).length = (joinBlocks list).length + 16 := rfl
    rw [first, ih, List.length_cons]
    omega

theorem length_pad (bytes : Bytes) : (pad bytes).length = 16 * (bytes.length / 16 + 1) := by
  simp only [pad, List.length_append, List.length_replicate]
  omega

theorem unpad?_pad (bytes : Bytes) : unpad? (pad bytes) = some bytes := by
  obtain ⟨missing, hm⟩ : ∃ missing, missing = 16 - bytes.length % 16 := ⟨_, rfl⟩
  have padded : pad bytes = bytes ++ List.replicate missing (UInt8.ofNat missing) := by
    rw [pad, hm]
  have count : (UInt8.ofNat missing).toNat = missing := by
    rw [UInt8.toNat_ofNat']
    omega
  have last : (bytes ++ List.replicate missing (UInt8.ofNat missing)).getLast? =
      some (UInt8.ofNat missing) := by
    rw [List.getLast?_append, List.getLast?_replicate, if_neg (by omega)]
    rfl
  have kept : (bytes ++ List.replicate missing (UInt8.ofNat missing)).length - missing =
      bytes.length := by
    simp
  simp only [padded, unpad?, last, count, kept, List.drop_left, List.take_left]
  rw [if_pos ⟨by omega, by omega, by simp, trivial⟩]

def chained (key : DataKey) (iv plaintext : Bytes) : Bytes :=
  joinBlocks (chain key.roundKeys ((blocks iv).headD .zero) (blocks (pad plaintext)))

theorem encrypt_eq_chained {key : DataKey} {iv : Bytes} (h : iv.length = ivLength)
    (plaintext : Bytes) : Sealed.encrypt key iv plaintext = .ok ⟨iv, chained key iv plaintext⟩ := by
  have one : (blocks iv).length = 1 := by
    rw [length_blocks, h]
    rfl
  obtain ⟨vector, hv⟩ := List.length_eq_one_iff.1 one
  simp [Sealed.encrypt, chained, hv, h]

end AccountVault.Cipher
