import Mathlib
import AccountVault.Cipher.Block

/-!
# Decryption of a block undoes its encryption

Each step of a round has an inverse: the substitution by its inverse table, the shift of the rows by
the opposite shift, the mixing of a column by the inverse matrix over the field of 256 elements, and
the addition of a key by the same addition. Decryption takes the inverse steps in the opposite
order, so a block comes back whatever the round keys are.
-/

namespace AccountVault.Cipher

theorem forall_byte {p : UInt8 → Prop} (h : ∀ n : Fin 256, p (UInt8.ofNat n)) (byte : UInt8) :
    p byte := by
  have here := h ⟨byte.toNat, byte.toNat_lt⟩
  simpa using here

theorem unsubstitute_substitute (byte : UInt8) : unsubstitute (substitute byte) = byte := by
  revert byte
  exact forall_byte (by decide +kernel)

def IsLinear (f : UInt8 → UInt8) : Prop := ∀ p q, f (p ^^^ q) = f p ^^^ f q

theorem IsLinear.comp {f g : UInt8 → UInt8} (hf : IsLinear f) (hg : IsLinear g) :
    IsLinear fun byte => f (g byte) := by
  intro p q
  show f (g (p ^^^ q)) = f (g p) ^^^ f (g q)
  rw [hg, hf]

theorem IsLinear.add {f g : UInt8 → UInt8} (hf : IsLinear f) (hg : IsLinear g) :
    IsLinear fun byte => f byte ^^^ g byte := by
  intro p q
  show f (p ^^^ q) ^^^ g (p ^^^ q) = f p ^^^ g p ^^^ (f q ^^^ g q)
  rw [hf, hg]
  ac_rfl

theorem isLinear_id : IsLinear fun byte => byte := by
  intro p q
  rfl

theorem le_iff_msb (byte : UInt8) : 0x80 ≤ byte ↔ byte.toBitVec.msb = true := by
  rw [UInt8.le_iff_toNat_le, BitVec.msb_eq_decide, decide_eq_true_iff]
  exact Iff.rfl

theorem isLinear_double : IsLinear double := by
  intro p q
  -- The leading bit of a sum is the sum of the leading bits, so the reductions add up as well.
  have reduction : (if 0x80 ≤ p ^^^ q then (0x1b : UInt8) else 0) =
      (if 0x80 ≤ p then 0x1b else 0) ^^^ (if 0x80 ≤ q then 0x1b else 0) := by
    simp only [le_iff_msb, UInt8.toBitVec_xor, BitVec.msb_xor]
    cases p.toBitVec.msb <;> cases q.toBitVec.msb <;> rfl
  rw [double, double, double, reduction, UInt8.shiftLeft_xor]
  ac_rfl

theorem isLinear_triple : IsLinear triple := isLinear_double.add isLinear_id

theorem isLinear_fourfold : IsLinear fun byte => double (double byte) :=
  isLinear_double.comp isLinear_double

theorem isLinear_eightfold : IsLinear eightfold := isLinear_double.comp isLinear_fourfold

theorem isLinear_times9 : IsLinear times9 := isLinear_eightfold.add isLinear_id

theorem isLinear_times11 : IsLinear times11 := isLinear_eightfold.add isLinear_triple

theorem isLinear_times13 : IsLinear times13 :=
  (isLinear_eightfold.add isLinear_fourfold).add isLinear_id

theorem isLinear_times14 : IsLinear times14 :=
  (isLinear_eightfold.add isLinear_fourfold).add isLinear_double

namespace Column

theorem add_add (p q : Column) : (p.add q).add q = p := by
  simp [add]

theorem map_unsubstitute (p : Column) : (p.map substitute).map unsubstitute = p := by
  simp [map, unsubstitute_substitute]

theorem rotate_mix (p : Column) : p.rotate.mix = p.mix.rotate := by
  simp only [rotate, mix, mk.injEq]
  exact ⟨by ac_rfl, by ac_rfl, by ac_rfl, by ac_rfl⟩

theorem rotate_unmix (p : Column) : p.rotate.unmix = p.unmix.rotate := by
  simp only [rotate, unmix, mk.injEq]
  exact ⟨by ac_rfl, by ac_rfl, by ac_rfl, by ac_rfl⟩

theorem unmix_row (byte : UInt8) :
    times14 (double byte) ^^^ times11 byte ^^^ times13 byte ^^^ times9 (triple byte) = byte ∧
      times14 (triple byte) ^^^ times11 (double byte) ^^^ times13 byte ^^^ times9 byte = 0 ∧
      times14 byte ^^^ times11 (triple byte) ^^^ times13 (double byte) ^^^ times9 byte = 0 ∧
      times14 byte ^^^ times11 byte ^^^ times13 (triple byte) ^^^ times9 (double byte) = 0 := by
  revert byte
  exact forall_byte (by decide +kernel)

theorem a_unmix_mix (p : Column) : p.mix.unmix.a = p.a := by
  obtain ⟨a, b, c, d⟩ := p
  have first := (unmix_row a).1
  have second := (unmix_row b).2.1
  have third := (unmix_row c).2.2.1
  have fourth := (unmix_row d).2.2.2
  simp only [mix, unmix, isLinear_times9 _ _, isLinear_times11 _ _, isLinear_times13 _ _,
    isLinear_times14 _ _]
  calc
    _ = (times14 (double a) ^^^ times11 a ^^^ times13 a ^^^ times9 (triple a)) ^^^
          (times14 (triple b) ^^^ times11 (double b) ^^^ times13 b ^^^ times9 b) ^^^
          (times14 c ^^^ times11 (triple c) ^^^ times13 (double c) ^^^ times9 c) ^^^
          (times14 d ^^^ times11 d ^^^ times13 (triple d) ^^^ times9 (double d)) := by ac_rfl
    _ = a := by
      rw [first, second, third, fourth]
      simp

theorem unmix_mix (p : Column) : p.mix.unmix = p := by
  -- Rotations commute with both maps and bring every byte to the first place.
  have step (q : Column) : q.rotate.mix.unmix = q.mix.unmix.rotate := by
    rw [rotate_mix, rotate_unmix]
  have b : p.mix.unmix.b = p.b := by
    have h := a_unmix_mix p.rotate
    rwa [step] at h
  have c : p.mix.unmix.c = p.c := by
    have h := a_unmix_mix p.rotate.rotate
    rwa [step, step] at h
  have d : p.mix.unmix.d = p.d := by
    have h := a_unmix_mix p.rotate.rotate.rotate
    rwa [step, step, step] at h
  have a := a_unmix_mix p
  cases h : p.mix.unmix
  rw [h] at a b c d
  cases a
  cases b
  cases c
  cases d
  rfl

end Column

namespace Block

theorem add_add (p q : Block) : (p.add q).add q = p := by
  simp [add, Column.add_add]

theorem unshiftRows_shiftRows (p : Block) : p.shiftRows.unshiftRows = p := rfl

theorem map_unmix (p : Block) : (p.map Column.mix).map Column.unmix = p := by
  simp [map, Column.unmix_mix]

theorem map_unsubstitute (p : Block) :
    (p.map (Column.map substitute)).map (Column.map unsubstitute) = p := by
  simp [map, Column.map_unsubstitute]

end Block

theorem unround_round (state key : Block) : unround (round state key) key = state := by
  rw [unround, round, Block.add_add, Block.map_unmix, Block.unshiftRows_shiftRows,
    Block.map_unsubstitute]

theorem foldl_unround (keys : List Block) (state : Block) :
    keys.reverse.foldl unround (keys.foldl round state) = state := by
  induction keys generalizing state with
  | nil => rfl
  | cons key keys ih =>
    rw [List.foldl_cons, List.reverse_cons, List.foldl_append, ih]
    exact unround_round state key

theorem decryptBlock_encryptBlock (keys : RoundKeys) (plain : Block) :
    decryptBlock keys (encryptBlock keys plain) = plain := by
  simp only [decryptBlock, encryptBlock, Block.add_add, Block.unshiftRows_shiftRows,
    Block.map_unsubstitute, foldl_unround]

end AccountVault.Cipher
