import Mathlib
import AccountVault.Cipher.DataKey

/-!
# The text of a data key

A key is configured as a base64 text with blanks around it. Reading base64 undoes writing and
accepts nothing but what writing produces: every digit stands for its place in the alphabet, the
padding is where the last group is short and nowhere else, and the bits that the padding leaves
unused are zero. So a key has one text up to the blanks, and a text that has been damaged is not
taken for another key unless it is the text of that key.
-/

namespace AccountVault

namespace Base64

theorem digitValue?_digit {n : Nat} (small : n < 64) : digitValue? (digit n) = some n := by
  have all : ∀ n : Fin 64, digitValue? (digit n) = some n.val := by decide
  exact all ⟨n, small⟩

theorem digit_ne_padding {n : Nat} (small : n < 64) : digit n ≠ '=' := by
  have all : ∀ n : Fin 64, digit n ≠ '=' := by decide
  exact all ⟨n, small⟩

theorem digit_of_digitValue? {c : Char} {n : Nat} (h : digitValue? c = some n) :
    n < 64 ∧ digit n = c := by
  have place : ∀ low high : Char, low ≤ c ∧ c ≤ high → low.toNat ≤ c.toNat ∧ c.toNat ≤ high.toNat :=
    fun _ _ between => between
  unfold digitValue? at h
  split_ifs at h with upper lower figure plus slash
  · obtain ⟨low, high⟩ := place _ _ upper
    obtain rfl := Option.some.inj h
    simp only [Char.reduceToNat] at low high
    have first : c.toNat - 65 < 26 := by omega
    refine ⟨by omega, ?_⟩
    rw [digit, if_pos first, Nat.add_sub_cancel' low, Char.ofNat_toNat]
  · obtain ⟨low, high⟩ := place _ _ lower
    obtain rfl := Option.some.inj h
    simp only [Char.reduceToNat] at low high
    refine ⟨by omega, ?_⟩
    rw [digit, if_neg (by omega), if_pos (by omega), Nat.add_sub_cancel' (by omega),
      Char.ofNat_toNat]
  · obtain ⟨low, high⟩ := place _ _ figure
    obtain rfl := Option.some.inj h
    simp only [Char.reduceToNat] at low high
    refine ⟨by omega, ?_⟩
    rw [digit, if_neg (by omega), if_neg (by omega), if_pos (by omega), Nat.add_sub_cancel,
      Char.ofNat_toNat]
  · obtain rfl := Option.some.inj h
    exact ⟨by decide, plus ▸ rfl⟩
  · obtain rfl := Option.some.inj h
    exact ⟨by decide, slash ▸ rfl⟩

example : (List.range 64).map digit =
    "ABCDEFGHIJKLMNOPQRSTUVWXYZabcdefghijklmnopqrstuvwxyz0123456789+/".toList := by
  decide

theorem ofNat_eq {a : UInt8} {n : Nat} (h : n = a.toNat) : UInt8.ofNat n = a := by
  rw [h, UInt8.ofNat_toNat]

theorem lastOne?_digits (a : UInt8) :
    lastOne? (digit (a.toNat / 4)) (digit (a.toNat % 4 * 16)) = some [a] := by
  have small := a.toNat_lt
  have whole : UInt8.ofNat (a.toNat / 4 * 4 + a.toNat % 4 * 16 / 16) = a := ofNat_eq (by omega)
  simp only [lastOne?, digitValue?_digit (show a.toNat / 4 < 64 by omega),
    digitValue?_digit (show a.toNat % 4 * 16 < 64 by omega), Option.bind_eq_bind, Option.bind_some,
    whole, if_pos (show a.toNat % 4 * 16 % 16 = 0 by omega)]

theorem lastTwo?_digits (a b : UInt8) :
    lastTwo? (digit (a.toNat / 4)) (digit (a.toNat % 4 * 16 + b.toNat / 16))
      (digit (b.toNat % 16 * 4)) = some [a, b] := by
  have smallA := a.toNat_lt
  have smallB := b.toNat_lt
  have first : UInt8.ofNat (a.toNat / 4 * 4 + (a.toNat % 4 * 16 + b.toNat / 16) / 16) = a :=
    ofNat_eq (by omega)
  have second : UInt8.ofNat ((a.toNat % 4 * 16 + b.toNat / 16) % 16 * 16 +
      b.toNat % 16 * 4 / 4) = b := ofNat_eq (by omega)
  simp only [lastTwo?, digitValue?_digit (show a.toNat / 4 < 64 by omega),
    digitValue?_digit (show a.toNat % 4 * 16 + b.toNat / 16 < 64 by omega),
    digitValue?_digit (show b.toNat % 16 * 4 < 64 by omega), Option.bind_eq_bind, Option.bind_some,
    first, second, if_pos (show b.toNat % 16 * 4 % 4 = 0 by omega)]

theorem group?_digits (a b c : UInt8) :
    group? (digit (a.toNat / 4)) (digit (a.toNat % 4 * 16 + b.toNat / 16))
      (digit (b.toNat % 16 * 4 + c.toNat / 64)) (digit (c.toNat % 64)) = some [a, b, c] := by
  have smallA := a.toNat_lt
  have smallB := b.toNat_lt
  have smallC := c.toNat_lt
  have first : UInt8.ofNat (a.toNat / 4 * 4 + (a.toNat % 4 * 16 + b.toNat / 16) / 16) = a :=
    ofNat_eq (by omega)
  have second : UInt8.ofNat ((a.toNat % 4 * 16 + b.toNat / 16) % 16 * 16 +
      (b.toNat % 16 * 4 + c.toNat / 64) / 4) = b := ofNat_eq (by omega)
  have third : UInt8.ofNat ((b.toNat % 16 * 4 + c.toNat / 64) % 4 * 64 + c.toNat % 64) = c :=
    ofNat_eq (by omega)
  simp only [group?, digitValue?_digit (show a.toNat / 4 < 64 by omega),
    digitValue?_digit (show a.toNat % 4 * 16 + b.toNat / 16 < 64 by omega),
    digitValue?_digit (show b.toNat % 16 * 4 + c.toNat / 64 < 64 by omega),
    digitValue?_digit (show c.toNat % 64 < 64 by omega), Option.bind_eq_bind, Option.bind_some,
    first, second, third, Option.pure_def]

theorem decodeChars?_group {p q r s : Char} (full : s ≠ '=') (rest : List Char) :
    decodeChars? (p :: q :: r :: s :: rest) =
      (group? p q r s).bind fun front => (decodeChars? rest).map (front ++ ·) := by
  rw [decodeChars?]
  · simp [Option.map_eq_bind]
  · rintro - rfl -
    exact full rfl
  · rintro rfl -
    exact full rfl

theorem decodeChars?_encodeChars (bytes : Bytes) :
    decodeChars? (encodeChars bytes) = some bytes := by
  fun_induction encodeChars bytes with
  | case1 => rfl
  | case2 a => exact lastOne?_digits a
  | case3 a b =>
    have small := b.toNat_lt
    have third := digit_ne_padding (show b.toNat % 16 * 4 < 64 by omega)
    rw [decodeChars?]
    · exact lastTwo?_digits a b
    · exact third
  | case4 a b c rest ih =>
    have small := c.toNat_lt
    rw [decodeChars?_group (digit_ne_padding (by omega)), group?_digits, ih]
    rfl

theorem eq_of_lastOne? {p q : Char} {bytes : Bytes} (h : lastOne? p q = some bytes) :
    [p, q, '=', '='] = encodeChars bytes := by
  obtain ⟨x, first, h⟩ := Option.bind_eq_some_iff.1 h
  obtain ⟨y, second, h⟩ := Option.bind_eq_some_iff.1 h
  split_ifs at h with unused
  obtain rfl := Option.some.inj h
  obtain ⟨smallX, rfl⟩ := digit_of_digitValue? first
  obtain ⟨smallY, rfl⟩ := digit_of_digitValue? second
  have byte : (UInt8.ofNat (x * 4 + y / 16)).toNat = x * 4 + y / 16 :=
    UInt8.toNat_ofNat_of_lt' (by change _ < 256; omega)
  rw [encodeChars, byte, show (x * 4 + y / 16) / 4 = x by omega,
    show (x * 4 + y / 16) % 4 * 16 = y by omega]

theorem eq_of_lastTwo? {p q r : Char} {bytes : Bytes} (h : lastTwo? p q r = some bytes) :
    [p, q, r, '='] = encodeChars bytes := by
  obtain ⟨x, first, h⟩ := Option.bind_eq_some_iff.1 h
  obtain ⟨y, second, h⟩ := Option.bind_eq_some_iff.1 h
  obtain ⟨z, third, h⟩ := Option.bind_eq_some_iff.1 h
  split_ifs at h with unused
  obtain rfl := Option.some.inj h
  obtain ⟨smallX, rfl⟩ := digit_of_digitValue? first
  obtain ⟨smallY, rfl⟩ := digit_of_digitValue? second
  obtain ⟨smallZ, rfl⟩ := digit_of_digitValue? third
  have high : (UInt8.ofNat (x * 4 + y / 16)).toNat = x * 4 + y / 16 :=
    UInt8.toNat_ofNat_of_lt' (by change _ < 256; omega)
  have low : (UInt8.ofNat (y % 16 * 16 + z / 4)).toNat = y % 16 * 16 + z / 4 :=
    UInt8.toNat_ofNat_of_lt' (by change _ < 256; omega)
  rw [encodeChars, high, low, show (x * 4 + y / 16) / 4 = x by omega,
    show (x * 4 + y / 16) % 4 * 16 + (y % 16 * 16 + z / 4) / 16 = y by omega,
    show (y % 16 * 16 + z / 4) % 16 * 4 = z by omega]

theorem eq_of_group? {p q r s : Char} {bytes : Bytes} (h : group? p q r s = some bytes)
    (rest : Bytes) : p :: q :: r :: s :: encodeChars rest = encodeChars (bytes ++ rest) := by
  obtain ⟨x, first, h⟩ := Option.bind_eq_some_iff.1 h
  obtain ⟨y, second, h⟩ := Option.bind_eq_some_iff.1 h
  obtain ⟨z, third, h⟩ := Option.bind_eq_some_iff.1 h
  obtain ⟨w, fourth, h⟩ := Option.bind_eq_some_iff.1 h
  obtain rfl := Option.some.inj h
  obtain ⟨smallX, rfl⟩ := digit_of_digitValue? first
  obtain ⟨smallY, rfl⟩ := digit_of_digitValue? second
  obtain ⟨smallZ, rfl⟩ := digit_of_digitValue? third
  obtain ⟨smallW, rfl⟩ := digit_of_digitValue? fourth
  have a : (UInt8.ofNat (x * 4 + y / 16)).toNat = x * 4 + y / 16 :=
    UInt8.toNat_ofNat_of_lt' (by change _ < 256; omega)
  have b : (UInt8.ofNat (y % 16 * 16 + z / 4)).toNat = y % 16 * 16 + z / 4 :=
    UInt8.toNat_ofNat_of_lt' (by change _ < 256; omega)
  have c : (UInt8.ofNat (z % 4 * 64 + w)).toNat = z % 4 * 64 + w :=
    UInt8.toNat_ofNat_of_lt' (by change _ < 256; omega)
  rw [List.cons_append, List.cons_append, List.cons_append, List.nil_append, encodeChars, a, b, c,
    show (x * 4 + y / 16) / 4 = x by omega,
    show (x * 4 + y / 16) % 4 * 16 + (y % 16 * 16 + z / 4) / 16 = y by omega,
    show (y % 16 * 16 + z / 4) % 16 * 4 + (z % 4 * 64 + w) / 64 = z by omega,
    show (z % 4 * 64 + w) % 64 = w by omega]

theorem eq_encodeChars_of_decodeChars? {text : List Char} {bytes : Bytes}
    (h : decodeChars? text = some bytes) : text = encodeChars bytes := by
  fun_induction decodeChars? text generalizing bytes with
  | case1 =>
    obtain rfl := Option.some.inj h
    rfl
  | case2 p q => exact eq_of_lastOne? h
  | case3 p q r => exact eq_of_lastTwo? h
  | case4 p q r s rest _ _ ih =>
    obtain ⟨front, read, h⟩ := Option.bind_eq_some_iff.1 h
    obtain ⟨back, others, h⟩ := Option.bind_eq_some_iff.1 h
    obtain rfl := Option.some.inj h
    rw [ih others]
    exact eq_of_group? read back
  | case5 => cases h

theorem decode?_eq_some_iff {text : String} {bytes : Bytes} :
    decode? text = some bytes ↔ text = encode bytes := by
  constructor
  · intro h
    rw [encode, ← eq_encodeChars_of_decodeChars? h, String.ofList_toList]
  · rintro rfl
    rw [decode?, encode, String.toList_ofList, decodeChars?_encodeChars]

theorem encode_injective : Function.Injective encode := by
  intro first second same
  have read := decode?_eq_some_iff.2 same
  rw [decode?_eq_some_iff.2 rfl] at read
  exact (Option.some.inj read)

-- One bit is set that the padding leaves unused.
example : decode? "QUI=" = some [0x41, 0x42] ∧ decode? "QUJ=" = none := by decide

end Base64

namespace DataKey

theorem ofBase64_eq_ok_iff {text : String} {key : DataKey} :
    ofBase64 text = .ok key ↔ Blank.trim text = Base64.encode key.bytes := by
  rw [← Base64.decode?_eq_some_iff, ofBase64]
  cases Base64.decode? (Blank.trim text) with
  | none => simp
  | some bytes =>
    obtain ⟨held, length⟩ := key
    simp only [ofBytes, Option.some.injEq]
    constructor
    · intro h
      split_ifs at h
      exact congrArg DataKey.bytes (Except.ok.inj h)
    · rintro rfl
      rw [dif_pos length]

theorem ofBase64_eq_wrongLength_iff {text : String} {n : Nat} :
    ofBase64 text = .error (.wrongLength n) ↔
      n ≠ 32 ∧ ∃ bytes : Bytes, bytes.length = n ∧ Blank.trim text = Base64.encode bytes := by
  simp only [← Base64.decode?_eq_some_iff, ofBase64]
  cases Base64.decode? (Blank.trim text) with
  | none => simp
  | some bytes =>
    by_cases length : bytes.length = 32
    · simp only [ofBytes, dif_pos length, reduceCtorEq, false_iff]
      rintro ⟨other, found, same, h⟩
      obtain rfl := Option.some.inj h
      exact other (same.symm.trans length)
    · simp only [ofBytes, dif_neg length, Except.error.injEq, KeyError.wrongLength.injEq,
        Option.some.injEq]
      constructor
      · rintro rfl
        exact ⟨length, bytes, rfl, rfl⟩
      · rintro ⟨-, _, same, rfl⟩
        exact same

theorem ofBase64_eq_notBase64_iff {text : String} :
    ofBase64 text = .error .notBase64 ↔ ∀ bytes, Blank.trim text ≠ Base64.encode bytes := by
  simp only [ne_eq, ← Base64.decode?_eq_some_iff, ofBase64]
  cases Base64.decode? (Blank.trim text) with
  | none => simp
  | some bytes =>
    simp only [ofBytes, Option.some.injEq, forall_eq', iff_false]
    split_ifs <;> simp

end DataKey

/-- A key is read from a text exactly if the trimmed text is the base64 form of its thirty-two
bytes. The form of other bytes is refused for their number, and what is no base64 form for that. So
texts are read as the same key exactly if they are the same up to blanks at their ends. -/
theorem keys_read_from_canonical_base64 (text : String) :
    (∀ bytes : Bytes, (∃ key, DataKey.ofBase64 text = .ok key ∧ key.bytes = bytes) ↔
      bytes.length = 32 ∧ Blank.trim text = Base64.encode bytes) ∧
    (∀ n, DataKey.ofBase64 text = .error (.wrongLength n) ↔
      n ≠ 32 ∧ ∃ bytes : Bytes, bytes.length = n ∧ Blank.trim text = Base64.encode bytes) ∧
    (DataKey.ofBase64 text = .error .notBase64 ↔
      ∀ bytes, Blank.trim text ≠ Base64.encode bytes) ∧
    ∀ other key key', DataKey.ofBase64 text = .ok key → DataKey.ofBase64 other = .ok key' →
      (key = key' ↔ Blank.trim text = Blank.trim other) := by
  refine ⟨fun bytes => ⟨?_, ?_⟩, fun n => DataKey.ofBase64_eq_wrongLength_iff,
    DataKey.ofBase64_eq_notBase64_iff, fun other key key' read read' => ?_⟩
  · rintro ⟨key, read, rfl⟩
    exact ⟨key.length_eq, DataKey.ofBase64_eq_ok_iff.1 read⟩
  · rintro ⟨length, same⟩
    exact ⟨⟨bytes, length⟩, DataKey.ofBase64_eq_ok_iff.2 same, rfl⟩
  · rw [DataKey.ofBase64_eq_ok_iff] at read read'
    rw [read, read', Base64.encode_injective.eq_iff]
    constructor
    · rintro rfl
      rfl
    · intro same
      obtain ⟨bytes, length⟩ := key
      obtain ⟨bytes', length'⟩ := key'
      obtain rfl : bytes = bytes' := same
      rfl

theorem keys_read_from_canonical_base64_blanks :
    let bytes : Bytes := List.replicate 32 0x42
    let text := "\tQkJCQkJCQkJCQkJCQkJCQkJCQkJCQkJCQkJCQkJCQkI=\n"
    let broken := "QkJCQkJCQkJCQkJCQkJC\nQkJCQkJCQkJCQkJCQkJCQkI="
    (∃ key, DataKey.ofBase64 text = .ok key ∧ key.bytes = bytes ∧
      (key = ⟨bytes, by decide⟩ ↔ Blank.trim text = Blank.trim (Base64.encode bytes))) ∧
    DataKey.ofBase64 broken = .error .notBase64 ∧
    DataKey.ofBase64 "" = .error (.wrongLength 0) := by
  intro bytes text broken
  obtain ⟨reads, -, -, same⟩ := keys_read_from_canonical_base64 text
  obtain ⟨key, read, held⟩ := (reads bytes).2 ⟨by decide, by decide +kernel⟩
  have plain : DataKey.ofBase64 (Base64.encode bytes) = .ok ⟨bytes, by decide⟩ :=
    DataKey.ofBase64_eq_ok_iff.2 (by decide +kernel)
  refine ⟨⟨key, read, held, same _ _ _ read plain⟩, ?_, ?_⟩
  · obtain ⟨-, -, refused, -⟩ := keys_read_from_canonical_base64 broken
    rw [refused]
    intro other h
    have none : Base64.decode? (Blank.trim broken) = none := by decide +kernel
    rw [Base64.decode?_eq_some_iff.2 h] at none
    cases none
  · obtain ⟨-, short, -⟩ := keys_read_from_canonical_base64 ""
    exact (short 0).2 ⟨by decide, [], rfl, by decide⟩

end AccountVault
