import Mathlib
import AccountVault.Json.Field
import AccountVault.Json.Writer
import AccountVault.Proofs.Json.Texts

/-!
# Written numbers are read back

An integer of sixty-four bits is read back as itself. Of the other numbers less is needed: a reader
of numbers takes only the bytes numbers are made of, so whatever it makes of a written number, it
does not go past its end.
-/

namespace AccountVault.Json

def IsNumberByte (byte : UInt8) : Prop :=
  Scan.isDigit byte = true ∨ byte = 0x2b ∨ byte = 0x2d ∨ byte = 0x2e ∨ byte = 0x45 ∨ byte = 0x65

instance (byte : UInt8) : Decidable (IsNumberByte byte) := by
  unfold IsNumberByte; infer_instance

theorem IsNumberByte.not_separator {byte : UInt8} (h : IsNumberByte byte) :
    Scan.isBlank byte = false ∧ byte ≠ 0x2c ∧ byte ≠ 0x7d := by
  have ne : ∀ other, ¬IsNumberByte other → byte ≠ other := by
    rintro other ho rfl
    exact ho h
  refine ⟨?_, ne _ (by decide), ne _ (by decide)⟩
  simp [Scan.isBlank, ne 0x20 (by decide), ne 0x0a (by decide), ne 0x09 (by decide),
    ne 0x0d (by decide)]

def asciiByte (c : Char) : UInt8 := UInt8.ofNat c.toNat

theorem encode_ofList_of_ascii {cs : List Char} (h : ∀ c ∈ cs, c.toNat < 0x80) :
    Utf8.encode (String.ofList cs) = cs.map asciiByte := by
  rw [Utf8.encode_eq_flatMap, String.toList_ofList]
  induction cs with
  | nil => rfl
  | cons c cs ih =>
    have hc : c.val.toNat ≤ 127 := Nat.le_of_lt_succ (h c (by simp))
    have single : String.utf8EncodeChar c = [asciiByte c] := if_pos hc
    rw [List.flatMap_cons, ih fun b hb => h b (List.mem_cons_of_mem _ hb), single]
    rfl

theorem toNat_of_isDigit {c : Char} (h : c.isDigit = true) : 0x30 ≤ c.toNat ∧ c.toNat ≤ 0x39 := by
  simpa [Char.isDigit, UInt32.le_iff_toNat_le] using h

theorem isDigit_asciiByte {c : Char} (h : c.isDigit = true) :
    Scan.isDigit (asciiByte c) = true := by
  obtain ⟨low, high⟩ := toNat_of_isDigit h
  simp only [Scan.isDigit, asciiByte, UInt8.le_iff_toNat_le, UInt8.toNat_ofNat',
    Bool.and_eq_true, decide_eq_true_eq]
  exact ⟨by simp; omega, by simp; omega⟩

theorem digitOf_asciiByte {c : Char} (h : c.isDigit = true) :
    Scan.digitOf (asciiByte c) = c.toNat - '0'.toNat := by
  obtain ⟨low, high⟩ := toNat_of_isDigit h
  simp only [Scan.digitOf, asciiByte, UInt8.toNat_ofNat', show '0'.toNat = 0x30 from rfl]
  omega

namespace Number

def IsNumberChar (c : Char) : Prop := c.isDigit = true ∨ c ∈ ['+', '-', '.', 'e']

theorem isNumberChar_of_mem_toDigits {n : Nat} {c : Char} (h : c ∈ Nat.toDigits 10 n) :
    IsNumberChar c :=
  .inl (Nat.isDigit_of_mem_toDigits (by decide) (by decide) h)

theorem isNumberChar_of_mem_zeros {count : Int} {c : Char} (h : c ∈ zeros count) :
    IsNumberChar c := by
  obtain rfl := List.eq_of_mem_replicate h
  exact .inl (by decide)

theorem isNumberChar_of_mem_exponentChars {e : Int} {c : Char} (h : c ∈ exponentChars e) :
    IsNumberChar c := by
  simp only [exponentChars, List.mem_cons] at h
  rcases h with rfl | rfl | h
  · exact .inr (by decide)
  · split
    · exact .inr (by decide)
    · exact .inr (by decide)
  · exact isNumberChar_of_mem_toDigits h

theorem isNumberChar_of_mem_decimalChars {l : Layout} {d : Decimal} {c : Char}
    (h : c ∈ decimalChars l d) : IsNumberChar c := by
  have digit : ∀ {c}, c ∈ Nat.toDigits 10 d.coefficient → IsNumberChar c :=
    isNumberChar_of_mem_toDigits
  have zero : IsNumberChar '0' := .inl (by decide)
  have point : IsNumberChar '.' := .inr (by decide)
  simp only [decimalChars] at h
  split_ifs at h with positional small whole
  · simp only [List.mem_cons, List.mem_append] at h
    rcases h with rfl | rfl | h | h
    exacts [zero, point, isNumberChar_of_mem_zeros h, digit h]
  · simp only [List.mem_cons, List.mem_append, List.not_mem_nil, or_false] at h
    rcases h with (h | h) | rfl | rfl
    exacts [digit h, isNumberChar_of_mem_zeros h, point, zero]
  · simp only [List.mem_cons, List.mem_append] at h
    rcases h with h | rfl | h
    exacts [digit (List.mem_of_mem_take h), point, digit (List.mem_of_mem_drop h)]
  · split at h
    · rename_i single hs
      rcases List.mem_cons.1 h with rfl | h
      exacts [digit (by simp [hs]), isNumberChar_of_mem_exponentChars h]
    · rename_i first rest _ hs
      simp only [List.mem_cons, List.mem_append] at h
      rcases h with rfl | rfl | h | h
      exacts [digit (by simp [hs]), point, digit (by simp [hs, h]),
        isNumberChar_of_mem_exponentChars h]
    · cases h

theorem isNumberChar_of_mem_chars {n : Number} {c : Char} (h : c ∈ n.chars) : IsNumberChar c := by
  have minus : IsNumberChar '-' := .inr (by decide)
  cases n with
  | integer i =>
    simp only [chars, integerChars] at h
    split at h
    · rcases List.mem_cons.1 h with rfl | h
      exacts [minus, isNumberChar_of_mem_toDigits h]
    · exact isNumberChar_of_mem_toDigits h
  | real x =>
    have unsigned : ∀ {c}, c ∈ (if x.magnitude = 0 then ['0', '.', '0']
        else decimalChars layout (Decimal.shortest x.magnitude)) → IsNumberChar c := by
      intro c hc
      split at hc
      · simp only [List.mem_cons, List.not_mem_nil, or_false] at hc
        rcases hc with rfl | rfl | rfl
        exacts [.inl (by decide), .inr (by decide), .inl (by decide)]
      · exact isNumberChar_of_mem_decimalChars hc
    simp only [chars, realChars] at h
    split at h
    · rcases List.mem_cons.1 h with rfl | h
      exacts [minus, unsigned h]
    · exact unsigned h

theorem IsNumberChar.toNat_lt {c : Char} (h : IsNumberChar c) : c.toNat < 0x80 := by
  rcases h with h | h
  · have := toNat_of_isDigit h
    omega
  · simp only [List.mem_cons, List.not_mem_nil, or_false] at h
    rcases h with rfl | rfl | rfl | rfl <;> decide

theorem IsNumberChar.asciiByte {c : Char} (h : IsNumberChar c) :
    IsNumberByte (Json.asciiByte c) := by
  rcases h with h | h
  · exact .inl (isDigit_asciiByte h)
  · simp only [List.mem_cons, List.not_mem_nil, or_false] at h
    rcases h with rfl | rfl | rfl | rfl <;> decide

end Number

theorem writeNumber_eq (n : Number) : writeNumber n = n.chars.map asciiByte :=
  encode_ofList_of_ascii fun _ hc => (Number.isNumberChar_of_mem_chars hc).toNat_lt

theorem isNumberByte_of_mem_writeNumber {n : Number} {byte : UInt8} (h : byte ∈ writeNumber n) :
    IsNumberByte byte := by
  rw [writeNumber_eq] at h
  obtain ⟨c, hc, rfl⟩ := List.mem_map.1 h
  exact (Number.isNumberChar_of_mem_chars hc).asciiByte

namespace Scan

def Consumes (input : Bytes) (read : Read Number) : Prop :=
  ∀ n rest, read = .ok (n, rest) →
    ∃ used, input = used ++ rest ∧ ∀ byte ∈ used, IsNumberByte byte

theorem consumes_error {input : Bytes} {fault : Fault} : Consumes input (.error fault) := by
  intro n rest h
  cases h

theorem consumes_ok {input : Bytes} {n : Number} : Consumes input (.ok (n, input)) := by
  intro _ _ h
  cases h
  exact ⟨[], rfl, by simp⟩

theorem Consumes.append {used input : Bytes} {read : Read Number} (h : Consumes input read)
    (hu : ∀ byte ∈ used, IsNumberByte byte) : Consumes (used ++ input) read := by
  intro n rest hr
  obtain ⟨further, rfl, hf⟩ := h n rest hr
  refine ⟨used ++ further, by simp, fun byte hb => ?_⟩
  rcases List.mem_append.1 hb with hb | hb
  exacts [hu byte hb, hf byte hb]

theorem Consumes.cons {byte : UInt8} {input : Bytes} {read : Read Number} (h : Consumes input read)
    (hb : IsNumberByte byte) : Consumes (byte :: input) read :=
  Consumes.append h (show ∀ b ∈ [byte], IsNumberByte b by simpa using hb)

theorem Consumes.digits {input : Bytes} {read : Read Number}
    (h : Consumes (input.dropWhile isDigit) read) : Consumes input read := by
  have split := List.takeWhile_append_dropWhile (p := isDigit) (l := input)
  rw [← split]
  refine h.append fun byte hb => .inl ?_
  exact List.mem_takeWhile_imp hb

theorem consumes_real (negative : Bool) (digits : Nat) (e : Int) (input : Bytes) :
    Consumes input (real negative digits e input) := by
  unfold real
  split
  · exact consumes_ok
  · exact consumes_error

theorem exponentDigits_append (value : Nat) (input : Bytes) :
    ∃ used, input = used ++ (exponentDigits value input).elim Prod.snd id ∧
      ∀ byte ∈ used, IsNumberByte byte := by
  induction input generalizing value with
  | nil => exact ⟨[], rfl, by simp⟩
  | cons byte input ih =>
    simp only [exponentDigits]
    split_ifs with digit
    · obtain ⟨used, hr, hu⟩ := ih (10 * value + digitOf byte)
      exact ⟨byte :: used, by rw [List.cons_append, ← hr], by simpa using ⟨.inl digit, hu⟩⟩
    · exact ⟨[byte], rfl, by simpa using .inl digit⟩
    · exact ⟨[], rfl, by simp⟩

theorem consumes_exponent (negative : Bool) (digits : Nat) (e : Int) (input : Bytes) :
    Consumes input (exponent negative digits e input) := by
  unfold exponent
  split
  rename_i down unsigned sign
  -- Between the input and what follows the sign there is at most the sign.
  have signed : ∀ read, Consumes unsigned read → Consumes input read := by
    intro read h
    cases input with
    | nil =>
      cases sign
      exact h
    | cons byte rest =>
      dsimp only at sign
      split_ifs at sign with plus minus
      · cases sign
        exact h.cons (by rw [plus]; decide)
      · cases sign
        exact h.cons (by rw [minus]; decide)
      · cases sign
        exact h
  refine signed _ ?_
  cases unsigned with
  | nil => exact consumes_error
  | cons byte rest =>
    by_cases digit : isDigit byte = true
    · simp only [if_pos digit]
      refine Consumes.cons ?_ (.inl digit)
      obtain ⟨used, hr, hu⟩ := exponentDigits_append (digitOf byte) rest
      split
      · rename_i left found
        rw [found] at hr
        rw [hr]
        refine Consumes.append ?_ hu
        split_ifs
        · exact consumes_error
        · exact Consumes.digits consumes_ok
      · rename_i value left found
        rw [found] at hr
        rw [hr]
        exact Consumes.append (consumes_real _ _ _ _) hu
    · simp only [if_neg digit]
      exact consumes_error

theorem consumes_tail (negative : Bool) (digits : Nat) (e : Int) (input : Bytes) :
    Consumes input (tail negative digits e input) := by
  cases input with
  | nil => exact consumes_real _ _ _ _
  | cons byte rest =>
    simp only [tail]
    split_ifs with letter
    · refine (consumes_exponent _ _ _ _).cons ?_
      simp only [Bool.or_eq_true, decide_eq_true_eq] at letter
      rcases letter with rfl | rfl <;> decide
    · exact consumes_real _ _ _ _

theorem consumes_fraction (negative : Bool) (digits : Nat) (e : Int) (input : Bytes) :
    Consumes input (fraction negative digits e input) := by
  simp only [fraction]
  split_ifs
  · split <;> exact consumes_error
  · exact (consumes_tail _ _ _ _).digits

theorem consumes_afterDigits (negative : Bool) (value : Nat) (dropped input : Bytes) :
    Consumes input (afterDigits negative value dropped input) := by
  cases input with
  | nil =>
    simp only [afterDigits]
    split_ifs
    · exact consumes_ok
    · exact consumes_real _ _ _ _
  | cons byte rest =>
    simp only [afterDigits]
    split_ifs with point letter
    · exact (consumes_fraction _ _ _ _).cons (by rw [point]; decide)
    · refine (consumes_exponent _ _ _ _).cons ?_
      simp only [Bool.or_eq_true, decide_eq_true_eq] at letter
      rcases letter with rfl | rfl <;> decide
    · exact consumes_ok
    · exact consumes_real _ _ _ _

theorem consumes_number (negative : Bool) (input : Bytes) :
    Consumes input (number negative input) := by
  cases input with
  | nil => exact consumes_error
  | cons first rest =>
    simp only [number]
    split_ifs with zero digit
    · subst zero
      refine Consumes.cons ?_ (by decide)
      split
      · split_ifs
        · exact consumes_error
        · exact consumes_afterDigits _ _ _ _
      · exact consumes_afterDigits _ _ _ _
    · exact (consumes_afterDigits _ _ _ _).digits.cons (.inl digit)
    · exact consumes_error

def EndsNumber (rest : Bytes) : Prop := ∀ byte ∈ rest.head?, ¬IsNumberByte byte

theorem endsNumber_cons {byte : UInt8} {rest : Bytes} (h : ¬IsNumberByte byte) :
    EndsNumber (byte :: rest) := by
  intro b hb
  obtain rfl : byte = b := by simpa using hb
  exact h

theorem accumulate_digits {digits : List Char} (hd : ∀ c ∈ digits, c.isDigit = true)
    (value taken : Nat) (fits : Nat.ofDigitChars 10 digits value < Number.unsignedBound) :
    accumulate value taken (digits.map asciiByte) =
      (Nat.ofDigitChars 10 digits value, taken + digits.length, []) := by
  induction digits generalizing value taken with
  | nil => simp [accumulate]
  | cons c digits ih =>
    rw [Nat.ofDigitChars_cons] at fits ⊢
    have grows : 10 * value + (c.toNat - '0'.toNat) ≤
        Nat.ofDigitChars 10 digits (10 * value + (c.toNat - '0'.toNat)) := by
      rw [Nat.ofDigitChars_eq_ofDigitChars_zero]
      nlinarith [Nat.one_le_pow digits.length 10 (by decide)]
    rw [List.map_cons, accumulate, digitOf_asciiByte (hd c (by simp)), if_pos (grows.trans_lt fits),
      ih (fun b hb => hd b (List.mem_cons_of_mem _ hb)) _ _ fits]
    rw [List.length_cons, Nat.add_right_comm, Nat.add_assoc]

theorem head_toDigits {n : Nat} (pos : 0 < n) {c : Char} {cs : List Char}
    (h : Nat.toDigits 10 n = c :: cs) : c ≠ '0' := by
  induction n using Nat.strong_induction_on generalizing c cs with
  | _ n ih =>
    by_cases small : n < 10
    · rw [Nat.toDigits_of_lt_base small] at h
      obtain ⟨rfl, -⟩ := List.cons.inj h
      simp only [ne_eq, Nat.digitChar_eq_zero]
      omega
    · rw [Nat.toDigits_of_base_le (by decide) (by omega)] at h
      obtain ⟨first, rest, hf⟩ :=
        List.exists_cons_of_ne_nil (Nat.toDigits_ne_nil (n := n / 10) (b := 10))
      rw [hf, List.cons_append] at h
      obtain ⟨rfl, -⟩ := List.cons.inj h
      exact ih (n / 10) (by omega) (by omega) hf

theorem afterDigits_whole (negative : Bool) (value : Nat) {rest : Bytes} (h : EndsNumber rest) :
    afterDigits negative value [] rest = .ok (whole negative value, rest) := by
  cases rest with
  | nil => rfl
  | cons byte rest =>
    have stop := h byte rfl
    simp only [IsNumberByte, not_or] at stop
    simp [afterDigits, stop]

def EndsDigits (rest : Bytes) : Prop := ∀ byte ∈ rest.head?, isDigit byte = false

theorem EndsNumber.endsDigits {rest : Bytes} (h : EndsNumber rest) : EndsDigits rest := by
  intro byte hb
  have stop := h byte hb
  simp only [IsNumberByte, not_or] at stop
  simpa using stop.1

theorem span_digits {digits : List Char} (hd : ∀ c ∈ digits, c.isDigit = true) {rest : Bytes}
    (h : EndsDigits rest) :
    (digits.map asciiByte ++ rest).takeWhile isDigit = digits.map asciiByte ∧
      (digits.map asciiByte ++ rest).dropWhile isDigit = rest := by
  have all : ∀ byte ∈ digits.map asciiByte, isDigit byte = true := by
    intro byte hb
    obtain ⟨c, hc, rfl⟩ := List.mem_map.1 hb
    exact isDigit_asciiByte (hd c hc)
  rw [List.takeWhile_append_of_pos all, List.dropWhile_append_of_pos all]
  cases rest with
  | nil => simp
  | cons byte rest => simp [h byte rfl]

theorem number_afterDigits (negative : Bool) (c : Char) (cs : List Char)
    (digits : ∀ d ∈ c :: cs, d.isDigit = true) (lead : c = '0' → cs = [])
    (fits : Nat.ofDigitChars 10 (c :: cs) 0 < Number.unsignedBound) {rest : Bytes}
    (h : EndsDigits rest) :
    number negative ((c :: cs).map asciiByte ++ rest) =
      afterDigits negative (Nat.ofDigitChars 10 (c :: cs) 0) [] rest := by
  by_cases zero : c = '0'
  · rw [lead zero, zero]
    cases rest with
    | nil => rfl
    | cons byte rest => simp [number, asciiByte, h byte rfl, Nat.ofDigitChars]
  · have first : asciiByte c ≠ 0x30 := by
      intro same
      have hv : digitOf (asciiByte c) = c.toNat - 0x30 := digitOf_asciiByte (digits c (by simp))
      have := toNat_of_isDigit (digits c (by simp))
      rw [same, show digitOf 0x30 = 0 from rfl] at hv
      exact zero (Char.ext (UInt32.toNat_inj.1 (show c.toNat = 0x30 by omega)))
    obtain ⟨taken, left⟩ := span_digits (fun d hd => digits d (List.mem_cons_of_mem _ hd)) h
    have read := accumulate_digits digits 0 0 fits
    rw [List.map_cons] at read
    rw [List.map_cons, List.cons_append]
    simp only [number, if_neg first, isDigit_asciiByte (digits c (by simp)), if_true, taken, left,
      read]

theorem exists_toDigits (n : Nat) :
    ∃ c cs, Nat.toDigits 10 n = c :: cs ∧ (∀ d ∈ c :: cs, d.isDigit = true) ∧
      (c = '0' → cs = []) ∧ Nat.ofDigitChars 10 (c :: cs) 0 = n := by
  obtain ⟨c, cs, hc⟩ := List.exists_cons_of_ne_nil (Nat.toDigits_ne_nil (n := n) (b := 10))
  refine ⟨c, cs, hc, fun d hd => ?_, fun zero => ?_, ?_⟩
  · exact Nat.isDigit_of_mem_toDigits (by decide) (by decide) (hc ▸ hd)
  · -- A zero stands alone; any other number does not begin with one.
    rcases Nat.eq_zero_or_pos n with rfl | pos
    · rw [Nat.toDigits_zero] at hc
      exact (List.cons.inj hc).2.symm
    · exact absurd zero (head_toDigits pos hc)
  · rw [← hc, Nat.ofDigitChars_ten_toDigits]

theorem number_digits (negative : Bool) {n : Nat} (fits : n < Number.unsignedBound) {rest : Bytes}
    (h : EndsNumber rest) :
    number negative ((Nat.toDigits 10 n).map asciiByte ++ rest) = .ok (whole negative n, rest) := by
  obtain ⟨c, cs, hc, digits, lead, value⟩ := exists_toDigits n
  rw [hc, number_afterDigits negative c cs digits lead (value ▸ fits) h.endsDigits, value,
    afterDigits_whole negative n h]

end Scan

theorem Scan.eq_of_constant {α : Type} {letters input rest : Bytes} {a b : α}
    (h : constant letters a input = .ok (b, rest)) : b = a := by
  unfold constant at h
  split at h
  · cases h
    rfl
  · cases h

theorem Value.readScalar_cases {byte : UInt8} {rest after : Bytes} {v : Value}
    (h : readScalar byte rest = .ok (v, after)) :
    (∃ n, v = .number n ∧ (byte = 0x2d ∧ Scan.number true rest = .ok (n, after) ∨
        Scan.number false (byte :: rest) = .ok (n, after))) ∨
      v = .null ∨ (∃ b, v = .boolean b) ∨ ∃ s, v = .text s := by
  simp only [readScalar, readNumber, readText] at h
  split_ifs at h with null yes no minus
  · exact .inr (.inl (Scan.eq_of_constant h))
  · exact .inr (.inr (.inl ⟨_, Scan.eq_of_constant h⟩))
  · exact .inr (.inr (.inl ⟨_, Scan.eq_of_constant h⟩))
  · split at h
    · rename_i read
      obtain ⟨rfl, rfl⟩ := Prod.mk.inj (Except.ok.inj h)
      exact .inl ⟨_, rfl, .inl ⟨minus, read⟩⟩
    · cases h
  · split at h
    · rename_i read
      obtain ⟨rfl, rfl⟩ := Prod.mk.inj (Except.ok.inj h)
      exact .inl ⟨_, rfl, .inr read⟩
    · cases h
  · split at h
    · obtain ⟨rfl, rfl⟩ := Prod.mk.inj (Except.ok.inj h)
      exact .inr (.inr (.inr ⟨_, rfl⟩))
    · cases h

namespace Field

theorem number_of_isDigit {byte : UInt8} {rest : Bytes} (h : Scan.isDigit byte = true) :
    number (byte :: rest) = Scan.number false (byte :: rest) := by
  have blank : Scan.isBlank byte = false := (IsNumberByte.not_separator (.inl h)).1
  have ne : ∀ other, Scan.isDigit other = false → byte ≠ other := by
    rintro other ho rfl
    exact absurd h (by simp [ho])
  rw [number, leading, skipBlank_cons blank]
  simp only [Value.readScalar, Value.readNumber, h, if_true, if_neg (ne 0x5b (by decide)),
    if_neg (ne 0x7b (by decide)), if_neg (ne 0x6e (by decide)), if_neg (ne 0x74 (by decide)),
    if_neg (ne 0x66 (by decide)), if_neg (ne 0x2d (by decide))]
  rcases Scan.number false (byte :: rest) with fault | ⟨n, rest⟩ <;> rfl

theorem number_of_minus (rest : Bytes) : number (0x2d :: rest) = Scan.number true rest := by
  rw [number, leading, skipBlank_cons (by decide)]
  simp only [Value.readScalar, Value.readNumber]
  rcases Scan.number true rest with fault | ⟨n, rest⟩ <;> rfl

theorem number_of_scan {input rest : Bytes} {n : Number}
    (h : Scan.number false input = .ok (n, rest)) : number input = .ok (n, rest) := by
  cases input with
  | nil => cases h
  | cons byte input =>
    have digit : Scan.isDigit byte = true := by
      by_contra other
      have zero : byte ≠ 0x30 := by
        rintro rfl
        exact other rfl
      simp [Scan.number, zero, other] at h
    rw [number_of_isDigit digit, h]

theorem number_writeNumber {n : Number} (hn : n.InRange) {rest : Bytes} (h : Scan.EndsNumber rest) :
    number (writeNumber n ++ rest) = .ok (n, rest) := by
  rw [writeNumber_eq]
  cases n with
  | real x => cases hn
  | integer i =>
    obtain ⟨low, high⟩ := hn
    simp only [Number.chars, Number.integerChars]
    split_ifs with negative
    · have small : i.natAbs ≤ Number.signedBound := by omega
      have fits : i.natAbs < Number.unsignedBound := small.trans_lt (by decide)
      have read := Scan.number_digits true fits h
      have value : Scan.whole true i.natAbs = .integer i := by
        rw [Scan.whole, if_pos rfl, if_neg (by omega)]
        congr 1
        omega
      rw [List.map_cons, List.cons_append, show asciiByte '-' = 0x2d from rfl, number_of_minus,
        read, value]
    · have read := number_of_scan (Scan.number_digits false (n := i.natAbs) (by omega) h)
      rw [read, Scan.whole, if_neg (by decide), Int.natAbs_of_nonneg (by omega)]

theorem readScalar_number {byte : UInt8} {rest after : Bytes} {n : Number}
    (h : Value.readScalar byte rest = .ok (.number n, after)) :
    byte = 0x2d ∧ Scan.number true rest = .ok (n, after) ∨
      Scan.number false (byte :: rest) = .ok (n, after) := by
  rcases Value.readScalar_cases h with ⟨m, same, read⟩ | same | ⟨_, same⟩ | ⟨_, same⟩ <;> cases same
  exact read

theorem exists_of_number {input after : Bytes} {n : Number} (h : number input = .ok (n, after)) :
    ∃ byte rest, Scan.skipBlank input = byte :: rest ∧
      (byte = 0x2d ∧ Scan.number true rest = .ok (n, after) ∨
        Scan.number false (byte :: rest) = .ok (n, after)) := by
  unfold number leading at h
  split at h
  · cases h
  · rename_i byte rest start
    simp only at h
    split_ifs at h
    split at h
    · cases h
    · rename_i m left read
      obtain ⟨rfl, rfl⟩ := Prod.mk.inj (Except.ok.inj h)
      exact ⟨byte, rest, start, readScalar_number read⟩
    · cases h

theorem consumes_number (input : Bytes) : Scan.Consumes (Scan.skipBlank input) (number input) := by
  intro n after h
  obtain ⟨byte, rest, start, ⟨rfl, signed⟩ | plain⟩ := exists_of_number h
  · rw [start]
    exact (Scan.consumes_number true rest).cons (by decide) _ _ signed
  · rw [start]
    exact Scan.consumes_number false (byte :: rest) _ _ plain

theorem number_writeNumber_rest {n n' : Number} {tail rest : Bytes}
    (h : number (writeNumber n ++ 0x2c :: tail) = .ok (n', rest)) :
    ∃ left, rest = left ++ 0x2c :: tail ∧ ∀ byte ∈ left, IsNumberByte byte := by
  have start : Scan.skipBlank (writeNumber n ++ 0x2c :: tail) = writeNumber n ++ 0x2c :: tail := by
    rcases hw : writeNumber n with _ | ⟨byte, bytes⟩
    · rfl
    · exact skipBlank_cons (isNumberByte_of_mem_writeNumber (n := n) (by simp [hw])).not_separator.1
  obtain ⟨used, whole, hu⟩ := consumes_number _ _ _ h
  rw [start] at whole
  rcases List.append_eq_append_iff.1 whole with ⟨more, rfl, hm⟩ | ⟨left, hl, rfl⟩
  · cases more with
    | nil => exact ⟨[], hm.symm, by simp⟩
    | cons byte more =>
      obtain ⟨rfl, -⟩ := List.cons.inj hm
      exact absurd (hu 0x2c (by simp)) (by decide)
  · refine ⟨left, rfl, fun byte hb => ?_⟩
    exact isNumberByte_of_mem_writeNumber (n := n) (by simp [hl, hb])

end Field

end AccountVault.Json
