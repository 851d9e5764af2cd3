import Mathlib
import AccountVault.Proofs.Decimal.Rereading
import AccountVault.Proofs.Json.Numbers

/-!
# How written numbers are read

Whatever notation a decimal is written in, the reader of numbers finds its digits and its exponent
again. There is one exception: a decimal that is a whole number and is written positionally gets a
zero after its point, and then its digits are read with all their zeros, in tenths. So a written
number is always read, an integer as itself and a real number as what its decimal is read as. That
is the same number where one rounding is enough; it need not be elsewhere.
-/

namespace AccountVault

open Json

namespace Json.Scan

theorem fraction_digits (negative : Bool) {value : Nat} {e : Int} {digits : List Char}
    (filled : digits ≠ []) (hd : ∀ d ∈ digits, d.isDigit = true)
    (fits : Nat.ofDigitChars 10 digits value < Number.unsignedBound) {rest : Bytes}
    (h : EndsDigits rest) :
    fraction negative value e (digits.map asciiByte ++ rest) =
      tail negative (Nat.ofDigitChars 10 digits value) (e - digits.length) rest := by
  obtain ⟨taken, left⟩ := span_digits hd h
  have read := accumulate_digits hd value 0 fits
  simp only [fraction, taken, left, read]
  simp [filled]

theorem tail_end (negative : Bool) (digits : Nat) (e : Int) {rest : Bytes} (h : EndsNumber rest) :
    tail negative digits e rest = real negative digits e rest := by
  cases rest with
  | nil => rfl
  | cons byte rest =>
    have stop := h byte rfl
    simp only [IsNumberByte, not_or] at stop
    simp [tail, stop]

theorem exponentDigits_digits {digits : List Char} (hd : ∀ c ∈ digits, c.isDigit = true)
    (value : Nat) (fits : Nat.ofDigitChars 10 digits value < 0x80000000) {rest : Bytes}
    (h : EndsDigits rest) :
    exponentDigits value (digits.map asciiByte ++ rest) =
      .inl (Nat.ofDigitChars 10 digits value, rest) := by
  induction digits generalizing value with
  | nil =>
    cases rest with
    | nil => rfl
    | cons byte rest => simp [exponentDigits, h byte rfl]
  | cons c digits ih =>
    rw [Nat.ofDigitChars_cons] at fits ⊢
    have grows : 10 * value + (c.toNat - '0'.toNat) ≤
        Nat.ofDigitChars 10 digits (10 * value + (c.toNat - '0'.toNat)) := by
      rw [Nat.ofDigitChars_eq_ofDigitChars_zero]
      nlinarith [Nat.one_le_pow digits.length 10 (by decide)]
    have digit := hd c (by simp)
    rw [List.map_cons, List.cons_append, exponentDigits, if_pos (isDigit_asciiByte digit),
      digitOf_asciiByte digit]
    simp only [if_pos (grows.trans_lt fits)]
    exact ih (fun b hb => hd b (List.mem_cons_of_mem _ hb)) _ fits

theorem tail_exponentChars (negative : Bool) (digits : Nat) (e : Int) {shift : Int}
    (small : shift.natAbs < 0x80000000) {rest : Bytes} (h : EndsDigits rest) :
    tail negative digits e ((Number.exponentChars shift).map asciiByte ++ rest) =
      real negative digits (e + shift) rest := by
  obtain ⟨c, cs, hc, isDigits, -, value⟩ := exists_toDigits shift.natAbs
  have first := isDigits c (by simp)
  have read : exponentDigits (digitOf (asciiByte c)) (cs.map asciiByte ++ rest) =
      .inl (shift.natAbs, rest) := by
    rw [Nat.ofDigitChars_cons, Nat.mul_zero, Nat.zero_add] at value
    rw [digitOf_asciiByte first, exponentDigits_digits
      (fun d hd => isDigits d (List.mem_cons_of_mem _ hd)) _ (value ▸ small) h, value]
  rw [Number.exponentChars, hc]
  split_ifs with down
  · have below : e - (shift.natAbs : Int) = e + shift := by omega
    have shape : ('e' :: '-' :: c :: cs).map asciiByte ++ rest =
        0x65 :: 0x2d :: asciiByte c :: (cs.map asciiByte ++ rest) := rfl
    rw [shape]
    simp only [← below]
    simp [tail, exponent, isDigit_asciiByte first, read]
  · have above : e + (shift.natAbs : Int) = e + shift := by omega
    have shape : ('e' :: '+' :: c :: cs).map asciiByte ++ rest =
        0x65 :: 0x2b :: asciiByte c :: (cs.map asciiByte ++ rest) := rfl
    rw [shape]
    simp only [← above]
    simp [tail, exponent, isDigit_asciiByte first, read]

theorem afterDigits_point (negative : Bool) (value : Nat) (rest : Bytes) :
    afterDigits negative value [] (0x2e :: rest) = fraction negative value 0 rest := rfl

theorem endsDigits_cons {byte : UInt8} (h : isDigit byte = false) (rest : Bytes) :
    EndsDigits (byte :: rest) := by
  intro b hb
  obtain rfl : byte = b := by simpa using hb
  exact h

theorem endsDigits_exponentChars (shift : Int) (rest : Bytes) :
    EndsDigits ((Number.exponentChars shift).map asciiByte ++ rest) :=
  endsDigits_cons (by decide) _

theorem number_point (negative : Bool) (c : Char) (cs places : List Char)
    (digits : ∀ d ∈ c :: cs, d.isDigit = true) (lead : c = '0' → cs = []) (filled : places ≠ [])
    (digits' : ∀ d ∈ places, d.isDigit = true)
    (fits : Nat.ofDigitChars 10 (c :: cs ++ places) 0 < Number.unsignedBound) {rest : Bytes}
    (h : EndsDigits rest) :
    number negative ((c :: cs ++ '.' :: places).map asciiByte ++ rest) =
      tail negative (Nat.ofDigitChars 10 (c :: cs ++ places) 0) (-places.length) rest := by
  rw [Nat.ofDigitChars_append] at fits ⊢
  have less : Nat.ofDigitChars 10 (c :: cs) 0 < Number.unsignedBound := by
    refine lt_of_le_of_lt ?_ fits
    rw [Nat.ofDigitChars_eq_ofDigitChars_zero (l := places)]
    nlinarith [Nat.one_le_pow places.length 10 (by decide)]
  have shape : (c :: cs ++ '.' :: places).map asciiByte ++ rest =
      (c :: cs).map asciiByte ++ 0x2e :: (places.map asciiByte ++ rest) := by
    simp [asciiByte]
  rw [shape, number_afterDigits negative c cs digits lead less (endsDigits_cons (by decide) _),
    afterDigits_point, fraction_digits negative filled digits' fits h, Int.zero_sub]

theorem isDigit_of_mem_zeros {count : Int} {c : Char} (h : c ∈ Number.zeros count) :
    c.isDigit = true := by
  obtain rfl := List.eq_of_mem_replicate h
  decide

section

variable {c : Char} {cs : List Char} {value : Nat}

theorem number_belowOne (negative : Bool) (digits : ∀ d ∈ c :: cs, d.isDigit = true)
    (hv : Nat.ofDigitChars 10 (c :: cs) 0 = value) (fits : value < Number.unsignedBound)
    (count : Int) {rest : Bytes} (h : EndsNumber rest) :
    number negative (('0' :: '.' :: (Number.zeros count ++ c :: cs)).map asciiByte ++ rest) =
      real negative value (-((count.toNat : Int) + (cs.length + 1))) rest := by
  have read : Nat.ofDigitChars 10 (['0'] ++ (Number.zeros count ++ c :: cs)) 0 = value := by
    rw [Nat.ofDigitChars_append, Nat.ofDigitChars_append, Number.zeros,
      Nat.ofDigitChars_replicate_zero]
    simpa [Nat.ofDigitChars] using hv
  have all : ∀ d ∈ Number.zeros count ++ c :: cs, d.isDigit = true := by
    intro d hd
    rcases List.mem_append.1 hd with zero | digit
    · exact isDigit_of_mem_zeros zero
    · exact digits d digit
  have point := number_point negative '0' [] (Number.zeros count ++ c :: cs) (by simp)
    (fun _ => rfl) (by simp) all (read ▸ fits) h.endsDigits
  rw [read, tail_end _ _ _ h] at point
  refine point.trans ?_
  congr 1
  simp [Number.zeros]

theorem number_whole (negative : Bool) (digits : ∀ d ∈ c :: cs, d.isDigit = true)
    (first : c ≠ '0') (hv : Nat.ofDigitChars 10 (c :: cs) 0 = value) (count : Int)
    (fits : value * 10 ^ (count.toNat + 1) < Number.unsignedBound) {rest : Bytes}
    (h : EndsNumber rest) :
    number negative ((c :: cs ++ Number.zeros count ++ ['.', '0']).map asciiByte ++ rest) =
      real negative (value * 10 ^ (count.toNat + 1)) (-1) rest := by
  have read : Nat.ofDigitChars 10 (c :: (cs ++ Number.zeros count) ++ ['0']) 0 =
      value * 10 ^ (count.toNat + 1) := by
    rw [← List.cons_append, Nat.ofDigitChars_append, Nat.ofDigitChars_append, hv, Number.zeros,
      Nat.ofDigitChars_replicate_zero, pow_succ]
    simp [Nat.ofDigitChars]
    ring
  have all : ∀ d ∈ c :: (cs ++ Number.zeros count), d.isDigit = true := by
    intro d hd
    rw [← List.cons_append] at hd
    rcases List.mem_append.1 hd with digit | zero
    · exact digits d digit
    · exact isDigit_of_mem_zeros zero
  have point := number_point negative c (cs ++ Number.zeros count) ['0'] all
    (fun zero => absurd zero first) (by simp) (by simp) (read ▸ fits) h.endsDigits
  rw [read, tail_end _ _ _ h] at point
  exact point

theorem number_split (negative : Bool) (digits : ∀ d ∈ c :: cs, d.isDigit = true)
    (first : c ≠ '0') (hv : Nat.ofDigitChars 10 (c :: cs) 0 = value)
    (fits : value < Number.unsignedBound) {count : Nat} (before : 0 < count)
    (behind : count < cs.length + 1) {rest : Bytes} (h : EndsNumber rest) :
    number negative (((c :: cs).take count ++ '.' :: (c :: cs).drop count).map asciiByte ++ rest) =
      real negative value (-((cs.length + 1 : Int) - count)) rest := by
  obtain ⟨n, rfl⟩ : ∃ n, count = n + 1 := ⟨count - 1, by omega⟩
  have read : Nat.ofDigitChars 10 (c :: cs.take n ++ cs.drop n) 0 = value := by
    rw [List.cons_append, List.take_append_drop, hv]
  have filled : cs.drop n ≠ [] := by
    rw [Ne, List.drop_eq_nil_iff]
    omega
  have point := number_point negative c (cs.take n) (cs.drop n)
    (fun d hd => digits d (by
      rcases List.mem_cons.1 hd with rfl | hd
      · simp
      · exact List.mem_cons_of_mem _ (List.mem_of_mem_take hd)))
    (fun zero => absurd zero first) filled
    (fun d hd => digits d (List.mem_cons_of_mem _ (List.mem_of_mem_drop hd))) (read ▸ fits)
    h.endsDigits
  rw [read, tail_end _ _ _ h] at point
  rw [List.take_succ_cons, List.drop_succ_cons, point]
  congr 1
  rw [List.length_drop]
  omega

theorem number_single (negative : Bool) (digit : c.isDigit = true)
    (hv : Nat.ofDigitChars 10 [c] 0 = value) (fits : value < Number.unsignedBound) {shift : Int}
    (small : shift.natAbs < 0x80000000) {rest : Bytes} (h : EndsNumber rest) :
    number negative ((c :: Number.exponentChars shift).map asciiByte ++ rest) =
      real negative value shift rest := by
  have read := number_afterDigits negative c [] (by simpa using digit) (fun _ => rfl)
    (hv ▸ fits) (endsDigits_exponentChars shift rest)
  have power := tail_exponentChars negative value 0 small h.endsDigits
  have letter : afterDigits negative value [] ((Number.exponentChars shift).map asciiByte ++ rest) =
      tail negative value 0 ((Number.exponentChars shift).map asciiByte ++ rest) := by
    simp [Number.exponentChars, asciiByte, afterDigits, tail]
  rw [hv, letter, power, Int.zero_add] at read
  rw [← read]
  simp

theorem number_scientific (negative : Bool) (digits : ∀ d ∈ c :: cs, d.isDigit = true)
    (filled : cs ≠ []) (hv : Nat.ofDigitChars 10 (c :: cs) 0 = value)
    (fits : value < Number.unsignedBound) {shift : Int} (small : shift.natAbs < 0x80000000)
    {rest : Bytes} (h : EndsNumber rest) :
    number negative ((c :: '.' :: (cs ++ Number.exponentChars shift)).map asciiByte ++ rest) =
      real negative value (-cs.length + shift) rest := by
  have point := number_point negative c [] cs
    (fun d hd => digits d (by simp_all)) (fun _ => rfl) filled
    (fun d hd => digits d (List.mem_cons_of_mem _ hd)) (by simpa [hv] using fits)
    (endsDigits_exponentChars shift rest)
  rw [tail_exponentChars _ _ _ small h.endsDigits] at point
  have shape : (c :: '.' :: (cs ++ Number.exponentChars shift)).map asciiByte ++ rest =
      ([c] ++ '.' :: cs).map asciiByte ++ ((Number.exponentChars shift).map asciiByte ++ rest) := by
    simp
  rw [shape, point]
  simp [hv]

end

theorem number_decimalChars (negative : Bool) {d : Decimal} (positive : 0 < d.coefficient)
    (short : d.coefficient ≤ 10 ^ 17) (bounded : d.exponent.natAbs ≤ 1000) {rest : Bytes}
    (h : EndsNumber rest) :
    number negative ((Number.decimalChars Number.layout d).map asciiByte ++ rest) =
      real negative d.spelled.coefficient d.spelled.exponent rest := by
  obtain ⟨value, e⟩ := d
  dsimp only at positive short bounded
  obtain ⟨c, cs, hc, digits, -, hv⟩ := exists_toDigits value
  have fits : value < Number.unsignedBound := short.trans_lt (by decide)
  have first : c ≠ '0' := head_toDigits positive hc
  have few : cs.length + 1 ≤ 18 := by
    have := (Nat.length_toDigits_le_iff (b := 10) (n := value) (k := 18) (by decide) (by decide)).2
      (short.trans_lt (by decide))
    rwa [hc, List.length_cons] at this
  simp only [Number.decimalChars, Number.layout, Decimal.spelled, hc, List.length_cons]
  by_cases positional : (-4 : Int) ≤ (cs.length + 1 : Nat) + e ∧
    ((cs.length + 1 : Nat) : Int) + e ≤ 16
  · rw [if_pos positional]
    by_cases below : ((cs.length + 1 : Nat) : Int) + e ≤ 0
    · rw [if_pos below, if_neg (by omega), number_belowOne negative digits hv fits _ h]
      congr 1
      push_cast
      omega
    · rw [if_neg below]
      by_cases whole : 0 ≤ e
      · have long : value < 10 ^ (cs.length + 1) := by
          refine (Nat.length_toDigits_le_iff (by decide) (by omega)).1 ?_
          rw [hc, List.length_cons]
        have room : value * 10 ^ (e.toNat + 1) < Number.unsignedBound := by
          calc value * 10 ^ (e.toNat + 1) ≤ 10 ^ (cs.length + 1) * 10 ^ (e.toNat + 1) := by gcongr
            _ = 10 ^ (cs.length + 1 + (e.toNat + 1)) := (pow_add 10 _ _).symm
            _ ≤ 10 ^ 17 := Nat.pow_le_pow_right (by decide) (by omega)
            _ < Number.unsignedBound := by decide
        rw [if_pos whole, if_pos (by omega)]
        exact number_whole negative digits first hv e room h
      · rw [if_neg whole, if_neg (by omega), number_split negative digits first hv fits (by omega)
          (by omega) h]
        congr 1
        push_cast
        omega
  · rw [if_neg positional, if_neg (by omega)]
    cases cs with
    | nil =>
      rw [List.length_nil] at positional ⊢
      rw [number_single negative (digits c (by simp)) hv fits (by omega) h]
      congr 1
      dsimp only
      omega
    | cons next cs =>
      rw [number_scientific negative digits (by simp) hv fits (by push_cast; omega) h]
      congr 1
      push_cast
      omega

theorem number_unsigned (negative : Bool) {m : Nat} (finite : m < Binary64.infinity) {rest : Bytes}
    (h : EndsNumber rest) :
    number negative ((if m = 0 then ['0', '.', '0']
        else Number.decimalChars Number.layout (Decimal.shortest m)).map asciiByte ++ rest) =
      .ok (.real ⟨negative, Binary64.reread m⟩, rest) := by
  split_ifs with zero
  · have point := number_point negative '0' [] ['0'] (by simp) (fun _ => rfl) (by simp) (by simp)
      (by decide) h.endsDigits
    have none : Binary64.ofDecimal? 0 (-1) = some 0 := by decide +kernel
    refine point.trans ?_
    rw [tail_end _ _ _ h, zero]
    simp [real, Nat.ofDigitChars, none, Binary64.reread]
  · have positive : 0 < m := Nat.pos_of_ne_zero zero
    obtain ⟨-, some, short⟩ := Binary64.shortest_spec positive finite
    obtain ⟨low, high⟩ := Binary64.exponent_shortest_bounds positive finite
    rw [number_decimalChars negative some short (by omega) h, real,
      Binary64.ofDecimal?_spelled positive finite]

end Json.Scan

namespace Json.Number

/-- The numbers that a JSON text can hold: integers of sixty-four bits and finite real numbers. -/
def Readable : Number → Prop
  | integer i => InRange (integer i)
  | real x => x.magnitude < Binary64.infinity

/-- The number that is read where a number was written. -/
def reread : Number → Number
  | integer i => integer i
  | real x => real ⟨x.negative, Binary64.reread x.magnitude⟩

/-- The numbers that are read with one rounding at most where they were written. -/
def Steady : Number → Prop
  | integer _ => True
  | real x => Binary64.Steady x.magnitude

theorem Steady.reread_eq {n : Number} (h : n.Steady) (readable : n.Readable) : n.reread = n := by
  cases n with
  | integer i => rfl
  | real x =>
    obtain ⟨negative, m⟩ := x
    rw [reread, Binary64.Steady.reread_eq h readable]

end Json.Number

theorem Json.Field.number_writeNumber_reread {n : Number} (readable : n.Readable) {rest : Bytes}
    (h : Scan.EndsNumber rest) : number (writeNumber n ++ rest) = .ok (n.reread, rest) := by
  cases n with
  | integer i =>
    have inRange : Number.InRange (.integer i) := readable
    exact number_writeNumber inRange h
  | real x =>
    obtain ⟨negative, m⟩ := x
    have unsigned := Scan.number_unsigned negative readable h
    rw [writeNumber_eq, Number.chars, Number.realChars]
    cases negative with
    | false => exact number_of_scan unsigned
    | true =>
      refine (number_of_minus _).trans ?_
      exact unsigned

end AccountVault
