import Mathlib
import AccountVault.Proofs.Json.Grammar
import AccountVault.Proofs.Json.Records

/-!
# Reading what is spelled

A reader that stands before the text of a term either takes exactly that text or refuses it at a
place inside it. What follows the text has no part in this, as long as it does not go on with a
number. A refusal counts the bytes that are left, so of what follows only the length shows.
-/

namespace AccountVault.Json

variable {α : Type}

def Fault.ahead (fault : Fault) (count : Nat) : Fault := ⟨fault.cause, fault.unread + count⟩

theorem Fault.ahead_append (fault : Fault) (bytes after : Bytes) :
    fault.ahead (bytes ++ after).length = (fault.ahead bytes.length).ahead after.length := by
  simp only [ahead, List.length_append, Nat.add_assoc]

theorem Fault.before_append (cause : Cause) (bytes after : Bytes) :
    Fault.before cause (bytes ++ after) = (Fault.before cause bytes).ahead after.length := by
  simp only [before, ahead, List.length_append]

def leaving (after : Bytes) : Except Fault α → Read α
  | .ok a => .ok (a, after)
  | .error fault => .error (fault.ahead after.length)

/-- The reader comes to the same outcome on these bytes, whatever follows. -/
def Settles (reader : Bytes → Read α) (bytes : Bytes) (outcome : Except Fault α) : Prop :=
  ∀ after, Scan.EndsNumber after → reader (bytes ++ after) = leaving after outcome

theorem endsNumber_nil : Scan.EndsNumber [] := by
  intro byte h
  cases h

theorem Settles.eq {reader : Bytes → Read α} {bytes : Bytes} {outcome : Except Fault α}
    (h : Settles reader bytes outcome) : (reader bytes).map Prod.fst = outcome := by
  have alone := h [] endsNumber_nil
  rw [List.append_nil] at alone
  rw [alone]
  cases outcome with
  | ok a => rfl
  | error fault => rfl

def Counts (reader : Bytes → Read Number) (bytes : Bytes) : Prop :=
  ∃ outcome, Settles reader bytes outcome ∧
    ∀ fault, outcome = .error fault → fault.cause = .numberTooLarge

theorem Counts.of_eq {reader reader' : Bytes → Read Number} {bytes bytes' : Bytes}
    (h : Counts reader bytes)
    (same : ∀ after, Scan.EndsNumber after → reader' (bytes' ++ after) = reader (bytes ++ after)) :
    Counts reader' bytes' := by
  obtain ⟨outcome, settles, cause⟩ := h
  exact ⟨outcome, fun after ends => (same after ends).trans (settles after ends), cause⟩

namespace Scan

theorem span_append {digits : Bytes} (h : ∀ byte ∈ digits, isDigit byte = true) {rest : Bytes}
    (ends : EndsDigits rest) :
    (digits ++ rest).takeWhile isDigit = digits ∧ (digits ++ rest).dropWhile isDigit = rest := by
  rw [List.takeWhile_append_of_pos h, List.dropWhile_append_of_pos h]
  cases rest with
  | nil => simp
  | cons byte rest => simp [ends byte rfl]

theorem counts_real (negative : Bool) (digits : Nat) (e : Int) :
    Counts (real negative digits e) [] := by
  unfold Counts Settles real
  cases Binary64.ofDecimal? digits e with
  | some magnitude => exact ⟨.ok (.real ⟨negative, magnitude⟩), fun _ _ => rfl, by simp⟩
  | none =>
    refine ⟨.error ⟨.numberTooLarge, 0⟩, fun after _ => ?_, by simp⟩
    simp [leaving, Fault.before, Fault.ahead]

theorem exponentDigits_append_digits {digits : Bytes} (h : ∀ byte ∈ digits, isDigit byte = true)
    (value : Nat) :
    (∃ total, ∀ after, EndsDigits after →
      exponentDigits value (digits ++ after) = .inl (total, after)) ∨
      ∃ left, (∀ byte ∈ left, isDigit byte = true) ∧
        ∀ after, exponentDigits value (digits ++ after) = .inr (left ++ after) := by
  induction digits generalizing value with
  | nil =>
    refine .inl ⟨value, fun after ends => ?_⟩
    cases after with
    | nil => rfl
    | cons byte after => simp [exponentDigits, ends byte rfl]
  | cons byte digits ih =>
    have digit : isDigit byte = true := h byte (by simp)
    have others : ∀ b ∈ digits, isDigit b = true := fun b hb => h b (List.mem_cons_of_mem _ hb)
    by_cases fits : 10 * value + digitOf byte < 0x80000000
    · rcases ih others (10 * value + digitOf byte) with ⟨total, taken⟩ | ⟨left, digits, stopped⟩
      · refine .inl ⟨total, fun after ends => ?_⟩
        simp [exponentDigits, digit, fits, taken after ends]
      · refine .inr ⟨left, digits, fun after => ?_⟩
        simp [exponentDigits, digit, fits, stopped after]
    · exact .inr ⟨digits, others, fun after => by simp [exponentDigits, digit, fits]⟩

def places (negative : Bool) (digits : Nat) (e : Int) (down : Bool) (first : UInt8) (rest : Bytes) :
    Read Number :=
  match exponentDigits (digitOf first) rest with
  | .inr left =>
    if digits ≠ 0 ∧ !down then .error (.before .numberTooLarge left)
    else .ok (.real ⟨negative, 0⟩, left.dropWhile isDigit)
  | .inl (value, left) => real negative digits (if down then e - value else e + value) left

theorem counts_places (negative : Bool) (digits : Nat) (e : Int) (down : Bool) (first : UInt8)
    {bytes : Bytes} (h : ∀ byte ∈ bytes, isDigit byte = true) :
    Counts (places negative digits e down first) bytes := by
  rcases exponentDigits_append_digits h (digitOf first) with ⟨total, taken⟩ | ⟨left, hl, stopped⟩
  · refine (counts_real negative digits (if down then e - total else e + total)).of_eq ?_
    intro after ends
    simp [places, taken after ends.endsDigits]
  · by_cases large : digits ≠ 0 ∧ !down
    · refine ⟨.error ⟨.numberTooLarge, left.length⟩, fun after _ => ?_, by simp⟩
      simp [places, stopped, large, leaving, Fault.before, Fault.ahead]
    · refine ⟨.ok (.real ⟨negative, 0⟩), fun after ends => ?_, by simp⟩
      simp only [places, stopped, if_neg large, (span_append hl ends.endsDigits).2]
      rfl

theorem counts_exponent (negative : Bool) (digits : Nat) (e : Int) (x : Exponent) :
    Counts (exponent negative digits e) (x.sign ++ x.places.bytes) := by
  obtain ⟨-, -, sign, signed, ⟨_ | ⟨first, bytes⟩, nonempty, hd⟩⟩ := x
  · exact absurd rfl nonempty
  have digit : isDigit first = true := hd first (by simp)
  have others : ∀ byte ∈ bytes, isDigit byte = true := fun b hb => hd b (List.mem_cons_of_mem _ hb)
  rcases signed with rfl | rfl | rfl
  · have plus : first ≠ 0x2b := by
      rintro rfl
      cases digit
    have minus : first ≠ 0x2d := by
      rintro rfl
      cases digit
    refine (counts_places negative digits e false first others).of_eq fun after _ => ?_
    rcases taken : exponentDigits (digitOf first) (bytes ++ after) with ⟨value, left⟩ | left <;>
      simp [exponent, places, plus, minus, digit, taken]
  · refine (counts_places negative digits e false first others).of_eq fun after _ => ?_
    rcases taken : exponentDigits (digitOf first) (bytes ++ after) with ⟨value, left⟩ | left <;>
      simp [exponent, places, digit, taken]
  · refine (counts_places negative digits e true first others).of_eq fun after _ => ?_
    rcases taken : exponentDigits (digitOf first) (bytes ++ after) with ⟨value, left⟩ | left <;>
      simp [exponent, places, digit, taken]

theorem counts_tail (negative : Bool) (digits : Nat) (e : Int) (x : Option Exponent) :
    Counts (tail negative digits e) (Numeral.exponentText x) := by
  cases x with
  | none =>
    refine (counts_real negative digits e).of_eq fun after ends => ?_
    cases after with
    | nil => rfl
    | cons byte after =>
      have stop := ends byte rfl
      simp only [IsNumberByte, not_or] at stop
      simp [Numeral.exponentText, tail, stop]
  | some x =>
    refine (counts_exponent negative digits e x).of_eq fun after _ => ?_
    rcases x.either with letter | letter <;> simp [Numeral.exponentText, tail, letter]

theorem endsDigits_exponentText (x : Option Exponent) {after : Bytes} (ends : EndsNumber after) :
    EndsDigits (Numeral.exponentText x ++ after) := by
  cases x with
  | none => exact ends.endsDigits
  | some x =>
    intro byte hb
    obtain rfl : x.letter = byte := by simpa [Numeral.exponentText] using hb
    rcases x.either with letter | letter <;> rw [letter] <;> decide

theorem counts_fraction (negative : Bool) (digits : Nat) (e : Int) (d : Digits)
    (x : Option Exponent) :
    Counts (fraction negative digits e) (d.bytes ++ Numeral.exponentText x) := by
  obtain ⟨value, taken, left, read⟩ : ∃ value taken left,
      accumulate digits 0 d.bytes = (value, taken, left) := ⟨_, _, _, rfl⟩
  refine (counts_tail negative value (e - taken) x).of_eq fun after ends => ?_
  obtain ⟨inside, behind⟩ := span_append d.digits (endsDigits_exponentText x ends)
  simp [fraction, inside, behind, d.nonempty, read]

theorem counts_afterDigits (negative : Bool) (value : Nat) (dropped : Bytes) (f : Option Digits)
    (x : Option Exponent) :
    Counts (afterDigits negative value dropped)
      (Numeral.fractionText f ++ Numeral.exponentText x) := by
  cases f with
  | some d =>
    refine (counts_fraction negative value dropped.length d x).of_eq fun after _ => ?_
    simp [Numeral.fractionText, afterDigits]
  | none =>
    cases x with
    | some x =>
      refine (counts_exponent negative value dropped.length x).of_eq fun after _ => ?_
      rcases x.either with letter | letter <;>
        simp [Numeral.fractionText, Numeral.exponentText, afterDigits, letter]
    | none =>
      cases dropped with
      | nil =>
        refine ⟨.ok (whole negative value), fun after ends => ?_, by simp⟩
        exact afterDigits_whole negative value ends
      | cons digit dropped =>
        refine (counts_real negative value (digit :: dropped).length).of_eq fun after ends => ?_
        cases after with
        | nil => rfl
        | cons byte after =>
          have stop := ends byte rfl
          simp only [IsNumberByte, not_or] at stop
          simp [Numeral.fractionText, Numeral.exponentText, afterDigits, stop]

theorem endsDigits_afterWhole (f : Option Digits) (x : Option Exponent) {after : Bytes}
    (ends : EndsNumber after) :
    EndsDigits (Numeral.fractionText f ++ (Numeral.exponentText x ++ after)) := by
  cases f with
  | none => exact endsDigits_exponentText x ends
  | some d =>
    intro byte hb
    obtain rfl : 0x2e = byte := by simpa [Numeral.fractionText] using hb
    rfl

theorem counts_number (negative : Bool) (n : Numeral) : Counts (number negative) n.unsigned := by
  obtain ⟨-, whole, lead, f, x⟩ := n
  obtain ⟨_ | ⟨first, others⟩, nonempty, hd⟩ := whole
  · exact absurd rfl nonempty
  simp only [Numeral.unsigned]
  by_cases zero : first = 0x30
  · obtain rfl := zero
    obtain rfl : others = [] := by simpa using lead rfl
    refine (counts_afterDigits negative 0 [] f x).of_eq fun after ends => ?_
    have stop := endsDigits_afterWhole f x ends
    simp only [List.cons_append, List.nil_append, List.append_assoc]
    generalize Numeral.fractionText f ++ (Numeral.exponentText x ++ after) = rest at stop ⊢
    cases rest with
    | nil => rfl
    | cons byte rest => simp [number, stop byte rfl]
  · have digit : isDigit first = true := hd first (by simp)
    obtain ⟨value, taken, dropped, read⟩ : ∃ value taken dropped,
        accumulate 0 0 (first :: others) = (value, taken, dropped) := ⟨_, _, _, rfl⟩
    refine (counts_afterDigits negative value dropped f x).of_eq fun after ends => ?_
    have stop := endsDigits_afterWhole f x ends
    obtain ⟨inside, behind⟩ := span_append (fun b hb => hd b (List.mem_cons_of_mem _ hb)) stop
    simp [number, zero, digit, inside, behind, read]

end Scan

namespace Numeral

def reading (n : Numeral) : Except Fault Number := (Field.number n.text).map Prod.fst

theorem unsigned_eq_cons (n : Numeral) :
    ∃ first rest, n.unsigned = first :: rest ∧ Scan.isDigit first = true := by
  cases bytes : n.whole.bytes with
  | nil => exact absurd bytes n.whole.nonempty
  | cons first rest =>
    refine ⟨first, rest ++ (fractionText n.fraction ++ exponentText n.exponent), ?_, ?_⟩
    · rw [unsigned, bytes, List.cons_append]
    · exact n.whole.digits first (by simp [bytes])

theorem text_eq_cons (n : Numeral) : ∃ byte rest, n.text = byte :: rest ∧ IsNumberByte byte := by
  unfold text
  split
  · exact ⟨0x2d, n.unsigned, rfl, by decide⟩
  · obtain ⟨first, rest, start, digit⟩ := n.unsigned_eq_cons
    exact ⟨first, rest, start, .inl digit⟩

theorem counts (n : Numeral) : Counts Field.number n.text := by
  apply (Scan.counts_number n.negative n).of_eq
  intro after _
  rw [text]
  cases n.negative with
  | true => exact Field.number_of_minus _
  | false =>
    obtain ⟨first, rest, start, digit⟩ := n.unsigned_eq_cons
    rw [if_neg (by decide), start]
    exact Field.number_of_isDigit digit

theorem settles (n : Numeral) : Settles Field.number n.text n.reading := by
  obtain ⟨outcome, settles, -⟩ := n.counts
  rw [reading, settles.eq]
  exact settles

def value? (n : Numeral) : Option Number := n.reading.toOption

theorem cause_of_reading {n : Numeral} {fault : Fault} (h : n.reading = .error fault) :
    fault.cause = .numberTooLarge := by
  obtain ⟨outcome, settles, cause⟩ := n.counts
  rw [reading, settles.eq] at h
  exact cause fault h

end Numeral

theorem Spells.start {t : Term} {bytes : Bytes} (h : Spells (.value t) bytes) :
    ∃ byte rest, bytes = byte :: rest ∧ Scan.isBlank byte = false ∧ byte ≠ 0x5d ∧ byte ≠ 0x2c := by
  cases h with
  | number n =>
    obtain ⟨byte, rest, start, number⟩ := n.text_eq_cons
    refine ⟨byte, rest, start, number.not_separator.1, ?_, number.not_separator.2.1⟩
    rintro rfl
    exact absurd number (by decide)
  | _ => exact ⟨_, _, rfl, by decide, by decide, by decide⟩

theorem Scan.colon_spelled {blanks : Bytes} (h : Blanks blanks) (rest : Bytes) :
    colon (blanks ++ 0x3a :: rest) = .ok rest := by
  rw [colon, skipBlank_append_cons h (by decide)]
  rfl

namespace Skip

theorem text_visible {bytes : Bytes} (rest : Bytes)
    (h : ∀ byte ∈ bytes, byte ≠ 0x22 ∧ byte ≠ 0x5c ∧ ¬byte < 0x20) :
    text .plain (bytes ++ rest) = text .plain rest := by
  induction bytes with
  | nil => rfl
  | cons byte bytes ih =>
    obtain ⟨quote, backslash, control⟩ := h byte (by simp)
    rw [List.cons_append, text, if_neg quote, if_neg backslash, if_neg control,
      ih fun b hb => h b (List.mem_cons_of_mem _ hb)]

theorem text_spelledChar {c : Char} {bytes : Bytes} (h : SpellsChar c bytes) (rest : Bytes) :
    text .plain (bytes ++ rest) = text .plain rest := by
  have unit : ∀ {n : Nat} {digits : Bytes} (_ : SpellsUnit n digits) (rest : Bytes),
      text (.hex 0 true) (digits ++ rest) = text .plain rest := by
    intro n digits h rest
    obtain ⟨ha, hb, hc, hd⟩ := h
    simp [text, ha, hb, hc, hd]
  cases h with
  | plain quote backslash visible =>
    exact text_visible rest (visible_of_mem_utf8EncodeChar quote backslash visible)
  | @letter byte value h =>
    have other : byte ≠ 0x75 := by
      rintro rfl
      cases h
    simp [text, other, h]
  | digits h lead trail => simp [text, unit h]
  | pair h lead h' trail => simp [text, unit h, unit h']

theorem text_spelled {cs : List Char} {bytes : Bytes} (h : SpellsChars cs bytes) (rest : Bytes) :
    text .plain (bytes ++ 0x22 :: rest) = .ok rest := by
  induction h with
  | nil => simp [text]
  | cons h _ ih => rw [List.append_assoc, text_spelledChar h, ih]

theorem exponent_spelled (x : Exponent) {after : Bytes} (ends : Scan.EndsDigits after) :
    exponent (x.sign ++ (x.places.bytes ++ after)) = .ok after := by
  obtain ⟨-, -, sign, signed, ⟨_ | ⟨first, bytes⟩, nonempty, hd⟩⟩ := x
  · exact absurd rfl nonempty
  have digit : Scan.isDigit first = true := hd first (by simp)
  obtain ⟨-, behind⟩ := Scan.span_append (fun b hb => hd b (List.mem_cons_of_mem _ hb)) ends
  rcases signed with rfl | rfl | rfl
  · have plus : first ≠ 0x2b := by
      rintro rfl
      cases digit
    have minus : first ≠ 0x2d := by
      rintro rfl
      cases digit
    simp [exponent, plus, minus, digit, behind]
  · simp [exponent, digit, behind]
  · simp [exponent, digit, behind]

theorem tail_spelled (x : Option Exponent) {after : Bytes} (ends : Scan.EndsNumber after) :
    tail (Numeral.exponentText x ++ after) = .ok after := by
  cases x with
  | some x =>
    have read := exponent_spelled x ends.endsDigits
    rcases x.either with letter | letter <;> simp [Numeral.exponentText, tail, letter, read]
  | none =>
    cases after with
    | nil => rfl
    | cons byte after =>
      have stop := ends byte rfl
      simp only [IsNumberByte, not_or] at stop
      simp [Numeral.exponentText, tail, stop]

theorem afterDigits_spelled (f : Option Digits) (x : Option Exponent) {after : Bytes}
    (ends : Scan.EndsNumber after) :
    afterDigits (Numeral.fractionText f ++ (Numeral.exponentText x ++ after)) = .ok after := by
  have read := tail_spelled x ends
  cases f with
  | some d =>
    obtain ⟨inside, behind⟩ := Scan.span_append d.digits (Scan.endsDigits_exponentText x ends)
    simp [Numeral.fractionText, afterDigits, inside, behind, d.nonempty, read]
  | none =>
    cases x with
    | some x =>
      rcases x.either with letter | letter <;>
        simpa [Numeral.fractionText, Numeral.exponentText, afterDigits, letter] using read
    | none =>
      cases after with
      | nil => rfl
      | cons byte after =>
        have stop := ends byte rfl
        simp only [IsNumberByte, not_or] at stop
        simp [Numeral.fractionText, Numeral.exponentText, afterDigits, tail, stop]

theorem number_spelled (n : Numeral) {after : Bytes} (ends : Scan.EndsNumber after) :
    number (n.unsigned ++ after) = .ok after := by
  obtain ⟨-, whole, lead, f, x⟩ := n
  obtain ⟨_ | ⟨first, others⟩, nonempty, hd⟩ := whole
  · exact absurd rfl nonempty
  have stop := Scan.endsDigits_afterWhole f x ends
  have read := afterDigits_spelled f x ends
  simp only [Numeral.unsigned, List.append_assoc]
  by_cases zero : first = 0x30
  · obtain rfl := zero
    obtain rfl : others = [] := by simpa using lead rfl
    generalize Numeral.fractionText f ++ (Numeral.exponentText x ++ after) = rest at stop read ⊢
    cases rest with
    | nil => exact read
    | cons byte rest => simp [number, stop byte rfl, read]
  · have digit : Scan.isDigit first = true := hd first (by simp)
    obtain ⟨-, behind⟩ := Scan.span_append (fun b hb => hd b (List.mem_cons_of_mem _ hb)) stop
    simp [number, zero, digit, behind, read]

def resume (rounds : Nat) : Except Fault Next → Except Fault Bytes
  | .error fault => .error fault
  | .ok (.done rest) => .ok rest
  | .ok (.value frames rest) => loop rounds frames rest

theorem loop_succ (rounds : Nat) (frames : List Frame) (input : Bytes) :
    loop (rounds + 1) frames input = resume rounds (step frames input) := by
  rw [loop]
  rcases step frames input with fault | ⟨_ | _⟩ <;> rfl

theorem key_spelled {blanks before key : Bytes} {cs : List Char} (hb : Blanks blanks)
    (hk : SpellsChars cs key) (hb' : Blanks before) (rest : Bytes) :
    Skip.key (blanks ++ 0x22 :: (key ++ 0x22 :: (before ++ 0x3a :: rest))) = .ok rest := by
  rw [Skip.key, skipBlank_append_cons hb (by decide)]
  simp [text_spelled hk, Scan.colon_spelled hb']

def beforeNext (first : Bool) (frame : Frame) (frames : List Frame) (input : Bytes) :
    Except Fault Next :=
  if first then afterOpen frame frames input else afterValue (frame :: frames) input

theorem beforeNext_item {first : Bool} {gap : Bytes} (hg : Gap first gap) (frames : List Frame)
    {byte : UInt8} (blank : Scan.isBlank byte = false) (closing : byte ≠ 0x5d) (rest : Bytes) :
    ∃ blanks, Blanks blanks ∧ beforeNext first .list frames (gap ++ byte :: rest) =
      .ok (.value (.list :: frames) (blanks ++ byte :: rest)) := by
  cases hg with
  | first h =>
    refine ⟨[], blanks_nil, ?_⟩
    simp [beforeNext, afterOpen, skipBlank_append_cons h blank, closing, enter]
  | next h h' =>
    refine ⟨_, h', ?_⟩
    rw [beforeNext, if_neg (by decide), List.append_assoc, List.cons_append, afterValue,
      skipBlank_append_cons h (by decide)]
    rfl

theorem beforeNext_member {first : Bool} {gap key before : Bytes} {cs : List Char}
    (hg : Gap first gap) (hk : SpellsChars cs key) (hb : Blanks before) (frames : List Frame)
    (rest : Bytes) :
    beforeNext first .record frames (gap ++ 0x22 :: (key ++ 0x22 :: (before ++ 0x3a :: rest))) =
      .ok (.value (.record :: frames) rest) := by
  cases hg with
  | first h =>
    have read := key_spelled blanks_nil hk hb rest
    rw [beforeNext, if_pos rfl, afterOpen, skipBlank_append_cons h (by decide)]
    simp only [List.nil_append] at read
    simp [enter, read]
  | next h h' =>
    rw [beforeNext, if_neg (by decide), List.append_assoc, List.cons_append, afterValue,
      skipBlank_append_cons h (by decide)]
    simp [enter, key_spelled h' hk hb]

/-- What is spelled is passed over, in no more rounds than it has bytes. -/
def Passes : Part → Bytes → Prop
  | .value _, bytes => ∀ frames rounds blanks after, Blanks blanks → Scan.EndsNumber after →
      bytes.length ≤ rounds → ∃ left, rounds ≤ left + bytes.length ∧
        loop rounds frames (blanks ++ (bytes ++ after)) = resume left (afterValue frames after)
  | .items first items, bytes => ∀ frames rounds after, Scan.EndsNumber after →
      bytes.length ≤ rounds → ∃ left, rounds ≤ left + bytes.length ∧
        resume rounds (beforeNext first .list frames (bytes ++ after)) =
          resume left (beforeNext (first && items.isEmpty) .list frames after)
  | .members first members, bytes => ∀ frames rounds after, Scan.EndsNumber after →
      bytes.length ≤ rounds → ∃ left, rounds ≤ left + bytes.length ∧
        resume rounds (beforeNext first .record frames (bytes ++ after)) =
          resume left (beforeNext (first && members.isEmpty) .record frames after)

theorem loop_step {rounds : Nat} {bytes : Bytes} (enough : (byte :: bytes).length ≤ rounds)
    {blanks : Bytes} (hb : Blanks blanks) (frames : List Frame) (rest : Bytes) :
    ∃ left, rounds = left + 1 ∧
      loop rounds frames (blanks ++ rest) = resume left (step frames rest) := by
  obtain ⟨left, rfl⟩ := Nat.exists_eq_succ_of_ne_zero (Nat.ne_zero_of_lt enough)
  refine ⟨left, rfl, ?_⟩
  rw [loop_succ, step, step, skipBlank_append hb]

theorem step_number (n : Numeral) (frames : List Frame) {after : Bytes}
    (ends : Scan.EndsNumber after) : step frames (n.text ++ after) = afterValue frames after := by
  have read := number_spelled n ends
  rw [Numeral.text]
  cases n.negative with
  | true =>
    rw [if_pos rfl, List.cons_append, step, skipBlank_cons (by decide)]
    simp [read, closing]
  | false =>
    obtain ⟨first, rest, start, digit⟩ := n.unsigned_eq_cons
    have ne : ∀ other, Scan.isDigit other = false → first ≠ other := by
      rintro other ho rfl
      exact absurd digit (by simp [ho])
    rw [start] at read
    rw [if_neg (by decide), start, List.cons_append, step,
      skipBlank_cons (IsNumberByte.not_separator (.inl digit)).1]
    simp only [if_neg (ne 0x6e (by decide)), if_neg (ne 0x74 (by decide)),
      if_neg (ne 0x66 (by decide)), if_neg (ne 0x2d (by decide)), digit, if_true]
    rw [← List.cons_append, read]
    rfl

theorem Passes.scalar {t : Term} {byte : UInt8} {bytes : Bytes}
    (h : ∀ frames after, Scan.EndsNumber after →
      step frames (byte :: (bytes ++ after)) = afterValue frames after) :
    Passes (.value t) (byte :: bytes) := by
  intro frames rounds blanks after hb ends enough
  obtain ⟨left, rfl, run⟩ := loop_step enough hb frames (byte :: bytes ++ after)
  refine ⟨left, by simp, ?_⟩
  rw [run, List.cons_append, h frames after ends]

theorem Passes.bracketed {t : Term} {frame : Frame} {opening closing : UInt8}
    {inside blanks : Bytes} {empty : Bool} (hb : Blanks blanks)
    (hc : closing = if frame = .list then 0x5d else 0x7d)
    (opens : ∀ frames rest, step frames (opening :: rest) = afterOpen frame frames rest)
    (h : ∀ frames rounds after, Scan.EndsNumber after → inside.length ≤ rounds →
      ∃ left, rounds ≤ left + inside.length ∧
        resume rounds (beforeNext true frame frames (inside ++ after)) =
          resume left (beforeNext empty frame frames after)) :
    Passes (.value t) (opening :: (inside ++ (blanks ++ [closing]))) := by
  intro frames rounds blanks' after hb' ends enough
  have plain : ¬IsNumberByte closing ∧ Scan.isBlank closing = false ∧ closing ≠ 0x2c := by
    rw [hc]
    cases frame <;> decide
  have closed : beforeNext empty frame frames (blanks ++ closing :: after) =
      afterValue frames after := by
    unfold beforeNext
    split
    · rw [afterOpen, skipBlank_append_cons hb plain.2.1]
      simp only [if_pos hc]
    · rw [afterValue, skipBlank_append_cons hb plain.2.1]
      simp only [if_neg plain.2.2, if_pos hc]
  obtain ⟨left, rfl, run⟩ := loop_step enough hb' frames
    (opening :: (inside ++ (blanks ++ [closing])) ++ after)
  simp only [List.length_cons, List.length_append, List.length_nil] at enough
  obtain ⟨left', fewer, through⟩ := h frames left (blanks ++ closing :: after)
    (hb.endsNumber (Scan.endsNumber_cons plain.1)) (by omega)
  refine ⟨left', by simp; omega, ?_⟩
  rw [run, ← closed, ← through]
  simp [opens, beforeNext]

theorem passes {part : Part} {bytes : Bytes} (h : Spells part bytes) : Passes part bytes := by
  induction h with
  | null => exact .scalar fun frames after _ => rfl
  | yes => exact .scalar fun frames after _ => rfl
  | no => exact .scalar fun frames after _ => rfl
  | number n =>
    intro frames rounds blanks after hb ends enough
    obtain ⟨byte, tail, start, -⟩ := n.text_eq_cons
    rw [start] at enough ⊢
    obtain ⟨left, rfl, run⟩ := loop_step enough hb frames (byte :: tail ++ after)
    refine ⟨left, by simp, ?_⟩
    rw [run, ← start, step_number n frames ends]
  | text h =>
    refine .scalar fun frames after _ => ?_
    rw [step, skipBlank_cons (by decide)]
    simp [text_spelled h, closing, show Scan.isDigit 0x22 = false from rfl]
  | list h hb ih => exact .bracketed hb rfl (fun _ _ => rfl) ih
  | record h hb ih => exact .bracketed hb rfl (fun _ _ => rfl) ih
  | noItem first =>
    intro frames rounds after _ _
    exact ⟨rounds, by simp, by simp⟩
  | @item first gap bytes bytes' t items hg h others ihv iho =>
    intro frames rounds after ends enough
    simp only [List.length_append] at enough
    obtain ⟨byte, tail, rfl, blank, closing, -⟩ := h.start
    obtain ⟨blanks, hb, opened⟩ :=
      beforeNext_item hg frames blank closing (tail ++ (bytes' ++ after))
    obtain ⟨left, fewer, value⟩ := ihv (.list :: frames) rounds blanks (bytes' ++ after) hb
      (others.endsNumber_items ends) (by omega)
    obtain ⟨left', fewer', rest⟩ := iho frames left after ends (by omega)
    refine ⟨left', by simp at fewer ⊢; omega, ?_⟩
    simp only [List.append_assoc, List.cons_append]
    rw [opened, List.isEmpty_cons, Bool.and_false]
    exact value.trans rest
  | noMember first =>
    intro frames rounds after _ _
    exact ⟨rounds, by simp, by simp⟩
  | @member first gap key before blanks bytes bytes' name t members hg hk hb ha h others ihv iho =>
    intro frames rounds after ends enough
    simp only [List.length_append, List.length_cons] at enough
    obtain ⟨left, fewer, value⟩ := ihv (.record :: frames) rounds blanks (bytes' ++ after) ha
      (others.endsNumber_members ends) (by omega)
    obtain ⟨left', fewer', rest⟩ := iho frames left after ends (by omega)
    refine ⟨left', by simp; omega, ?_⟩
    simp only [List.append_assoc, List.cons_append]
    rw [beforeNext_member hg hk hb, List.isEmpty_cons, Bool.and_false]
    exact value.trans rest

theorem value_spelled {t : Term} {bytes blanks : Bytes} (h : Spells (.value t) bytes)
    (hb : Blanks blanks) {after : Bytes} (ends : Scan.EndsNumber after) :
    value (blanks ++ (bytes ++ after)) = .ok after := by
  obtain ⟨left, -, through⟩ := passes h [] ((blanks ++ (bytes ++ after)).length + 1) blanks after hb
    ends (by simp; omega)
  exact through

end Skip

end AccountVault.Json
