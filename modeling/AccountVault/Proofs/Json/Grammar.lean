import Mathlib
import AccountVault.Json.Field
import AccountVault.Proofs.Json.Numbers

/-!
# The grammar of JSON texts

A term is what a JSON text says, with the members of a record in their order and repeated names
kept, and with numbers as they are written. A term has many texts: blanks may stand around each
separator, and a character may be written as itself, by a letter, or by hexadecimal digits. Which
texts these are is said here, apart from every reader of them.
-/

namespace AccountVault.Json

inductive SpellsUnit : Nat → Bytes → Prop
  | mk {a b c d : UInt8} {w x y z : Nat} (ha : Scan.hexValue? a = some w)
      (hb : Scan.hexValue? b = some x) (hc : Scan.hexValue? c = some y)
      (hd : Scan.hexValue? d = some z) :
    SpellsUnit (16 * (16 * (16 * w + x) + y) + z) [a, b, c, d]

/-- The ways to write a character inside a text. -/
inductive SpellsChar : Char → Bytes → Prop
  | plain {c : Char} (quote : c.toNat ≠ 0x22) (backslash : c.toNat ≠ 0x5c)
      (visible : 0x20 ≤ c.toNat) : SpellsChar c (String.utf8EncodeChar c)
  | letter {byte value : UInt8} (h : Scan.simpleEscape? byte = some value) :
    SpellsChar (Char.ofNat value.toNat) [0x5c, byte]
  | digits {n : Nat} {digits : Bytes} (h : SpellsUnit n digits) (lead : Scan.isLead n = false)
      (trail : Scan.isTrail n = false) : SpellsChar (Char.ofNat n) (0x5c :: 0x75 :: digits)
  | pair {high low : Nat} {digits digits' : Bytes} (h : SpellsUnit high digits)
      (lead : Scan.isLead high = true) (h' : SpellsUnit low digits')
      (trail : Scan.isTrail low = true) :
    SpellsChar (Char.ofNat (0x10000 + (high - 0xd800) * 0x400 + (low - 0xdc00)))
      (0x5c :: 0x75 :: (digits ++ 0x5c :: 0x75 :: digits'))

inductive SpellsChars : List Char → Bytes → Prop
  | nil : SpellsChars [] []
  | cons {c : Char} {cs : List Char} {bytes bytes' : Bytes} (h : SpellsChar c bytes)
      (others : SpellsChars cs bytes') : SpellsChars (c :: cs) (bytes ++ bytes')

theorem visible_of_mem_utf8EncodeChar {c : Char} (quote : c.toNat ≠ 0x22)
    (backslash : c.toNat ≠ 0x5c) (visible : 0x20 ≤ c.toNat) :
    ∀ byte ∈ String.utf8EncodeChar c, byte ≠ 0x22 ∧ byte ≠ 0x5c ∧ ¬byte < 0x20 := by
  intro byte hb
  have source := toNat_of_mem_utf8EncodeChar hb
  refine ⟨?_, ?_, ?_⟩
  · rintro rfl
    rcases source with same | above
    · exact quote same.symm
    · exact absurd above (by decide)
  · rintro rfl
    rcases source with same | above
    · exact backslash same.symm
    · exact absurd above (by decide)
  · rw [UInt8.lt_iff_toNat_lt, show (0x20 : UInt8).toNat = 0x20 from rfl]
    omega

namespace Scan

theorem textBytes_unit {n : Nat} {digits : Bytes} (h : SpellsUnit n digits) (lead : Option Nat)
    (seen rest : Bytes) :
    textBytes (.hex lead 0 (some 0)) seen (digits ++ rest) =
      match hexMeaning lead (some n) with
      | .ok (.inl bytes) => textBytes .plain (bytes.reverse ++ seen) rest
      | .ok (.inr high) => textBytes (.pairEscape high) seen rest
      | .error cause => .error (.before cause rest) := by
  obtain ⟨ha, hb, hc, hd⟩ := h
  rcases meaning : hexMeaning lead (some _) with cause | (bytes | high) <;>
    simp [textBytes, ha, hb, hc, hd, meaning]

theorem simpleEscape?_lt {byte value : UInt8} (h : simpleEscape? byte = some value) :
    value.toNat < 0x80 := by
  unfold simpleEscape? at h
  split_ifs at h with self <;> obtain rfl := Option.some.inj h
  · simp only [Bool.or_eq_true, decide_eq_true_eq] at self
    rcases self with (rfl | rfl) | rfl <;> decide
  all_goals decide

theorem codePoint_of_lt {n : Nat} (h : n < 0x80) : codePoint n = [UInt8.ofNat n] := by
  have valid : n.isValidChar := Or.inl (by omega)
  have value : (Char.ofNat n).val.toNat = n := (Char.toNat_ofNat n).trans (if_pos valid)
  rw [codePoint, String.utf8EncodeChar, value, if_pos (by omega)]

theorem textBytes_spelled {c : Char} {bytes : Bytes} (h : SpellsChar c bytes) (seen rest : Bytes) :
    textBytes .plain seen (bytes ++ rest) =
      textBytes .plain ((String.utf8EncodeChar c).reverse ++ seen) rest := by
  cases h with
  | plain quote backslash visible =>
    exact textBytes_append seen rest (visible_of_mem_utf8EncodeChar quote backslash visible)
  | @letter byte value h =>
    have code := codePoint_of_lt (simpleEscape?_lt h)
    have other : byte ≠ 0x75 := by
      rintro rfl
      cases h
    rw [codePoint] at code
    simp [code, textBytes, other, h]
  | digits h lead trail =>
    have meaning := textBytes_unit h none seen rest
    simp [hexMeaning, lead, trail] at meaning
    simpa [textBytes, codePoint] using meaning
  | @pair high low digits digits' h lead h' trail =>
    have single : isTrail high = false := by
      simp only [isLead, isTrail, Bool.and_eq_true, decide_eq_true_eq] at lead ⊢
      simp; omega
    have first := textBytes_unit h none seen (0x5c :: 0x75 :: (digits' ++ rest))
    have second := textBytes_unit h' (some high) seen rest
    simp only [hexMeaning, single, lead, trail] at first second
    simp [textBytes, codePoint] at first second ⊢
    rw [first, second]

theorem textBytes_chars {cs : List Char} {bytes : Bytes} (h : SpellsChars cs bytes)
    (seen rest : Bytes) :
    textBytes .plain seen (bytes ++ 0x22 :: rest) =
      .ok (seen.reverse ++ cs.flatMap String.utf8EncodeChar, rest) := by
  induction h generalizing seen with
  | nil => simp [textBytes]
  | cons h _ ih =>
    rw [List.append_assoc, textBytes_spelled h, ih]
    simp

theorem text_spelled {s : String} {bytes : Bytes} (h : SpellsChars s.toList bytes) (rest : Bytes) :
    text (bytes ++ 0x22 :: rest) = .ok (s, rest) := by
  rw [text, textBytes_chars h]
  simp only [List.reverse_nil, List.nil_append]
  rw [← Utf8.encode_eq_flatMap, Utf8.decode?_encode]

end Scan

theorem spellsChars_visible {cs : List Char}
    (h : ∀ c ∈ cs, c.toNat ≠ 0x22 ∧ c.toNat ≠ 0x5c ∧ 0x20 ≤ c.toNat) :
    SpellsChars cs (cs.flatMap String.utf8EncodeChar) := by
  induction cs with
  | nil => exact .nil
  | cons c cs ih =>
    obtain ⟨quote, backslash, visible⟩ := h c (by simp)
    exact .cons (.plain quote backslash visible) (ih fun b hb => h b (List.mem_cons_of_mem _ hb))

structure Digits where
  bytes : Bytes
  nonempty : bytes ≠ []
  digits : ∀ byte ∈ bytes, Scan.isDigit byte = true

structure Exponent where
  letter : UInt8
  either : letter = 0x65 ∨ letter = 0x45
  sign : Bytes
  signed : sign = [] ∨ sign = [0x2b] ∨ sign = [0x2d]
  places : Digits

/-- A number as it is written. Its digits begin with a zero only if there is no other. -/
structure Numeral where
  negative : Bool
  whole : Digits
  lead : whole.bytes.head? = some 0x30 → whole.bytes = [0x30]
  fraction : Option Digits
  exponent : Option Exponent

namespace Numeral

def fractionText : Option Digits → Bytes
  | none => []
  | some places => 0x2e :: places.bytes

def exponentText : Option Exponent → Bytes
  | none => []
  | some e => e.letter :: (e.sign ++ e.places.bytes)

def unsigned (n : Numeral) : Bytes :=
  n.whole.bytes ++ (fractionText n.fraction ++ exponentText n.exponent)

def text (n : Numeral) : Bytes := if n.negative then 0x2d :: n.unsigned else n.unsigned

end Numeral

inductive Term where
  | null
  | boolean (value : Bool)
  | number (numeral : Numeral)
  | text (value : String)
  | list (items : List Term)
  | record (members : List (String × Term))

/-- What a stretch of a JSON text spells: a term, or the items of a list or the members of a record
between their brackets, which may stand at the beginning or behind others. -/
inductive Part where
  | value (term : Term)
  | items (first : Bool) (items : List Term)
  | members (first : Bool) (members : List (String × Term))

def Blanks (bytes : Bytes) : Prop := ∀ byte ∈ bytes, Scan.isBlank byte = true

theorem blanks_nil : Blanks [] := by simp [Blanks]

inductive Gap : (first : Bool) → Bytes → Prop
  | first {blanks : Bytes} (h : Blanks blanks) : Gap true blanks
  | next {before after : Bytes} (h : Blanks before) (h' : Blanks after) :
    Gap false (before ++ 0x2c :: after)

inductive Spells : Part → Bytes → Prop
  | null : Spells (.value .null) [0x6e, 0x75, 0x6c, 0x6c]
  | yes : Spells (.value (.boolean true)) [0x74, 0x72, 0x75, 0x65]
  | no : Spells (.value (.boolean false)) [0x66, 0x61, 0x6c, 0x73, 0x65]
  | number (n : Numeral) : Spells (.value (.number n)) n.text
  | text {s : String} {bytes : Bytes} (h : SpellsChars s.toList bytes) :
    Spells (.value (.text s)) (0x22 :: (bytes ++ [0x22]))
  | list {items : List Term} {bytes blanks : Bytes} (h : Spells (.items true items) bytes)
      (hb : Blanks blanks) : Spells (.value (.list items)) (0x5b :: (bytes ++ (blanks ++ [0x5d])))
  | record {members : List (String × Term)} {bytes blanks : Bytes}
      (h : Spells (.members true members) bytes) (hb : Blanks blanks) :
    Spells (.value (.record members)) (0x7b :: (bytes ++ (blanks ++ [0x7d])))
  | noItem (first : Bool) : Spells (.items first []) []
  | item {first : Bool} {gap bytes bytes' : Bytes} {t : Term} {items : List Term}
      (hg : Gap first gap) (h : Spells (.value t) bytes)
      (others : Spells (.items false items) bytes') :
    Spells (.items first (t :: items)) (gap ++ (bytes ++ bytes'))
  | noMember (first : Bool) : Spells (.members first []) []
  | member {first : Bool} {gap key before after bytes bytes' : Bytes} {name : String} {t : Term}
      {members : List (String × Term)} (hg : Gap first gap) (hk : SpellsChars name.toList key)
      (hb : Blanks before) (ha : Blanks after) (h : Spells (.value t) bytes)
      (others : Spells (.members false members) bytes') :
    Spells (.members first ((name, t) :: members))
      (gap ++ 0x22 :: (key ++ 0x22 :: (before ++ 0x3a :: (after ++ (bytes ++ bytes')))))

theorem skipBlank_append {blanks : Bytes} (h : Blanks blanks) (rest : Bytes) :
    Scan.skipBlank (blanks ++ rest) = Scan.skipBlank rest :=
  List.dropWhile_append_of_pos h

theorem skipBlank_append_cons {blanks : Bytes} (h : Blanks blanks) {byte : UInt8}
    (other : Scan.isBlank byte = false) (rest : Bytes) :
    Scan.skipBlank (blanks ++ byte :: rest) = byte :: rest := by
  rw [skipBlank_append h, skipBlank_cons other]

theorem not_isNumberByte_of_isBlank {byte : UInt8} (h : Scan.isBlank byte = true) :
    ¬IsNumberByte byte := fun other => by
  rw [other.not_separator.1] at h
  cases h

theorem Blanks.endsNumber {blanks : Bytes} (h : Blanks blanks) {rest : Bytes}
    (ends : Scan.EndsNumber rest) : Scan.EndsNumber (blanks ++ rest) := by
  cases blanks with
  | nil => exact ends
  | cons byte blanks => exact Scan.endsNumber_cons (not_isNumberByte_of_isBlank (h byte (by simp)))

theorem Gap.endsNumber {gap : Bytes} (h : Gap false gap) (rest : Bytes) :
    Scan.EndsNumber (gap ++ rest) := by
  cases h with
  | next hb _ =>
    rw [List.append_assoc]
    exact hb.endsNumber (Scan.endsNumber_cons (by decide))

theorem Spells.endsNumber_items {items : List Term} {bytes : Bytes}
    (h : Spells (.items false items) bytes) {rest : Bytes} (ends : Scan.EndsNumber rest) :
    Scan.EndsNumber (bytes ++ rest) := by
  cases h with
  | noItem => exact ends
  | item hg _ _ =>
    rw [List.append_assoc]
    exact hg.endsNumber _

theorem Spells.endsNumber_members {members : List (String × Term)} {bytes : Bytes}
    (h : Spells (.members false members) bytes) {rest : Bytes} (ends : Scan.EndsNumber rest) :
    Scan.EndsNumber (bytes ++ rest) := by
  cases h with
  | noMember => exact ends
  | member hg _ _ _ _ _ =>
    rw [List.append_assoc]
    exact hg.endsNumber _

end AccountVault.Json
