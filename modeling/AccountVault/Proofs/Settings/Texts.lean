import Mathlib
import AccountVault.Settings

/-!
# What the texts of settings denote

The value of a setting is a text, and three kinds of texts have a meaning: a number, which is a word
for yes or no or a decimal with an optional plus sign and any zeros in front; a text that counts
without the blanks at its ends; and a base path, which is looked at where it begins and ends. Each
is said here apart from the functions that read it.
-/

namespace AccountVault

namespace Blank

def AllBlank (text : String) : Prop := ∀ c ∈ text.toList, isBlank c = true

theorem trimChars_eq_nil_iff {text : List Char} :
    trimChars text = [] ↔ ∀ c ∈ text, isBlank c = true := by
  rw [trimChars, List.reverse_eq_nil_iff, List.dropWhile_eq_nil_iff]
  constructor
  · intro rest
    rw [← List.dropWhile_eq_nil_iff]
    by_contra filled
    -- What is left begins with a character that is no blank.
    have first := List.dropWhile_get_zero_not isBlank text (List.length_pos_of_ne_nil filled)
    exact first (rest _ (List.mem_reverse.2 (List.get_mem _ _)))
  · intro all c mem
    exact all c ((List.dropWhile_sublist _).mem (List.mem_reverse.1 mem))

theorem trimChars_trimChars (text : List Char) : trimChars (trimChars text) = trimChars text := by
  obtain ⟨rest, same⟩ : ∃ rest, rest = text.dropWhile isBlank := ⟨_, rfl⟩
  have starts : (rest.reverse.dropWhile isBlank).reverse.dropWhile isBlank =
      (rest.reverse.dropWhile isBlank).reverse := by
    have inside : (rest.reverse.dropWhile isBlank).reverse <+: rest := by
      simpa using List.reverse_prefix.2 (List.dropWhile_suffix (l := rest.reverse) isBlank)
    rw [List.dropWhile_eq_self_iff]
    intro filled
    have first := List.dropWhile_eq_self_iff.1 (show rest.dropWhile isBlank = rest by
      rw [same, List.dropWhile_idempotent]) (by have := inside.length_le; omega)
    rwa [inside.getElem]
  rw [trimChars, trimChars, ← same, starts, List.reverse_reverse, List.dropWhile_idempotent]

theorem trim_trim (text : String) : trim (trim text) = trim text := by
  rw [trim, trim, String.toList_ofList, trimChars_trimChars]

theorem filled?_eq_none_iff {text : String} : filled? text = none ↔ AllBlank text := by
  rw [AllBlank, ← trimChars_eq_nil_iff]
  simp [filled?, trim]

theorem filled?_eq_some_iff {text value : String} :
    filled? text = some value ↔ ¬AllBlank text ∧ value = trim text := by
  rw [← filled?_eq_none_iff]
  unfold filled?
  dsimp only
  split_ifs with empty
  · simp
  · simp [eq_comm]

end Blank

namespace Settings

def IsYes (text : String) : Prop := text.map Char.toLower ∈ ["true", "on", "yes"]

def IsNo (text : String) : Prop := text.map Char.toLower ∈ ["false", "off", "no"]

instance (text : String) : Decidable (IsYes text) :=
  inferInstanceAs (Decidable (text.map Char.toLower ∈ ["true", "on", "yes"]))

instance (text : String) : Decidable (IsNo text) :=
  inferInstanceAs (Decidable (text.map Char.toLower ∈ ["false", "off", "no"]))

/-- An optional plus sign, any zeros and the digits of a number of sixty-four bits. -/
def IsDecimal (text : String) (n : Nat) : Prop :=
  n < 0x10000000000000000 ∧ ∃ (sign : List Char) (zeros : Nat), (sign = [] ∨ sign = ['+']) ∧
    text.toList = sign ++ (List.replicate zeros '0' ++ (toString n).toList)

inductive Converts (text : String) : Nat → Prop
  | yes (h : IsYes text) : Converts text 1
  | no (h : IsNo text) : Converts text 0
  | decimal {n : Nat} (h : IsDecimal text n) : Converts text n

theorem decimal_eq (digits : List Char) : decimal digits = Nat.ofDigitChars 10 digits 0 :=
  Nat.ofDigitChars_eq_foldl.symm

theorem digitChar_toNat_sub {c : Char} (digit : c.isDigit = true) :
    c.toNat - 48 < 10 ∧ (c.toNat - 48).digitChar = c := by
  obtain ⟨low, high⟩ : 48 ≤ c.toNat ∧ c.toNat ≤ 57 := Char.isDigit_iff_toNat.1 digit
  refine ⟨by omega, Char.toNat_inj.1 ?_⟩
  rw [Nat.toNat_digitChar_of_lt_ten (by omega)]
  omega

theorem eq_zeros_append {digits : List Char} (filled : digits ≠ [])
    (each : ∀ c ∈ digits, c.isDigit = true) :
    ∃ zeros, digits = List.replicate zeros '0' ++ Nat.toDigits 10 (decimal digits) := by
  induction digits using List.reverseRecOn with
  | nil => exact absurd rfl filled
  | append_singleton front c ih =>
    obtain ⟨small, digit⟩ := digitChar_toNat_sub (each c (by simp))
    have last : Nat.toDigits 10 (c.toNat - 48) = [c] := by
      rw [Nat.toDigits_of_lt_base small, digit]
    have value : decimal (front ++ [c]) = 10 * decimal front + (c.toNat - 48) := by
      simp [decimal]
    rw [value]
    by_cases bare : front = []
    · refine ⟨0, ?_⟩
      rw [bare, show decimal [] = 0 from rfl, Nat.mul_zero, Nat.zero_add, last]
      rfl
    · obtain ⟨zeros, same⟩ := ih bare fun d mem => each d (List.mem_append_left _ mem)
      rcases Nat.eq_zero_or_pos (decimal front) with zero | positive
      · -- The digits so far are all zeros.
        rw [zero, Nat.toDigits_zero] at same
        refine ⟨zeros + 1, ?_⟩
        rw [zero, Nat.mul_zero, Nat.zero_add, last, same, List.replicate_succ']
      · refine ⟨zeros, ?_⟩
        rw [← Nat.toDigits_append_toDigits (by decide) positive small, last, ← List.append_assoc,
          ← same]

theorem decimal_zeros_append (zeros n : Nat) :
    decimal (List.replicate zeros '0' ++ Nat.toDigits 10 n) = n := by
  rw [decimal_eq, Nat.ofDigitChars_append, Nat.ofDigitChars_replicate_zero, Nat.mul_zero,
    Nat.ofDigitChars_ten_toDigits]

theorem isDigit_of_mem_zeros_append {zeros n : Nat} {c : Char}
    (mem : c ∈ List.replicate zeros '0' ++ Nat.toDigits 10 n) : c.isDigit = true := by
  rcases List.mem_append.1 mem with zero | digit
  · rw [List.eq_of_mem_replicate zero]
    rfl
  · exact Nat.isDigit_of_mem_toDigits (by decide) (by decide) digit

def unsigned : List Char → List Char
  | '+' :: rest => rest
  | chars => chars

theorem unsigned_cases (text : List Char) :
    ∃ sign, (sign = [] ∨ sign = ['+']) ∧ text = sign ++ unsigned text := by
  unfold unsigned
  split
  · exact ⟨['+'], .inr rfl, rfl⟩
  · exact ⟨[], .inl rfl, rfl⟩

theorem unsigned_append {sign digits : List Char} (signed : sign = [] ∨ sign = ['+'])
    (filled : digits ≠ []) (each : ∀ c ∈ digits, c.isDigit = true) :
    unsigned (sign ++ digits) = digits := by
  rcases signed with rfl | rfl
  · cases digits with
    | nil => exact absurd rfl filled
    | cons c digits =>
      have plus : c ≠ '+' := by
        rintro rfl
        exact absurd (each '+' (by simp)) (by decide)
      simp [unsigned, plus]
  · rfl

theorem natural?_eq (text : String) : natural? text =
    if unsigned text.toList = [] ∨ ¬∀ c ∈ unsigned text.toList, c.isDigit = true then none
    else if decimal (unsigned text.toList) < 0x10000000000000000 then
      some (decimal (unsigned text.toList)) else none := by
  have same : natural? text = if (unsigned text.toList).isEmpty ||
      !(unsigned text.toList).all Char.isDigit then none
      else if decimal (unsigned text.toList) < 0x10000000000000000 then
        some (decimal (unsigned text.toList)) else none := rfl
  rw [same]
  simp

theorem natural?_eq_some_iff {text : String} {n : Nat} :
    natural? text = some n ↔ IsDecimal text n := by
  rw [natural?_eq, IsDecimal, Nat.toString_eq_repr, Nat.toList_repr]
  constructor
  · intro read
    split_ifs at read with unread fits
    obtain rfl := Option.some.inj read
    obtain ⟨filled, each⟩ := not_or.1 unread
    obtain ⟨sign, signed, whole⟩ := unsigned_cases text.toList
    obtain ⟨zeros, digits⟩ := eq_zeros_append filled (not_not.1 each)
    exact ⟨fits, sign, zeros, signed, by rw [← digits]; exact whole⟩
  · rintro ⟨fits, sign, zeros, signed, same⟩
    have filled : List.replicate zeros '0' ++ Nat.toDigits 10 n ≠ [] := by
      simp [Nat.toDigits_ne_nil]
    have each : ∀ c ∈ List.replicate zeros '0' ++ Nat.toDigits 10 n, c.isDigit = true :=
      fun c mem => isDigit_of_mem_zeros_append mem
    rw [same, unsigned_append signed filled each, decimal_zeros_append, if_neg, if_pos fits]
    rw [not_or, not_not]
    exact ⟨filled, each⟩

theorem toLower_of_isDigit {c : Char} (digit : c.isDigit = true) : c.toLower = c := by
  obtain ⟨-, high⟩ : 48 ≤ c.toNat ∧ c.toNat ≤ 57 := Char.isDigit_iff_toNat.1 digit
  rw [Char.toLower, dif_neg]
  rintro ⟨upper, -⟩
  exact absurd (UInt32.le_iff_toNat_le.1 upper) (by change ¬65 ≤ c.toNat; omega)

theorem IsDecimal.of_mem_map_toLower {text : String} {n : Nat} (h : IsDecimal text n) {c : Char}
    (mem : c ∈ (text.map Char.toLower).toList) : c = '+' ∨ c.isDigit = true := by
  obtain ⟨-, sign, zeros, signed, same⟩ := h
  rw [Nat.toString_eq_repr, Nat.toList_repr] at same
  rw [String.toList_map, same] at mem
  obtain ⟨d, inside, rfl⟩ := List.mem_map.1 mem
  rcases List.mem_append.1 inside with front | back
  · rcases signed with rfl | rfl
    · cases front
    · rw [List.mem_singleton.1 front]
      exact .inl rfl
  · have digit := isDigit_of_mem_zeros_append back
    rw [toLower_of_isDigit digit]
    exact .inr digit

theorem IsDecimal.not_isYes {text : String} {n : Nat} (h : IsDecimal text n) : ¬IsYes text := by
  intro word
  simp only [IsYes, List.mem_cons, List.not_mem_nil, or_false] at word
  rcases word with word | word | word
  · exact absurd (h.of_mem_map_toLower (c := 't') (by simp [word])) (by decide)
  · exact absurd (h.of_mem_map_toLower (c := 'o') (by simp [word])) (by decide)
  · exact absurd (h.of_mem_map_toLower (c := 'y') (by simp [word])) (by decide)

theorem IsDecimal.not_isNo {text : String} {n : Nat} (h : IsDecimal text n) : ¬IsNo text := by
  intro word
  simp only [IsNo, List.mem_cons, List.not_mem_nil, or_false] at word
  rcases word with word | word | word
  · exact absurd (h.of_mem_map_toLower (c := 'f') (by simp [word])) (by decide)
  · exact absurd (h.of_mem_map_toLower (c := 'o') (by simp [word])) (by decide)
  · exact absurd (h.of_mem_map_toLower (c := 'n') (by simp [word])) (by decide)

theorem IsYes.not_isNo {text : String} (h : IsYes text) : ¬IsNo text := by
  simp only [IsYes, IsNo, List.mem_cons, List.not_mem_nil, or_false] at h ⊢
  rcases h with word | word | word <;> simp [word]

theorem number?_eq (text : String) : number? text =
    if IsYes text then some 1 else if IsNo text then some 0 else natural? text := by
  simp only [number?, IsYes, IsNo, List.mem_cons, List.not_mem_nil, or_false, Bool.or_eq_true,
    decide_eq_true_eq, or_assoc]

theorem number?_eq_some_iff {text : String} {n : Nat} :
    number? text = some n ↔ Converts text n := by
  rw [number?_eq]
  constructor
  · intro read
    split_ifs at read with yes no
    · obtain rfl := Option.some.inj read
      exact .yes yes
    · obtain rfl := Option.some.inj read
      exact .no no
    · exact .decimal (natural?_eq_some_iff.1 read)
  · rintro (yes | no | decimal)
    · rw [if_pos yes]
    · rw [if_neg fun yes : IsYes text => yes.not_isNo no, if_pos no]
    · rw [if_neg decimal.not_isYes, if_neg decimal.not_isNo, natural?_eq_some_iff.2 decimal]

/-- The empty path, or one that begins with a slash and does not end with one. -/
def IsBase (base : String) : Prop :=
  base = "" ∨ base.toList.head? = some '/' ∧ base.toList.getLast? ≠ some '/'

theorem validBase_iff {base : String} : validBase base = true ↔ IsBase base := by
  have starts : base.startsWith "/" = true ↔ base.toList.head? = some '/' := by
    rw [String.startsWith_string_iff, List.head?_eq_some_iff]
    exact ⟨fun ⟨rest, h⟩ => ⟨rest, by simpa using h.symm⟩, fun ⟨rest, h⟩ => ⟨rest, by simp [h]⟩⟩
  have ends : base.endsWith "/" = true ↔ base.toList.getLast? = some '/' := by
    rw [String.endsWith_eq_endsWith_toSlice, String.Slice.endsWith_string_iff, String.copy_toSlice,
      List.getLast?_eq_some_iff]
    exact ⟨fun ⟨rest, h⟩ => ⟨rest, by simpa using h.symm⟩, fun ⟨rest, h⟩ => ⟨rest, by simp [h]⟩⟩
  rw [validBase, Bool.or_eq_true, Bool.and_eq_true, Bool.not_eq_true', ← Bool.not_eq_true, starts,
    ends, String.isEmpty_iff, IsBase]

end Settings

end AccountVault
