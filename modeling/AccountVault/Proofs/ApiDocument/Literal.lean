import Mathlib
import AccountVault.Text.Hex
import AccountVault.Text.Markup

/-!
# String literals of a script

What a text between double quotes denotes in a script, as UTF-16 code units, and where it ends. A
backslash begins an escape: a letter, hexadecimal or octal digits, a code point in braces, or the
end of a line, which denotes nothing. The literal is read one character at a time.

A page escapes its texts for markup, which a script does not undo. Main statement: an escaped text
denotes itself in a literal exactly if no character of it has a meaning in markup or in literals.
That others cannot make up for one another is seen from a weight. No escape denotes more than it
weighs, and a semicolon weighs so little that a text gets lighter by each entity written into it.
-/

namespace AccountVault.Literal

def unitsOf (n : Nat) : List Nat :=
  if n < 0x10000 then [n] else [0xd800 + (n - 0x10000) / 0x400, 0xdc00 + (n - 0x10000) % 0x400]

def units (c : Char) : List Nat := unitsOf c.toNat

/-- What the reader is in the middle of. With `hex` one more digit than `left` has to follow, with
`octal` as many may; `carriage` has skipped the first half of a line ending. -/
inductive State where
  | plain
  | escape
  | hex (left value : Nat)
  | point
  | braced (value : Option Nat)
  | octal (left value : Nat)
  | carriage

def octalDigit? (c : Char) : Option Nat := (Hex.digitValue? c).filter (· < 8)

def letter (c : Char) : List Nat :=
  if c = 'b' then [0x08]
  else if c = 't' then [0x09]
  else if c = 'n' then [0x0a]
  else if c = 'v' then [0x0b]
  else if c = 'f' then [0x0c]
  else if c = 'r' then [0x0d]
  else units c

def plainStep (held : List Nat) (c : Char) : Option (List Nat × State) :=
  if c = '\\' then some (held, .escape)
  else if c = '\n' ∨ c = '\r' then none
  else some (held ++ units c, .plain)

def escapeStep (c : Char) : Option (List Nat × State) :=
  if c = 'x' then some ([], .hex 1 0)
  else if c = 'u' then some ([], .point)
  else if c = '\r' then some ([], .carriage)
  else if c = '\n' ∨ c = '\u2028' ∨ c = '\u2029' then some ([], .plain)
  else
    match octalDigit? c with
    | some d => some ([], .octal (if d < 4 then 1 else 0) d)
    | none => some (letter c, .plain)

def hexStep (left value : Nat) (c : Char) : Option (List Nat × State) :=
  match Hex.digitValue? c with
  | none => none
  | some d =>
    match left with
    | 0 => some ([16 * value + d], .plain)
    | left + 1 => some ([], .hex left (16 * value + d))

def bracedStep (value : Option Nat) (c : Char) : Option (List Nat × State) :=
  if c = '\x7d' then value.map fun n => (unitsOf n, .plain)
  else
    match Hex.digitValue? c with
    | none => none
    | some d =>
      let n := 16 * value.getD 0 + d
      if n ≤ 0x10ffff then some ([], .braced (some n)) else none

def octalStep (left value : Nat) (c : Char) : Option (List Nat × State) :=
  match octalDigit? c with
  | none => plainStep [value] c
  | some d =>
    match left with
    | 0 => some ([8 * value + d], .plain)
    | left + 1 => some ([], .octal left (8 * value + d))

def step : State → Char → Option (List Nat × State)
  | .plain, c => plainStep [] c
  | .escape, c => escapeStep c
  | .hex left value, c => hexStep left value c
  | .point, c => if c = '\x7b' then some ([], .braced none) else hexStep 3 0 c
  | .braced value, c => bracedStep value c
  | .octal left value, c => octalStep left value c
  | .carriage, c => if c = '\n' then some ([], .plain) else plainStep [] c

/-- What is still given out at the closing quote. A quote ends the literal in these states only. -/
def ending : State → Option (List Nat)
  | .plain => some []
  | .carriage => some []
  | .octal _ value => some [value]
  | _ => none

def read : State → List Char → Option (List Nat × List Char)
  | _, [] => none
  | state, c :: rest =>
    match if c = '"' then ending state else none with
    | some last => some (last, rest)
    | none =>
      match step state c with
      | none => none
      | some (out, next) => (read next rest).map fun x => (out ++ x.1, x.2)

def weight (us : List Nat) : Int := (us.map fun u => if u = 0x3b then -10 else 2).sum

@[simp] theorem weight_nil : weight [] = 0 := rfl

@[simp] theorem weight_append (us vs : List Nat) : weight (us ++ vs) = weight us + weight vs := by
  simp [weight]

theorem weight_singleton_le (n : Nat) : weight [n] ≤ 2 := by
  simp only [weight, List.map_cons, List.map_nil, List.sum_cons, List.sum_nil]
  split_ifs <;> omega

theorem weight_unitsOf_le (n : Nat) : weight (unitsOf n) ≤ 4 := by
  unfold unitsOf
  split_ifs
  · exact (weight_singleton_le n).trans (by decide)
  · exact (weight_append [_] [_]).trans_le
      (add_le_add (weight_singleton_le _) (weight_singleton_le _))

theorem le_weight_units {c : Char} (other : c ≠ ';') : 2 ≤ weight (units c) := by
  unfold units unitsOf
  split_ifs
  · have foreign : c.toNat ≠ 0x3b := fun same => other (Char.ext (UInt32.toNat_inj.1 same))
    simp [weight, foreign]
  · have high : 0xd800 + (c.toNat - 0x10000) / 0x400 ≠ 0x3b := by omega
    have low : 0xdc00 + (c.toNat - 0x10000) % 0x400 ≠ 0x3b := by omega
    simp [weight, high, low]

def State.credit : State → Int
  | .plain => 0
  | .carriage => 0
  | .escape => 1
  | _ => 3

def mark (c : Char) : Int := if c = '\\' then 1 else 0

/-- A character pays for what it gives out, and a backslash for its mark as well. -/
def Pays (state : State) (c : Char) (out : List Nat) (next : State) : Prop :=
  weight out + mark c + next.credit ≤ weight (units c) + state.credit

theorem weight_plainStep {held out : List Nat} {c : Char} {next : State}
    (h : plainStep held c = some (out, next)) :
    weight out + mark c + next.credit ≤ weight (units c) + weight held := by
  unfold plainStep at h
  split_ifs at h with backslash line
  · obtain ⟨rfl, rfl⟩ := Prod.mk.inj (Option.some.inj h)
    subst backslash
    have heavy := le_weight_units (c := '\\') (by decide)
    simp only [mark, if_true, State.credit]
    omega
  · obtain ⟨rfl, rfl⟩ := Prod.mk.inj (Option.some.inj h)
    simp only [weight_append, mark, if_neg backslash, State.credit]
    omega

theorem digit_ne {c other : Char} {d : Nat} (digit : Hex.digitValue? c = some d)
    (foreign : Hex.digitValue? other = none) : c ≠ other := by
  rintro rfl
  rw [foreign] at digit
  cases digit

theorem pays_digit {state : State} {c : Char} {d : Nat} (digit : Hex.digitValue? c = some d)
    (credit : state.credit = 3) :
    (∀ n, Pays state c [n] .plain) ∧ ∀ next : State, next.credit = 3 → Pays state c [] next := by
  have heavy := le_weight_units (digit_ne digit rfl : c ≠ ';')
  have unmarked : mark c = 0 := if_neg (digit_ne digit rfl)
  simp only [Pays, credit, unmarked]
  constructor
  · intro n
    have light := weight_singleton_le n
    simp only [State.credit]
    omega
  · intro next begun
    rw [begun, weight_nil]
    omega

theorem pays_hexStep {state : State} {left value : Nat} {c : Char} {out : List Nat} {next : State}
    (credit : state.credit = 3) (h : hexStep left value c = some (out, next)) :
    Pays state c out next := by
  unfold hexStep at h
  cases digit : Hex.digitValue? c with
  | none => simp [digit] at h
  | some d =>
    obtain ⟨last, inner⟩ := pays_digit digit credit
    cases left with
    | zero =>
      simp only [digit] at h
      obtain ⟨rfl, rfl⟩ := Prod.mk.inj (Option.some.inj h)
      exact last _
    | succ left =>
      simp only [digit] at h
      obtain ⟨rfl, rfl⟩ := Prod.mk.inj (Option.some.inj h)
      exact inner _ rfl

theorem pays_bracedStep {value : Option Nat} {c : Char} {out : List Nat} {next : State}
    (h : bracedStep value c = some (out, next)) : Pays (.braced value) c out next := by
  unfold bracedStep at h
  split_ifs at h with brace
  · obtain ⟨n, -, same⟩ := Option.map_eq_some_iff.1 h
    obtain ⟨rfl, rfl⟩ := Prod.mk.inj same
    subst brace
    have heavy := le_weight_units (c := '\x7d') (by decide)
    have light := weight_unitsOf_le n
    have unmarked : mark '\x7d' = 0 := rfl
    simp only [Pays, unmarked, State.credit]
    omega
  · cases digit : Hex.digitValue? c with
    | none => simp [digit] at h
    | some d =>
      simp only [digit] at h
      split_ifs at h
      obtain ⟨rfl, rfl⟩ := Prod.mk.inj (Option.some.inj h)
      exact (pays_digit digit rfl).2 _ rfl

theorem digitValue?_of_octalDigit? {c : Char} {d : Nat} (digit : octalDigit? c = some d) :
    Hex.digitValue? c = some d :=
  (Option.filter_eq_some_iff.1 digit).1

theorem pays_octalStep {left value : Nat} {c : Char} {out : List Nat} {next : State}
    (h : octalStep left value c = some (out, next)) : Pays (.octal left value) c out next := by
  unfold octalStep at h
  cases digit : octalDigit? c with
  | none =>
    simp only [digit] at h
    have paid := weight_plainStep h
    have light := weight_singleton_le value
    simp only [Pays, State.credit] at paid ⊢
    omega
  | some d =>
    obtain ⟨last, inner⟩ :=
      pays_digit (digitValue?_of_octalDigit? digit) (rfl : (State.octal left value).credit = 3)
    cases left with
    | zero =>
      simp only [digit] at h
      obtain ⟨rfl, rfl⟩ := Prod.mk.inj (Option.some.inj h)
      exact last _
    | succ left =>
      simp only [digit] at h
      obtain ⟨rfl, rfl⟩ := Prod.mk.inj (Option.some.inj h)
      exact inner _ rfl

theorem weight_letter_le (c : Char) : weight (letter c) ≤ weight (units c) := by
  unfold letter
  split_ifs with b t n v f r
  · subst b; decide
  · subst t; decide
  · subst n; decide
  · subst v; decide
  · subst f; decide
  · subst r; decide
  · exact le_rfl

theorem mark_le (c : Char) : mark c ≤ 1 := by
  unfold mark
  split_ifs <;> decide

theorem pays_escapeStep {c : Char} {out : List Nat} {next : State}
    (h : escapeStep c = some (out, next)) : Pays .escape c out next := by
  -- Apart from letters nothing is given out yet, and a character weighs the two that are still
  -- missing.
  have silent : ∀ {c : Char} {next : State}, c ≠ ';' → c ≠ '\\' → next.credit ≤ 3 →
      Pays .escape c [] next := by
    intro c next semicolon backslash credit
    have heavy := le_weight_units semicolon
    have begun : State.escape.credit = 1 := rfl
    simp only [Pays, mark, if_neg backslash, weight_nil, begun]
    omega
  unfold escapeStep at h
  split_ifs at h with hex point carriage line
  · obtain ⟨rfl, rfl⟩ := Prod.mk.inj (Option.some.inj h)
    exact silent (by rw [hex]; decide) (by rw [hex]; decide) le_rfl
  · obtain ⟨rfl, rfl⟩ := Prod.mk.inj (Option.some.inj h)
    exact silent (by rw [point]; decide) (by rw [point]; decide) le_rfl
  · obtain ⟨rfl, rfl⟩ := Prod.mk.inj (Option.some.inj h)
    exact silent (by rw [carriage]; decide) (by rw [carriage]; decide) (by decide)
  · obtain ⟨rfl, rfl⟩ := Prod.mk.inj (Option.some.inj h)
    rcases line with rfl | rfl | rfl <;> exact silent (by decide) (by decide) (by decide)
  · cases digit : octalDigit? c with
    | some d =>
      simp only [digit] at h
      obtain ⟨rfl, rfl⟩ := Prod.mk.inj (Option.some.inj h)
      have value := digitValue?_of_octalDigit? digit
      exact silent (digit_ne value rfl) (digit_ne value rfl) le_rfl
    | none =>
      simp only [digit] at h
      obtain ⟨rfl, rfl⟩ := Prod.mk.inj (Option.some.inj h)
      have light := weight_letter_le c
      have marked := mark_le c
      simp only [Pays, State.credit]
      omega

theorem pays_step {state : State} {c : Char} {out : List Nat} {next : State}
    (h : step state c = some (out, next)) : Pays state c out next := by
  cases state with
  | plain => simpa [Pays, State.credit] using weight_plainStep h
  | escape => exact pays_escapeStep h
  | hex left value => exact pays_hexStep rfl h
  | braced value => exact pays_bracedStep h
  | octal left value => exact pays_octalStep h
  | point =>
    rw [step] at h
    split_ifs at h with brace
    · obtain ⟨rfl, rfl⟩ := Prod.mk.inj (Option.some.inj h)
      subst brace
      unfold Pays
      decide
    · exact pays_hexStep rfl h
  | carriage =>
    rw [step] at h
    split_ifs at h with line
    · obtain ⟨rfl, rfl⟩ := Prod.mk.inj (Option.some.inj h)
      subst line
      unfold Pays
      decide
    · simpa [Pays, State.credit] using weight_plainStep h

theorem weight_ending {state : State} {last : List Nat} (h : ending state = some last) :
    weight last ≤ state.credit := by
  cases state with
  | octal left value =>
    obtain rfl := Option.some.inj h
    exact (weight_singleton_le value).trans (by simp [State.credit])
  | plain =>
    obtain rfl := Option.some.inj h
    exact le_rfl
  | carriage =>
    obtain rfl := Option.some.inj h
    exact le_rfl
  | _ => cases h

theorem weight_read {state : State} {text rest : List Char} {out : List Nat}
    (h : read state text = some (out, rest)) :
    ∃ used, text = used ++ '"' :: rest ∧
      weight out + (used.map mark).sum ≤ weight (used.flatMap units) + state.credit := by
  -- The credit carries over from one character to the next, so the steps' inequalities add up.
  induction text generalizing state out with
  | nil => cases h
  | cons c text ih =>
    rw [read] at h
    split at h
    · rename_i last closing
      obtain ⟨rfl, rfl⟩ := Prod.mk.inj (Option.some.inj h)
      split_ifs at closing with quote
      refine ⟨[], by rw [quote, List.nil_append], ?_⟩
      simpa using weight_ending closing
    · split at h
      · cases h
      · rename_i given next stepped
        obtain ⟨⟨further, left⟩, more, same⟩ := Option.map_eq_some_iff.1 h
        obtain ⟨rfl, rfl⟩ := Prod.mk.inj same
        obtain ⟨used, rfl, light⟩ := ih more
        have paid := pays_step stepped
        refine ⟨c :: used, rfl, ?_⟩
        simp only [Pays, weight_append, List.map_cons, List.sum_cons, List.flatMap_cons] at paid ⊢
        omega

/-- The character has no meaning in markup and none in a literal. -/
def Inert (c : Char) : Prop := c ∉ ['&', '<', '>', '"', '\\', '\n', '\r']

instance (c : Char) : Decidable (Inert c) := inferInstanceAs (Decidable (c ∉ _))

theorem escapeChar_of_not_mem {c : Char} (h : c ∉ ['&', '<', '>', '"']) :
    Markup.escapeChar c = [c] := by
  simp only [List.mem_cons, List.not_mem_nil, or_false, not_or] at h
  obtain ⟨amp, less, greater, quote⟩ := h
  simp [Markup.escapeChar, amp, less, greater, quote]

theorem weight_escapeChar (c : Char) :
    weight ((Markup.escapeChar c).flatMap units) +
      (if c ∈ ['&', '<', '>', '"'] then 1 else 0) ≤ weight (units c) := by
  by_cases special : c ∈ ['&', '<', '>', '"']
  · simp only [List.mem_cons, List.not_mem_nil, or_false] at special
    rcases special with rfl | rfl | rfl | rfl <;> decide
  · simp [escapeChar_of_not_mem special, special]

theorem weight_escaped (text : List Char) :
    weight ((text.flatMap Markup.escapeChar).flatMap units) +
      (text.countP (· ∈ ['&', '<', '>', '"']) : Int) ≤ weight (text.flatMap units) := by
  induction text with
  | nil => simp
  | cons c text ih =>
    have first := weight_escapeChar c
    simp only [List.flatMap_cons, List.flatMap_append, weight_append, List.countP_cons,
      decide_eq_true_eq]
    push_cast
    omega

theorem escaped_eq_self {text : List Char} (h : ∀ c ∈ text, c ∉ ['&', '<', '>', '"']) :
    text.flatMap Markup.escapeChar = text := by
  induction text with
  | nil => rfl
  | cons c text ih =>
    rw [List.flatMap_cons, ih fun d mem => h d (List.mem_cons_of_mem c mem),
      escapeChar_of_not_mem (h c (by simp)), List.singleton_append]

/-- Without quotes and backslashes a literal denotes its characters, unless a line ends in it. -/
theorem read_verbatim {text : List Char} (h : ∀ c ∈ text, c ≠ '"' ∧ c ≠ '\\') (after : List Char) :
    read .plain (text ++ '"' :: after) =
      if ∀ c ∈ text, c ≠ '\n' ∧ c ≠ '\r' then some (text.flatMap units, after) else none := by
  induction text with
  | nil => simp [read, ending]
  | cons c text ih =>
    obtain ⟨quote, backslash⟩ := h c (by simp)
    have others := ih fun d mem => h d (List.mem_cons_of_mem c mem)
    by_cases line : c = '\n' ∨ c = '\r'
    · rw [if_neg fun all => absurd (all c (by simp)) (by tauto)]
      simp [read, quote, step, plainStep, backslash, line]
    · have stepped : step .plain c = some (units c, .plain) := by
        rw [step, plainStep, if_neg backslash, if_neg line, List.nil_append]
      have single : c ≠ '\n' ∧ c ≠ '\r' := not_or.1 line
      rw [List.cons_append, read, if_neg quote]
      simp only [stepped, others, List.forall_mem_cons, and_iff_right single, List.flatMap_cons]
      split_ifs <;> rfl

theorem sum_marks_nonneg (text : List Char) : 0 ≤ (text.map mark).sum := by
  apply List.sum_nonneg
  intro x mem
  obtain ⟨c, -, rfl⟩ := List.mem_map.1 mem
  unfold mark
  split_ifs <;> decide

theorem sum_marks_pos {text : List Char} (h : '\\' ∈ text) : 0 < (text.map mark).sum := by
  obtain ⟨before, after, rfl⟩ := List.append_of_mem h
  have left := sum_marks_nonneg before
  have right := sum_marks_nonneg after
  have one : mark '\\' = 1 := rfl
  simp only [List.map_append, List.map_cons, List.sum_append, List.sum_cons, one]
  omega

theorem inert_iff {c : Char} :
    Inert c ↔ c ∉ ['&', '<', '>', '"'] ∧ c ≠ '\\' ∧ c ≠ '\n' ∧ c ≠ '\r' := by
  simp only [Inert, List.mem_cons, List.not_mem_nil, or_false, not_or]
  tauto

/-- A text escaped for markup denotes itself in a literal, which ends behind it, exactly if none of
its characters means anything in the one or the other. -/
theorem read_escaped_iff (text after : List Char) :
    read .plain (text.flatMap Markup.escapeChar ++ '"' :: after) =
        some (text.flatMap units, after) ↔ ∀ c ∈ text, Inert c := by
  -- Either side rules out entities and backslashes, and then only the ends of lines are left.
  have rest : (∀ c ∈ text, c ∉ ['&', '<', '>', '"'] ∧ c ≠ '\\') →
      (read .plain (text.flatMap Markup.escapeChar ++ '"' :: after) =
        some (text.flatMap units, after) ↔ ∀ c ∈ text, Inert c) := by
    intro bare
    have verbatim : ∀ c ∈ text, c ≠ '"' ∧ c ≠ '\\' := by
      intro c mem
      refine ⟨?_, (bare c mem).2⟩
      rintro rfl
      exact (bare _ mem).1 (by simp)
    rw [escaped_eq_self fun c mem => (bare c mem).1, read_verbatim verbatim]
    simp only [ite_eq_left_iff, reduceCtorEq, imp_false, not_not]
    refine forall₂_congr fun c mem => ?_
    rw [inert_iff, and_iff_right (bare c mem).1, and_iff_right (bare c mem).2]
  constructor
  · intro h
    refine (rest ?_).1 h
    obtain ⟨used, cut, light⟩ := weight_read h
    obtain rfl : text.flatMap Markup.escapeChar = used := List.append_cancel_right cut
    have lighter := weight_escaped text
    have free : State.plain.credit = 0 := rfl
    intro c mem
    constructor
    · intro special
      have counted : 0 < text.countP (· ∈ ['&', '<', '>', '"']) :=
        List.countP_pos_iff.2 ⟨c, mem, by simpa using special⟩
      have marks := sum_marks_nonneg (text.flatMap Markup.escapeChar)
      omega
    · rintro rfl
      have marks := sum_marks_pos (List.mem_flatMap.2 ⟨'\\', mem, by decide⟩ :
        '\\' ∈ text.flatMap Markup.escapeChar)
      omega
  · intro inert
    exact (rest fun c mem => ⟨(inert_iff.1 (inert c mem)).1, (inert_iff.1 (inert c mem)).2.1⟩).2
      inert

end AccountVault.Literal
