import Mathlib
import AccountVault.Decimal.Shortest
import AccountVault.Proofs.Decimal.Rounding

/-!
# Shortest decimals round back

The decimal that is written for a magnitude lies in the interval of the numbers that round to it, so
a reader that rounds once would give the magnitude back. That there is such a decimal of seventeen
digits follows from the width of the interval: it is more than one step of the grid of seventeen
digits, and the value itself lies between two neighbours on that grid.
-/

namespace AccountVault

def Decimal.value (d : Decimal) : ℚ := d.coefficient * 10 ^ d.exponent

namespace Binary64

open Decimal (Interval)

theorem powerRatio_mul_le_iff {base base' : Nat} (h : 0 < base) (h' : 0 < base') (e e' : Int)
    (a a' : Nat) :
    a * (powerRatio base e).1 * (powerRatio base' e').2 ≤
        a' * (powerRatio base' e').1 * (powerRatio base e).2 ↔
      (a : ℚ) * (base : ℚ) ^ e ≤ a' * (base' : ℚ) ^ e' := by
  have pos : (0 : ℚ) < (powerRatio base e).2 := by exact_mod_cast (powerRatio_pos h e).2
  have pos' : (0 : ℚ) < (powerRatio base' e').2 := by exact_mod_cast (powerRatio_pos h' e').2
  rw [← powerRatio_eq h, ← powerRatio_eq h', ← mul_div_assoc, ← mul_div_assoc,
    div_le_div_iff₀ pos pos']
  exact_mod_cast Iff.rfl

variable {m j : Nat}

theorem significand_pos (h : 0 < m) : 0 < significand m := by
  by_contra zero
  have none : value m = 0 := by simp [value, show significand m = 0 by omega]
  exact absurd none (value_pos h).ne'

theorem value_ofMagnitude (m : Nat) :
    ((Interval.ofMagnitude m).value : ℚ) * 2 ^ (exponent m - 2) = value m := by
  have two : (2 : ℚ) ≠ 0 := by norm_num
  simp only [Interval.ofMagnitude, value]
  rw [zpow_sub₀ two]
  push_cast
  ring

theorem high_ofMagnitude (m : Nat) :
    ((Interval.ofMagnitude m).high : ℚ) * 2 ^ (exponent m - 2) = mid m := by
  have two : (2 : ℚ) ≠ 0 := by norm_num
  rw [mid, value_succ]
  simp only [Interval.ofMagnitude, value]
  rw [zpow_sub₀ two]
  push_cast
  ring

theorem low_ofMagnitude (hj : m = j + 1) :
    ((Interval.ofMagnitude m).low : ℚ) * 2 ^ (exponent m - 2) = mid j := by
  have two : (2 : ℚ) ≠ 0 := by norm_num
  have positive := significand_pos (show 0 < m by omega)
  have next : value m = value j + 2 ^ exponent j := hj ▸ value_succ j
  have middle : mid j = value m - 2 ^ exponent j / 2 := by
    rw [mid, ← hj, next]
    ring
  obtain ⟨b, r, hm, small, normal⟩ := exists_grid m
  have sig : significand m = r := hm ▸ significand_grid normal small
  have exp : exponent m = (b : Int) - 1074 := hm ▸ exponent_grid normal small
  rw [middle]
  simp only [Interval.ofMagnitude, value, sig, exp]
  rw [sig] at positive
  split_ifs with bottom
  · -- The first magnitude of a binade: the one below is half a place away.
    rw [leadingBit_eq] at bottom hm
    obtain ⟨b, rfl⟩ : ∃ c, b = c + 1 := ⟨b - 1, by omega⟩
    have below : exponent j = (b : Int) - 1074 := by
      rw [show j = b * leadingBit + (2 ^ 53 - 1) by rw [leadingBit_eq]; omega]
      exact exponent_grid (by omega) (by omega)
    rw [below, Nat.cast_sub (by omega), zpow_sub₀ two,
      show (((b + 1 : Nat) : Int) - 1074) = ((b : Int) - 1074) + 1 by push_cast; ring,
      zpow_add_one₀ two]
    push_cast
    ring
  · have below : exponent j = (b : Int) - 1074 := by
      rw [leadingBit_eq] at bottom hm
      rw [show j = b * leadingBit + (r - 1) by rw [leadingBit_eq]; omega]
      exact exponent_grid (by omega) (by omega)
    rw [below, Nat.cast_sub (by omega), zpow_sub₀ two]
    push_cast
    ring

theorem closed_ofMagnitude (m : Nat) : (Interval.ofMagnitude m).closed = true ↔ m % 2 = 0 := by
  obtain ⟨b, r, rfl, small, normal⟩ := exists_grid m
  simp only [Interval.ofMagnitude, significand_grid normal small, decide_eq_true_eq]
  rw [leadingBit_eq]
  omega

theorem contains_iff (hj : m = j + 1) (d : Decimal) :
    (Interval.ofMagnitude m).contains d = true ↔
      (mid j < d.value ∨ (d.value = mid j ∧ m % 2 = 0)) ∧
        (d.value < mid m ∨ (d.value = mid m ∧ m % 2 = 0)) := by
  have fromLow (a : Nat) : a * (powerRatio 2 (exponent m - 2)).1 * (powerRatio 10 d.exponent).2 ≤
      d.coefficient * (powerRatio 10 d.exponent).1 * (powerRatio 2 (exponent m - 2)).2 ↔
        (a : ℚ) * 2 ^ (exponent m - 2) ≤ d.value :=
    powerRatio_mul_le_iff (by decide) (by decide) _ _ _ _
  have toHigh (a : Nat) :
      d.coefficient * (powerRatio 10 d.exponent).1 * (powerRatio 2 (exponent m - 2)).2 ≤
        a * (powerRatio 2 (exponent m - 2)).1 * (powerRatio 10 d.exponent).2 ↔
          d.value ≤ (a : ℚ) * 2 ^ (exponent m - 2) :=
    powerRatio_mul_le_iff (by decide) (by decide) _ _ _ _
  have low := low_ofMagnitude hj
  have high := high_ofMagnitude m
  have even := closed_ofMagnitude m
  have num : (Interval.ofMagnitude m).num = (powerRatio 2 (exponent m - 2)).1 := rfl
  have den : (Interval.ofMagnitude m).den = (powerRatio 2 (exponent m - 2)).2 := rfl
  unfold Interval.contains
  dsimp only
  rw [num, den]
  split_ifs with closed
  · have hm := even.1 closed
    rw [Bool.and_eq_true, decide_eq_true_eq, decide_eq_true_eq, fromLow, toHigh, low, high,
      le_iff_lt_or_eq, le_iff_lt_or_eq]
    simp only [hm, and_true, eq_comm]
  · have hm : ¬m % 2 = 0 := fun h => closed (even.2 h)
    rw [Bool.and_eq_true, decide_eq_true_eq, decide_eq_true_eq, ← not_le, ← not_le, fromLow, toHigh,
      low, high, not_le, not_le]
    simp only [hm, and_false, or_false]

theorem rounds_of_contains {d : Decimal} (hj : m = j + 1) (finite : m < infinity)
    (h : (Interval.ofMagnitude m).contains d = true) : Rounds d.value m := by
  obtain ⟨lower, upper⟩ := (contains_iff hj d).1 h
  refine ⟨fun k hk => ?_, fun _ => ?_, finite.le⟩
  · obtain rfl : j = k := by omega
    rcases lower with less | ⟨tie, even⟩
    · exact ⟨less.le, fun same => absurd same less.ne'⟩
    · exact ⟨tie.ge, fun _ => even⟩
  · rcases upper with less | ⟨tie, even⟩
    · exact ⟨less.le, fun same => absurd same less.ne⟩
    · exact ⟨tie.le, fun _ => even⟩

theorem ten_zpow_le_two_pow {a : Int} {n : Nat} (h : 10 * a ≤ 3 * n) :
    (10 : ℚ) ^ a ≤ 2 ^ n := by
  have ten : (10 : ℚ) ≠ 0 := by norm_num
  refine le_of_pow_le_pow_left₀ (n := 10) (by decide) (by positivity) ?_
  calc ((10 : ℚ) ^ a) ^ 10 = 10 ^ (a * 10) := by rw [zpow_mul]; norm_cast
    _ ≤ 10 ^ (3 * (n : Int)) := zpow_le_zpow_right₀ (by norm_num) (by omega)
    _ = (10 ^ 3) ^ n := by rw [zpow_mul]; norm_cast
    _ ≤ (2 ^ 10) ^ n := by gcongr; norm_num
    _ = (2 ^ n) ^ 10 := by rw [← pow_mul, ← pow_mul, mul_comm]

theorem two_pow_le_ten_zpow {a : Int} {n : Nat} (h : 28 * n ≤ 93 * a) :
    (2 : ℚ) ^ n ≤ 10 ^ a := by
  refine le_of_pow_le_pow_left₀ (n := 93) (by decide) (by positivity) ?_
  calc ((2 : ℚ) ^ n) ^ 93 = (2 ^ 93) ^ n := by rw [← pow_mul, ← pow_mul, mul_comm]
    _ ≤ (10 ^ 28) ^ n := by gcongr; norm_num
    _ = 10 ^ (28 * (n : Int)) := by rw [zpow_mul]; norm_cast
    _ ≤ 10 ^ (a * 93) := zpow_le_zpow_right₀ (by norm_num) (by omega)
    _ = (10 ^ a) ^ 93 := by rw [zpow_mul]; norm_cast

theorem firstGuess_bounds {l guess : Int} (hg : guess = l * 30103 / 100000 - 2) (low : -1074 ≤ l)
    (high : l < 1024) :
    (10 : ℚ) ^ guess ≤ 2 ^ l ∧ (2 : ℚ) ^ (l + 1) ≤ 10 ^ (guess + 5) := by
  constructor
  · rcases le_or_gt 0 l with sign | sign
    · obtain ⟨n, rfl⟩ := Int.eq_ofNat_of_zero_le sign
      rw [zpow_natCast]
      exact ten_zpow_le_two_pow (by omega)
    · obtain ⟨n, hn⟩ := Int.eq_ofNat_of_zero_le (show 0 ≤ -l by omega)
      have flipped :=
        inv_anti₀ (by positivity) (two_pow_le_ten_zpow (a := -guess) (n := n) (by omega))
      rwa [← zpow_neg, neg_neg, ← zpow_natCast, ← zpow_neg, show -(n : Int) = l by omega] at flipped
  · rcases le_or_gt 0 (l + 1) with sign | sign
    · obtain ⟨n, hn⟩ := Int.eq_ofNat_of_zero_le sign
      rw [hn, zpow_natCast]
      exact two_pow_le_ten_zpow (by omega)
    · obtain ⟨n, hn⟩ := Int.eq_ofNat_of_zero_le (show 0 ≤ -(l + 1) by omega)
      have flipped := inv_anti₀ (by positivity)
        (ten_zpow_le_two_pow (a := -(guess + 5)) (n := n) (by omega))
      rwa [← zpow_neg, neg_neg, ← zpow_natCast, ← zpow_neg, show -(n : Int) = l + 1 by omega]
        at flipped

theorem raise_spec (steps num : Nat) {den : Nat} (hd : 0 < den) {guess : Int}
    (low : (10 : ℚ) ^ guess ≤ num / den) (high : (num / den : ℚ) < 10 ^ (guess + steps + 1)) :
    (10 : ℚ) ^ Decimal.raise steps num den guess ≤ num / den ∧
      (num / den : ℚ) < 10 ^ (Decimal.raise steps num den guess + 1) := by
  induction steps generalizing guess with
  | zero => exact ⟨low, by simpa [Decimal.raise] using high⟩
  | succ steps ih =>
    have dpos : (0 : ℚ) < den := by exact_mod_cast hd
    have power := powerRatio_eq (b := 10) (by decide) (guess + 1)
    have positive : (0 : ℚ) < (powerRatio 10 (guess + 1)).2 := by
      exact_mod_cast (powerRatio_pos (by decide) (guess + 1)).2
    have test : (powerRatio 10 (guess + 1)).1 * den ≤ num * (powerRatio 10 (guess + 1)).2 ↔
        (10 : ℚ) ^ (guess + 1) ≤ num / den := by
      rw [show (10 : ℚ) = (10 : Nat) by norm_num, ← power, div_le_div_iff₀ positive dpos]
      exact_mod_cast Iff.rfl
    simp only [Decimal.raise, test]
    split_ifs with fits
    · refine ih fits ?_
      rwa [show guess + 1 + (steps : Int) + 1 = guess + ((steps + 1 : Nat) : Int) + 1 by
        push_cast; ring]
    · exact ⟨low, not_le.1 fits⟩

theorem value_infinity : value infinity = 2 ^ (1024 : Int) := by
  have grid := value_grid (b := 2046) (r := 2 ^ 52) (by omega) (by omega)
  rw [show 2046 * leadingBit + 2 ^ 52 = infinity by decide] at grid
  rw [grid, Nat.cast_pow, Nat.cast_ofNat, ← zpow_natCast, ← zpow_add₀ (by norm_num)]
  congr 1

theorem value_lt_of_lt_infinity (finite : m < infinity) : value m < 2 ^ (1024 : Int) := by
  rw [← value_infinity]
  exact strictMono_value finite

theorem le_value (positive : 0 < m) : (2 : ℚ) ^ (-1074 : Int) ≤ value m := by
  have one : value 1 = 2 ^ (-1074 : Int) := by
    have grid := value_grid (b := 0) (r := 1) (by omega) (by omega)
    simpa using grid
  rw [← one]
  exact strictMono_value.monotone positive

theorem decimalLog_spec {num den : Nat} (hd : 0 < den) (h : (num / den : ℚ) = value m)
    (positive : 0 < m) (finite : m < infinity) :
    (10 : ℚ) ^ Decimal.decimalLog num den ≤ value m ∧
      value m < 10 ^ (Decimal.decimalLog num den + 1) := by
  have two : (1 : ℚ) < 2 := by norm_num
  have hn : 0 < num := by
    rcases Nat.eq_zero_or_pos num with rfl | pos
    · have := value_pos positive
      simp [← h] at this
    · exact pos
  obtain ⟨low, high⟩ := binaryLog_spec hn hd
  rw [h] at low high
  have least : -1074 ≤ binaryLog num den := by
    have := (zpow_lt_zpow_iff_right₀ two).1 ((le_value positive).trans_lt high)
    omega
  have most : binaryLog num den < 1024 := by
    exact (zpow_lt_zpow_iff_right₀ two).1 (low.trans_lt (value_lt_of_lt_infinity finite))
  obtain ⟨lower, upper⟩ := firstGuess_bounds rfl least most
  have raised := raise_spec 4 num hd (h ▸ lower.trans low)
    (by rw [h]; exact high.trans_le (by simpa [add_assoc] using upper))
  rwa [h] at raised

theorem ratio_ofMagnitude (m : Nat) :
    (((Interval.ofMagnitude m).value * (Interval.ofMagnitude m).num : Nat) /
      ((Interval.ofMagnitude m).den : Nat) : ℚ) = value m := by
  have power := powerRatio_eq (b := 2) (by decide) (exponent m - 2)
  rw [← value_ofMagnitude, show (2 : ℚ) = (2 : Nat) by norm_num, ← power]
  push_cast
  rw [mul_div_assoc]
  rfl

theorem den_ofMagnitude_pos (m : Nat) : 0 < (Interval.ofMagnitude m).den :=
  (powerRatio_pos (by decide) _).2

def wholeUnits (m : Nat) (e : Int) : Nat :=
  (Interval.ofMagnitude m).value * (Interval.ofMagnitude m).num * (powerRatio 10 e).2 /
    ((Interval.ofMagnitude m).den * (powerRatio 10 e).1)

theorem wholeUnits_spec (m : Nat) (e : Int) :
    (wholeUnits m e : ℚ) * 10 ^ e ≤ value m ∧ value m < (wholeUnits m e + 1) * 10 ^ e := by
  have power := powerRatio_eq (b := 10) (by decide) e
  rw [show ((10 : Nat) : ℚ) = 10 by norm_num] at power
  have unit : (0 : ℚ) < 10 ^ e := by positivity
  obtain ⟨num, hn⟩ : ∃ num, num = (Interval.ofMagnitude m).value * (Interval.ofMagnitude m).num *
    (powerRatio 10 e).2 := ⟨_, rfl⟩
  obtain ⟨den, hd⟩ : ∃ den, den = (Interval.ofMagnitude m).den * (powerRatio 10 e).1 := ⟨_, rfl⟩
  have positive : 0 < den := by
    rw [hd]
    exact Nat.mul_pos (den_ofMagnitude_pos m) (powerRatio_pos (by decide) e).1
  have quotient : (num / den : ℚ) = value m / 10 ^ e := by
    rw [← ratio_ofMagnitude, ← power, hn, hd]
    push_cast
    rw [div_div_div_eq]
  have pos : (0 : ℚ) < den := by exact_mod_cast positive
  have lower : ((num / den : Nat) : ℚ) ≤ num / den := by
    rw [le_div_iff₀ pos]
    exact_mod_cast Nat.div_mul_le_self num den
  have upper : (num / den : ℚ) < (num / den : Nat) + 1 := by
    rw [div_lt_iff₀ pos]
    exact_mod_cast (Nat.div_lt_iff_lt_mul positive).1 (Nat.lt_succ_self (num / den))
  rw [quotient] at lower upper
  rw [wholeUnits, ← hn, ← hd]
  exact ⟨(le_div_iff₀ unit).1 lower, (div_lt_iff₀ unit).1 upper⟩

theorem onGrid?_cases (m : Nat) (top : Int) (digits : Nat) :
    (∃ d, (Interval.ofMagnitude m).onGrid? top digits = some d ∧
        (Interval.ofMagnitude m).contains d = true ∧
        (d = ⟨wholeUnits m (top + 1 - digits), top + 1 - digits⟩ ∨
          d = ⟨wholeUnits m (top + 1 - digits) + 1, top + 1 - digits⟩)) ∨
      ((Interval.ofMagnitude m).onGrid? top digits = none ∧
        (Interval.ofMagnitude m).contains ⟨wholeUnits m (top + 1 - digits), top + 1 - digits⟩ =
          false ∧
        (Interval.ofMagnitude m).contains
          ⟨wholeUnits m (top + 1 - digits) + 1, top + 1 - digits⟩ = false) := by
  unfold Interval.onGrid?
  dsimp only
  rw [show (Interval.ofMagnitude m).value * (Interval.ofMagnitude m).num *
    (powerRatio 10 (top + 1 - digits)).2 / ((Interval.ofMagnitude m).den *
      (powerRatio 10 (top + 1 - digits)).1) = wholeUnits m (top + 1 - digits) from rfl]
  generalize wholeUnits m (top + 1 - digits) = floor
  cases below : (Interval.ofMagnitude m).contains ⟨floor, top + 1 - digits⟩ <;>
    cases above : (Interval.ofMagnitude m).contains ⟨floor + 1, top + 1 - digits⟩
  · exact .inr ⟨rfl, rfl, rfl⟩
  · exact .inl ⟨_, rfl, above, .inr rfl⟩
  · exact .inl ⟨_, rfl, below, .inl rfl⟩
  · left
    dsimp only
    split_ifs
    · exact ⟨_, rfl, above, .inr rfl⟩
    · exact ⟨_, rfl, below, .inl rfl⟩

theorem step_lt_width (hj : m = j + 1) {top : Int} (low : (10 : ℚ) ^ top ≤ value m) :
    (10 : ℚ) ^ (top - 16) < mid m - mid j := by
  have unit : (0 : ℚ) < 2 ^ (exponent m - 2) := by positivity
  have step : (10 : ℚ) ^ (top - 16) * 10 ^ 16 ≤ significand m * 4 * 2 ^ (exponent m - 2) := by
    calc (10 : ℚ) ^ (top - 16) * 10 ^ 16 = 10 ^ top := by
          rw [zpow_sub₀ (by norm_num)]
          norm_num
      _ ≤ value m := low
      _ = significand m * 4 * 2 ^ (exponent m - 2) := by
          rw [← value_ofMagnitude]
          simp only [Interval.ofMagnitude]
          push_cast
          ring
  obtain ⟨b, r, hm, small, normal⟩ := exists_grid m
  have sig : significand m = r := hm ▸ significand_grid normal small
  have positive : 0 < r := sig ▸ significand_pos (show 0 < m by omega)
  have bound : (r : ℚ) < 2 ^ 53 := by exact_mod_cast small
  rw [← low_ofMagnitude hj, ← high_ofMagnitude]
  rw [sig] at step
  simp only [Interval.ofMagnitude, sig]
  split_ifs with bottom
  · rw [bottom.1, leadingBit_eq] at step
    rw [Nat.cast_sub (by omega)]
    push_cast at step ⊢
    nlinarith
  · rw [Nat.cast_sub (by omega)]
    push_cast at step ⊢
    nlinarith

theorem exists_onGrid? (hj : m = j + 1) {top : Int} (low : (10 : ℚ) ^ top ≤ value m) :
    ∃ d, (Interval.ofMagnitude m).onGrid? top 17 = some d := by
  rcases onGrid?_cases m top 17 with ⟨d, found, -⟩ | ⟨-, below, above⟩
  · exact ⟨d, found⟩
  · have e : top + 1 - ((17 : Nat) : Int) = top - 16 := by push_cast; ring
    rw [e] at below above
    obtain ⟨lower, upper⟩ := wholeUnits_spec m (top - 16)
    have wide := step_lt_width hj low
    have inside : mid j < value m := hj ▸ mid_lt_value_succ j
    have inside' := value_lt_mid m
    generalize wholeUnits m (top - 16) = floor at below above lower upper
    have outBelow : ¬mid j < Decimal.value ⟨floor, top - 16⟩ := by
      intro less
      rw [(contains_iff hj _).2 ⟨.inl less, .inl (lower.trans_lt inside')⟩] at below
      cases below
    have outAbove : ¬Decimal.value ⟨floor + 1, top - 16⟩ < mid m := by
      intro less
      have more : mid j < Decimal.value ⟨floor + 1, top - 16⟩ := by
        refine inside.trans (upper.trans_le ?_)
        simp [Decimal.value]
      rw [(contains_iff hj _).2 ⟨.inl more, .inl less⟩] at above
      cases above
    -- Both ends of the interval lie between the same two neighbours on the grid.
    simp only [Decimal.value, not_lt] at outBelow outAbove
    push_cast at outAbove
    exfalso
    linarith

theorem wholeUnits_bounds {top : Int} (low : (10 : ℚ) ^ top ≤ value m)
    (high : value m < 10 ^ (top + 1)) (n : Nat) :
    0 < wholeUnits m (top + 1 - (n + 1 : Nat)) ∧
      wholeUnits m (top + 1 - (n + 1 : Nat)) < 10 ^ (n + 1) := by
  have ten : (10 : ℚ) ≠ 0 := by norm_num
  obtain ⟨lower, upper⟩ := wholeUnits_spec m (top + 1 - (n + 1 : Nat))
  have unit : (0 : ℚ) < 10 ^ (top + 1 - (n + 1 : Nat)) := by positivity
  have first : (10 : ℚ) ^ top = 10 ^ n * 10 ^ (top + 1 - (n + 1 : Nat)) := by
    rw [← zpow_natCast, ← zpow_add₀ ten]
    congr 1
    push_cast
    ring
  have last : (10 : ℚ) ^ (top + 1) = 10 ^ (n + 1) * 10 ^ (top + 1 - (n + 1 : Nat)) := by
    rw [← zpow_natCast, ← zpow_add₀ ten]
    congr 1
    push_cast
    ring
  rw [first] at low
  rw [last] at high
  generalize wholeUnits m (top + 1 - (n + 1 : Nat)) = floor at lower upper ⊢
  constructor
  · have more : (10 : ℚ) ^ n < floor + 1 := lt_of_mul_lt_mul_right (low.trans_lt upper) unit.le
    have more : 10 ^ n < floor + 1 := by exact_mod_cast more
    have := Nat.one_le_pow n 10 (by decide)
    omega
  · have less : (floor : ℚ) < 10 ^ (n + 1) := lt_of_mul_lt_mul_right (lower.trans_lt high) unit.le
    exact_mod_cast less

theorem dropZeros_spec (steps : Nat) {d : Decimal} (h : 0 < d.coefficient) :
    (Decimal.dropZeros steps d).value = d.value ∧ 0 < (Decimal.dropZeros steps d).coefficient ∧
      (Decimal.dropZeros steps d).coefficient ≤ d.coefficient := by
  induction steps generalizing d with
  | zero => exact ⟨rfl, h, le_rfl⟩
  | succ steps ih =>
    rw [Decimal.dropZeros]
    split_ifs with zero
    · obtain ⟨c, hc⟩ : ∃ c, d.coefficient = 10 * c := ⟨d.coefficient / 10, by omega⟩
      have quotient : d.coefficient / 10 = c := by omega
      obtain ⟨same, positive, less⟩ := ih (d := ⟨d.coefficient / 10, d.exponent + 1⟩)
        (show 0 < d.coefficient / 10 by omega)
      refine ⟨same.trans ?_, positive, less.trans (Nat.div_le_self _ _)⟩
      rw [Decimal.value, Decimal.value, quotient, hc, zpow_add_one₀ (by norm_num)]
      push_cast
      ring
    · exact ⟨rfl, h, le_rfl⟩

/-- The shortest decimal of a magnitude rounds to it. -/
theorem shortest_spec (positive : 0 < m) (finite : m < infinity) :
    Rounds (Decimal.shortest m).value m ∧ 0 < (Decimal.shortest m).coefficient ∧
      (Decimal.shortest m).coefficient ≤ 10 ^ 17 := by
  obtain ⟨j, hj⟩ : ∃ j, m = j + 1 := ⟨m - 1, by omega⟩
  obtain ⟨top, ht⟩ : ∃ top, top = Decimal.decimalLog ((Interval.ofMagnitude m).value *
    (Interval.ofMagnitude m).num) (Interval.ofMagnitude m).den := ⟨_, rfl⟩
  obtain ⟨low, high⟩ :=
    decimalLog_spec (den_ofMagnitude_pos m) (ratio_ofMagnitude m) positive finite
  rw [← ht] at low high
  obtain ⟨d, found⟩ : ∃ d, (List.range 17).findSome?
      (fun n => (Interval.ofMagnitude m).onGrid? top (n + 1)) = some d := by
    rw [← Option.isSome_iff_exists, List.findSome?_isSome_iff]
    obtain ⟨d, hd⟩ := exists_onGrid? hj low
    exact ⟨16, by simp, by simp [hd]⟩
  obtain ⟨n, hn, hd⟩ := List.exists_of_findSome?_eq_some found
  rw [List.mem_range] at hn
  have shape : Decimal.shortest m = Decimal.dropZeros 17 d := by
    unfold Decimal.shortest
    dsimp only
    rw [← ht, found, Option.getD_some]
  obtain ⟨e, he, inside, neighbour⟩ | ⟨none, -⟩ := onGrid?_cases m top (n + 1)
  · obtain rfl : d = e := Option.some.inj (hd.symm.trans he)
    obtain ⟨least, most⟩ := wholeUnits_bounds low high n
    have many : 10 ^ (n + 1) ≤ 10 ^ 17 := Nat.pow_le_pow_right (by decide) (by omega)
    have coefficient : 0 < d.coefficient ∧ d.coefficient ≤ 10 ^ 17 := by
      rcases neighbour with rfl | rfl <;> dsimp only <;> omega
    obtain ⟨same, positive, less⟩ := dropZeros_spec 17 coefficient.1
    rw [shape, same]
    exact ⟨rounds_of_contains hj finite inside, positive, less.trans coefficient.2⟩
  · rw [hd] at none
    cases none

end Binary64

end AccountVault
