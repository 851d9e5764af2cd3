import Mathlib
import AccountVault.Decimal.Binary64

/-!
# Rounding to the nearest magnitude

The magnitudes stand for increasing rational numbers, and the middles between neighbours cut the
line into the intervals of the numbers that round to one magnitude. A middle belongs to the even one
of its two neighbours, and what lies beyond the last middle rounds to infinity. That a number lies
in the interval of a magnitude is what `Rounds` says; the intervals are in the order of their
magnitudes, so rounding is monotone and each number rounds to one magnitude only.
-/

namespace AccountVault.Binary64

theorem powerRatio_pos {b : Nat} (h : 0 < b) (e : Int) :
    0 < (powerRatio b e).1 ∧ 0 < (powerRatio b e).2 := by
  unfold powerRatio
  have power (n : Nat) : 0 < Nat.pow b n := Nat.pow_pos h
  split_ifs
  · exact ⟨power _, Nat.one_pos⟩
  · exact ⟨Nat.one_pos, power _⟩

theorem powerRatio_eq {b : Nat} (h : 0 < b) (e : Int) :
    ((powerRatio b e).1 : ℚ) / (powerRatio b e).2 = (b : ℚ) ^ e := by
  have pos : (b : ℚ) ≠ 0 := by exact_mod_cast h.ne'
  unfold powerRatio
  split_ifs with sign
  · obtain ⟨n, rfl⟩ := Int.eq_ofNat_of_zero_le sign
    simp
  · obtain ⟨n, hn⟩ := Int.eq_ofNat_of_zero_le (show 0 ≤ -e by omega)
    obtain rfl : e = -(n : Int) := by omega
    simp

def value (m : Nat) : ℚ := significand m * 2 ^ exponent m

theorem ratio_snd_pos (m : Nat) : 0 < (ratio m).2 := (powerRatio_pos (by decide) _).2

theorem ratio_eq (m : Nat) : ((ratio m).1 : ℚ) / (ratio m).2 = value m := by
  have power := powerRatio_eq (b := 2) (by decide) (exponent m)
  simp only [ratio, value, Nat.cast_mul]
  rw [mul_div_assoc, power]
  norm_num

theorem leadingBit_eq : leadingBit = 2 ^ 52 := by decide

theorem significand_grid {b r : Nat} (normal : 2 ^ 52 ≤ r ∨ b = 0) (small : r < 2 ^ 53) :
    significand (b * leadingBit + r) = r := by
  unfold significand
  rw [leadingBit_eq]
  split_ifs with subnormal
  · omega
  · have rest : (b * 2 ^ 52 + r) % 2 ^ 52 = r - 2 ^ 52 := by omega
    omega

theorem exponent_grid {b r : Nat} (normal : 2 ^ 52 ≤ r ∨ b = 0) (small : r < 2 ^ 53) :
    exponent (b * leadingBit + r) = (b : Int) - 1074 := by
  unfold exponent
  rw [leadingBit_eq]
  split_ifs with subnormal
  · omega
  · have quotient : (b * 2 ^ 52 + r) / 2 ^ 52 = b + 1 := by omega
    rw [quotient]
    push_cast
    ring

theorem value_grid {b r : Nat} (normal : 2 ^ 52 ≤ r ∨ b = 0) (small : r ≤ 2 ^ 53) :
    value (b * leadingBit + r) = r * 2 ^ ((b : Int) - 1074) := by
  by_cases top : r = 2 ^ 53
  · -- The end of one binade is the start of the next.
    have next : b * leadingBit + r = (b + 1) * leadingBit + 2 ^ 52 := by
      rw [top, leadingBit_eq]
      ring
    rw [next, value, significand_grid (by omega) (by omega), exponent_grid (by omega) (by omega),
      top, show (((b + 1 : Nat) : Int) - 1074) = ((b : Int) - 1074) + 1 by push_cast; ring,
      zpow_add_one₀ (by norm_num)]
    push_cast
    ring
  · rw [value, significand_grid normal (by omega), exponent_grid normal (by omega)]

theorem exists_grid (m : Nat) :
    ∃ b r, m = b * leadingBit + r ∧ r < 2 ^ 53 ∧ (2 ^ 52 ≤ r ∨ b = 0) := by
  rw [leadingBit_eq]
  by_cases subnormal : m < 2 ^ 52
  · exact ⟨0, m, by omega⟩
  · exact ⟨m / 2 ^ 52 - 1, 2 ^ 52 + m % 2 ^ 52, by omega⟩

theorem value_succ (m : Nat) : value (m + 1) = value m + 2 ^ exponent m := by
  obtain ⟨b, r, rfl, small, normal⟩ := exists_grid m
  have next := value_grid (b := b) (r := r + 1) (by omega) (by omega)
  rw [← Nat.add_assoc] at next
  rw [next, value_grid normal small.le, exponent_grid normal small]
  push_cast
  ring

theorem value_lt_value_succ (m : Nat) : value m < value (m + 1) := by
  rw [value_succ]
  have power : (0 : ℚ) < 2 ^ exponent m := by positivity
  linarith

theorem strictMono_value : StrictMono value := strictMono_nat_of_lt_succ value_lt_value_succ

theorem value_zero : value 0 = 0 := by simp [value, significand, leadingBit]

theorem value_pos {m : Nat} (h : 0 < m) : 0 < value m := by
  rw [← value_zero]
  exact strictMono_value h

def mid (m : Nat) : ℚ := (value m + value (m + 1)) / 2

theorem value_lt_mid (m : Nat) : value m < mid m := by
  have := value_lt_value_succ m
  unfold mid
  linarith

theorem mid_lt_value_succ (m : Nat) : mid m < value (m + 1) := by
  have := value_lt_value_succ m
  unfold mid
  linarith

theorem strictMono_mid : StrictMono mid :=
  strictMono_nat_of_lt_succ fun m => (mid_lt_value_succ m).trans (value_lt_mid (m + 1))

structure Rounds (v : ℚ) (m : Nat) : Prop where
  above : ∀ j, m = j + 1 → mid j ≤ v ∧ (v = mid j → m % 2 = 0)
  below : m < infinity → v ≤ mid m ∧ (v = mid m → m % 2 = 0)
  bounded : m ≤ infinity

theorem Rounds.le_of_le {v w : ℚ} {m n : Nat} (h : Rounds v m) (h' : Rounds w n) (vw : v ≤ w) :
    m ≤ n := by
  by_contra less
  obtain ⟨j, rfl⟩ : ∃ j, m = j + 1 := ⟨m - 1, by omega⟩
  obtain ⟨lower, lowerTie⟩ := h.above j rfl
  obtain ⟨upper, upperTie⟩ := h'.below (by have := h.bounded; omega)
  have order : mid n ≤ mid j := strictMono_mid.monotone (by omega)
  -- Both numbers lie on the middle between the two, which belongs to the even one.
  have same : mid n = mid j := by linarith
  obtain rfl : n = j := strictMono_mid.injective same
  have even := upperTie (by linarith)
  have even' := lowerTie (by linarith)
  omega

theorem Rounds.unique {v : ℚ} {m n : Nat} (h : Rounds v m) (h' : Rounds v n) : m = n :=
  Nat.le_antisymm (h.le_of_le h' le_rfl) (h'.le_of_le h le_rfl)

theorem rounds_value {m : Nat} (h : m ≤ infinity) : Rounds (value m) m where
  above j hj := by
    subst hj
    have := mid_lt_value_succ j
    exact ⟨this.le, fun same => absurd same this.ne'⟩
  below _ := by
    have := value_lt_mid m
    exact ⟨this.le, fun same => absurd same this.ne⟩
  bounded := h

/-- An integer that is nearest to a number, and even if there are two. -/
structure HalfEven (t : ℚ) (r : Nat) : Prop where
  above : (r : ℚ) - 1 / 2 ≤ t ∧ (t = r - 1 / 2 → r % 2 = 0)
  below : t ≤ r + 1 / 2 ∧ (t = r + 1 / 2 → r % 2 = 0)

theorem halfEven_roundHalfEven (num : Nat) {den : Nat} (h : 0 < den) :
    HalfEven (num / den) (roundHalfEven num den) := by
  have pos : (0 : ℚ) < den := by exact_mod_cast h
  obtain ⟨f, rest, hf, hr⟩ : ∃ f rest, num / den = f ∧ num % den = rest := ⟨_, _, rfl, rfl⟩
  have less : rest < den := hr ▸ Nat.mod_lt _ h
  have split : num = den * f + rest := by rw [← hf, ← hr, Nat.div_add_mod]
  have quotient : (num / den : ℚ) = f + rest / den := by
    rw [split]
    push_cast
    field_simp
  -- The rest in halves of the denominator.
  have low : (0 : ℚ) ≤ rest / den := by positivity
  have high : (rest / den : ℚ) < 1 := by
    rw [div_lt_one pos]
    exact_mod_cast less
  have half_le : 2 * rest ≤ den ↔ (rest / den : ℚ) ≤ 1 / 2 := by
    rw [div_le_div_iff₀ pos (by norm_num), one_mul, mul_comm]
    exact_mod_cast Iff.rfl
  have le_half : den ≤ 2 * rest ↔ (1 / 2 : ℚ) ≤ rest / den := by
    rw [div_le_div_iff₀ (by norm_num) pos, one_mul, mul_comm (rest : ℚ)]
    exact_mod_cast Iff.rfl
  simp only [roundHalfEven, hf, hr]
  rw [quotient]
  split_ifs with up
  · have atLeast := le_half.1 (by omega)
    refine ⟨⟨?_, fun tie => ?_⟩, ?_, fun tie => ?_⟩
    · push_cast
      linarith
    · push_cast at tie
      have := half_le.2 (by linarith)
      omega
    · push_cast
      linarith
    · push_cast at tie
      linarith
  · have atMost := half_le.1 (by omega)
    refine ⟨⟨?_, fun tie => ?_⟩, ?_, fun tie => ?_⟩
    · linarith
    · linarith
    · linarith
    · have := le_half.2 (by linarith)
      omega

theorem binaryLog_spec {num den : Nat} (hn : 0 < num) (hd : 0 < den) :
    (2 : ℚ) ^ binaryLog num den ≤ num / den ∧ (num / den : ℚ) < 2 ^ (binaryLog num den + 1) := by
  have two : (2 : ℚ) ≠ 0 := by norm_num
  have dpos : (0 : ℚ) < den := by exact_mod_cast hd
  have numLow : ((2 : ℚ) ^ num.log2) ≤ num := by exact_mod_cast Nat.log2_self_le hn.ne'
  have numHigh : (num : ℚ) < 2 ^ (num.log2 + 1) := by exact_mod_cast Nat.lt_log2_self
  have denLow : ((2 : ℚ) ^ den.log2) ≤ den := by exact_mod_cast Nat.log2_self_le hd.ne'
  have denHigh : (den : ℚ) < 2 ^ (den.log2 + 1) := by exact_mod_cast Nat.lt_log2_self
  obtain ⟨guess, hg⟩ : ∃ guess : Int, guess = (num.log2 : Int) - den.log2 := ⟨_, rfl⟩
  -- The quotient lies within one power of two of the guess.
  have lower : (2 : ℚ) ^ (guess - 1) ≤ num / den := by
    rw [le_div_iff₀ dpos]
    calc (2 : ℚ) ^ (guess - 1) * den ≤ 2 ^ (guess - 1) * 2 ^ (den.log2 + 1) := by
          gcongr
      _ = 2 ^ num.log2 := by
          rw [← zpow_natCast, ← zpow_natCast, ← zpow_add₀ two]
          congr 1
          push_cast
          omega
      _ ≤ num := numLow
  have upper : (num / den : ℚ) < 2 ^ (guess + 1) := by
    rw [div_lt_iff₀ dpos]
    calc (num : ℚ) < 2 ^ (num.log2 + 1) := numHigh
      _ = 2 ^ (guess + 1) * 2 ^ den.log2 := by
          rw [← zpow_natCast, ← zpow_natCast, ← zpow_add₀ two]
          congr 1
          push_cast
          omega
      _ ≤ 2 ^ (guess + 1) * den := by gcongr
  have test : (powerRatio 2 guess).1 * den ≤ num * (powerRatio 2 guess).2 ↔
      (2 : ℚ) ^ guess ≤ num / den := by
    have power := powerRatio_eq (b := 2) (by decide) guess
    have positive : (0 : ℚ) < (powerRatio 2 guess).2 := by
      exact_mod_cast (powerRatio_pos (by decide) guess).2
    rw [show ((2 : Nat) : ℚ) = 2 by norm_num] at power
    rw [← power, div_le_div_iff₀ positive dpos]
    exact_mod_cast Iff.rfl
  simp only [binaryLog, ← hg, test]
  split_ifs with fits
  · exact ⟨fits, upper⟩
  · refine ⟨lower, ?_⟩
    rw [sub_add_cancel]
    exact not_le.1 fits

theorem rounds_grid {v : ℚ} {b r : Nat} (near : HalfEven (v / 2 ^ ((b : Int) - 1074)) r)
    (small : v / 2 ^ ((b : Int) - 1074) < 2 ^ 53)
    (normal : 2 ^ 52 ≤ v / 2 ^ ((b : Int) - 1074) ∨ b = 0) :
    Rounds v (min (b * leadingBit + r) infinity) := by
  obtain ⟨t, ht⟩ : ∃ t, t = v / 2 ^ ((b : Int) - 1074) := ⟨_, rfl⟩
  have unit : (0 : ℚ) < 2 ^ ((b : Int) - 1074) := by positivity
  have hv : v = t * 2 ^ ((b : Int) - 1074) := by
    rw [ht]
    field_simp
  rw [← ht] at near small normal
  have rSmall : r ≤ 2 ^ 53 := by
    have := near.above.1
    have : (r : ℚ) < 2 ^ 53 + 1 := by linarith
    exact Nat.lt_succ_iff.1 (by exact_mod_cast this)
  have rNormal : 2 ^ 52 ≤ r ∨ b = 0 := by
    refine normal.imp_left fun large => ?_
    have := near.below.1
    have : (2 ^ 52 : ℚ) < r + 1 := by linarith
    exact Nat.lt_succ_iff.1 (by exact_mod_cast this)
  have parity : (b * leadingBit + r) % 2 = r % 2 := by
    rw [leadingBit_eq]
    omega
  obtain ⟨m, hm⟩ : ∃ m, m = b * leadingBit + r := ⟨_, rfl⟩
  have here : value m = r * 2 ^ ((b : Int) - 1074) := hm ▸ value_grid rNormal rSmall
  have below : v ≤ mid m ∧ (v = mid m → m % 2 = 0) := by
    by_cases top : r = 2 ^ 53
    · have less : v < mid m := by
        refine lt_trans ?_ (value_lt_mid m)
        rw [here, hv, top]
        push_cast
        gcongr
        linarith
      exact ⟨less.le, fun tie => absurd tie less.ne⟩
    · have next : value (m + 1) = (r + 1 : Nat) * 2 ^ ((b : Int) - 1074) := by
        rw [hm, Nat.add_assoc]
        exact value_grid (by omega) (by omega)
      have middle : mid m = (r + 1 / 2) * 2 ^ ((b : Int) - 1074) := by
        rw [mid, here, next]
        push_cast
        ring
      rw [middle, hv, hm, parity]
      refine ⟨by gcongr; exact near.below.1, fun tie => near.below.2 ?_⟩
      exact mul_right_cancel₀ unit.ne' tie
  have above : ∀ j, m = j + 1 → mid j ≤ v ∧ (v = mid j → m % 2 = 0) := by
    intro j hj
    by_cases bottom : r = 2 ^ 52 ∧ 0 < b
    · have less : mid j < v := by
        refine (mid_lt_value_succ j).trans_le ?_
        rw [← hj, here, hv, bottom.1]
        have large := normal.resolve_right (by omega)
        push_cast
        gcongr
        linarith
      exact ⟨less.le, fun tie => absurd tie less.ne'⟩
    · have positive : r ≠ 0 := by
        rintro rfl
        obtain rfl : b = 0 := by omega
        omega
      obtain ⟨r, rfl⟩ : ∃ s, r = s + 1 := ⟨r - 1, by omega⟩
      have previous : value j = r * 2 ^ ((b : Int) - 1074) := by
        rw [show j = b * leadingBit + r by omega]
        exact value_grid (by omega) (by omega)
      have middle : mid j = ((r + 1 : Nat) - 1 / 2) * 2 ^ ((b : Int) - 1074) := by
        rw [mid, previous, ← hj, here]
        push_cast
        ring
      rw [middle, hv, hm, parity]
      refine ⟨by gcongr; exact near.above.1, fun tie => near.above.2 ?_⟩
      exact mul_right_cancel₀ unit.ne' tie
  rw [← hm]
  rcases le_or_gt m infinity with finite | infinite
  · rw [min_eq_left finite]
    exact ⟨above, fun _ => below, finite⟩
  · rw [min_eq_right infinite.le]
    refine ⟨fun j hj => ?_, fun absurdly => absurd absurdly (lt_irrefl _), le_rfl⟩
    obtain ⟨k, rfl⟩ : ∃ k, m = k + 1 := ⟨m - 1, by omega⟩
    have less : mid j < v := (strictMono_mid (by omega)).trans_le (above k rfl).1
    exact ⟨less.le, fun tie => absurd tie less.ne'⟩

theorem rounds_nearest (num : Nat) {den : Nat} (hd : 0 < den) :
    Rounds (num / den) (nearest num den) := by
  unfold nearest
  split_ifs with zero
  · subst zero
    simpa [value_zero] using rounds_value (Nat.zero_le infinity)
  · obtain ⟨low, high⟩ := binaryLog_spec (Nat.pos_of_ne_zero zero) hd
    obtain ⟨unit, hu⟩ : ∃ unit, unit = max (binaryLog num den - 52) (-1074) := ⟨_, rfl⟩
    obtain ⟨b, hb⟩ := Int.eq_ofNat_of_zero_le (show 0 ≤ unit + 1074 by omega)
    have exponent : ((b : Int) - 1074) = unit := by omega
    have scaled : ((num * (powerRatio 2 unit).2 : Nat) / (den * (powerRatio 2 unit).1 : Nat) : ℚ) =
        num / den / 2 ^ ((b : Int) - 1074) := by
      have power := powerRatio_eq (b := 2) (by decide) unit
      rw [exponent, show (2 : ℚ) = (2 : Nat) by norm_num, ← power]
      push_cast
      rw [div_div_div_eq]
    simp only [← hu, hb, Int.toNat_natCast]
    have positive : 0 < den * (powerRatio 2 unit).1 :=
      Nat.mul_pos hd (powerRatio_pos (by decide) unit).1
    have near := halfEven_roundHalfEven (num * (powerRatio 2 unit).2) positive
    rw [scaled] at near
    refine rounds_grid near ?_ ?_
    · rw [exponent, div_lt_iff₀ (by positivity)]
      refine high.trans_le ?_
      rw [← zpow_natCast, ← zpow_add₀ (by norm_num)]
      exact zpow_le_zpow_right₀ (by norm_num) (by push_cast; omega)
    · by_cases least : b = 0
      · exact .inr least
      · left
        rw [exponent, le_div_iff₀ (by positivity)]
        refine le_trans ?_ low
        rw [← zpow_natCast, ← zpow_add₀ (by norm_num)]
        exact zpow_le_zpow_right₀ (by norm_num) (by push_cast; omega)

theorem nearest_eq {num den m : Nat} (hd : 0 < den) (h : Rounds (num / den) m) :
    nearest num den = m :=
  (rounds_nearest num hd).unique h

theorem rounds_times (left right : Nat) : Rounds (value left * value right) (times left right) := by
  have rounds := rounds_nearest ((ratio left).1 * (ratio right).1)
    (Nat.mul_pos (ratio_snd_pos left) (ratio_snd_pos right))
  push_cast at rounds
  rwa [mul_div_mul_comm, ratio_eq, ratio_eq] at rounds

theorem rounds_dividedBy (left : Nat) {right : Nat} (h : 0 < right) :
    Rounds (value left / value right) (dividedBy left right) := by
  have positive : 0 < (ratio right).1 := by
    have := value_pos h
    rw [← ratio_eq, div_pos_iff_of_pos_right (by exact_mod_cast ratio_snd_pos right)] at this
    exact_mod_cast this
  have rounds := rounds_nearest ((ratio left).1 * (ratio right).2)
    (Nat.mul_pos (ratio_snd_pos left) positive)
  push_cast at rounds
  rwa [← div_div_div_eq, ratio_eq, ratio_eq] at rounds

end AccountVault.Binary64
