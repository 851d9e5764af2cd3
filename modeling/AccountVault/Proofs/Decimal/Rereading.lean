import Mathlib
import AccountVault.Proofs.Decimal.Shortest

/-!
# Reading written decimals

A decimal is read by rounding its digits and scaling the result by a rounded power of ten, so up to
three roundings are made where one would be needed. Where the digits are exact, up to two to the
fifty-third, and the power of ten is exact too, up to the twenty-second, only one rounding is left
and the shortest decimal of a magnitude is read as that magnitude. Elsewhere the result may be
another magnitude, but it is always finite: the decimals of the largest magnitudes do not overflow
either.
-/

namespace AccountVault

/-- A decimal as its digits and its exponent are read from its text: a whole number that is written
positionally has a zero after its point. -/
def Decimal.spelled (d : Decimal) : Decimal :=
  if 0 ≤ d.exponent ∧ ((Nat.toDigits 10 d.coefficient).length : Int) + d.exponent ≤ 16 then
    ⟨d.coefficient * 10 ^ (d.exponent.toNat + 1), -1⟩
  else d

theorem Decimal.value_spelled (d : Decimal) : d.spelled.value = d.value := by
  unfold spelled
  split_ifs with whole
  · obtain ⟨n, hn⟩ := Int.eq_ofNat_of_zero_le whole.1
    simp only [value, hn, Int.toNat_natCast, pow_succ, zpow_natCast]
    push_cast
    rw [zpow_neg, zpow_one]
    field_simp
  · rfl

namespace Binary64

variable {m : Nat}

theorem exists_value_eq {n s : Nat} (small : n ≤ 2 ^ 53) (bounded : s ≤ 900) :
    ∃ m, m < infinity ∧ value m = n * 2 ^ s := by
  have two : (2 : ℚ) ≠ 0 := by norm_num
  have room (b r : Nat) (hb : b ≤ 2000) (hr : r ≤ 2 ^ 53) : b * leadingBit + r < infinity := by
    unfold infinity
    rw [leadingBit_eq]
    omega
  rcases Nat.eq_zero_or_pos n with rfl | positive
  · exact ⟨0, by decide, by simp [value_zero]⟩
  by_cases top : n = 2 ^ 53
  · refine ⟨(1074 + s) * leadingBit + 2 ^ 53, room _ _ (by omega) le_rfl, ?_⟩
    rw [value_grid (by omega) le_rfl, top,
      show (((1074 + s : Nat) : Int) - 1074) = (s : Int) by push_cast; ring, zpow_natCast]
  · have low := Nat.log2_self_le positive.ne'
    have high := Nat.lt_log2_self (n := n)
    have few : n.log2 ≤ 52 := by
      have := (Nat.log2_lt positive.ne').2 (show n < 2 ^ 53 by omega)
      omega
    obtain ⟨k, hk⟩ : ∃ k, n.log2 + k = 52 := ⟨52 - n.log2, by omega⟩
    have normal : 2 ^ 52 ≤ n * 2 ^ k := by
      rw [← hk, pow_add]
      exact Nat.mul_le_mul_right _ low
    have less : n * 2 ^ k < 2 ^ 53 := by
      calc n * 2 ^ k < 2 ^ (n.log2 + 1) * 2 ^ k := by gcongr
        _ = 2 ^ 53 := by rw [← pow_add]; congr 1; omega
    refine ⟨(1022 + n.log2 + s) * leadingBit + n * 2 ^ k, room _ _ (by omega) less.le, ?_⟩
    rw [value_grid (.inl normal) less.le,
      show (((1022 + n.log2 + s : Nat) : Int) - 1074) = (s : Int) - (k : Int) by push_cast; omega,
      zpow_sub₀ two, zpow_natCast, zpow_natCast]
    push_cast
    field_simp

theorem value_nearest_of_exact {n s : Nat} (small : n ≤ 2 ^ 53) (bounded : s ≤ 900) :
    value (nearest (n * 2 ^ s) 1) = n * 2 ^ s := by
  obtain ⟨m, finite, exact⟩ := exists_value_eq small bounded
  have rounds : Rounds ((n * 2 ^ s : Nat) / (1 : Nat)) m := by
    have := rounds_value finite.le
    rw [exact] at this
    simpa using this
  rw [nearest_eq Nat.one_pos rounds, exact]

theorem value_powerOfTen {k : Nat} (h : k ≤ 22) : value (powerOfTen k) = 10 ^ k := by
  have five : 5 ^ k ≤ 2 ^ 53 :=
    (Nat.pow_le_pow_right (by decide) h).trans (by norm_num)
  have exact := value_nearest_of_exact five (s := k) (by omega)
  have ten : Nat.pow 10 k = 5 ^ k * 2 ^ k := by
    rw [← mul_pow]
    rfl
  rw [powerOfTen, ten, exact]
  push_cast
  rw [← mul_pow]
  norm_num

theorem ofDecimal?_of_exact {digits : Nat} {e : Int} (small : digits ≤ 2 ^ 53)
    (near : e.natAbs ≤ 22) (h : Rounds (Decimal.value ⟨digits, e⟩) m) (finite : m < infinity) :
    ofDecimal? digits e = some m := by
  have exact : value (nearest digits 1) = digits := by
    have := value_nearest_of_exact small (s := 0) (by omega)
    simpa using this
  have power := value_powerOfTen near
  rw [ofDecimal?, scale?, if_pos (by omega)]
  dsimp only
  by_cases up : 0 ≤ e
  · obtain ⟨n, rfl⟩ := Int.eq_ofNat_of_zero_le up
    have rounds := rounds_times (nearest digits 1) (powerOfTen n)
    rw [Int.natAbs_natCast] at power
    rw [exact, power] at rounds
    have same : m = times (nearest digits 1) (powerOfTen n) :=
      h.unique (by simpa [Decimal.value] using rounds)
    rw [if_pos up, Int.toNat_natCast, ← same, if_neg (by omega)]
  · have positive : 0 < powerOfTen e.natAbs := by
      by_contra zero
      rw [show powerOfTen e.natAbs = 0 by omega, value_zero] at power
      exact absurd power (by positivity)
    have rounds := rounds_dividedBy (nearest digits 1) positive
    have quotient : (digits : ℚ) / 10 ^ e.natAbs = Decimal.value ⟨digits, e⟩ := by
      obtain ⟨n, rfl⟩ : ∃ n : Nat, e = -(n : Int) := ⟨e.natAbs, by omega⟩
      rw [Decimal.value, zpow_neg, zpow_natCast, div_eq_mul_inv, Int.natAbs_neg, Int.natAbs_natCast]
    rw [exact, power, quotient] at rounds
    rw [if_neg up, h.unique rounds]

theorem nearest_le_nearest {a b : Nat} (h : a ≤ b) : nearest a 1 ≤ nearest b 1 := by
  refine (rounds_nearest a Nat.one_pos).le_of_le (rounds_nearest b Nat.one_pos) ?_
  have : (a : ℚ) ≤ b := by exact_mod_cast h
  simpa using this

theorem powerOfTen_le_powerOfTen {j k : Nat} (h : j ≤ k) : powerOfTen j ≤ powerOfTen k :=
  nearest_le_nearest (Nat.pow_le_pow_right (by decide) h)

theorem value_nonneg (m : Nat) : 0 ≤ value m := by
  unfold value
  positivity

theorem times_le_times {a a' b b' : Nat} (h : a ≤ a') (h' : b ≤ b') : times a b ≤ times a' b' := by
  refine (rounds_times a b).le_of_le (rounds_times a' b') ?_
  exact mul_le_mul (strictMono_value.monotone h) (strictMono_value.monotone h') (value_nonneg b)
    (value_nonneg a')

theorem one_le_value_powerOfTen (k : Nat) : 1 ≤ value (powerOfTen k) := by
  have one := value_powerOfTen (Nat.zero_le 22)
  rw [pow_zero] at one
  rw [← one]
  exact strictMono_value.monotone (powerOfTen_le_powerOfTen (Nat.zero_le k))

theorem dividedBy_le {left right : Nat} (finite : left ≤ infinity) (h : 1 ≤ value right) :
    dividedBy left right ≤ left := by
  have positive : 0 < right := by
    by_contra zero
    rw [show right = 0 by omega, value_zero] at h
    norm_num at h
  refine (rounds_dividedBy left positive).le_of_le (rounds_value finite) ?_
  exact div_le_self (value_nonneg left) h

theorem scale?_lt {steps : Nat} {e : Int} {k : Nat} (finite : m < infinity)
    (h : scale? steps m e = some k) : k < infinity := by
  induction steps generalizing m e with
  | zero =>
    obtain rfl := Option.some.inj h
    exact finite
  | succ steps ih =>
    have divided (n : Nat) : dividedBy m (powerOfTen n) < infinity :=
      (dividedBy_le finite.le (one_le_value_powerOfTen n)).trans_lt finite
    rw [scale?] at h
    dsimp only at h
    split_ifs at h with near up product zero up
    · obtain rfl := Option.some.inj h
      have := (rounds_times m (powerOfTen e.toNat)).bounded
      omega
    · obtain rfl := Option.some.inj h
      exact divided _
    · obtain rfl := Option.some.inj h
      omega
    · exact ih (divided 308) h

theorem nearest_lt {digits : Nat} (small : digits < 2 ^ 64) : nearest digits 1 < infinity := by
  obtain ⟨n, finite, exact⟩ := exists_value_eq (n := 1) (s := 64) (by norm_num) (by norm_num)
  have rounds : Rounds ((2 ^ 64 : Nat) / (1 : Nat)) n := by
    have := rounds_value finite.le
    rw [exact, Nat.cast_one, one_mul] at this
    rw [Nat.cast_one, div_one, Nat.cast_pow, Nat.cast_ofNat]
    exact this
  have least := nearest_le_nearest small.le
  rw [nearest_eq Nat.one_pos rounds] at least
  omega

theorem ofDecimal?_lt {digits : Nat} (small : digits < 2 ^ 64) {e : Int} {k : Nat}
    (h : ofDecimal? digits e = some k) : k < infinity :=
  scale?_lt (nearest_lt small) h

theorem le_exponent_of_rounds {d : Decimal} (h : Rounds d.value m) (positive : 0 < m)
    (short : d.coefficient ≤ 10 ^ 17) : -1000 ≤ d.exponent := by
  obtain ⟨c, e⟩ := d
  dsimp only at short ⊢
  by_contra less
  have few : (c : ℚ) ≤ 10 ^ 17 := by exact_mod_cast short
  have most : Decimal.value ⟨c, e⟩ ≤ 10 ^ (e + 17) := by
    rw [zpow_add₀ (by norm_num), mul_comm]
    exact mul_le_mul_of_nonneg_right few (by positivity)
  have tiny : (10 : ℚ) ^ (e + 17) ≤ 2 ^ (-1076 : Int) := by
    rw [zpow_neg, ← neg_neg (e + 17), zpow_neg]
    refine inv_anti₀ (by positivity) ?_
    exact_mod_cast two_pow_le_ten_zpow (a := -(e + 17)) (n := 1076) (by omega)
  obtain ⟨j, rfl⟩ : ∃ j, m = j + 1 := ⟨m - 1, by omega⟩
  have least : (2 : ℚ) ^ (-1074 : Int) / 2 ≤ mid j := by
    have := le_value positive
    have := value_nonneg j
    unfold mid
    linarith
  have room : (2 : ℚ) ^ (-1076 : Int) < 2 ^ (-1074 : Int) / 2 := by
    rw [show (-1076 : Int) = -1074 - 2 by norm_num, zpow_sub₀ (by norm_num)]
    exact div_lt_div_of_pos_left (by positivity) (by norm_num) (by norm_num)
  exact absurd ((least.trans (h.above j rfl).1).trans (most.trans tiny)) room.not_ge

theorem exponent_le_of_rounds {d : Decimal} (h : Rounds d.value m) (finite : m < infinity)
    (positive : 0 < d.coefficient) : d.exponent ≤ 308 := by
  obtain ⟨c, e⟩ := d
  dsimp only at positive ⊢
  by_contra more
  have one : (1 : ℚ) ≤ c := by exact_mod_cast positive
  have least : (10 : ℚ) ^ (309 : Int) ≤ Decimal.value ⟨c, e⟩ :=
    calc (10 : ℚ) ^ (309 : Int) ≤ 10 ^ e := zpow_le_zpow_right₀ (by norm_num) (by omega)
      _ ≤ c * 10 ^ e := le_mul_of_one_le_left (by positivity) one
  have huge : (2 : ℚ) ^ (1024 : Int) ≤ 10 ^ (309 : Int) := by
    exact_mod_cast two_pow_le_ten_zpow (a := 309) (n := 1024) (by norm_num)
  have top : value (m + 1) ≤ 2 ^ (1024 : Int) := by
    rw [← value_infinity]
    exact strictMono_value.monotone finite
  have below := (h.below finite).1.trans_lt (mid_lt_value_succ m)
  exact absurd (huge.trans least) (below.trans_le top).not_ge

theorem exponent_shortest_bounds (positive : 0 < m) (finite : m < infinity) :
    -1000 ≤ (Decimal.shortest m).exponent ∧ (Decimal.shortest m).exponent ≤ 308 := by
  obtain ⟨rounds, some, short⟩ := shortest_spec positive finite
  exact ⟨le_exponent_of_rounds rounds positive short, exponent_le_of_rounds rounds finite some⟩

theorem exists_scale?_of_neg (steps : Nat) {e : Int} (down : e < 0) :
    ∃ k, scale? steps m e = some k := by
  induction steps generalizing m e with
  | zero => exact ⟨m, rfl⟩
  | succ steps ih =>
    rw [scale?]
    split_ifs with near up zero up
    · omega
    · exact ⟨_, rfl⟩
    · exact ⟨0, rfl⟩
    · omega
    · exact ih (by omega)

def lastMid : Nat := (2 ^ 54 - 3) * 2 ^ 970

theorem mid_eq_lastMid : mid (infinity - 2) = lastMid := by
  have low := value_grid (b := 2045) (r := 2 ^ 53 - 2) (by omega) (by omega)
  have high := value_grid (b := 2045) (r := 2 ^ 53 - 1) (by omega) (by omega)
  rw [show 2045 * leadingBit + (2 ^ 53 - 2) = infinity - 2 by decide] at low
  rw [show 2045 * leadingBit + (2 ^ 53 - 1) = infinity - 2 + 1 by decide] at high
  have unit : (2 : ℚ) ^ (((2045 : Nat) : Int) - 1074) = 2 * 2 ^ 970 := by
    rw [show ((2045 : Nat) : Int) - 1074 = ((970 + 1 : Nat) : Int) from rfl, zpow_natCast, pow_succ,
      mul_comm]
  rw [mid, low, high, unit, lastMid, Nat.cast_mul, Nat.cast_pow]
  generalize (2 : ℚ) ^ 970 = u
  push_cast
  ring

theorem times_powerOfTen_lt {c n : Nat} (short : c ≤ 10 ^ 17) (bounded : n ≤ 308)
    (h : c * 10 ^ n ≤ lastMid) : times (nearest c 1) (powerOfTen n) < infinity := by
  rcases le_or_gt n 290 with small | large
  · have tried : times (nearest (10 ^ 17) 1) (powerOfTen 290) < infinity := by decide +kernel
    exact lt_of_le_of_lt
      (times_le_times (nearest_le_nearest short) (powerOfTen_le_powerOfTen small)) tried
  · have tried : ∀ k < 18, times (nearest (lastMid / 10 ^ (291 + k)) 1) (powerOfTen (291 + k)) <
        infinity := by
      decide +kernel
    obtain ⟨k, rfl⟩ := Nat.exists_eq_add_of_le (show 291 ≤ n by omega)
    refine lt_of_le_of_lt (times_le_times (nearest_le_nearest ?_) le_rfl) (tried k (by omega))
    exact (Nat.le_div_iff_mul_le (by positivity)).2 h

theorem exists_ofDecimal?_of_nonneg (positive : 0 < m) (finite : m < infinity)
    (up : 0 ≤ (Decimal.shortest m).exponent) :
    ∃ k, ofDecimal? (Decimal.shortest m).coefficient (Decimal.shortest m).exponent = some k := by
  by_cases top : m = infinity - 1
  · -- Of the decimals that round to the largest magnitude, some overflow; the shortest does not.
    have shortest : Decimal.shortest m = ⟨17976931348623157, 292⟩ := by
      rw [top]
      decide +kernel
    rw [shortest]
    exact ⟨infinity - 1, by decide +kernel⟩
  · obtain ⟨rounds, -, short⟩ := shortest_spec positive finite
    obtain ⟨-, bounded⟩ := exponent_shortest_bounds positive finite
    obtain ⟨⟨c, e⟩, hd⟩ : ∃ d, d = Decimal.shortest m := ⟨_, rfl⟩
    rw [← hd] at rounds short bounded up ⊢
    obtain ⟨n, rfl⟩ := Int.eq_ofNat_of_zero_le up
    dsimp only at short bounded
    have below : c * 10 ^ n ≤ lastMid := by
      have least : Decimal.value ⟨c, n⟩ ≤ mid (infinity - 2) :=
        (rounds.below finite).1.trans (strictMono_mid.monotone (by omega))
      rw [mid_eq_lastMid, Decimal.value, zpow_natCast] at least
      exact_mod_cast least
    have product := times_powerOfTen_lt short (by omega) below
    refine ⟨times (nearest c 1) (powerOfTen n), ?_⟩
    dsimp only at up ⊢
    rw [ofDecimal?, scale?, if_pos (by omega), if_pos up, Int.toNat_natCast]
    exact if_neg product.ne

def reread (m : Nat) : Nat :=
  if m = 0 then 0
  else
    let d := (Decimal.shortest m).spelled
    (ofDecimal? d.coefficient d.exponent).getD 0

theorem ofDecimal?_spelled (positive : 0 < m) (finite : m < infinity) :
    ofDecimal? (Decimal.shortest m).spelled.coefficient (Decimal.shortest m).spelled.exponent =
      some (reread m) := by
  have accepted : ∃ k, ofDecimal? (Decimal.shortest m).spelled.coefficient
      (Decimal.shortest m).spelled.exponent = some k := by
    by_cases down : (Decimal.shortest m).spelled.exponent < 0
    · exact exists_scale?_of_neg 4 down
    · have plain : (Decimal.shortest m).spelled = Decimal.shortest m := by
        unfold Decimal.spelled at down ⊢
        split_ifs at down ⊢
        · exact absurd (show (-1 : Int) < 0 by decide) down
        · rfl
      rw [plain] at down ⊢
      exact exists_ofDecimal?_of_nonneg positive finite (by omega)
  obtain ⟨k, hk⟩ := accepted
  simp [reread, positive.ne', hk]

def Steady (m : Nat) : Prop :=
  m = 0 ∨ ((Decimal.shortest m).spelled.coefficient ≤ 2 ^ 53 ∧
    (Decimal.shortest m).spelled.exponent.natAbs ≤ 22)

instance (m : Nat) : Decidable (Steady m) := by
  unfold Steady; infer_instance

theorem Steady.reread_eq (h : Steady m) (finite : m < infinity) : reread m = m := by
  rcases h with rfl | ⟨small, near⟩
  · rfl
  · rcases Nat.eq_zero_or_pos m with rfl | positive
    · rfl
    · have rounds := (shortest_spec positive finite).1
      rw [← Decimal.value_spelled] at rounds
      have exact := ofDecimal?_of_exact small near rounds finite
      rw [ofDecimal?_spelled positive finite] at exact
      exact Option.some.inj exact

end Binary64

end AccountVault
