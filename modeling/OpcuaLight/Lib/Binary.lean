import Mathlib.Algebra.Order.Round
import Mathlib.Data.Int.Log
import Mathlib.Data.Rat.Floor
import Mathlib.Tactic.Linarith
import Mathlib.Tactic.Positivity
import Mathlib.Tactic.Push
import Mathlib.Tactic.Ring

/-!
# Rounding to a binary format

The numbers of a binary floating-point format, rounding to the nearest of them with ties to even, and
what a number becomes with the range of the exponents. A number keeps its value exactly if it is in the
format (`round_eq_self`), and `round_lt_iff` says what is rounded below a bound.
-/

namespace Binary

/-! ## Integers -/

/-- The fraction is dropped. -/
def truncate (x : ℚ) : ℤ := if 0 ≤ x then ⌊x⌋ else ⌈x⌉

/-- The nearest integer, in a tie the even one. -/
def roundEven (x : ℚ) : ℤ :=
  if x - ⌊x⌋ < 1 / 2 then ⌊x⌋
  else if 1 / 2 < x - ⌊x⌋ then ⌊x⌋ + 1
  else if Even ⌊x⌋ then ⌊x⌋ else ⌊x⌋ + 1

@[simp] theorem truncate_intCast (n : ℤ) : truncate n = n := by simp [truncate]

theorem truncate_le_iff {x : ℚ} {n : ℤ} (hn : 0 ≤ n) : truncate x ≤ n ↔ x < n + 1 := by
  unfold truncate
  split_ifs with hx
  · rw [← Int.lt_add_one_iff, Int.floor_lt]
    push_cast
    rfl
  · have hn' : (0 : ℚ) ≤ n := by exact_mod_cast hn
    rw [Int.ceil_le]
    constructor <;> intro _ <;> linarith

theorem le_truncate_iff {x : ℚ} {n : ℤ} (hn : n ≤ 0) : n ≤ truncate x ↔ (n : ℚ) - 1 < x := by
  unfold truncate
  split_ifs with hx
  · have hn' : (n : ℚ) ≤ 0 := by exact_mod_cast hn
    rw [Int.le_floor]
    constructor <;> intro _ <;> linarith
  · rw [← Int.sub_one_lt_iff, Int.lt_ceil]
    push_cast
    rfl

/-- What is rounded below an integer: a tie is if the integer is odd. -/
theorem roundEven_lt_iff {x : ℚ} {n : ℤ} :
    roundEven x < n ↔ if Even n then x < n - 1 / 2 else x ≤ n - 1 / 2 := by
  have hlo : (⌊x⌋ : ℚ) ≤ x := Int.floor_le x
  have hhi : x < ⌊x⌋ + 1 := Int.lt_floor_add_one x
  unfold roundEven
  generalize ⌊x⌋ = f at hlo hhi
  rcases lt_trichotomy n (f + 1) with hn | rfl | hn
  · have hnf : (n : ℚ) ≤ f := by exact_mod_cast Int.lt_add_one_iff.mp hn
    constructor
    · intro h
      split_ifs at h <;> omega
    · intro h
      split_ifs at h <;> linarith
  -- the parity of the integer below decides the tie
  · have hodd : Even (f + 1) ↔ ¬ Even f := Int.even_add_one
    push_cast
    by_cases he : Even f
    · rw [if_pos he, if_neg (fun h => hodd.mp h he)]
      split_ifs with h1 h2
      · exact iff_of_true (by omega) (by linarith)
      · exact iff_of_false (by omega) (by linarith)
      · exact iff_of_true (by omega) (by linarith)
    · rw [if_neg he, if_pos (hodd.mpr he)]
      split_ifs with h1 h2
      · exact iff_of_true (by omega) (by linarith)
      · exact iff_of_false (by omega) (by linarith)
      · exact iff_of_false (by omega) (by linarith)
  · have hnf : (f : ℚ) + 1 + 1 ≤ n := by exact_mod_cast Int.add_one_le_iff.mpr hn
    constructor
    · intro _
      split_ifs <;> linarith
    · intro _
      split_ifs <;> omega

theorem le_roundEven {x : ℚ} {n : ℤ} (h : n ≤ x) : n ≤ roundEven x := by
  apply not_lt.mp
  rw [roundEven_lt_iff]
  split_ifs <;> linarith

theorem roundEven_le {x : ℚ} {n : ℤ} (h : x ≤ n) : roundEven x ≤ n := by
  rw [← Int.lt_add_one_iff, roundEven_lt_iff]
  push_cast
  split_ifs <;> linarith

@[simp] theorem roundEven_intCast (n : ℤ) : roundEven n = n :=
  le_antisymm (roundEven_le le_rfl) (le_roundEven le_rfl)

theorem roundEven_neg (x : ℚ) : roundEven (-x) = -roundEven x := by
  apply eq_of_forall_gt_iff
  intro n
  have hflip : -roundEven x < n ↔ ¬ roundEven x < -n + 1 := by omega
  rw [hflip, roundEven_lt_iff, roundEven_lt_iff]
  push_cast
  by_cases he : Even n
  · rw [if_pos he, if_neg (by simpa [Int.even_add_one] using he), not_le]
    constructor <;> intro _ <;> linarith
  · rw [if_neg he, if_pos (by simpa [Int.even_add_one] using he), not_lt]
    constructor <;> intro _ <;> linarith

/-! ## Formats -/

/-- The bits of a significand, the least exponent of its last bit, and the power of two that no finite
number reaches. -/
structure Format where
  precision : ℕ
  minExponent : ℤ
  maxExponent : ℤ

def binary64 : Format := ⟨53, -1074, 1024⟩

/-- What a number becomes in a format. -/
inductive Datum where
  | finite (x : ℚ)
  | infinite (negative : Bool)
  | nan
  deriving DecidableEq

namespace Format

variable (F : Format)

/-- The exponent of the last bit of the numbers next to a number. -/
def lastPlace (x : ℚ) : ℤ := max (Int.log 2 |x| + 1 - F.precision) F.minExponent

/-- The nearest number of the format, without a bound on the exponents. -/
def round (x : ℚ) : ℚ := roundEven (x / 2 ^ F.lastPlace x) * 2 ^ F.lastPlace x

def ofRat (x : ℚ) : Datum :=
  if |F.round x| < 2 ^ F.maxExponent then .finite (F.round x) else .infinite (decide (x < 0))

/-- The number has a significand of the format. -/
def Contains (x : ℚ) : Prop :=
  ∃ m e : ℤ, |m| < 2 ^ F.precision ∧ F.minExponent ≤ e ∧ x = m * 2 ^ e

@[simp] theorem lastPlace_neg (x : ℚ) : F.lastPlace (-x) = F.lastPlace x := by
  rw [lastPlace, abs_neg, lastPlace]

theorem round_neg (x : ℚ) : F.round (-x) = -F.round x := by
  rw [round, lastPlace_neg, neg_div, roundEven_neg, Int.cast_neg, neg_mul, round]

theorem round_zero : F.round 0 = 0 := by
  rw [round, zero_div, ← Int.cast_zero, roundEven_intCast, Int.cast_zero, zero_mul]

/-- A power of two is a multiple of a smaller one. -/
theorem zpow_eq_mul {e k : ℤ} (h : e ≤ k) : ∃ n : ℤ, (2 : ℚ) ^ k = n * 2 ^ e := by
  refine ⟨2 ^ (k - e).toNat, ?_⟩
  rw [Int.cast_pow, Int.cast_ofNat, ← zpow_natCast, ← zpow_add₀ two_ne_zero, Int.toNat_of_nonneg (by omega),
    sub_add_cancel]

variable {F} {x : ℚ} {e k : ℤ}

theorem ofRat_eq_finite {y : ℚ} :
    F.ofRat x = .finite y ↔ |F.round x| < 2 ^ F.maxExponent ∧ F.round x = y := by
  unfold ofRat
  split_ifs with h
  · rw [Datum.finite.injEq, and_iff_right h]
  · exact iff_of_false nofun (fun hy => h hy.1)

/-- In the binade above a power of two. -/
theorem lastPlace_eq (hlo : 2 ^ k ≤ |x|) (hhi : |x| < 2 ^ (k + 1))
    (hk : F.minExponent ≤ k + 1 - F.precision) : F.lastPlace x = k + 1 - F.precision := by
  have hx : 0 < |x| := lt_of_lt_of_le (zpow_pos two_pos k) hlo
  have hle : k ≤ Int.log 2 |x| := (Int.zpow_le_iff_le_log one_lt_two hx).mp (by exact_mod_cast hlo)
  have hlt : Int.log 2 |x| < k + 1 := (Int.lt_zpow_iff_log_lt one_lt_two hx).mp (by exact_mod_cast hhi)
  rw [lastPlace, max_eq_left (by omega)]
  omega

theorem lastPlace_le (h0 : x ≠ 0) (hx : |x| < 2 ^ (k + F.precision)) (hk : F.minExponent ≤ k) :
    F.lastPlace x ≤ k := by
  have hlt : Int.log 2 |x| < k + F.precision :=
    (Int.lt_zpow_iff_log_lt one_lt_two (abs_pos.mpr h0)).mp (by exact_mod_cast hx)
  exact max_le (by omega) hk

theorem zpow_le_round (hp : 0 < F.precision) (hk : F.minExponent ≤ k) (hx : 2 ^ k ≤ x) :
    2 ^ k ≤ F.round x := by
  have hpos : 0 < x := lt_of_lt_of_le (zpow_pos two_pos k) hx
  -- the greatest power of two below the number is a multiple of its last place
  have hle : k ≤ Int.log 2 x := (Int.zpow_le_iff_le_log one_lt_two hpos).mp (by exact_mod_cast hx)
  have hself : (2 : ℚ) ^ Int.log 2 x ≤ x := by exact_mod_cast Int.zpow_log_le_self one_lt_two hpos
  have hlast : F.lastPlace x ≤ Int.log 2 x := by
    rw [lastPlace, abs_of_pos hpos]
    omega
  obtain ⟨n, hn⟩ := zpow_eq_mul hlast
  have hu : (0 : ℚ) < 2 ^ F.lastPlace x := zpow_pos two_pos _
  have hround : n ≤ roundEven (x / 2 ^ F.lastPlace x) := by
    apply le_roundEven
    rw [le_div_iff₀ hu, ← hn]
    exact hself
  calc (2 : ℚ) ^ k ≤ 2 ^ Int.log 2 x := zpow_le_zpow_right₀ one_le_two hle
    _ = n * 2 ^ F.lastPlace x := hn
    _ ≤ F.round x := mul_le_mul_of_nonneg_right (by exact_mod_cast hround) hu.le

theorem round_le_zpow (hp : 0 < F.precision) (hk : F.minExponent ≤ k) (hx : x ≤ 2 ^ k) :
    F.round x ≤ 2 ^ k := by
  have hu : (0 : ℚ) < 2 ^ F.lastPlace x := zpow_pos two_pos _
  rcases le_or_gt x 0 with h0 | h0
  · have hround : roundEven (x / 2 ^ F.lastPlace x) ≤ 0 := by
      apply roundEven_le
      exact_mod_cast div_nonpos_of_nonpos_of_nonneg h0 hu.le
    have hle : F.round x ≤ 0 := mul_nonpos_of_nonpos_of_nonneg (by exact_mod_cast hround) hu.le
    exact hle.trans (zpow_pos two_pos k).le
  · have hlt : |x| < 2 ^ (k + F.precision) := by
      rw [abs_of_pos h0]
      exact lt_of_le_of_lt hx (zpow_lt_zpow_right₀ one_lt_two (by omega))
    obtain ⟨n, hn⟩ := zpow_eq_mul (lastPlace_le h0.ne' hlt hk)
    have hround : roundEven (x / 2 ^ F.lastPlace x) ≤ n := by
      apply roundEven_le
      rw [div_le_iff₀ hu, ← hn]
      exact hx
    calc F.round x ≤ n * 2 ^ F.lastPlace x :=
          mul_le_mul_of_nonneg_right (by exact_mod_cast hround) hu.le
      _ = 2 ^ k := hn.symm

/-- What is rounded below a bound, which lies in the step below `n` last places of its binade. -/
theorem round_lt_iff (hp : 0 < F.precision) (he : F.minExponent ≤ e) {n : ℤ} {y : ℚ}
    (hn : 2 ^ (F.precision - 1) < n) (hn' : n ≤ 2 ^ F.precision) (hy : (n - 1) * 2 ^ e < y)
    (hy' : y ≤ n * 2 ^ e) :
    F.round x < y ↔ if Even n then x < (n - 1 / 2) * 2 ^ e else x ≤ (n - 1 / 2) * 2 ^ e := by
  have hu : (0 : ℚ) < 2 ^ e := zpow_pos two_pos e
  have hlow : (2 : ℚ) ^ (e + F.precision - 1) ≤ (n - 1) * 2 ^ e := by
    have hn1 : (2 : ℚ) ^ (F.precision - 1) ≤ n - 1 := by exact_mod_cast Int.le_sub_one_of_lt hn
    calc (2 : ℚ) ^ (e + F.precision - 1) = 2 ^ (F.precision - 1) * 2 ^ e := by
          rw [← zpow_natCast, ← zpow_add₀ two_ne_zero]
          congr 1
          omega
      _ ≤ (n - 1) * 2 ^ e := mul_le_mul_of_nonneg_right hn1 hu.le
  have hhigh : n * 2 ^ e ≤ (2 : ℚ) ^ (e + F.precision) := by
    have hn2 : (n : ℚ) ≤ 2 ^ F.precision := by exact_mod_cast hn'
    calc n * (2 : ℚ) ^ e ≤ 2 ^ F.precision * 2 ^ e := mul_le_mul_of_nonneg_right hn2 hu.le
      _ = 2 ^ (e + F.precision) := by
          rw [← zpow_natCast, ← zpow_add₀ two_ne_zero, add_comm]
  rcases lt_or_ge x (2 ^ (e + F.precision - 1)) with h1 | h1
  -- below the binade
  · have hr := round_le_zpow hp (by omega) h1.le
    apply iff_of_true
    · linarith
    · split_ifs <;> linarith
  rcases lt_or_ge x (2 ^ (e + F.precision)) with h2 | h2
  · have hx : |x| = x := abs_of_pos (lt_of_lt_of_le (zpow_pos two_pos _) h1)
    have hlast : F.lastPlace x = e := by
      rw [lastPlace_eq (k := e + F.precision - 1) (by rwa [hx]) (by rwa [hx, sub_add_cancel])
        (by omega)]
      omega
    have hlt : F.round x < y ↔ roundEven (x / 2 ^ e) < n := by
      rw [round, hlast]
      constructor
      · intro h
        exact_mod_cast lt_of_mul_lt_mul_right (lt_of_lt_of_le h hy') hu.le
      · intro h
        have hle : (roundEven (x / 2 ^ e) : ℚ) ≤ n - 1 := by exact_mod_cast Int.le_sub_one_of_lt h
        exact lt_of_le_of_lt (mul_le_mul_of_nonneg_right hle hu.le) hy
    rw [hlt, roundEven_lt_iff, div_lt_iff₀ hu, div_le_iff₀ hu]
  -- above it
  · have hr := zpow_le_round hp (by omega) h2
    apply iff_of_false
    · linarith
    · split_ifs <;> linarith

/-- Below a power of two: the half step below it already becomes the power. -/
theorem round_lt_zpow (hp : 0 < F.precision) (hk : F.minExponent ≤ k - F.precision) :
    F.round x < 2 ^ k ↔ x < 2 ^ k - 2 ^ (k - F.precision - 1) := by
  have hu : (2 : ℚ) ^ k = 2 ^ F.precision * 2 ^ (k - F.precision) := by
    rw [← zpow_natCast, ← zpow_add₀ two_ne_zero]
    congr 1
    omega
  have hhalf : (2 : ℚ) ^ (k - F.precision) = 2 * 2 ^ (k - F.precision - 1) := by
    rw [← zpow_one_add₀ two_ne_zero]
    congr 1
    omega
  have hpos : (0 : ℚ) < 2 ^ (k - F.precision - 1) := zpow_pos two_pos _
  have heven : Even ((2 : ℤ) ^ F.precision) := even_two.pow_of_ne_zero hp.ne'
  rw [round_lt_iff hp hk (n := 2 ^ F.precision)
    (by exact_mod_cast pow_lt_pow_right₀ one_lt_two (by omega)) le_rfl
    (by push_cast; linarith) (by push_cast; linarith), if_pos heven]
  push_cast
  rw [hu]
  constructor <;> intro _ <;> linarith

/-! ## Exact numbers -/

/-- Rounding keeps the numbers of the format and no others. -/
theorem round_eq_self : F.round x = x ↔ F.Contains x := by
  constructor
  · intro h
    refine ⟨roundEven (x / 2 ^ F.lastPlace x), F.lastPlace x, ?_, le_max_right _ _, h.symm⟩
    have hu : (0 : ℚ) < 2 ^ F.lastPlace x := zpow_pos two_pos _
    have hlt : |x| < 2 ^ F.precision * 2 ^ F.lastPlace x := by
      calc |x| < 2 ^ (Int.log 2 |x| + 1) := by exact_mod_cast Int.lt_zpow_succ_log_self one_lt_two |x|
        _ ≤ 2 ^ ((F.precision : ℤ) + F.lastPlace x) := zpow_le_zpow_right₀ one_le_two (by
            unfold lastPlace
            omega)
        _ = 2 ^ F.precision * 2 ^ F.lastPlace x := by rw [zpow_add₀ two_ne_zero, zpow_natCast]
    have hx : |x| = |(roundEven (x / 2 ^ F.lastPlace x) : ℚ)| * 2 ^ F.lastPlace x := by
      rw [← abs_of_pos hu, ← abs_mul, abs_of_pos hu]
      exact congrArg abs h.symm
    rw [hx] at hlt
    exact_mod_cast lt_of_mul_lt_mul_right hlt hu.le
  · rintro ⟨m, e, hm, he, rfl⟩
    rcases eq_or_ne m 0 with rfl | h0
    · rw [Int.cast_zero, zero_mul, round_zero]
    have hu : (0 : ℚ) < 2 ^ e := zpow_pos two_pos e
    have hlt : |(m : ℚ) * 2 ^ e| < 2 ^ (e + F.precision) := by
      rw [abs_mul, abs_of_pos hu, zpow_add₀ two_ne_zero, mul_comm, zpow_natCast]
      exact mul_lt_mul_of_pos_left (by exact_mod_cast hm) hu
    have hne : (m : ℚ) * 2 ^ e ≠ 0 := mul_ne_zero (by exact_mod_cast h0) hu.ne'
    obtain ⟨n, hn⟩ := zpow_eq_mul (lastPlace_le hne hlt he)
    have hdiv : (m : ℚ) * 2 ^ e / 2 ^ F.lastPlace (m * 2 ^ e) = (m * n : ℤ) := by
      rw [div_eq_iff (zpow_pos two_pos _).ne', Int.cast_mul, mul_assoc, ← hn]
    rw [round, hdiv, roundEven_intCast, Int.cast_mul, mul_assoc, ← hn]

/-- An integer is rounded to an integer. -/
theorem exists_round_intCast (he : F.minExponent ≤ 0) (n : ℤ) :
    ∃ m : ℤ, F.round n = m := by
  rcases lt_or_ge |n| (2 ^ F.precision) with hn | hn
  · exact ⟨n, round_eq_self.mpr ⟨n, 0, hn, he, by rw [zpow_zero, mul_one]⟩⟩
  -- from here on the last place is that of an integer
  · have hpos : (0 : ℚ) < |(n : ℚ)| := by exact_mod_cast lt_of_lt_of_le (by positivity) hn
    have hlog : (F.precision : ℤ) ≤ Int.log 2 |(n : ℚ)| := by
      rw [← Int.zpow_le_iff_le_log one_lt_two hpos, zpow_natCast]
      exact_mod_cast hn
    have hlast : 0 ≤ F.lastPlace n := le_max_of_le_left (by omega)
    obtain ⟨k, hk⟩ := zpow_eq_mul hlast
    refine ⟨roundEven (n / 2 ^ F.lastPlace n) * k, ?_⟩
    rw [round, hk, zpow_zero, mul_one, Int.cast_mul]

end Format

end Binary
