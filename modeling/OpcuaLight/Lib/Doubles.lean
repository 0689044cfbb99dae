import OpcuaLight.Lib.Binary
import OpcuaLight.Lib.Js

/-!
# Numbers of JavaScript

Numbers are doubles: comparisons with `NaN` and the infinities, and what `parseInt` and `Number` make of a text,
rounded to the nearest double. An integer is compared with `0` and `1` as if it were not rounded
(`ofRat_intCast_lt_zero`, `ofRat_intCast_lt_one`). The two zeros are one.
-/

namespace Binary

namespace Datum

/-- `a < b`, which is false of a `NaN`. -/
def lt : Datum → Datum → Bool
  | finite a, finite b => decide (a < b)
  | finite _, infinite negative => !negative
  | infinite negative, finite _ => negative
  | infinite a, infinite b => a && !b
  | nan, _ => false
  | _, nan => false

end Datum

namespace Format

variable {F : Format} {x : ℚ}

theorem ofRat_ne_nan : F.ofRat x ≠ .nan := by
  unfold ofRat
  split_ifs <;> exact nofun

theorem ofRat_eq_self : F.ofRat x = .finite x ↔ F.Contains x ∧ |x| < 2 ^ F.maxExponent := by
  rw [ofRat_eq_finite]
  constructor
  · rintro ⟨hlt, hround⟩
    exact ⟨round_eq_self.mp hround, hround ▸ hlt⟩
  · rintro ⟨hmem, hlt⟩
    have hround := round_eq_self.mpr hmem
    exact ⟨hround.symm ▸ hlt, hround⟩

theorem round_nonneg (h : 0 ≤ x) : 0 ≤ F.round x := by
  have hu : (0 : ℚ) < 2 ^ F.lastPlace x := zpow_pos two_pos _
  have hround : 0 ≤ roundEven (x / 2 ^ F.lastPlace x) :=
    le_roundEven (by rw [Int.cast_zero]; exact div_nonneg h hu.le)
  exact mul_nonneg (by exact_mod_cast hround) hu.le

theorem round_nonpos (h : x ≤ 0) : F.round x ≤ 0 := by
  have hneg := round_nonneg (F := F) (neg_nonneg.mpr h)
  rw [round_neg] at hneg
  exact neg_nonneg.mp hneg

/-- An integer from 1 on is not rounded below it. -/
theorem one_le_round (hp : 0 < F.precision) (hmin : F.minExponent ≤ 0) (h : 1 ≤ x) : 1 ≤ F.round x := by
  have hpow := zpow_le_round (x := x) hp hmin (by rwa [zpow_zero])
  rwa [zpow_zero] at hpow

/-- A comparison that rounding does not change. -/
theorem ofRat_lt {y : ℚ} (hround : F.round x < y ↔ x < y)
    (hsign : 2 ^ F.maxExponent ≤ |F.round x| → (x < 0 ↔ x < y)) :
    (F.ofRat x).lt (.finite y) = decide (x < y) := by
  unfold ofRat
  split_ifs with hfinite
  · exact decide_eq_decide.mpr hround
  · exact decide_eq_decide.mpr (hsign (not_lt.mp hfinite))

theorem ofRat_intCast_lt_zero (hp : 0 < F.precision) (hmin : F.minExponent ≤ 0) (n : ℤ) :
    (F.ofRat n).lt (.finite 0) = decide (n < 0) := by
  have hround : F.round n < 0 ↔ (n : ℚ) < 0 := by
    constructor
    · exact fun h => lt_of_not_ge fun hn => absurd (round_nonneg (F := F) hn) (not_le.mpr h)
    · intro h
      have hneg : (1 : ℚ) ≤ -n := by
        have hn : n < 0 := by exact_mod_cast h
        exact_mod_cast (by omega : 1 ≤ -n)
      have hle := one_le_round hp hmin hneg
      rw [round_neg] at hle
      linarith
  rw [ofRat_lt hround fun _ => Iff.rfl]
  exact decide_eq_decide.mpr (by norm_cast)

theorem ofRat_intCast_lt_one (hp : 0 < F.precision) (hmin : F.minExponent ≤ 0) (n : ℤ) :
    (F.ofRat n).lt (.finite 1) = decide (n < 1) := by
  have hround : F.round n < 1 ↔ (n : ℚ) < 1 := by
    constructor
    · exact fun h => lt_of_not_ge fun hn => absurd (one_le_round hp hmin hn) (not_le.mpr h)
    · intro h
      have hn : (n : ℚ) ≤ 0 := by
        have hlt : n < 1 := by exact_mod_cast h
        exact_mod_cast (by omega : n ≤ 0)
      exact lt_of_le_of_lt (round_nonpos hn) one_pos
  have hsign : 2 ^ F.maxExponent ≤ |F.round n| → ((n : ℚ) < 0 ↔ (n : ℚ) < 1) := by
    intro hlarge
    have hne : n ≠ 0 := by
      rintro rfl
      rw [Int.cast_zero, round_zero, abs_zero] at hlarge
      exact absurd hlarge (not_le.mpr (zpow_pos two_pos _))
    norm_cast
    omega
  rw [ofRat_lt hround hsign]
  exact decide_eq_decide.mpr (by norm_cast)

end Format

end Binary

namespace Js

open Binary (Datum binary64)

/-- The integer at the start of a text, after white space. -/
def leadingInteger (cs : List Char) : Option ℤ :=
  let (negative, rest) := signed (cs.dropWhile isSpace)
  match rest.takeWhile Char.isDigit with
  | [] => none
  | ds => some (if negative then -(digitsValue ds : ℤ) else digitsValue ds)

/-- `parseInt(s, 10)`. -/
def parseInt (s : String) : Datum :=
  match leadingInteger s.toList with
  | none => .nan
  | some n => binary64.ofRat n

/-- The number that the text denotes, before it is rounded. -/
def numberExact (s : String) : Datum :=
  match (trim s).toList with
  | [] => .finite 0
  | '0' :: 'x' :: cs | '0' :: 'X' :: cs => radix 16 cs
  | '0' :: 'o' :: cs | '0' :: 'O' :: cs => radix 8 cs
  | '0' :: 'b' :: cs | '0' :: 'B' :: cs => radix 2 cs
  | cs =>
      let (negative, rest) := signed cs
      if rest = "Infinity".toList then .infinite negative
      else
        match decimal rest with
        | none => .nan
        | some q => .finite (if negative then -q else q)
where
  radix (base : Nat) (cs : List Char) : Datum :=
    match digitsOf base cs with
    | none => .nan
    | some n => .finite n

/-- `Number(s)`. -/
def number (s : String) : Datum :=
  match numberExact s with
  | .finite q => binary64.ofRat q
  | n => n

end Js
