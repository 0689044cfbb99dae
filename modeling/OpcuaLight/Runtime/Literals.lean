import OpcuaLight.Runtime.Server

/-!
# Integer initial values

`create_initial_value` reads every number as a `double` and converts it. A literal within the range of
the type is stored as it is if a `double` can hold it; otherwise, and for literals outside the range, it
depends on what the literal is rounded to whether the conversion is defined (`Converts`). For values that
are no number it never is.
-/

namespace OpcuaLight.Runtime

open Binary (Datum binary64 truncate)
open Db

/-! ## Conversions -/

/-- The operand of the conversion to an integer in `create_initial_value`, where it makes one. -/
def conversion (dataType : String) : Option Json → Option Datum
  | none | some .null => none
  | some v => if (integerRange (getDataTypeId dataType)).isSome then some (getNumberValue v) else none

/-- The conversion of the operand is defined. -/
def Fits (range : Int × Int) : Datum → Prop
  | .finite x => range.1 ≤ truncate x ∧ truncate x ≤ range.2
  | _ => False

/-- The literal is an integer in the range. -/
def InRange (range : Int × Int) (q : ℚ) : Prop := ∃ n : ℤ, q = n ∧ range.1 ≤ n ∧ n ≤ range.2

/-- The literals that are rounded to a `double` whose integral part is in the range of the type. -/
def Converts : OpcUaDataType → ℚ → Prop
  | .int16, q => -2 ^ 15 - 1 + 2 ^ (-38 : ℤ) < q ∧ q < 2 ^ 15 - 2 ^ (-39 : ℤ)
  | .int32, q => -2 ^ 31 - 1 + 2 ^ (-22 : ℤ) < q ∧ q < 2 ^ 31 - 2 ^ (-23 : ℤ)
  | .int64, q => -2 ^ 63 - 2 ^ 10 ≤ q ∧ q < 2 ^ 63 - 2 ^ 9
  | .uint16, q => -1 + 2 ^ (-54 : ℤ) < q ∧ q < 2 ^ 16 - 2 ^ (-38 : ℤ)
  | .uint32, q => -1 + 2 ^ (-54 : ℤ) < q ∧ q < 2 ^ 32 - 2 ^ (-22 : ℤ)
  | .uint64, q => -1 + 2 ^ (-54 : ℤ) < q ∧ q < 2 ^ 64 - 2 ^ 10
  | _, _ => False

theorem getDataTypeId_name (T : OpcUaDataType) : getDataTypeId T.name = T := by
  cases T <;> rfl

theorem castInteger_eq_some {range : Int × Int} {d : Datum} {n : ℤ} :
    castInteger range d = some n ↔ ∃ x, d = .finite x ∧ truncate x = n ∧ range.1 ≤ n ∧ n ≤ range.2 := by
  cases d with
  | finite x =>
      simp only [castInteger, Option.ite_none_right_eq_some, Option.some_inj, Datum.finite.injEq,
        exists_eq_left']
      constructor
      · rintro ⟨h, rfl⟩
        exact ⟨rfl, h⟩
      · rintro ⟨rfl, h⟩
        exact ⟨h, rfl⟩
  | infinite b => simp [castInteger]
  | nan => simp [castInteger]

/-! ## Literals -/

theorem integerRange_bounds {T : OpcUaDataType} {range : Int × Int} (h : integerRange T = some range) :
    -2 ^ 64 ≤ range.1 ∧ range.1 ≤ 0 ∧ 0 ≤ range.2 ∧ range.2 < 2 ^ 64 := by
  cases T <;> simp only [integerRange, Option.some_inj, reduceCtorEq] at h <;> subst h <;> decide

/-- Integers of up to 64 bits are in the range of the exponents. -/
theorem lt_maxExponent {x : ℚ} (hlo : -2 ^ 64 - 1 < x) (hhi : x < 2 ^ 64 + 1) :
    |x| < 2 ^ binary64.maxExponent := by
  have hbig : (2 : ℚ) ^ (65 : ℤ) ≤ 2 ^ binary64.maxExponent :=
    zpow_le_zpow_right₀ one_le_two (by decide)
  apply lt_of_lt_of_le _ hbig
  rw [abs_lt]
  constructor <;> norm_num at hlo hhi ⊢ <;> linarith

/-- A literal is read as a `double` of which the range decides; no range has room for an infinity. -/
theorem fits_ofRat {range : Int × Int} (hlo : -2 ^ 64 ≤ range.1) (hlo' : range.1 ≤ 0) (hhi : 0 ≤ range.2)
    (hhi' : range.2 < 2 ^ 64) (q : ℚ) : Fits range (binary64.ofRat q) ↔
      (range.1 : ℚ) - 1 < binary64.round q ∧ binary64.round q < range.2 + 1 := by
  rw [← Binary.le_truncate_iff hlo', ← Binary.truncate_le_iff hhi]
  unfold Binary.Format.ofRat
  split_ifs with h
  · exact Iff.rfl
  · refine iff_of_false id (fun hfits => h ?_)
    have h1 := (Binary.le_truncate_iff hlo').mp hfits.1
    have h2 := (Binary.truncate_le_iff hhi).mp hfits.2
    have hlo2 : (-2 ^ 64 : ℚ) ≤ range.1 := by exact_mod_cast hlo
    have hhi2 : (range.2 : ℚ) < 2 ^ 64 := by exact_mod_cast hhi'
    exact lt_maxExponent (by linarith) (by linarith)

theorem neg_lt_round {q y : ℚ} : -y < binary64.round q ↔ binary64.round (-q) < y := by
  rw [Binary.Format.round_neg, neg_lt]

/-- The greatest value of a type is followed by a power of two. -/
theorem round_lt_two_pow (k : ℕ) (q : ℚ) :
    binary64.round q < 2 ^ k ↔ q < 2 ^ k - 2 ^ ((k : ℤ) - 54) := by
  have h := Binary.Format.round_lt_zpow (F := binary64) (x := q) (k := k) (by decide)
    (by show -1074 ≤ (k : ℤ) - 53; omega)
  rw [zpow_natCast, show (k : ℤ) - binary64.precision - 1 = k - 54 by simp [binary64]; omega] at h
  exact h

/-- A `double` next to the least value of a short signed type still has bits for its fraction. -/
theorem neg_two_pow_lt_round {k : ℕ} (hk : 0 < k) (hk' : k < 52) (q : ℚ) :
    -2 ^ k - 1 < binary64.round q ↔ -2 ^ k - 1 + 2 ^ ((k : ℤ) - 53) < q := by
  have hpow : (2 : ℤ) ^ k * 2 ^ (52 - k) = 2 ^ 52 := by
    rw [← pow_add, Nat.add_sub_cancel' hk'.le]
  have hone : (2 : ℚ) ^ (52 - k) * 2 ^ ((k : ℤ) - 52) = 1 := by
    rw [← zpow_natCast, ← zpow_add₀ two_ne_zero, Nat.cast_sub hk'.le, Nat.cast_ofNat]
    simp
  have hhalf : (2 : ℚ) ^ ((k : ℤ) - 52) = 2 * 2 ^ ((k : ℤ) - 53) := by
    rw [← zpow_one_add₀ two_ne_zero]
    congr 1
    omega
  have hstep : (0 : ℤ) < 2 ^ (52 - k) := by positivity
  have hstep' : (2 : ℤ) ^ (52 - k) ≤ 2 ^ 52 := pow_le_pow_right₀ one_le_two (by omega)
  have hy : ((2 ^ k + 1) * 2 ^ (52 - k) : ℤ) * (2 : ℚ) ^ ((k : ℤ) - 52) = 2 ^ k + 1 := by
    push_cast
    rw [mul_assoc, hone, mul_one]
  have heven : Even (((2 : ℤ) ^ k + 1) * 2 ^ (52 - k)) :=
    (even_two.pow_of_ne_zero (by omega)).mul_left _
  have hpos : (0 : ℚ) < 2 ^ ((k : ℤ) - 53) := zpow_pos two_pos _
  rw [← neg_add', neg_lt_round, Binary.Format.round_lt_iff (F := binary64) (e := (k : ℤ) - 52)
    (n := (2 ^ k + 1) * 2 ^ (52 - k)) (by decide) (by show -1074 ≤ (k : ℤ) - 52; omega)
    (by show 2 ^ 52 < _; rw [add_mul, hpow]; omega) (by show _ ≤ 2 ^ 53; rw [add_mul, hpow]; omega)
    (by rw [sub_mul, hy, hhalf]; linarith) hy.ge, if_pos heven, sub_mul, hy, hhalf]
  constructor <;> intro _ <;> linarith

theorem neg_two_pow_63_lt_round (q : ℚ) :
    -2 ^ 63 - 1 < binary64.round q ↔ -2 ^ 63 - 2 ^ 10 ≤ q := by
  rw [← neg_add', neg_lt_round,
    Binary.Format.round_lt_iff (F := binary64) (e := 11) (n := 2 ^ 52 + 1) (by decide) (by decide)
      (by decide) (by decide) (by norm_num) (by norm_num), if_neg (by decide)]
  norm_num
  constructor <;> intro _ <;> linarith

theorem neg_one_lt_round (q : ℚ) : -1 < binary64.round q ↔ -1 + 2 ^ (-54 : ℤ) < q := by
  have h := round_lt_two_pow 0 (-q)
  rw [pow_zero] at h
  rw [neg_lt_round, h]
  norm_num
  constructor <;> intro _ <;> linarith

theorem fits_iff_converts {T : OpcUaDataType} {range : Int × Int} (h : integerRange T = some range)
    (q : ℚ) : Fits range (binary64.ofRat q) ↔ Converts T q := by
  obtain ⟨h1, h2, h3, h4⟩ := integerRange_bounds h
  rw [fits_ofRat h1 h2 h3 h4]
  cases T with
  | int16 =>
      cases h
      have hq := and_congr (neg_two_pow_lt_round (k := 15) (by decide) (by decide) q) (round_lt_two_pow 15 q)
      norm_num [Converts] at hq ⊢
      exact hq
  | int32 =>
      cases h
      have hq := and_congr (neg_two_pow_lt_round (k := 31) (by decide) (by decide) q) (round_lt_two_pow 31 q)
      norm_num [Converts] at hq ⊢
      exact hq
  | int64 =>
      cases h
      have hq := and_congr (neg_two_pow_63_lt_round q) (round_lt_two_pow 63 q)
      norm_num [Converts] at hq ⊢
      exact hq
  | uint16 =>
      cases h
      have hq := and_congr (neg_one_lt_round q) (round_lt_two_pow 16 q)
      norm_num [Converts] at hq ⊢
      exact hq
  | uint32 =>
      cases h
      have hq := and_congr (neg_one_lt_round q) (round_lt_two_pow 32 q)
      norm_num [Converts] at hq ⊢
      exact hq
  | uint64 =>
      cases h
      have hq := and_congr (neg_one_lt_round q) (round_lt_two_pow 64 q)
      norm_num [Converts] at hq ⊢
      exact hq
  | _ => cases h

/-- An integer in the range is stored as it is if and only if a `double` holds it. -/
theorem castInteger_ofRat_intCast {T : OpcUaDataType} {range : Int × Int}
    (h : integerRange T = some range) {n : ℤ} (hn : range.1 ≤ n ∧ n ≤ range.2) :
    castInteger range (binary64.ofRat n) = some n ↔ binary64.Contains n := by
  have hbounds := integerRange_bounds h
  rw [castInteger_eq_some, ← Binary.Format.round_eq_self]
  constructor
  · rintro ⟨x, hx, hn, -⟩
    obtain ⟨-, rfl⟩ := Binary.Format.ofRat_eq_finite.mp hx
    -- what is rounded from an integer has no fraction to drop
    obtain ⟨m, hm⟩ := Binary.Format.exists_round_intCast (F := binary64) (by decide) n
    rw [hm, Binary.truncate_intCast] at hn
    rw [hm, hn]
  · intro hround
    refine ⟨n, Binary.Format.ofRat_eq_finite.mpr ⟨?_, hround⟩, Binary.truncate_intCast n, hn⟩
    have hlo : (-2 ^ 64 : ℚ) ≤ n := by exact_mod_cast hbounds.1.trans hn.1
    have hhi : (n : ℚ) < 2 ^ 64 := by exact_mod_cast lt_of_le_of_lt hn.2 hbounds.2.2.2
    rw [hround]
    exact lt_maxExponent (by linarith) (by linarith)

/-! ## Initial values -/

/-- What is asked of the initial value of an integer node: an integer in the range is stored as it is,
and for every other value a conversion, if one is made, is defined. -/
structure Exact (T : OpcUaDataType) (range : Int × Int) (valueJson : Option Json) : Prop where
  stored : ∀ n : ℤ, range.1 ≤ n → n ≤ range.2 → valueJson = some (.num n) →
    createInitialValue T.name valueJson = .integer T (some n)
  defined : (∀ q, valueJson = some (.num q) → ¬ InRange range q) →
    ∀ d, conversion T.name valueJson = some d → Fits range d

/-- The values for which it is so: no value, the integers of the range that a `double` holds, and the
literals that are rounded into the range. -/
def Harmless (T : OpcUaDataType) (range : Int × Int) : Option Json → Prop
  | none | some .null => True
  | some (.num q) => (InRange range q ∧ binary64.Contains q) ∨ (¬ InRange range q ∧ Converts T q)
  | some _ => False

theorem createInitialValue_num {T : OpcUaDataType} {range : Int × Int}
    (h : integerRange T = some range) (q : ℚ) :
    createInitialValue T.name (some (.num q)) = .integer T (castInteger range (binary64.ofRat q)) := by
  cases T <;> cases h <;> rfl

theorem conversion_eq {T : OpcUaDataType} {range : Int × Int} (h : integerRange T = some range)
    {v : Json} (hv : v ≠ .null) : conversion T.name (some v) = some (getNumberValue v) := by
  unfold conversion
  rw [getDataTypeId_name, h]
  split
  · rename_i heq
    cases heq
  · rename_i heq
    exact absurd (Option.some.inj heq) hv
  · rename_i heq
    rw [← Option.some.inj heq]
    rfl

theorem exact_num {T : OpcUaDataType} {range : Int × Int} (h : integerRange T = some range) (q : ℚ) :
    Exact T range (some (.num q)) ↔ Harmless T range (some (.num q)) := by
  by_cases hq : InRange range q
  · obtain ⟨n, rfl, hn⟩ := hq
    constructor
    · intro hexact
      have hstored := hexact.stored n hn.1 hn.2 rfl
      rw [createInitialValue_num h, Variant.integer.injEq, eq_self, true_and,
        castInteger_ofRat_intCast h hn] at hstored
      exact .inl ⟨⟨n, rfl, hn⟩, hstored⟩
    · rintro (⟨-, hc⟩ | ⟨hout, -⟩)
      · refine ⟨?_, fun hout => absurd ⟨n, rfl, hn⟩ (hout n rfl)⟩
        intro m hm hm' heq
        have hmn : n = m := by exact_mod_cast Json.num.inj (Option.some.inj heq)
        subst hmn
        rw [createInitialValue_num h, (castInteger_ofRat_intCast h hn).mpr hc]
      · exact absurd ⟨n, rfl, hn⟩ hout
  · have hconv : Exact T range (some (.num q)) ↔ Fits range (binary64.ofRat q) := by
      constructor
      · intro hexact
        refine hexact.defined ?_ _ (conversion_eq h nofun)
        intro q' heq
        rwa [← Json.num.inj (Option.some.inj heq)]
      · intro hfits
        refine ⟨?_, ?_⟩
        · intro n hn hn' heq
          exact absurd ⟨n, Json.num.inj (Option.some.inj heq), hn, hn'⟩ hq
        · intro _ d hd
          rw [conversion_eq h (v := .num q) nofun] at hd
          rwa [← Option.some.inj hd]
    rw [hconv, fits_iff_converts h]
    constructor
    · intro hc
      exact .inr ⟨hq, hc⟩
    · rintro (⟨hin, -⟩ | ⟨-, hc⟩)
      · exact absurd hin hq
      · exact hc

/-- A value that is no number is read as a NaN. -/
theorem not_exact {T : OpcUaDataType} {range : Int × Int} (h : integerRange T = some range) {v : Json}
    (hnull : v ≠ .null) (hnum : ∀ q, v ≠ .num q) : ¬ Exact T range (some v) := by
  intro hexact
  have hnan : getNumberValue v = .nan := by
    cases v with
    | num q => exact absurd rfl (hnum q)
    | _ => rfl
  have hfits := hexact.defined (fun q heq => absurd (Option.some.inj heq) (hnum q)) _
    (conversion_eq h hnull)
  rw [hnan] at hfits
  exact hfits

/-- The initial value of an integer node is exact and its conversion defined just for these values. -/
theorem exact_iff {T : OpcUaDataType} {range : Int × Int} (h : integerRange T = some range)
    (valueJson : Option Json) : Exact T range valueJson ↔ Harmless T range valueJson := by
  rcases valueJson with _ | v
  · exact iff_of_true ⟨nofun, nofun⟩ trivial
  cases v with
  | null => exact iff_of_true ⟨nofun, nofun⟩ trivial
  | num q => exact exact_num h q
  | _ => exact iff_of_false (not_exact h nofun nofun) id

theorem exact_hundred : Exact .int16 (-2 ^ 15, 2 ^ 15 - 1) (some (.num 100)) :=
  (exact_iff rfl _).mpr (.inl
    ⟨⟨100, by norm_num, by decide, by decide⟩, ⟨100, 0, by decide, by decide, by norm_num⟩⟩)

/-- A text as the initial value of an `Int16` node. -/
theorem text_undefined : ¬ ∀ T range, integerRange T = some range → ∀ valueJson,
    Exact T range valueJson := by
  intro h
  have hfits := (h .int16 (-2 ^ 15, 2 ^ 15 - 1) rfl (some (.str "abc"))).defined nofun .nan rfl
  exact hfits

end OpcuaLight.Runtime
