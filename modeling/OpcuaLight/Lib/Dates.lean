import Mathlib.Data.List.Lex
import Mathlib.Data.Char
import Mathlib.Tactic.Common
import Mathlib.Algebra.Group.Nat.Defs

/-!
# Dates

`toISOString` of a time in milliseconds since 1970 (UTC). Months are counted from March of the year 0, so that a
leap day is the last day of its year, and the month of a day is the last one that starts by then.

Up to the year 9999 the texts are in the order of the times (`toISOString_lt_iff`).
-/

namespace Dates

/-- The day on which a month starts, counted from the first of March of the year 0. -/
def monthStart (k : Nat) : Nat :=
  365 * (k / 12) + k / 12 / 4 - k / 12 / 100 + k / 12 / 400 + (153 * (k % 12) + 2) / 5

/-- The month of a day. -/
def monthOf (day : Nat) : Nat :=
  -- 4800 months have 146097 days
  let near := day * 4800 / 146097
  if monthStart (near + 1) ≤ day then near + 1
  else if monthStart near ≤ day then near
  else near - 1

/-- The day of 1970-01-01. -/
def epochDay : Nat := 719468

/-- The digits of a number in a field of `w` characters. -/
def pad : Nat → Nat → List Char
  | 0, _ => []
  | w + 1, n => pad w (n / 10) ++ [(n % 10).digitChar]

/-- A year of four digits, or one of six with a sign. -/
def yearText (year : Nat) : List Char := if year ≤ 9999 then pad 4 year else '+' :: pad 6 year

/-- The date of a day since the first of March of the year 0. -/
def dateText (day : Nat) : List Char :=
  let month := monthOf day
  yearText ((month + 2) / 12) ++ '-' :: (pad 2 ((month + 2) % 12 + 1) ++ '-' :: pad 2 (day - monthStart month + 1))

/-- The time of a day in milliseconds. -/
def timeText (t : Nat) : List Char :=
  pad 2 (t / 3600000) ++ ':' :: (pad 2 (t / 60000 % 60) ++ ':' :: (pad 2 (t / 1000 % 60) ++ '.' :: pad 3 (t % 1000)))

def toISOString (t : Nat) : String :=
  String.ofList (dateText (epochDay + t / 86400000) ++ 'T' :: (timeText (t % 86400000) ++ ['Z']))

example : toISOString 1709210096789 = "2024-02-29T12:34:56.789Z" := by decide

/-! ## Months -/

theorem monthStart_lt (k : Nat) : monthStart k < monthStart (k + 1) := by
  unfold monthStart
  omega

/-- The days before a year, up to the days that are missing for a leap day. -/
theorem yearStart_bounds (y : Nat) : 146097 * y ≤ 400 * (365 * y + y / 4 - y / 100 + y / 400) + 591 ∧
    400 * (365 * y + y / 4 - y / 100 + y / 400) ≤ 146097 * y + 591 := by
  omega

/-- The start of a month is near its place in an even calendar. -/
theorem monthStart_bounds (k : Nat) : 48699 * k ≤ 1600 * monthStart k + 5900 ∧
    1600 * monthStart k ≤ 48699 * k + 5900 := by
  have hyear := yearStart_bounds (k / 12)
  unfold monthStart
  omega

theorem monthOf_spec (day : Nat) : monthStart (monthOf day) ≤ day ∧ day < monthStart (monthOf day + 1) := by
  set near := day * 4800 / 146097 with hnear
  have hbefore := (monthStart_bounds (near - 1)).2
  have hafter := (monthStart_bounds (near + 1 + 1)).1
  have hfirst : monthStart 0 = 0 := rfl
  unfold monthOf
  simp only [← hnear]
  split_ifs with h₁ h₂
  · exact ⟨h₁, by omega⟩
  · exact ⟨h₂, by omega⟩
  · have hpos : near ≠ 0 := by
      intro hzero
      rw [hzero, hfirst] at h₂
      omega
    rw [Nat.sub_add_cancel (by omega)]
    exact ⟨by omega, by omega⟩

theorem monthStart_strictMono {k l : Nat} (h : k < l) : monthStart k < monthStart l := by
  induction h with
  | refl => exact monthStart_lt k
  | step _ ih => exact ih.trans (monthStart_lt _)

/-- Days are in the order of their months and, within a month, of their numbers. -/
theorem monthOf_mono {day day' : Nat} (h : day ≤ day') : monthOf day ≤ monthOf day' := by
  by_contra hlt
  have hstart : monthStart (monthOf day' + 1) ≤ monthStart (monthOf day) := by
    rcases Nat.eq_or_lt_of_le (Nat.not_le.mp hlt) with heq | hmore
    · exact (congrArg monthStart heq).le
    · exact (monthStart_strictMono hmore).le
  have hspec := monthOf_spec day
  have hspec' := monthOf_spec day'
  omega

/-! ## Fields of fixed width -/

@[simp] theorem length_pad (w n : Nat) : (pad w n).length = w := by
  induction w generalizing n with
  | zero => rfl
  | succ w ih => rw [pad, List.length_append, ih, List.length_singleton]

/-- Texts of one length are ordered by the first field that differs. -/
theorem append_lt_of_lt {a b : List Char} (h : a < b) (hlen : a.length = b.length) (x y : List Char) :
    a ++ x < b ++ y := by
  induction a generalizing b with
  | nil =>
      rw [List.length_nil] at hlen
      rw [List.length_eq_zero_iff.mp hlen.symm] at h
      exact absurd h (List.not_lt_nil [])
  | cons c a ih =>
      cases b with
      | nil => exact absurd h (List.not_lt_nil _)
      | cons d b =>
          rw [List.cons_append, List.cons_append, List.cons_lt_cons_iff]
          rcases List.cons_lt_cons_iff.mp h with hlt | ⟨rfl, hlt⟩
          · exact Or.inl hlt
          · exact Or.inr ⟨rfl, ih hlt (Nat.succ.inj hlen)⟩

theorem append_lt_append {a x y : List Char} (h : x < y) : a ++ x < a ++ y := by
  induction a with
  | nil => exact h
  | cons c a ih => exact List.cons_lt_cons_iff.mpr (Or.inr ⟨rfl, ih⟩)

theorem digitChar_lt {n m : Nat} (h : n < m) (hm : m < 10) : n.digitChar < m.digitChar := by
  have hall : ∀ m < 10, ∀ n < m, n.digitChar < m.digitChar := by decide
  exact hall m hm n h

/-- Numbers that fit the field are in the order of their texts. -/
theorem pad_lt {w n m : Nat} (h : n < m) (hm : m < 10 ^ w) : pad w n < pad w m := by
  induction w generalizing n m with
  | zero => omega
  | succ w ih =>
      rw [pow_succ] at hm
      rw [pad, pad]
      rcases Nat.lt_or_ge (n / 10) (m / 10) with hlt | hge
      · exact append_lt_of_lt (ih hlt (by omega)) (by rw [length_pad, length_pad]) _ _
      · rw [show n / 10 = m / 10 by omega]
        have hdigit : n % 10 < m % 10 := by omega
        exact append_lt_append (List.cons_lt_cons_iff.mpr (Or.inl (digitChar_lt hdigit (by omega))))

/-- A field in front decides unless it is the same. -/
theorem pad_append_lt {w n m : Nat} {x y : List Char} (hm : m < 10 ^ w) (h : n < m ∨ n = m ∧ x < y) :
    pad w n ++ x < pad w m ++ y := by
  rcases h with hlt | ⟨rfl, hlt⟩
  · exact append_lt_of_lt (pad_lt hlt hm) (by rw [length_pad, length_pad]) _ _
  · exact append_lt_append hlt

theorem cons_lt_cons {c : Char} {x y : List Char} (h : x < y) : c :: x < c :: y :=
  List.cons_lt_cons_iff.mpr (Or.inr ⟨rfl, h⟩)

/-! ## The order of the texts -/

theorem timeText_lt {t t' : Nat} (h : t < t') (ht' : t' < 86400000) : timeText t < timeText t' := by
  unfold timeText
  refine pad_append_lt (by omega) ?_
  by_cases hhour : t / 3600000 < t' / 3600000
  · exact Or.inl hhour
  refine Or.inr ⟨by omega, cons_lt_cons (pad_append_lt (by omega) ?_)⟩
  by_cases hminute : t / 60000 < t' / 60000
  · exact Or.inl (by omega)
  refine Or.inr ⟨by omega, cons_lt_cons (pad_append_lt (by omega) ?_)⟩
  by_cases hsecond : t / 1000 < t' / 1000
  · exact Or.inl (by omega)
  · exact Or.inr ⟨by omega, cons_lt_cons (pad_lt (by omega) (by omega))⟩

@[simp] theorem length_timeText (t : Nat) : (timeText t).length = 12 := by simp [timeText]

/-- The year of a day. -/
def yearOf (day : Nat) : Nat := (monthOf day + 2) / 12

theorem dateText_lt {day day' : Nat} (h : day < day') (hyear : yearOf day' ≤ 9999) :
    dateText day < dateText day' := by
  have hmonth := monthOf_mono h.le
  have hspec := monthOf_spec day
  have hspec' := monthOf_spec day'
  have hlast := (monthStart_bounds (monthOf day' + 1)).2
  have hfirst := (monthStart_bounds (monthOf day')).1
  unfold yearOf at hyear
  simp only [dateText, yearText]
  rw [if_pos (by omega), if_pos hyear]
  refine pad_append_lt (by omega) ?_
  by_cases hyears : (monthOf day + 2) / 12 < (monthOf day' + 2) / 12
  · exact Or.inl hyears
  refine Or.inr ⟨by omega, cons_lt_cons (pad_append_lt (by omega) ?_)⟩
  by_cases hmonths : monthOf day < monthOf day'
  · exact Or.inl (by omega)
  rw [show monthOf day = monthOf day' by omega] at hspec ⊢
  exact Or.inr ⟨rfl, cons_lt_cons (pad_lt (by omega) (by omega))⟩

theorem length_dateText {day : Nat} (hyear : yearOf day ≤ 9999) : (dateText day).length = 10 := by
  unfold yearOf at hyear
  simp only [dateText, yearText]
  rw [if_pos hyear]
  simp

/-- The first time that is not in the year 9999 or before. -/
def yearLimit : Nat := 253402300800000

theorem yearOf_le {t : Nat} (h : t < yearLimit) : yearOf (epochDay + t / 86400000) ≤ 9999 := by
  have hday : epochDay + t / 86400000 ≤ 3652364 := by
    unfold yearLimit at h
    unfold epochDay
    omega
  have hlast : monthOf 3652364 = 119997 := by decide
  have hle := monthOf_mono hday
  rw [hlast] at hle
  unfold yearOf
  omega

theorem toISOString_lt {t t' : Nat} (h : t < t') (ht' : t' < yearLimit) :
    (toISOString t).toList < (toISOString t').toList := by
  have hyear := yearOf_le ht'
  have hyear' := yearOf_le (h.trans ht')
  rw [toISOString, toISOString, String.toList_ofList, String.toList_ofList]
  rcases Nat.lt_or_ge (t / 86400000) (t' / 86400000) with hlt | hge
  · exact append_lt_of_lt (dateText_lt (by omega) hyear) (by rw [length_dateText hyear, length_dateText hyear'])
      _ _
  · rw [show t / 86400000 = t' / 86400000 by omega]
    exact append_lt_append (cons_lt_cons (append_lt_of_lt (timeText_lt (by omega) (by omega))
      (by rw [length_timeText, length_timeText]) _ _))

/-- **Up to the year 9999 the texts are in the order of the times.** -/
theorem toISOString_lt_iff {t t' : Nat} (ht : t < yearLimit) (ht' : t' < yearLimit) :
    (toISOString t).toList < (toISOString t').toList ↔ t < t' := by
  constructor
  · intro h
    by_contra hge
    rcases Nat.eq_or_lt_of_le (Nat.not_lt.mp hge) with rfl | hlt
    · exact lt_irrefl _ h
    · exact lt_asymm h (toISOString_lt hlt ht)
  · exact fun h => toISOString_lt h ht'

/-! ## The characters -/

theorem pad_ascii (w n : Nat) : ∀ c ∈ pad w n, 0 < c.toNat ∧ c.toNat < 128 := by
  have hdigit : ∀ d < 10, 0 < (Nat.digitChar d).toNat ∧ (Nat.digitChar d).toNat < 128 := by decide
  induction w generalizing n with
  | zero => exact fun c hc => absurd hc List.not_mem_nil
  | succ w ih =>
      rw [pad]
      exact List.forall_mem_append.mpr
        ⟨ih (n / 10), List.forall_mem_singleton.mpr (hdigit (n % 10) (Nat.mod_lt n (by decide)))⟩

theorem toISOString_ascii (t : Nat) : ∀ c ∈ (toISOString t).toList, 0 < c.toNat ∧ c.toNat < 128 := by
  have hyear : ∀ year, ∀ c ∈ yearText year, 0 < c.toNat ∧ c.toNat < 128 := by
    intro year
    rw [yearText]
    split_ifs
    · exact pad_ascii 4 year
    · exact List.forall_mem_cons.mpr ⟨by decide, pad_ascii 6 year⟩
  rw [toISOString, String.toList_ofList, dateText, timeText]
  simp only [List.forall_mem_append, List.forall_mem_cons]
  exact ⟨⟨hyear _, by decide, pad_ascii 2 _, by decide, pad_ascii 2 _⟩, by decide,
    ⟨pad_ascii 2 _, by decide, pad_ascii 2 _, by decide, pad_ascii 2 _, by decide, pad_ascii 3 _⟩, by decide,
    fun c hc => absurd hc List.not_mem_nil⟩

/-- Up to the year 9999 there are 24 of them. -/
theorem length_toISOString {t : Nat} (h : t < yearLimit) : (toISOString t).toList.length = 24 := by
  simp [toISOString, length_dateText (yearOf_le h)]

end Dates
