import Mathlib.Algebra.Group.Nat.Defs
import Mathlib.Data.List.Basic

/-!
# `strtoul`

The C function in base ten: white space and a sign before the digits, a negated result for a minus sign, and the
greatest `unsigned long` for a number out of range. On a text that starts with a digit only the last matters
(`strtoul_of_digit`).
-/

namespace Strtoul

/-- The type `unsigned long`, of 32 bits or more. -/
structure ULong where
  max : ℕ
  wide : 2 ^ 32 ≤ max + 1

/-- `isspace`. -/
def isSpace (c : Char) : Bool := c ∈ [' ', '\t', '\n', '\x0b', '\x0c', '\r']

/-- A sign, and what comes after it. -/
def sign : List Char → Bool × List Char
  | '+' :: s => (false, s)
  | '-' :: s => (true, s)
  | s => (false, s)

/-- The number, and where it ends. -/
def strtoul (ulong : ULong) (s : List Char) : ℕ × List Char :=
  let (negative, t) := sign (s.dropWhile isSpace)
  let digits := t.takeWhile Char.isDigit
  let n := Nat.ofDigitChars 10 digits 0
  if digits = [] then (0, s)
  else if ulong.max < n then (ulong.max, t.dropWhile Char.isDigit)
  else if negative then ((ulong.max + 1 - n) % (ulong.max + 1), t.dropWhile Char.isDigit)
  else (n, t.dropWhile Char.isDigit)

theorem sign_of_digit {c : Char} (s : List Char) (h : c.isDigit = true) : sign (c :: s) = (false, c :: s) := by
  have hplus : c ≠ '+' := by
    rintro rfl
    exact absurd h (by decide)
  have hminus : c ≠ '-' := by
    rintro rfl
    exact absurd h (by decide)
  unfold sign
  split
  · rename_i heq
    exact absurd (List.cons.inj heq).1 hplus
  · rename_i heq
    exact absurd (List.cons.inj heq).1 hminus
  · rfl

theorem not_isSpace_of_digit {c : Char} (h : c.isDigit = true) : isSpace c = false := by
  rw [isSpace, decide_eq_false_iff_not]
  intro hmem
  simp only [List.mem_cons, List.not_mem_nil, or_false] at hmem
  rcases hmem with rfl | rfl | rfl | rfl | rfl | rfl <;> exact absurd h (by decide)

/-- On a text that starts with a digit, the digits are read and the number is cut off at the greatest value. -/
theorem strtoul_of_digit (ulong : ULong) {c : Char} (s : List Char) (h : c.isDigit = true) :
    strtoul ulong (c :: s) = (min (Nat.ofDigitChars 10 ((c :: s).takeWhile Char.isDigit) 0) ulong.max,
      (c :: s).dropWhile Char.isDigit) := by
  have hspace : (c :: s).dropWhile isSpace = c :: s :=
    List.dropWhile_cons_of_neg (by rw [not_isSpace_of_digit h]; decide)
  have hdigits : (c :: s).takeWhile Char.isDigit ≠ [] := by
    rw [List.takeWhile_cons_of_pos h]
    exact List.cons_ne_nil _ _
  unfold strtoul
  rw [hspace, sign_of_digit s h]
  simp only [Bool.false_eq_true, if_false]
  rw [if_neg hdigits]
  split_ifs with hmax
  · rw [Nat.min_eq_right (Nat.le_of_lt hmax)]
  · rw [Nat.min_eq_left (Nat.not_lt.mp hmax)]

end Strtoul
