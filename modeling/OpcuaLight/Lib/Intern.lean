import Mathlib.Data.List.Basic
import Mathlib.Tactic.Common

/-!
# Numbering values in the order of their first use

A registry is a list of values, and the number of a value is its place (`List.idxOf`). Interning appends
a value that is not there, so that numbers never change (`idxOf_internAll`).
-/

namespace Intern

variable {α : Type*} [DecidableEq α]

def intern (R : List α) (u : α) : List α := if u ∈ R then R else R ++ [u]

/-- The registry after the values have been used in this order. -/
def internAll (R us : List α) : List α := us.foldl intern R

@[simp] theorem internAll_nil (R : List α) : internAll R [] = R := rfl

@[simp] theorem internAll_cons (R us : List α) (u : α) :
    internAll R (u :: us) = internAll (intern R u) us := rfl

theorem internAll_append (R us vs : List α) :
    internAll R (us ++ vs) = internAll (internAll R us) vs := List.foldl_append

theorem mem_intern {R : List α} {u v : α} : v ∈ intern R u ↔ v ∈ R ∨ v = u := by
  unfold intern
  split_ifs with h
  · exact (or_iff_left_of_imp fun hv => hv ▸ h).symm
  · rw [List.mem_append, List.mem_singleton]

theorem mem_internAll {R us : List α} {v : α} : v ∈ internAll R us ↔ v ∈ R ∨ v ∈ us := by
  induction us generalizing R with
  | nil => exact (or_iff_left List.not_mem_nil).symm
  | cons u us ih => rw [internAll_cons, ih, mem_intern, or_assoc, List.mem_cons]

theorem idxOf_intern {R : List α} {v : α} (h : v ∈ R) (u : α) : (intern R u).idxOf v = R.idxOf v := by
  unfold intern
  split_ifs
  · rfl
  · exact List.idxOf_append_of_mem h

/-- The number of a value stays. -/
theorem idxOf_internAll {R : List α} {v : α} (h : v ∈ R) (us : List α) :
    (internAll R us).idxOf v = R.idxOf v := by
  induction us generalizing R with
  | nil => rfl
  | cons u us ih => rw [internAll_cons, ih (mem_intern.mpr (Or.inl h)), idxOf_intern h]

/-- A new value gets the next number. -/
theorem idxOf_intern_self {R : List α} {u : α} (h : u ∉ R) : (intern R u).idxOf u = R.length := by
  rw [intern, if_neg h, List.idxOf_append_of_notMem h, List.idxOf_cons_self]
  rfl

end Intern
