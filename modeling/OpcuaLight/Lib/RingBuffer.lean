import Mathlib.Data.Int.ModEq
import Mathlib.Data.List.Basic
import Mathlib.Logic.Function.Basic

/-!
# Circular buffers

Cells between a head and a tail that move modulo `N`; one cell stays free, so that the buffer is empty where the
two are equal and full where the tail is one behind the head.

* `contents` : the cells from the head on;
* `Holds` : the cells that are in use hold the values of a list, the oldest at the head;
* `Holds.empty_iff`, `Holds.full_iff` : what the two comparisons say;
* `Holds.push`, `Holds.pop` : a value at the tail, and the value at the head.
-/

namespace RingBuffer

structure Buffer (α : Type*) where
  cells : ℕ → Option α
  head : ℕ
  tail : ℕ

variable {α : Type*} {N : ℕ} {r : Buffer α} {xs : List α} {x : α}

/-- The cells in use. -/
def contents (N : ℕ) (r : Buffer α) : List (Option α) :=
  (List.range ((r.tail + N - r.head) % N)).map fun i => r.cells ((r.head + i) % N)

structure Holds (N : ℕ) (r : Buffer α) (xs : List α) : Prop where
  head_lt : r.head < N
  length_lt : xs.length < N
  tail_eq : r.tail = (r.head + xs.length) % N
  cell : ∀ i (h : i < xs.length), r.cells ((r.head + i) % N) = some xs[i]

/-- Different offsets are different cells. -/
theorem wrap_inj {h i j : ℕ} (hi : i < N) (hj : j < N) (heq : (h + i) % N = (h + j) % N) : i = j :=
  (Nat.ModEq.add_left_cancel' h heq).eq_of_lt_of_lt hi hj

namespace Holds

theorem zero (hN : 0 < N) (cells : ℕ → Option α) : Holds N ⟨cells, 0, 0⟩ [] :=
  ⟨hN, hN, (Nat.zero_mod N).symm, fun i hi => absurd hi (Nat.not_lt_zero i)⟩

/-- The buffer is empty where head and tail are equal. -/
theorem empty_iff (h : Holds N r xs) : r.head = r.tail ↔ xs = [] := by
  have hhead : r.head = (r.head + 0) % N := (Nat.mod_eq_of_lt h.head_lt).symm
  constructor
  · intro heq
    have hwrap : (r.head + xs.length) % N = (r.head + 0) % N := by rw [← h.tail_eq, ← heq, ← hhead]
    exact List.eq_nil_of_length_eq_zero (wrap_inj h.length_lt (Nat.zero_lt_of_lt h.head_lt) hwrap)
  · rintro rfl
    rw [h.tail_eq, List.length_nil, ← hhead]

/-- It is full where the tail is one behind the head. -/
theorem full_iff (h : Holds N r xs) : (r.tail + 1) % N = r.head ↔ xs.length + 1 = N := by
  have hnext : (r.tail + 1) % N = (r.head + (xs.length + 1)) % N := by
    rw [h.tail_eq, Nat.mod_add_mod, Nat.add_assoc]
  rw [hnext]
  have hlen := h.length_lt
  constructor
  · intro heq
    by_contra hne
    have hwrap : (r.head + (xs.length + 1)) % N = (r.head + 0) % N := by
      rw [heq, Nat.add_zero, Nat.mod_eq_of_lt h.head_lt]
    have hzero := wrap_inj (by omega) (by omega) hwrap
    omega
  · intro heq
    rw [heq, Nat.add_mod_right, Nat.mod_eq_of_lt h.head_lt]

theorem push (h : Holds N r xs) (hspace : (r.tail + 1) % N ≠ r.head) (x : α) :
    Holds N ⟨Function.update r.cells r.tail (some x), r.head, (r.tail + 1) % N⟩ (xs ++ [x]) := by
  have hroom : xs.length + 1 < N := by
    have hfull := mt h.full_iff.mpr hspace
    have hlen := h.length_lt
    omega
  refine ⟨h.head_lt, ?_, ?_, ?_⟩
  · rw [List.length_append]
    exact hroom
  · change (r.tail + 1) % N = _
    rw [h.tail_eq, Nat.mod_add_mod, Nat.add_assoc, List.length_append, List.length_singleton]
  · intro i hi
    change Function.update r.cells r.tail (some x) ((r.head + i) % N) = _
    rw [List.length_append, List.length_singleton] at hi
    by_cases hlast : i = xs.length
    · subst hlast
      rw [← h.tail_eq, Function.update_self, List.getElem_append_right le_rfl]
      simp
    · have hcell : (r.head + i) % N ≠ r.tail := by
        rw [h.tail_eq]
        exact fun heq => hlast (wrap_inj (by omega) h.length_lt heq)
      rw [Function.update_of_ne hcell, h.cell i (by omega), List.getElem_append_left]

theorem pop (h : Holds N r (x :: xs)) :
    r.cells r.head = some x ∧ Holds N ⟨r.cells, (r.head + 1) % N, r.tail⟩ xs := by
  have hN : 0 < N := Nat.zero_lt_of_lt h.head_lt
  have hlen := h.length_lt
  rw [List.length_cons] at hlen
  refine ⟨?_, Nat.mod_lt _ hN, by omega, ?_, ?_⟩
  · have hcell := h.cell 0 (by simp)
    rwa [Nat.add_zero, Nat.mod_eq_of_lt h.head_lt] at hcell
  · change r.tail = ((r.head + 1) % N + xs.length) % N
    rw [h.tail_eq, Nat.mod_add_mod, List.length_cons]
    congr 1
    omega
  · intro i hi
    have hcell := h.cell (i + 1) (by rw [List.length_cons]; omega)
    rw [List.getElem_cons_succ] at hcell
    change r.cells (((r.head + 1) % N + i) % N) = _
    rw [← hcell, Nat.mod_add_mod]
    congr 2
    omega

theorem contents_eq (h : Holds N r xs) : contents N r = xs.map some := by
  have hN : 0 < N := Nat.zero_lt_of_lt h.head_lt
  have hlen := h.length_lt
  have hhead := h.head_lt
  have hcount : (r.tail + N - r.head) % N = xs.length := by
    rw [h.tail_eq]
    rcases Nat.lt_or_ge (r.head + xs.length) N with hlt | hge
    · have hsum : r.head + xs.length + N - r.head = xs.length + N := by omega
      rw [Nat.mod_eq_of_lt hlt, hsum, Nat.add_mod_right, Nat.mod_eq_of_lt hlen]
    · have hsum : r.head + xs.length - N + N - r.head = xs.length := by omega
      rw [Nat.mod_eq_sub_mod hge, Nat.mod_eq_of_lt (a := r.head + xs.length - N) (by omega), hsum,
        Nat.mod_eq_of_lt hlen]
  rw [contents, hcount]
  refine List.ext_getElem (by simp) fun i hi hi' => ?_
  rw [List.length_map] at hi'
  simp [h.cell i hi']

end Holds

end RingBuffer
