import Mathlib.Data.List.Basic

/-!
# Chunks

A list cut at every multiple of a width by a loop over the starts of its chunks.

* `flatten_chunks` : the chunks are the list;
* `length_chunk` : each is full but for the last one, which has at least one element;
* `ended_intercalate` : joining what is not empty and ending it is ending each piece.
-/

namespace Chunks

variable {α : Type*} {width i : ℕ} {text : List α}

/-- The rounds of the loop from a start on. -/
def chunksFrom (width : ℕ) (text : List α) (i : ℕ) : List (List α) :=
  if 0 < width ∧ i < text.length then (text.drop i).take width :: chunksFrom width text (i + width) else []
termination_by text.length - i
decreasing_by omega

def chunks (width : ℕ) (text : List α) : List (List α) := chunksFrom width text 0

theorem flatten_chunksFrom (hwidth : 0 < width) (text : List α) (i : ℕ) :
    (chunksFrom width text i).flatten = text.drop i := by
  fun_induction chunksFrom width text i with
  | case1 i h ih => rw [List.flatten_cons, ih, ← List.drop_drop, List.take_append_drop]
  | case2 i h => rw [List.flatten_nil, List.drop_eq_nil_of_le (by omega)]

theorem flatten_chunks (hwidth : 0 < width) (text : List α) : (chunks width text).flatten = text :=
  flatten_chunksFrom hwidth text 0

/-- A chunk that another one follows is full. -/
theorem length_chunksFrom : ∀ pre chunk post, chunksFrom width text i = pre ++ chunk :: post →
    chunk.length ≤ width ∧ chunk ≠ [] ∧ (post ≠ [] → chunk.length = width) := by
  fun_induction chunksFrom width text i with
  | case1 i h ih =>
      intro pre chunk post hsplit
      cases pre with
      | cons c pre => exact ih pre chunk post (List.cons.inj hsplit).2
      | nil =>
          obtain ⟨rfl, hrest⟩ := List.cons.inj hsplit
          refine ⟨List.length_take_le _ _, ?_, fun hpost => ?_⟩
          · rw [← List.length_pos_iff, List.length_take, List.length_drop]
            omega
          · -- the next round is reached
            rw [← hrest, chunksFrom] at hpost
            split_ifs at hpost with hnext
            · rw [List.length_take, List.length_drop]
              omega
            · exact absurd rfl hpost
  | case2 i h =>
      intro pre chunk post hsplit
      exact absurd hsplit.symm (List.append_ne_nil_of_right_ne_nil _ (List.cons_ne_nil _ _))

theorem length_chunk {pre post : List (List α)} {chunk : List α} (h : chunks width text = pre ++ chunk :: post) :
    chunk.length ≤ width ∧ chunk ≠ [] ∧ (post ≠ [] → chunk.length = width) :=
  length_chunksFrom pre chunk post h

theorem chunks_eq_nil (hwidth : 0 < width) : chunks width text = [] ↔ text = [] := by
  constructor
  · intro h
    rw [← flatten_chunks hwidth text, h, List.flatten_nil]
  · rintro rfl
    rw [chunks, chunksFrom, if_neg (by simp)]

/-- Pieces that are joined and ended. -/
theorem ended_intercalate (sep : α) {pieces : List (List α)} (h : pieces ≠ []) :
    [sep].intercalate pieces ++ [sep] = pieces.flatMap (fun piece => piece ++ [sep]) := by
  induction pieces with
  | nil => exact absurd rfl h
  | cons piece pieces ih =>
      cases pieces with
      | nil => simp
      | cons next pieces =>
          rw [List.intercalate_cons_cons, List.flatMap_cons, ← ih (List.cons_ne_nil _ _), List.append_assoc,
            List.append_assoc]

end Chunks
