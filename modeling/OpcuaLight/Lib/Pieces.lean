import Mathlib.Data.List.Basic

/-!
# Lists joined from pieces

What is in the pieces and between them, and what stands at the ends; the pieces of a cut.
-/

namespace Pieces

variable {α : Type*}

theorem mem_intercalate {sep c : α} {pieces : List (List α)} (h : c ∈ [sep].intercalate pieces) :
    c = sep ∨ ∃ piece ∈ pieces, c ∈ piece := by
  induction pieces with
  | nil => cases h
  | cons piece pieces ih =>
      cases pieces with
      | nil =>
          rw [List.intercalate_singleton] at h
          exact Or.inr ⟨piece, List.mem_cons_self, h⟩
      | cons next pieces =>
          rw [List.intercalate_cons_cons, List.append_assoc, List.singleton_append, List.mem_append,
            List.mem_cons] at h
          rcases h with h | h | h
          · exact Or.inr ⟨piece, List.mem_cons_self, h⟩
          · exact Or.inl h
          · exact (ih h).imp_right fun ⟨p, hp, hc⟩ => ⟨p, List.mem_cons_of_mem _ hp, hc⟩

/-- What is in a piece is in the joined list. -/
theorem mem_of_mem_piece {sep c : α} {piece : List α} {pieces : List (List α)} (hpiece : piece ∈ pieces)
    (h : c ∈ piece) : c ∈ [sep].intercalate pieces := by
  induction pieces with
  | nil => cases hpiece
  | cons first pieces ih =>
      cases pieces with
      | nil =>
          rw [List.intercalate_singleton, ← List.mem_singleton.mp hpiece]
          exact h
      | cons next pieces =>
          rw [List.intercalate_cons_cons, List.append_assoc]
          rcases List.mem_cons.mp hpiece with rfl | hpiece
          · exact List.mem_append_left _ h
          · exact List.mem_append_right _ (List.mem_cons_of_mem _ (ih hpiece))

theorem getLast?_intercalate {sep c : α} {pieces : List (List α)} (hsep : sep ≠ c)
    (h : ∀ piece ∈ pieces, piece.getLast? ≠ some c) : ([sep].intercalate pieces).getLast? ≠ some c := by
  induction pieces with
  | nil => exact nofun
  | cons piece pieces ih =>
      cases pieces with
      | nil =>
          rw [List.intercalate_singleton]
          exact h piece List.mem_cons_self
      | cons next pieces =>
          have hrest := ih fun p hp => h p (List.mem_cons_of_mem _ hp)
          rw [List.intercalate_cons_cons, List.getLast?_append]
          cases hlast : ([sep].intercalate (next :: pieces)).getLast? with
          | some d => exact fun heq => hrest (hlast.trans heq)
          | none =>
              rw [Option.none_or, List.getLast?_concat]
              exact fun heq => hsep (Option.some.inj heq)

/-- The first element, where the first piece has one. -/
theorem head?_intercalate {sep c : α} {piece : List α} {pieces : List (List α)} (h : c ∈ piece.head?) :
    c ∈ ([sep].intercalate (piece :: pieces)).head? := by
  have hpiece : piece.head? = some c := h
  cases pieces with
  | nil => rwa [List.intercalate_singleton]
  | cons next pieces =>
      rw [List.intercalate_cons_cons, List.append_assoc, List.head?_append, hpiece]
      rfl

/-- The last element, where the last piece has one. -/
theorem getLast?_intercalate_concat {sep c : α} {piece : List α} {pieces : List (List α)}
    (h : c ∈ piece.getLast?) : c ∈ ([sep].intercalate (pieces ++ [piece])).getLast? := by
  have hpiece : piece.getLast? = some c := h
  induction pieces with
  | nil => rwa [List.nil_append, List.intercalate_singleton]
  | cons first pieces ih =>
      obtain ⟨next, rest, hnext⟩ := List.exists_cons_of_ne_nil (List.append_ne_nil_of_right_ne_nil pieces
        (List.cons_ne_nil piece []))
      rw [hnext] at ih
      rw [List.cons_append, hnext, List.intercalate_cons_cons, List.getLast?_append, Option.mem_def.mp ih]
      rfl

/-- No piece of a cut has the separator. -/
theorem notMem_of_mem_splitOn [BEq α] [LawfulBEq α] {sep : α} {cs piece : List α} (h : piece ∈ cs.splitOn sep) :
    sep ∉ piece := by
  induction cs generalizing piece with
  | nil =>
      rw [List.splitOn_nil, List.mem_singleton] at h
      rw [h]
      exact List.not_mem_nil
  | cons c cs ih =>
      rw [List.splitOn_cons_eq_if_modifyHead] at h
      split_ifs at h with hc
      · rcases List.mem_cons.mp h with rfl | h
        · exact List.not_mem_nil
        · exact ih h
      · cases hsplit : cs.splitOn sep with
        | nil =>
            rw [hsplit] at h
            cases h
        | cons first pieces =>
            rw [hsplit] at h ih
            rcases List.mem_cons.mp h with rfl | h
            · rw [List.mem_cons, not_or]
              exact ⟨fun heq => hc (beq_iff_eq.mpr heq.symm), ih List.mem_cons_self⟩
            · exact ih (List.mem_cons_of_mem _ h)

end Pieces
