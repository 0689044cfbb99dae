import Mathlib.Data.List.Basic

/-!
# Loops that may throw

`loop body s l` runs a body over a list; when it throws, the state stays as the body has left it and
the rest of the list is not visited.

* `loop_append`, and `loop_thrown` : where a loop that has thrown stopped;
* `loop_returns_iff` : it returns exactly if the body does for every element, after those before it;
* `loop_invariant` : the invariant rule.
-/

namespace Loop

variable {σ α ε : Type*} {body : σ → α → σ × Option ε} {s : σ} {l : List α}

def loop (body : σ → α → σ × Option ε) (s : σ) : List α → σ × Option ε
  | [] => (s, none)
  | a :: as =>
      match (body s a).2 with
      | none => loop body (body s a).1 as
      | some _ => body s a

@[simp] theorem loop_nil : loop body s [] = (s, none) := rfl

theorem loop_cons_of_returns {a : α} (h : (body s a).2 = none) :
    loop body s (a :: l) = loop body (body s a).1 l := by
  rw [loop, h]

theorem loop_cons_of_throws {a : α} {e : ε} (h : (body s a).2 = some e) :
    loop body s (a :: l) = body s a := by
  rw [loop, h]

theorem loop_append (l l' : List α) (h : (loop body s l).2 = none) :
    loop body s (l ++ l') = loop body (loop body s l).1 l' := by
  induction l generalizing s with
  | nil => rfl
  | cons a l ih =>
      cases hb : (body s a).2 with
      | none =>
          rw [loop_cons_of_returns hb] at h ⊢
          rw [List.cons_append, loop_cons_of_returns hb, ih h]
      | some e =>
          rw [loop_cons_of_throws hb, hb] at h
          cases h

theorem loop_append_of_throws (l l' : List α) {e : ε} (h : (loop body s l).2 = some e) :
    loop body s (l ++ l') = loop body s l := by
  induction l generalizing s with
  | nil => cases h
  | cons a l ih =>
      cases hb : (body s a).2 with
      | none =>
          rw [loop_cons_of_returns hb] at h ⊢
          rw [List.cons_append, loop_cons_of_returns hb, ih h]
      | some e' => rw [List.cons_append, loop_cons_of_throws hb, loop_cons_of_throws hb]

/-- A loop that has thrown has run its body for the elements before some element, and threw there. -/
theorem loop_thrown {e : ε} (h : (loop body s l).2 = some e) :
    ∃ pre a post, l = pre ++ a :: post ∧ (loop body s pre).2 = none ∧
      loop body s l = body (loop body s pre).1 a ∧ (body (loop body s pre).1 a).2 = some e := by
  induction l generalizing s with
  | nil => cases h
  | cons a l ih =>
      cases hb : (body s a).2 with
      | none =>
          rw [loop_cons_of_returns hb] at h
          obtain ⟨pre, b, post, rfl, hpre, hloop, hthrown⟩ := ih h
          refine ⟨a :: pre, b, post, rfl, ?_⟩
          rw [loop_cons_of_returns hb, loop_cons_of_returns hb]
          exact ⟨hpre, hloop, hthrown⟩
      | some e' =>
          rw [loop_cons_of_throws hb] at h
          exact ⟨[], a, l, rfl, rfl, loop_cons_of_throws hb, h⟩

theorem loop_returns_iff : (loop body s l).2 = none ↔
    ∀ pre a post, l = pre ++ a :: post → (loop body s pre).2 = none →
      (body (loop body s pre).1 a).2 = none := by
  constructor
  · rintro h pre a post rfl hpre
    rw [loop_append pre _ hpre] at h
    cases hb : (body (loop body s pre).1 a).2 with
    | none => rfl
    | some e =>
        rw [loop_cons_of_throws hb, hb] at h
        cases h
  · intro h
    cases ht : (loop body s l).2 with
    | none => rfl
    | some e =>
        obtain ⟨pre, a, post, hl, hpre, -, hthrown⟩ := loop_thrown ht
        rw [h pre a post hl hpre] at hthrown
        cases hthrown

/-- **Invariant rule.** What the body keeps, with the elements it has been run for, a loop that returns
keeps. -/
theorem loop_invariant {I : List α → σ → Prop}
    (hstep : ∀ pre a s, I pre s → (body s a).2 = none → I (pre ++ [a]) (body s a).1)
    {pre : List α} (hs : I pre s) (h : (loop body s l).2 = none) :
    I (pre ++ l) (loop body s l).1 := by
  induction l generalizing s pre with
  | nil =>
      rw [List.append_nil]
      exact hs
  | cons a l ih =>
      cases hb : (body s a).2 with
      | none =>
          rw [loop_cons_of_returns hb] at h ⊢
          rw [← List.singleton_append, ← List.append_assoc]
          exact ih (hstep pre a s hs hb) h
      | some e =>
          rw [loop_cons_of_throws hb, hb] at h
          cases h

end Loop
