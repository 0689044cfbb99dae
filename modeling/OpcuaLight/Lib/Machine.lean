import Mathlib.Data.List.Basic

/-!
# Event-driven machines

A machine is a total step function `σ → ε → σ`; an event that is not possible in a state leaves it
alone, so a list of events is an interleaving and `run` its last state. These rules carry the proofs
about runs:

* `run_invariant`: what every step taken under a condition keeps, a run whose steps all meet the
  condition (`Guarded`) keeps;
* `run_related`: a relation that is reflexive and transitive holds between the ends of a run if it holds
  across each step;
* `always_iff_guarded`: where a step keeps a property exactly when it meets the condition, the
  property holds all along a run exactly when every step meets it.
-/

namespace Machine

variable {σ ε : Type*} (step : σ → ε → σ)

/-- The state after a list of events. -/
def run (s : σ) (es : List ε) : σ := es.foldl step s

/-- Every step of the run meets `ok`, a condition on the state before it and on its event. -/
def Guarded (ok : σ → ε → Prop) : σ → List ε → Prop
  | _, [] => True
  | s, e :: es => ok s e ∧ Guarded ok (step s e) es

instance Guarded.decidable (ok : σ → ε → Prop) [∀ s e, Decidable (ok s e)] :
    ∀ (s : σ) (es : List ε), Decidable (Guarded step ok s es)
  | _, [] => inferInstanceAs (Decidable True)
  | s, e :: es =>
      have := Guarded.decidable ok (step s e) es
      inferInstanceAs (Decidable (ok s e ∧ Guarded step ok (step s e) es))

@[simp] theorem run_nil (s : σ) : run step s [] = s := rfl

@[simp] theorem run_cons (s : σ) (e : ε) (es : List ε) :
    run step s (e :: es) = run step (step s e) es := rfl

theorem run_append (s : σ) (es fs : List ε) :
    run step s (es ++ fs) = run step (run step s es) fs := List.foldl_append

@[simp] theorem run_snoc (s : σ) (es : List ε) (e : ε) :
    run step s (es ++ [e]) = step (run step s es) e := by
  rw [run_append, run_cons, run_nil]

variable {step} {ok ok' : σ → ε → Prop}

@[simp] theorem guarded_nil (s : σ) : Guarded step ok s [] := trivial

@[simp] theorem guarded_cons {s : σ} {e : ε} {es : List ε} :
    Guarded step ok s (e :: es) ↔ ok s e ∧ Guarded step ok (step s e) es := Iff.rfl

theorem guarded_append {s : σ} {es fs : List ε} :
    Guarded step ok s (es ++ fs) ↔ Guarded step ok s es ∧ Guarded step ok (run step s es) fs := by
  induction es generalizing s with
  | nil => simp
  | cons e es ih => simp only [List.cons_append, guarded_cons, run_cons, ih, and_assoc]

theorem guarded_true (s : σ) (es : List ε) : Guarded step (fun _ _ => True) s es := by
  induction es generalizing s with
  | nil => trivial
  | cons e es ih => exact ⟨trivial, ih _⟩

/-- A condition on the events alone. -/
theorem guarded_of_forall {good : ε → Prop} (s : σ) {es : List ε} (h : ∀ e ∈ es, good e) :
    Guarded step (fun _ e => good e) s es := by
  induction es generalizing s with
  | nil => trivial
  | cons e es ih =>
      exact ⟨h e List.mem_cons_self, ih _ fun e' he' => h e' (List.mem_cons_of_mem _ he')⟩

theorem Guarded.mono {s : σ} {es : List ε} (h : Guarded step ok s es)
    (hok : ∀ s e, ok s e → ok' s e) : Guarded step ok' s es := by
  induction es generalizing s with
  | nil => trivial
  | cons e es ih => exact ⟨hok _ _ h.1, ih h.2⟩

theorem Guarded.of_prefix {s : σ} {fs es : List ε} (h : Guarded step ok s es) (hfs : fs <+: es) :
    Guarded step ok s fs := by
  obtain ⟨rest, rfl⟩ := hfs
  exact (guarded_append.mp h).1

/-- A run is guarded if each of its steps is, in the state that the steps before it lead to. -/
theorem guarded_iff_forall_prefix {s : σ} {es : List ε} :
    Guarded step ok s es ↔ ∀ fs e, fs ++ [e] <+: es → ok (run step s fs) e := by
  induction es generalizing s with
  | nil => exact ⟨fun _ fs e h => by simp at h, fun _ => trivial⟩
  | cons a es ih =>
      rw [guarded_cons, ih]
      constructor
      · rintro ⟨h1, h2⟩ fs e hpre
        cases fs with
        | nil =>
            obtain ⟨rfl, -⟩ := List.cons_prefix_cons.mp hpre
            exact h1
        | cons f fs =>
            obtain ⟨rfl, htail⟩ := List.cons_prefix_cons.mp hpre
            exact h2 fs e htail
      · intro h
        refine ⟨h [] a (List.cons_prefix_cons.mpr ⟨rfl, List.nil_prefix⟩), fun fs e hpre => ?_⟩
        exact h (a :: fs) e (List.cons_prefix_cons.mpr ⟨rfl, hpre⟩)

theorem guarded_and {s : σ} {es : List ε} :
    Guarded step (fun s e => ok s e ∧ ok' s e) s es ↔
      Guarded step ok s es ∧ Guarded step ok' s es := by
  induction es generalizing s with
  | nil => simp
  | cons e es ih => simp only [guarded_cons, ih, and_and_and_comm]

/-- **Invariant rule.** A property that every step taken under `ok` keeps holds at the end of a run
whose steps all meet `ok`. -/
theorem run_invariant {I : σ → Prop} (hstep : ∀ s e, ok s e → I s → I (step s e)) {s : σ}
    {es : List ε} (hok : Guarded step ok s es) (hs : I s) : I (run step s es) := by
  induction es generalizing s with
  | nil => exact hs
  | cons e es ih => exact ih hok.2 (hstep s e hok.1 hs)

/-- The invariant rule without a condition on the steps. -/
theorem run_invariant' {I : σ → Prop} (hstep : ∀ s e, I s → I (step s e)) {s : σ} (es : List ε)
    (hs : I s) : I (run step s es) :=
  run_invariant (fun s e _ h => hstep s e h) (guarded_true s es) hs

/-- **Relation rule.** The steps may use how the states that the run reaches are related to its first one. -/
theorem run_related {R : σ → σ → Prop} {s : σ} {es : List ε} (hrefl : R s s)
    (htrans : ∀ {s' s''}, R s s' → R s' s'' → R s s'')
    (hstep : ∀ s', ∀ e ∈ es, R s s' → R s' (step s' e)) : R s (run step s es) :=
  run_invariant (I := R s) (fun s' e he h => htrans h (hstep s' e he h)) (guarded_of_forall s fun _ he => he) hrefl

/-- A condition may use an invariant that the steps keep. -/
theorem Guarded.of_invariant {I : σ → Prop} (hstep : ∀ s e, ok s e → I s → I (step s e))
    (hok : ∀ s e, I s → ok s e → ok' s e) {s : σ} {es : List ε} (hs : I s)
    (h : Guarded step ok s es) : Guarded step ok' s es := by
  induction es generalizing s with
  | nil => trivial
  | cons e es ih => exact ⟨hok s e hs h.1, ih (hstep s e h.1 hs) h.2⟩

/-- **Exactness rule.** Let `J` be an invariant of the steps taken under `ok'`. If such a step keeps
`I` exactly when it meets `ok`, then on a run of such steps `I` holds in every state exactly when all
steps meet `ok`. -/
theorem always_iff_guarded {I J : σ → Prop} (hJ : ∀ s e, ok' s e → J s → J (step s e))
    (hI : ∀ s e, ok' s e → J s → I s → (I (step s e) ↔ ok s e)) {s : σ} {es : List ε}
    (hok : Guarded step ok' s es) (hj : J s) (hs : I s) :
    (∀ fs, fs <+: es → I (run step s fs)) ↔ Guarded step ok s es := by
  induction es generalizing s with
  | nil =>
      refine ⟨fun _ => trivial, fun _ fs hfs => ?_⟩
      rw [List.prefix_nil.mp hfs]
      exact hs
  | cons e es ih =>
      have hstep := hI s e hok.1 hj hs
      constructor
      · intro h
        have h1 : I (step s e) := h [e] (List.cons_prefix_cons.mpr ⟨rfl, List.nil_prefix⟩)
        refine ⟨hstep.mp h1, (ih hok.2 (hJ s e hok.1 hj) h1).mp fun fs hfs => ?_⟩
        exact h (e :: fs) (List.cons_prefix_cons.mpr ⟨rfl, hfs⟩)
      · rintro ⟨h1, h2⟩ fs hfs
        cases fs with
        | nil => exact hs
        | cons f fs =>
            obtain ⟨rfl, htail⟩ := List.cons_prefix_cons.mp hfs
            exact (ih hok.2 (hJ s f hok.1 hj) (hstep.mpr h1)).mpr h2 fs htail

end Machine
