import Mathlib.Data.List.Nodup

/-!
# Batches

A batch is carried out row by row, each row with its number; `all` is the state that it leaves if every
row succeeds.

* `all_invariant` : what a row keeps, with the rows before it, a batch that succeeds keeps;
* `all_succeeds` : a batch succeeds if every row does, after those before it;
* `all_states` : where each row leads from one state to the next, the batch leads to the last one;
* `map_numbered`, `nodup_numbered`, `fresh_numbered` : rows that are made with their numbers.
-/

namespace Batch

variable {σ ρ : Type*} (step : σ → ℕ → ρ → Option σ)

/-- The state after the rows, from number `i` on, if all of them succeed. -/
def all : σ → ℕ → List ρ → Option σ
  | s, _, [] => some s
  | s, i, r :: rows => (step s i r).bind fun s => all s (i + 1) rows

variable {step} {I : List ρ → σ → Prop} {s s' : σ} {pre rows : List ρ}

theorem all_cons {i : ℕ} {r : ρ} : all step s i (r :: rows) = some s' ↔
    ∃ s₁, step s i r = some s₁ ∧ all step s₁ (i + 1) rows = some s' := by
  rw [all, Option.bind_eq_some_iff]

/-- **Invariant rule.** -/
theorem all_invariant
    (hstep : ∀ pre r s s', I pre s → step s pre.length r = some s' → I (pre ++ [r]) s') (hs : I pre s)
    (h : all step s pre.length rows = some s') : I (pre ++ rows) s' := by
  induction rows generalizing pre s with
  | nil =>
      rw [List.append_nil, ← Option.some.inj h]
      exact hs
  | cons r rows ih =>
      obtain ⟨s₁, hr, hrest⟩ := all_cons.mp h
      have hlen : (pre ++ [r]).length = pre.length + 1 := List.length_append
      rw [← List.singleton_append, ← List.append_assoc]
      exact ih (hstep pre r s s₁ hs hr) (hlen ▸ hrest)

/-- **Success rule.** -/
theorem all_succeeds {whole : List ρ}
    (hstep : ∀ pre r post s, whole = pre ++ r :: post → I pre s →
      ∃ s', step s pre.length r = some s' ∧ I (pre ++ [r]) s') (hwhole : whole = pre ++ rows)
    (hs : I pre s) : ∃ s', all step s pre.length rows = some s' ∧ I whole s' := by
  induction rows generalizing pre s with
  | nil =>
      rw [List.append_nil] at hwhole
      exact ⟨s, rfl, hwhole ▸ hs⟩
  | cons r rows ih =>
      obtain ⟨s₁, hr, hI⟩ := hstep pre r rows s hwhole hs
      have hlen : (pre ++ [r]).length = pre.length + 1 := List.length_append
      have hrows : whole = (pre ++ [r]) ++ rows := by rw [hwhole, List.append_assoc]; rfl
      obtain ⟨s', hrest, hend⟩ := ih hrows hI
      exact ⟨s', all_cons.mpr ⟨s₁, hr, hlen ▸ hrest⟩, hend⟩

/-- **Rule for states that the rows tell.** -/
theorem all_states {F : List ρ → σ} {whole : List ρ} (hstep : ∀ pre r post, whole = pre ++ r :: post →
    step (F pre) pre.length r = some (F (pre ++ [r]))) : all step (F []) 0 whole = some (F whole) := by
  have hnext : ∀ pre r post s, whole = pre ++ r :: post → s = F pre →
      ∃ s', step s pre.length r = some s' ∧ s' = F (pre ++ [r]) := by
    rintro pre r post s hwhole rfl
    exact ⟨_, hstep pre r post hwhole, rfl⟩
  obtain ⟨s', hall, rfl⟩ :=
    @all_succeeds _ _ step (fun pre s => s = F pre) (F []) [] whole whole hnext (List.nil_append _).symm rfl
  exact hall

/-- The numbers may as well be looked up by the step. -/
theorem all_zipIdx {τ : Type*} (f : τ × ℕ → ρ) (rows : List τ) (i : ℕ) :
    all step s i ((rows.zipIdx i).map f) = all (fun s i r => step s i (f (r, i))) s i rows := by
  induction rows generalizing s i with
  | nil => rfl
  | cons r rows ih =>
      rw [List.zipIdx_cons, List.map_cons, all, all]
      simp only [ih]

/-! ## Rows with their numbers -/

variable {τ β : Type*} {f : ρ × ℕ → τ}

/-- The numbers do not matter to what is read of the rows. -/
theorem map_numbered {key : τ → β} (key' : ρ → β) (h : ∀ r i, key (f (r, i)) = key' r) (rows : List ρ) :
    (rows.zipIdx.map f).map key = rows.map key' := by
  rw [List.map_map]
  conv_rhs => rw [← List.zipIdx_map_fst 0 rows, List.map_map]
  exact List.map_congr_left fun p _ => h p.1 p.2

/-- Rows that take their keys from their numbers have different ones. -/
theorem nodup_numbered {key : τ → β} {ids : ℕ → β} (hids : Function.Injective ids)
    (h : ∀ r i, key (f (r, i)) = ids i) (rows : List ρ) : ((rows.zipIdx.map f).map key).Nodup := by
  have hmap : (rows.zipIdx.map f).map key = (List.range rows.length).map ids := by
    rw [List.map_map]
    conv_rhs => rw [List.range_eq_range', ← List.zipIdx_map_snd 0 rows, List.map_map]
    exact List.map_congr_left fun p _ => h p.1 p.2
  rw [hmap]
  exact List.nodup_range.map hids

/-- Where keys differ, no row made so far has the key of the next one. -/
theorem fresh_numbered {key : τ → β} (key' : ρ → β) (h : ∀ r i, key (f (r, i)) = key' r) {post : List ρ} {r : ρ}
    (hnodup : ((pre ++ r :: post).map key').Nodup) : ∀ x ∈ pre.zipIdx.map f, key x ≠ key' r := by
  intro x hx hsame
  have hin : key x ∈ pre.map key' := map_numbered key' h pre ▸ List.mem_map_of_mem hx
  rw [List.map_append, List.map_cons] at hnodup
  exact (List.nodup_append.mp hnodup).2.2 (key x) hin (key' r) List.mem_cons_self hsame

theorem numbered_concat (f : ρ × ℕ → τ) (rows : List ρ) (r : ρ) :
    (rows ++ [r]).zipIdx.map f = rows.zipIdx.map f ++ [f (r, rows.length)] := by
  rw [List.zipIdx_append, List.map_append, Nat.zero_add]
  rfl

end Batch
