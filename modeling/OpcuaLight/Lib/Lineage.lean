import Mathlib.Data.List.Flatten
import Mathlib.Data.List.Nodup
import Mathlib.Data.List.Perm.Basic
import Mathlib.Tactic.Common

/-!
# Rows that name their parents, read as a tree

`descendants children n r` is the row `r` and what is at most `n` levels below it, each row before its
children. Where the children of a row are the rows that name it as their parent (`Lineage`), the
descendants of all roots are the rows themselves, each once (`Lineage.descendants_perm`).
-/

variable {α : Type*}

/-- The row and the rows at most `n` levels below it. -/
def descendants (children : α → List α) : Nat → α → List α
  | 0, r => [r]
  | n + 1, r => r :: (children r).flatMap (descendants children n)

/-- The rows with their roots and their children, by the parent that each row names. A rank says how
far a row is from its root. -/
structure Lineage (rows roots : List α) (children : α → List α) (parent : α → Option α)
    (rank : α → Nat) : Prop where
  rows_nodup : rows.Nodup
  roots_nodup : roots.Nodup
  children_nodup : ∀ r, (children r).Nodup
  mem_roots : ∀ {r}, r ∈ roots ↔ r ∈ rows ∧ parent r = none
  mem_children : ∀ {r s}, r ∈ rows → (s ∈ children r ↔ s ∈ rows ∧ parent s = some r)
  parent_mem : ∀ {r s}, s ∈ rows → parent s = some r → r ∈ rows
  rank_root : ∀ {r}, r ∈ rows → parent r = none → rank r = 0
  rank_child : ∀ {r s}, s ∈ rows → parent s = some r → rank s = rank r + 1

namespace Lineage

variable {rows roots : List α} {children : α → List α} {parent : α → Option α} {rank : α → Nat}

/-- What is `k` levels above a row. -/
def above (parent : α → Option α) : Nat → α → Option α
  | 0, s => some s
  | k + 1, s => (above parent k s).bind parent

theorem self_mem_descendants (n : Nat) (r : α) : r ∈ descendants children n r := by
  cases n <;> simp [descendants]

theorem descendants_succ {n : Nat} {r s : α} (h : s ∈ descendants children n r) :
    s ∈ descendants children (n + 1) r := by
  induction n generalizing r with
  | zero =>
      rw [List.mem_singleton.mp h]
      exact self_mem_descendants _ _
  | succ n ih =>
      rcases List.mem_cons.mp h with rfl | h
      · exact self_mem_descendants _ _
      · obtain ⟨c, hc, hs⟩ := List.mem_flatMap.mp h
        exact List.mem_cons_of_mem _ (List.mem_flatMap.mpr ⟨c, hc, ih hs⟩)

theorem descendants_mono {n m : Nat} (hnm : n ≤ m) {r s : α} (h : s ∈ descendants children n r) :
    s ∈ descendants children m r := by
  induction hnm with
  | refl => exact h
  | step _ ih => exact descendants_succ ih

/-- A child is one level further down. -/
theorem descendants_child {n : Nat} {r q s : α} (h : q ∈ descendants children n r) (hs : s ∈ children q) :
    s ∈ descendants children (n + 1) r := by
  induction n generalizing r with
  | zero =>
      rw [List.mem_singleton.mp h] at hs
      exact List.mem_cons_of_mem _ (List.mem_flatMap.mpr ⟨s, hs, self_mem_descendants _ _⟩)
  | succ n ih =>
      rcases List.mem_cons.mp h with rfl | h
      · exact List.mem_cons_of_mem _ (List.mem_flatMap.mpr ⟨s, hs, self_mem_descendants _ _⟩)
      · obtain ⟨c, hc, hq⟩ := List.mem_flatMap.mp h
        exact List.mem_cons_of_mem _ (List.mem_flatMap.mpr ⟨c, hc, ih hq⟩)

section
variable (L : Lineage rows roots children parent rank)
include L

theorem mem_rows_of_descendants {n : Nat} {r s : α} (hr : r ∈ rows) (h : s ∈ descendants children n r) :
    s ∈ rows := by
  induction n generalizing r with
  | zero => rwa [List.mem_singleton.mp h]
  | succ n ih =>
      rcases List.mem_cons.mp h with rfl | h
      · exact hr
      · obtain ⟨c, hc, hs⟩ := List.mem_flatMap.mp h
        exact ih ((L.mem_children hr).mp hc).1 hs

/-- The row is as far above its descendants as their ranks differ. -/
theorem above_of_descendants {n : Nat} {r s : α} (hr : r ∈ rows) (h : s ∈ descendants children n r) :
    ∃ k, rank s = rank r + k ∧ above parent k s = some r := by
  induction n generalizing r with
  | zero => exact ⟨0, by rw [List.mem_singleton.mp h]; rfl, by rw [List.mem_singleton.mp h]; rfl⟩
  | succ n ih =>
      rcases List.mem_cons.mp h with rfl | h
      · exact ⟨0, rfl, rfl⟩
      · obtain ⟨c, hc, hs⟩ := List.mem_flatMap.mp h
        obtain ⟨hcr, hpar⟩ := (L.mem_children hr).mp hc
        obtain ⟨k, hk, habove⟩ := ih hcr hs
        refine ⟨k + 1, ?_, ?_⟩
        · rw [hk, L.rank_child hcr hpar]
          omega
        · show (above parent k s).bind parent = some r
          rw [habove]
          exact hpar

/-- Rows of one rank have no descendant in common. -/
theorem eq_of_common_descendant {n m : Nat} {r r' s : α} (hr : r ∈ rows) (hr' : r' ∈ rows)
    (hrank : rank r = rank r') (h : s ∈ descendants children n r) (h' : s ∈ descendants children m r') :
    r = r' := by
  obtain ⟨k, hk, habove⟩ := L.above_of_descendants hr h
  obtain ⟨k', hk', habove'⟩ := L.above_of_descendants hr' h'
  have hkk : k = k' := by omega
  rw [hkk] at habove
  exact Option.some.inj (habove.symm.trans habove')

/-- Rows of one rank, each once, have their descendants each once. -/
theorem flatMap_nodup {n : Nat} {l : List α} (hl : l.Nodup) (hrows : ∀ r ∈ l, r ∈ rows)
    (hrank : ∀ r ∈ l, ∀ r' ∈ l, rank r = rank r')
    (hn : ∀ r ∈ l, (descendants children n r).Nodup) : (l.flatMap (descendants children n)).Nodup := by
  rw [List.nodup_flatMap]
  refine ⟨hn, List.Pairwise.imp_of_mem ?_ hl⟩
  intro r r' hr hr' hne s hs hs'
  exact hne (L.eq_of_common_descendant (hrows r hr) (hrows r' hr') (hrank r hr r' hr') hs hs')

theorem descendants_nodup (n : Nat) {r : α} (hr : r ∈ rows) : (descendants children n r).Nodup := by
  induction n generalizing r with
  | zero => exact List.nodup_singleton r
  | succ n ih =>
      have hchild : ∀ c ∈ children r, c ∈ rows ∧ rank c = rank r + 1 := fun c hc =>
        have hc := (L.mem_children hr).mp hc
        ⟨hc.1, L.rank_child hc.1 hc.2⟩
      refine List.nodup_cons.mpr ⟨fun h => ?_, ?_⟩
      · obtain ⟨c, hc, hs⟩ := List.mem_flatMap.mp h
        obtain ⟨k, hk, -⟩ := L.above_of_descendants (hchild c hc).1 hs
        have hup := (hchild c hc).2
        omega
      · refine L.flatMap_nodup (L.children_nodup r) (fun c hc => (hchild c hc).1) ?_
          fun c hc => ih (hchild c hc).1
        exact fun c hc c' hc' => (hchild c hc).2.trans (hchild c' hc').2.symm

theorem mem_descendants_of_rank {s : α} (hs : s ∈ rows) :
    ∃ r ∈ roots, s ∈ descendants children (rank s) r := by
  generalize hk : rank s = k
  induction k generalizing s with
  | zero =>
      cases hp : parent s with
      | none => exact ⟨s, L.mem_roots.mpr ⟨hs, hp⟩, self_mem_descendants _ _⟩
      | some q =>
          have hq := L.rank_child hs hp
          omega
  | succ k ih =>
      cases hp : parent s with
      | none =>
          have hroot := L.rank_root hs hp
          omega
      | some q =>
          have hq := L.parent_mem hs hp
          have hrank := L.rank_child hs hp
          obtain ⟨r, hr, hmem⟩ := ih hq (by omega)
          exact ⟨r, hr, descendants_child hmem ((L.mem_children hq).mpr ⟨hs, hp⟩)⟩

/-- The descendants of the roots are the rows, each once. -/
theorem descendants_perm {n : Nat} (hn : ∀ s ∈ rows, rank s ≤ n) :
    (roots.flatMap (descendants children n)).Perm rows := by
  have hroots : ∀ r ∈ roots, r ∈ rows := fun r hr => (L.mem_roots.mp hr).1
  have hrank : ∀ r ∈ roots, rank r = 0 := fun r hr =>
    L.rank_root (L.mem_roots.mp hr).1 (L.mem_roots.mp hr).2
  have hnodup : (roots.flatMap (descendants children n)).Nodup :=
    L.flatMap_nodup L.roots_nodup hroots (fun r hr r' hr' => (hrank r hr).trans (hrank r' hr').symm)
      fun r hr => L.descendants_nodup n (hroots r hr)
  rw [List.perm_ext_iff_of_nodup hnodup L.rows_nodup]
  intro s
  constructor
  · intro h
    obtain ⟨r, hr, hs⟩ := List.mem_flatMap.mp h
    exact L.mem_rows_of_descendants (hroots r hr) hs
  · intro hs
    obtain ⟨r, hr, hmem⟩ := L.mem_descendants_of_rank hs
    exact List.mem_flatMap.mpr ⟨r, hr, descendants_mono (hn s hs) hmem⟩

end

end Lineage
