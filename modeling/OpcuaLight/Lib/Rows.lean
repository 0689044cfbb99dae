import Mathlib.Data.List.Nodup
import Mathlib.Tactic.Common

/-!
# Rows with distinct keys

The row of a key in a list of rows: where no two rows have one key, it is found whatever the order of
the rows, and adding, changing and dropping rows changes what is found as for a map.
-/

namespace Rows

variable {α κ : Type*} [DecidableEq κ] (key : α → κ) {rows : List α} {r : α} {k : κ}

theorem find?_eq_some (hn : (rows.map key).Nodup) :
    rows.find? (fun r => key r = k) = some r ↔ r ∈ rows ∧ key r = k := by
  constructor
  · intro h
    exact ⟨List.mem_of_find?_eq_some h, by simpa using List.find?_some h⟩
  · rintro ⟨hr, hk⟩
    cases h : rows.find? (fun r => key r = k) with
    | none => exact absurd hk (by simpa using List.find?_eq_none.mp h r hr)
    | some s =>
        have hs : key s = k := by simpa using List.find?_some h
        rw [List.inj_on_of_nodup_map hn (List.mem_of_find?_eq_some h) hr (hs.trans hk.symm)]

theorem find?_eq_none : rows.find? (fun r => key r = k) = none ↔ ∀ r ∈ rows, key r ≠ k := by
  simp [List.find?_eq_none]

/-- The order of the rows does not matter. -/
theorem find?_perm {rows' : List α} (hp : rows.Perm rows') (hn : (rows'.map key).Nodup) :
    rows.find? (fun r => key r = k) = rows'.find? (fun r => key r = k) := by
  have hn' : (rows.map key).Nodup := (hp.map key).nodup_iff.mpr hn
  refine Option.ext fun r => ?_
  rw [find?_eq_some key hn', find?_eq_some key hn, hp.mem_iff]

theorem find?_append (hnew : rows.find? (fun s => key s = key r) = none) :
    (rows ++ [r]).find? (fun s => key s = k) =
      if k = key r then some r else rows.find? (fun s => key s = k) := by
  rw [List.find?_append]
  split_ifs with hk
  · rw [hk, hnew]
    simp
  · rw [List.find?_singleton, if_neg (by simpa using Ne.symm hk)]
    exact Option.or_none

/-- A change that keeps the keys changes what is found. -/
theorem find?_map {f : α → α} (hf : ∀ r, key (f r) = key r) :
    (rows.map f).find? (fun r => key r = k) = (rows.find? (fun r => key r = k)).map f := by
  rw [List.find?_map]
  simp only [Function.comp_def, hf]

/-- A change of one row, that keeps its key. -/
theorem find?_update {f : α → α} (hf : ∀ r, key (f r) = key r) (k' : κ) :
    (rows.map (fun r => if key r = k' then f r else r)).find? (fun r => key r = k) =
      if k = k' then (rows.find? (fun r => key r = k)).map f else rows.find? (fun r => key r = k) := by
  rw [find?_map key (fun r => by split_ifs <;> simp only [hf])]
  cases h : rows.find? (fun r => key r = k) with
  | none => simp
  | some r =>
      have hr : key r = k := by simpa using List.find?_some h
      simp only [Option.map_some, hr]
      split_ifs <;> rfl

theorem find?_filter (hn : (rows.map key).Nodup) (q : α → Bool) :
    (rows.filter q).find? (fun r => key r = k) = (rows.find? (fun r => key r = k)).filter q := by
  have hn' : ((rows.filter q).map key).Nodup := hn.sublist (List.filter_sublist.map key)
  refine Option.ext fun r => ?_
  rw [find?_eq_some key hn', Option.filter_eq_some_iff, find?_eq_some key hn, List.mem_filter]
  exact and_right_comm

/-! ## A column that differs where it has a value -/

section Column
variable {β : Type*} {column : α → Option β}

omit [DecidableEq κ] in
theorem column_append (hcol : (rows.filterMap column).Nodup) (hnew : ∀ s ∈ rows, column r = none ∨ column s ≠ column r) :
    ((rows ++ [r]).filterMap column).Nodup := by
  rw [List.Nodup, List.pairwise_filterMap] at hcol ⊢
  refine List.pairwise_append.mpr ⟨hcol, List.pairwise_singleton _ _, ?_⟩
  rintro s hs r' hr' b hb b' hb' rfl
  rw [List.mem_singleton.mp hr'] at hb'
  rcases hnew s hs with hnone | hne
  · rw [hnone] at hb'
    cases hb'
  · exact hne (hb.trans hb'.symm)

/-- A change of one row that leaves the column empty, as it was, or with a value that no row has. -/
theorem column_update (hn : (rows.map key).Nodup) (hcol : (rows.filterMap column).Nodup) {f : α → α}
    (hf : ∀ r ∈ rows, key r = k →
      column (f r) = none ∨ column (f r) = column r ∨ ∀ s ∈ rows, column s ≠ column (f r)) :
    ((rows.map (fun r => if key r = k then f r else r)).filterMap column).Nodup := by
  rw [List.Nodup, List.pairwise_filterMap] at hcol ⊢
  rw [List.Nodup, List.pairwise_map] at hn
  rw [List.pairwise_map]
  have hchanged : ∀ r ∈ rows, ∀ s ∈ rows, key r = k → (∀ b, column r = some b → ∀ b', column s = some b' → b ≠ b') →
      ∀ b, column (f r) = some b → ∀ b', column s = some b' → b ≠ b' := by
    rintro r hr s hs hk hrs b hb b' hb' rfl
    rcases hf r hr hk with hnone | hsame | hfree
    · rw [hnone] at hb
      cases hb
    · exact hrs b (hsame.symm.trans hb) b hb' rfl
    · exact hfree s hs (hb'.trans hb.symm)
  refine (hn.and hcol).imp_of_mem fun {r s} hr hs h => ?_
  split_ifs with hrk hsk hsk
  · exact absurd (hrk.trans hsk.symm) h.1
  · exact hchanged r hr s hs hrk h.2
  · intro b hb b' hb'
    exact (hchanged s hs r hr hsk (fun c hc c' hc' => (h.2 c' hc' c hc).symm) b' hb' b hb).symm
  · exact h.2

end Column

end Rows
