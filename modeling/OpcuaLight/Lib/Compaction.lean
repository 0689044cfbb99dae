import Mathlib.Data.List.Nodup

/-!
# Compaction in place

One loop over an array that keeps some of its entries. A kept entry is copied down to the next place in front, a
dropped one is cleared where it stands.

* `compactFrom_spec` : the places in front hold what has been kept, and what is not read yet is as it was;
* `compact_spec` : the loop stays inside the array, keeps the entries in their order, and clears each of the others
  once, where it stood.
-/

namespace Compaction

variable {α : Type*}

/-- The array, how many entries are kept, and which were cleared, with where they stood. -/
structure State (α : Type*) where
  entries : List α
  count : ℕ
  cleared : List (ℕ × α)

/-- One round: what is outside the array is neither read nor written. -/
def round (keep : α → Bool) (zero : α) (s : State α) (i : ℕ) : Option (State α) := do
  let e ← s.entries[i]?
  if keep e then
    if s.count ≠ i then
      if s.count < s.entries.length then
        return { s with entries := s.entries.set s.count e, count := s.count + 1 }
      else none
    else return { s with count := s.count + 1 }
  else return { s with entries := s.entries.set i zero, cleared := s.cleared ++ [(i, e)] }

/-- Some rounds, from an index on. -/
def compactFrom (keep : α → Bool) (zero : α) : ℕ → ℕ → State α → Option (State α)
  | 0, _, s => some s
  | rounds + 1, i, s => (round keep zero s i).bind (compactFrom keep zero rounds (i + 1))

def compact (keep : α → Bool) (zero : α) (entries : List α) : Option (State α) :=
  compactFrom keep zero entries.length 0 ⟨entries, 0, []⟩

/-- The entries that are dropped, with where they stand. -/
def dropped (keep : α → Bool) (entries : List α) : List (ℕ × α) :=
  (entries.zipIdx.filter (fun p => !keep p.1)).map Prod.swap

/-- The state when the entries in front have been read. -/
structure Compacted (keep : α → Bool) (pre post : List α) (s : State α) : Prop where
  count : s.count = (pre.filter keep).length
  kept : s.entries.take s.count = pre.filter keep
  unread : s.entries.drop pre.length = post
  length : s.entries.length = pre.length + post.length
  cleared : s.cleared = dropped keep pre

variable {keep : α → Bool} {zero : α} {pre post entries : List α} {s : State α} {e : α}

theorem take_succ_set {i : ℕ} (h : i < entries.length) (e : α) :
    (entries.set i e).take (i + 1) = entries.take i ++ [e] := by
  rw [List.take_succ_eq_append_getElem (by rw [List.length_set]; exact h), List.getElem_set_self,
    List.take_set_of_le (Nat.le_refl i)]

theorem drop_set {i n : ℕ} (h : i < n) (e : α) : (entries.set i e).drop n = entries.drop n :=
  List.drop_set_of_lt h

theorem filter_keep (pre : List α) (hkeep : keep e = true) : (pre ++ [e]).filter keep = pre.filter keep ++ [e] := by
  rw [List.filter_append, List.filter_cons_of_pos hkeep, List.filter_nil]

theorem filter_drop (pre : List α) (hkeep : keep e = false) : (pre ++ [e]).filter keep = pre.filter keep := by
  rw [List.filter_append, List.filter_cons_of_neg (Bool.not_eq_true _ ▸ hkeep), List.filter_nil, List.append_nil]

theorem dropped_keep (pre : List α) (hkeep : keep e = true) : dropped keep (pre ++ [e]) = dropped keep pre := by
  unfold dropped
  rw [List.zipIdx_append, List.filter_append]
  simp [hkeep]

theorem dropped_drop (pre : List α) (hkeep : keep e = false) :
    dropped keep (pre ++ [e]) = dropped keep pre ++ [(pre.length, e)] := by
  unfold dropped
  rw [List.zipIdx_append, List.filter_append, List.map_append]
  simp [hkeep]

namespace Compacted

theorem count_le (h : Compacted keep pre post s) : s.count ≤ pre.length := by
  rw [h.count]
  exact List.length_filter_le _ _

theorem drop_succ (h : Compacted keep pre (e :: post) s) : s.entries.drop (pre.length + 1) = post := by
  rw [← List.tail_drop, h.unread, List.tail_cons]

theorem get (h : Compacted keep pre (e :: post) s) : s.entries[pre.length]? = some e := by
  rw [← List.head?_drop, h.unread, List.head?_cons]

theorem length_snoc (h : Compacted keep pre (e :: post) s) :
    s.entries.length = (pre ++ [e]).length + post.length := by
  have hlen := h.length
  rw [List.length_cons] at hlen
  rw [List.length_append, List.length_singleton]
  omega

theorem drop_snoc (h : Compacted keep pre (e :: post) s) : s.entries.drop (pre ++ [e]).length = post := by
  rw [List.length_append, List.length_singleton]
  exact h.drop_succ

/-- A kept entry stays where it is if nothing was dropped so far. -/
theorem stay (h : Compacted keep pre (e :: post) s) (hkeep : keep e = true) (hplace : s.count = pre.length) :
    Compacted keep (pre ++ [e]) post { s with count := s.count + 1 } where
  count := by
    rw [filter_keep pre hkeep, List.length_append, ← h.count]
    rfl
  kept := by
    have hlen := h.length
    rw [List.length_cons] at hlen
    have hlt : pre.length < s.entries.length := by omega
    have hget : s.entries[pre.length] = e := Option.some.inj ((List.getElem?_eq_getElem hlt).symm.trans h.get)
    have hkept := h.kept
    rw [hplace] at hkept
    simp only [hplace]
    rw [filter_keep pre hkeep, List.take_succ_eq_append_getElem hlt, hget, hkept]
  unread := h.drop_snoc
  length := h.length_snoc
  cleared := by rw [dropped_keep pre hkeep, h.cleared]

/-- Otherwise it is copied down, to a place in front that has been read. -/
theorem copy (h : Compacted keep pre (e :: post) s) (hkeep : keep e = true) (hplace : s.count < pre.length) :
    Compacted keep (pre ++ [e]) post { s with entries := s.entries.set s.count e, count := s.count + 1 } where
  count := by
    rw [filter_keep pre hkeep, List.length_append, ← h.count]
    rfl
  kept := by
    have hlen := h.length
    rw [filter_keep pre hkeep, ← h.kept]
    exact take_succ_set (by omega) e
  unread := by
    refine (drop_set ?_ e).trans h.drop_snoc
    rw [List.length_append]
    exact Nat.lt_add_right _ hplace
  length := by
    simp only [List.length_set]
    exact h.length_snoc
  cleared := by rw [dropped_keep pre hkeep, h.cleared]

/-- A dropped entry is cleared where it stands. -/
theorem clear (h : Compacted keep pre (e :: post) s) (hkeep : keep e = false) (zero : α) :
    Compacted keep (pre ++ [e]) post
      { s with entries := s.entries.set pre.length zero, cleared := s.cleared ++ [(pre.length, e)] } where
  count := by
    rw [filter_drop pre hkeep]
    exact h.count
  kept := by
    rw [filter_drop pre hkeep, ← h.kept]
    exact List.take_set_of_le h.count_le
  unread := by
    refine (drop_set ?_ zero).trans h.drop_snoc
    rw [List.length_append]
    exact Nat.lt_succ_self _
  length := by
    simp only [List.length_set]
    exact h.length_snoc
  cleared := by rw [dropped_drop pre hkeep, h.cleared]

/-- **One round.** -/
theorem round (h : Compacted keep pre (e :: post) s) :
    ∃ s', Compaction.round keep zero s pre.length = some s' ∧ Compacted keep (pre ++ [e]) post s' := by
  rw [Compaction.round, h.get]
  simp only [Option.bind_eq_bind, Option.bind_some, Option.pure_def]
  cases hkeep : keep e with
  | true =>
      rw [if_pos rfl]
      by_cases hplace : s.count = pre.length
      · rw [if_neg (not_not.mpr hplace)]
        exact ⟨_, rfl, h.stay hkeep hplace⟩
      · have hfront : s.count < pre.length := Nat.lt_of_le_of_ne h.count_le hplace
        have hlen := h.length
        rw [if_pos hplace, if_pos (by omega)]
        exact ⟨_, rfl, h.copy hkeep hfront⟩
  | false =>
      rw [if_neg (by decide)]
      exact ⟨_, rfl, h.clear hkeep zero⟩

end Compacted

/-- **The rounds.** They read each entry as it was, since what is written stands before it. -/
theorem compactFrom_spec (h : Compacted keep pre post s) :
    ∃ s', compactFrom keep zero post.length pre.length s = some s' ∧ Compacted keep (pre ++ post) [] s' := by
  induction post generalizing pre s with
  | nil =>
      rw [List.append_nil]
      exact ⟨s, rfl, h⟩
  | cons e post ih =>
      obtain ⟨s₁, hround, h₁⟩ : ∃ s₁, round keep zero s pre.length = some s₁ ∧ Compacted keep (pre ++ [e]) post s₁ :=
        h.round
      obtain ⟨s', hrest, h'⟩ := ih h₁
      refine ⟨s', ?_, ?_⟩
      · rw [List.length_append] at hrest
        rw [List.length_cons, compactFrom, hround]
        exact hrest
      · rw [List.append_assoc] at h'
        exact h'

/-- **The loop.** -/
theorem compact_spec (keep : α → Bool) (zero : α) (entries : List α) : ∃ s, compact keep zero entries = some s ∧
    s.count = (entries.filter keep).length ∧ s.entries.take s.count = entries.filter keep ∧
    s.cleared = dropped keep entries := by
  have hstart : Compacted keep [] entries ⟨entries, 0, []⟩ :=
    { count := rfl, kept := rfl, unread := rfl, length := (Nat.zero_add _).symm, cleared := rfl }
  have hrun : ∃ s, compact keep zero entries = some s ∧ Compacted keep ([] ++ entries) [] s := compactFrom_spec hstart
  obtain ⟨s, hrun, h⟩ := hrun
  exact ⟨s, hrun, h.count, h.kept, h.cleared⟩

/-! ## What is dropped -/

theorem mem_dropped {i : ℕ} : (i, e) ∈ dropped keep entries ↔ entries[i]? = some e ∧ keep e = false := by
  rw [dropped, List.mem_map]
  constructor
  · rintro ⟨⟨e', j⟩, hmem, hswap⟩
    obtain ⟨hmem, hkeep⟩ := List.mem_filter.mp hmem
    cases hswap
    exact ⟨List.mem_zipIdx_iff_getElem?.mp hmem, by simpa using hkeep⟩
  · rintro ⟨hget, hkeep⟩
    exact ⟨(e, i), List.mem_filter.mpr ⟨List.mem_zipIdx_iff_getElem?.mpr hget, by simpa using hkeep⟩, rfl⟩

theorem map_snd_dropped (keep : α → Bool) (entries : List α) :
    (dropped keep entries).map Prod.snd = entries.filter (fun e => !keep e) := by
  have hfst : (dropped keep entries).map Prod.snd = (entries.zipIdx.filter (fun p => !keep p.1)).map Prod.fst := by
    rw [dropped, List.map_map]
    rfl
  rw [hfst]
  conv_rhs => rw [← List.zipIdx_map_fst 0 entries, List.filter_map]
  rfl

/-- No place is cleared twice. -/
theorem nodup_dropped (keep : α → Bool) (entries : List α) : ((dropped keep entries).map Prod.fst).Nodup := by
  have hsnd : (dropped keep entries).map Prod.fst = (entries.zipIdx.filter (fun p => !keep p.1)).map Prod.snd := by
    rw [dropped, List.map_map]
    rfl
  have hall : (entries.zipIdx.map Prod.snd).Nodup := by
    rw [List.zipIdx_map_snd]
    exact List.nodup_range'
  rw [hsnd]
  exact hall.sublist (List.filter_sublist.map _)

end Compaction
