import Mathlib.Data.List.Nodup
import Mathlib.Data.List.Pairwise
import Mathlib.Tactic.Common

/-!
# Insertion-ordered maps

The `Map` of JavaScript: keys are distinct, iteration follows the order in which the keys were
first added, setting a present key keeps its place, and deleting and adding it again moves it to
the end. Each slot carries the stamp of its insertion, so that an iterator which is still open
while the map changes is a number: it continues at the first slot with a larger stamp
(`nextAfter`).
-/

/-- A map whose slots `(stamp, key, value)` stand in the order of insertion. -/
structure JsMap (κ ν : Type*) where
  slots : List (Nat × κ × ν)
  next : Nat
  sorted : slots.Pairwise (fun a b => a.1 < b.1)
  bound : ∀ s ∈ slots, s.1 < next
  nodup : (slots.map (fun s => s.2.1)).Nodup

namespace JsMap

variable {κ ν : Type*}

def empty : JsMap κ ν := ⟨[], 0, List.Pairwise.nil, by simp, List.nodup_nil⟩

instance : EmptyCollection (JsMap κ ν) := ⟨empty⟩
instance : Inhabited (JsMap κ ν) := ⟨empty⟩

def keys (m : JsMap κ ν) : List κ := m.slots.map (fun s => s.2.1)

def values (m : JsMap κ ν) : List ν := m.slots.map (fun s => s.2.2)

def entries (m : JsMap κ ν) : List (κ × ν) := m.slots.map (fun s => s.2)

def size (m : JsMap κ ν) : Nat := m.slots.length

/-- The slots an iterator that has passed stamp `t` still has to visit. -/
def after (m : JsMap κ ν) (t : Option Nat) : List (Nat × κ × ν) :=
  m.slots.filter (fun s => t.all (· < s.1))

section Ops
variable [DecidableEq κ]

def get? (m : JsMap κ ν) (k : κ) : Option ν :=
  (m.slots.find? (fun s => s.2.1 = k)).map (fun s => s.2.2)

def has (m : JsMap κ ν) (k : κ) : Bool := (m.get? k).isSome

def delete (m : JsMap κ ν) (k : κ) : JsMap κ ν where
  slots := m.slots.filter (fun s => s.2.1 ≠ k)
  next := m.next
  sorted := m.sorted.filter _
  bound := fun s hs => m.bound s (List.mem_of_mem_filter hs)
  nodup := m.nodup.sublist (List.filter_sublist.map _)

/-- The value of a present key, replaced in its place. -/
def replace (m : JsMap κ ν) (k : κ) (v : ν) : JsMap κ ν where
  slots := m.slots.map (fun s => if s.2.1 = k then (s.1, k, v) else s)
  next := m.next
  sorted := by
    rw [List.pairwise_map]
    refine m.sorted.imp fun {a b} hab => ?_
    split_ifs <;> exact hab
  bound := by
    intro s hs
    obtain ⟨a, ha, rfl⟩ := List.mem_map.mp hs
    split_ifs <;> exact m.bound a ha
  nodup := by
    rw [List.map_map]
    convert m.nodup using 2
    funext a
    simp only [Function.comp_apply]
    split_ifs with h
    · exact h.symm
    · rfl

theorem get?_eq_none_iff {m : JsMap κ ν} {k : κ} : m.get? k = none ↔ k ∉ m.keys := by
  simp only [get?, keys, Option.map_eq_none_iff, List.find?_eq_none, decide_eq_true_eq, List.mem_map,
    not_exists, not_and]

/-- A key that is not present, added at the end. -/
def append (m : JsMap κ ν) (k : κ) (v : ν) (h : m.get? k = none) : JsMap κ ν where
  slots := m.slots ++ [(m.next, k, v)]
  next := m.next + 1
  sorted := by
    rw [List.pairwise_append]
    refine ⟨m.sorted, by simp, fun a ha b hb => ?_⟩
    rw [List.mem_singleton] at hb
    subst hb
    exact m.bound a ha
  bound := by
    intro s hs
    rcases List.mem_append.mp hs with hs | hs
    · exact Nat.lt_succ_of_lt (m.bound s hs)
    · rw [List.mem_singleton] at hs
      subst hs
      exact Nat.lt_succ_self _
  nodup := by
    rw [List.map_append]
    refine List.Nodup.append m.nodup (by simp) ?_
    simpa [keys] using get?_eq_none_iff.mp h

def set (m : JsMap κ ν) (k : κ) (v : ν) : JsMap κ ν :=
  if h : m.get? k = none then m.append k v h else m.replace k v

end Ops

/-! ## Lookup -/

@[simp] theorem keys_empty : (∅ : JsMap κ ν).keys = [] := rfl

@[simp] theorem values_empty : (∅ : JsMap κ ν).values = [] := rfl

@[simp] theorem entries_empty : (∅ : JsMap κ ν).entries = [] := rfl

theorem mem_of_mem_after {m : JsMap κ ν} {t : Option Nat} {s : Nat × κ × ν} (h : s ∈ m.after t) :
    s ∈ m.slots := List.mem_of_mem_filter h

variable [DecidableEq κ]

@[simp] theorem get?_empty (k : κ) : (∅ : JsMap κ ν).get? k = none := rfl

theorem get?_eq_some_iff {m : JsMap κ ν} {k : κ} {v : ν} :
    m.get? k = some v ↔ (k, v) ∈ m.entries := by
  constructor
  · intro h
    obtain ⟨s, hs, rfl⟩ := Option.map_eq_some_iff.mp h
    have hk : s.2.1 = k := by simpa using List.find?_some hs
    exact List.mem_map.mpr ⟨s, List.mem_of_find?_eq_some hs, by rw [← hk]⟩
  · intro h
    obtain ⟨s, hs, hkv⟩ := List.mem_map.mp h
    cases hf : m.slots.find? (fun s => s.2.1 = k) with
    | none =>
        have := List.find?_eq_none.mp hf s hs
        simp [hkv] at this
    | some s' =>
        have hk' : s'.2.1 = k := by simpa using List.find?_some hf
        have heq : s' = s := by
          refine List.inj_on_of_nodup_map m.nodup (List.mem_of_find?_eq_some hf) hs ?_
          rw [hk', hkv]
        rw [get?, hf, heq, Option.map_some, hkv]

theorem mem_values_iff {m : JsMap κ ν} {v : ν} : v ∈ m.values ↔ ∃ k, m.get? k = some v := by
  simp only [get?_eq_some_iff, entries, values, List.mem_map]
  constructor
  · rintro ⟨s, hs, rfl⟩
    exact ⟨s.2.1, s, hs, rfl⟩
  · rintro ⟨k, s, hs, h⟩
    exact ⟨s, hs, by rw [h]⟩

theorem mem_values_of_get? {m : JsMap κ ν} {k : κ} {v : ν} (h : m.get? k = some v) :
    v ∈ m.values := mem_values_iff.mpr ⟨k, h⟩

theorem has_eq_true_iff {m : JsMap κ ν} {k : κ} : m.has k = true ↔ ∃ v, m.get? k = some v :=
  Option.isSome_iff_exists

theorem get?_of_mem_slots {m : JsMap κ ν} {s : Nat × κ × ν} (h : s ∈ m.slots) :
    m.get? s.2.1 = some s.2.2 := get?_eq_some_iff.mpr (List.mem_map.mpr ⟨s, h, rfl⟩)

theorem values_nodup {m : JsMap κ ν}
    (h : ∀ k k' v, m.get? k = some v → m.get? k' = some v → k = k') : m.values.Nodup := by
  rw [values, List.nodup_iff_pairwise_ne, List.pairwise_map]
  refine m.sorted.imp_of_mem fun {a b} ha hb hab heq => ?_
  have hkey : a.2.1 = b.2.1 :=
    h _ _ _ (get?_of_mem_slots ha) (by rw [get?_of_mem_slots hb, heq])
  have : a = b := List.inj_on_of_nodup_map m.nodup ha hb hkey
  rw [this] at hab
  exact Nat.lt_irrefl _ hab

/-! ## Update -/

theorem mem_entries_delete {m : JsMap κ ν} {k k' : κ} {v : ν} :
    (k', v) ∈ (m.delete k).entries ↔ k' ≠ k ∧ (k', v) ∈ m.entries := by
  simp only [entries, delete, List.mem_map, List.mem_filter, decide_eq_true_eq]
  constructor
  · rintro ⟨s, ⟨hs, hk⟩, h⟩
    exact ⟨by rw [h] at hk; exact hk, s, hs, h⟩
  · rintro ⟨hk, s, hs, h⟩
    exact ⟨s, ⟨hs, by rw [h]; exact hk⟩, h⟩

theorem mem_entries_append {m : JsMap κ ν} {k k' : κ} {v v' : ν} (h : m.get? k = none) :
    (k', v') ∈ (m.append k v h).entries ↔ (k', v') ∈ m.entries ∨ k' = k ∧ v' = v := by
  simp [entries, append, List.mem_map, eq_comm]

theorem mem_entries_replace {m : JsMap κ ν} {k k' : κ} {v v' : ν} (h : m.get? k ≠ none) :
    (k', v') ∈ (m.replace k v).entries ↔ if k' = k then v' = v else (k', v') ∈ m.entries := by
  simp only [entries, replace, List.map_map, List.mem_map, Function.comp_apply]
  split_ifs with hk
  · subst hk
    constructor
    · rintro ⟨s, -, hs⟩
      split_ifs at hs with hks
      · exact ((Prod.mk.injEq _ _ _ _).mp hs).2.symm
      · exact absurd (by rw [hs]) hks
    · rintro rfl
      obtain ⟨w, hw⟩ := Option.ne_none_iff_exists'.mp h
      obtain ⟨s, hs, hkw⟩ := List.mem_map.mp (get?_eq_some_iff.mp hw)
      exact ⟨s, hs, by rw [if_pos (by rw [hkw])]⟩
  · constructor
    · rintro ⟨s, hs, h'⟩
      split_ifs at h' with hks
      · exact absurd ((Prod.mk.injEq _ _ _ _).mp h').1.symm hk
      · exact ⟨s, hs, h'⟩
    · rintro ⟨s, hs, h'⟩
      exact ⟨s, hs, by rw [if_neg (by rw [h']; exact hk), h']⟩

theorem get?_delete (m : JsMap κ ν) (k k' : κ) :
    (m.delete k).get? k' = if k' = k then none else m.get? k' := by
  refine Option.ext fun v => ?_
  rw [get?_eq_some_iff, mem_entries_delete]
  split_ifs with h
  · simp [h]
  · simp [h, get?_eq_some_iff]

@[simp] theorem get?_delete_self (m : JsMap κ ν) (k : κ) : (m.delete k).get? k = none := by
  rw [get?_delete, if_pos rfl]

theorem get?_delete_of_ne (m : JsMap κ ν) {k k' : κ} (h : k' ≠ k) :
    (m.delete k).get? k' = m.get? k' := by
  rw [get?_delete, if_neg h]

theorem get?_set (m : JsMap κ ν) (k k' : κ) (v : ν) :
    (m.set k v).get? k' = if k' = k then some v else m.get? k' := by
  refine Option.ext fun w => ?_
  rw [get?_eq_some_iff, set]
  split_ifs with h hk hk
  · rw [mem_entries_append, ← get?_eq_some_iff, hk, h]
    simp [eq_comm]
  · rw [mem_entries_append, ← get?_eq_some_iff]
    simp [hk]
  · rw [mem_entries_replace h, if_pos hk]
    simp [eq_comm]
  · rw [mem_entries_replace h, if_neg hk, get?_eq_some_iff]

@[simp] theorem get?_set_self (m : JsMap κ ν) (k : κ) (v : ν) : (m.set k v).get? k = some v := by
  rw [get?_set, if_pos rfl]

theorem get?_set_of_ne (m : JsMap κ ν) {k k' : κ} (v : ν) (h : k' ≠ k) :
    (m.set k v).get? k' = m.get? k' := by
  rw [get?_set, if_neg h]

/-- Setting the keys of a list in turn, where no key has two values. -/
theorem get?_foldl_set {l : List (κ × ν)} (h : ∀ p ∈ l, ∀ q ∈ l, p.1 = q.1 → p = q) (m : JsMap κ ν)
    (k : κ) : (l.foldl (fun m p => m.set p.1 p.2) m).get? k =
      ((l.find? (fun p => p.1 = k)).map Prod.snd).or (m.get? k) := by
  induction l generalizing m with
  | nil => rfl
  | cons p l ih =>
      have hrest := ih (fun a ha b hb => h a (List.mem_cons_of_mem p ha) b (List.mem_cons_of_mem p hb))
        (m.set p.1 p.2)
      show (l.foldl _ (m.set p.1 p.2)).get? k = _
      rw [hrest, get?_set, List.find?_cons]
      by_cases hk : k = p.1
      · rw [if_pos hk, decide_eq_true hk.symm]
        cases hq : l.find? (fun p => p.1 = k) with
        | none => rfl
        | some q =>
            have hqk : q.1 = k := by simpa using List.find?_some hq
            have hqp : q = p := h q (List.mem_cons_of_mem p (List.mem_of_find?_eq_some hq)) p
              List.mem_cons_self (hqk.trans hk)
            rw [hqp]
            rfl
      · rw [if_neg hk, decide_eq_false (Ne.symm hk)]

theorem mem_values_set_iff {m : JsMap κ ν} {k : κ} {v w : ν} :
    w ∈ (m.set k v).values ↔ w = v ∨ ∃ k', k' ≠ k ∧ m.get? k' = some w := by
  rw [mem_values_iff]
  constructor
  · rintro ⟨k', h⟩
    rw [get?_set] at h
    split_ifs at h with hk
    · exact Or.inl (Option.some.inj h).symm
    · exact Or.inr ⟨k', hk, h⟩
  · rintro (rfl | ⟨k', hk, h⟩)
    · exact ⟨k, get?_set_self m k w⟩
    · exact ⟨k', by rw [get?_set_of_ne m v hk, h]⟩

theorem mem_values_delete_iff {m : JsMap κ ν} {k : κ} {w : ν} :
    w ∈ (m.delete k).values ↔ ∃ k', k' ≠ k ∧ m.get? k' = some w := by
  rw [mem_values_iff]
  constructor
  · rintro ⟨k', h⟩
    rw [get?_delete] at h
    split_ifs at h with hk
    exact ⟨k', hk, h⟩
  · rintro ⟨k', hk, h⟩
    exact ⟨k', by rw [get?_delete_of_ne m hk, h]⟩

end JsMap
