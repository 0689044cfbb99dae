import OpcuaLight.Lib.JsMap

/-!
# Loops over a map that changes

`for (const [k, v] of map)` while the body changes the map: the iterator goes on with the first slot behind the one
that it has passed. A body that deletes no entry but its own visits the entries that were there (`forOf_eq_foldl`).
-/

namespace JsMap

variable {σ κ ν : Type*}

/-- The loop behind the stamp, for at most so many entries. -/
def forOfAfter (map : σ → JsMap κ ν) (body : σ → κ → ν → σ) : Nat → Option Nat → σ → σ
  | 0, _, s => s
  | n + 1, t, s =>
      match (map s).after t with
      | [] => s
      | (stamp, k, v) :: _ => forOfAfter map body n (some stamp) (body s k v)

def forOf (map : σ → JsMap κ ν) (body : σ → κ → ν → σ) (s : σ) : σ := forOfAfter map body (map s).size none s

/-- Behind the first slot that is left, the others are left. -/
theorem after_of_cons {m : JsMap κ ν} {t : Option Nat} {slot : Nat × κ × ν} {rest : List (Nat × κ × ν)}
    (h : m.after t = slot :: rest) : m.after (some slot.1) = rest := by
  have hsorted : (slot :: rest).Pairwise (fun a b => a.1 < b.1) := h ▸ m.sorted.filter _
  have hlater := (List.pairwise_cons.mp hsorted).1
  have hslot : t.all (· < slot.1) = true := by
    have hmem : slot ∈ m.after t := h ▸ List.mem_cons_self
    exact (List.mem_filter.mp hmem).2
  have hboth : m.after (some slot.1) = (m.after t).filter (fun s => slot.1 < s.1) := by
    rw [after, after, List.filter_filter]
    refine List.filter_congr fun s _ => ?_
    cases t with
    | none => simp only [Option.all_some, Option.all_none, Bool.and_true]
    | some t =>
        simp only [Option.all_some, decide_eq_true_eq] at hslot ⊢
        by_cases hlt : slot.1 < s.1
        · have ht : t < s.1 := Nat.lt_trans hslot hlt
          simp only [hlt, ht, decide_true, Bool.and_true]
        · simp only [hlt, decide_false, Bool.false_and]
  rw [hboth, h, List.filter_cons_of_neg (by simp only [Nat.lt_irrefl, decide_false, Bool.false_eq_true, not_false_eq_true])]
  exact List.filter_eq_self.mpr fun s hs => decide_eq_true (hlater s hs)

variable [DecidableEq κ]

theorem after_delete_of_cons {m : JsMap κ ν} {t : Option Nat} {slot : Nat × κ × ν} {rest : List (Nat × κ × ν)}
    (h : m.after t = slot :: rest) : (m.delete slot.2.1).after (some slot.1) = rest := by
  have hkeys : ((slot :: rest).map (fun s => s.2.1)).Nodup := h ▸ m.nodup.sublist (List.filter_sublist.map _)
  have hother := (List.nodup_cons.mp (List.map_cons ▸ hkeys)).1
  have hswap : (m.delete slot.2.1).after (some slot.1) =
      (m.after (some slot.1)).filter (fun s => s.2.1 ≠ slot.2.1) := by
    rw [after, after, delete, List.filter_filter, List.filter_filter]
    exact List.filter_congr fun s _ => Bool.and_comm _ _
  rw [hswap, after_of_cons h]
  exact List.filter_eq_self.mpr fun s hs => decide_eq_true fun he => hother (he ▸ List.mem_map_of_mem hs)

/-- **The entries that were there.** -/
theorem forOf_eq_foldl {map : σ → JsMap κ ν} {body : σ → κ → ν → σ}
    (hbody : ∀ s k v, map (body s k v) = map s ∨ map (body s k v) = (map s).delete k) (s : σ) :
    forOf map body s = (map s).entries.foldl (fun s e => body s e.1 e.2) s := by
  have hafter : ∀ n t s, ((map s).after t).length ≤ n →
      forOfAfter map body n t s = (((map s).after t).map (fun slot => slot.2)).foldl (fun s e => body s e.1 e.2) s := by
    intro n
    induction n with
    | zero =>
        intro t s hn
        rw [List.length_eq_zero_iff.mp (Nat.le_zero.mp hn)]
        rfl
    | succ n ih =>
        intro t s hn
        rw [forOfAfter]
        split
        · rename_i hnil
          rw [hnil]
          rfl
        · rename_i stamp k v rest hcons
          have hrest : (map (body s k v)).after (some stamp) = rest := by
            rcases hbody s k v with hmap | hmap <;> rw [hmap]
            · exact after_of_cons hcons
            · exact after_delete_of_cons hcons
          rw [hcons, List.length_cons] at hn
          rw [ih _ _ (by rw [hrest]; omega), hrest, hcons]
          rfl
  have hall : (map s).after none = (map s).slots := List.filter_eq_self.mpr fun _ _ => rfl
  rw [forOf, hafter _ _ _ (by rw [hall]; exact Nat.le_refl _), hall]
  rfl

end JsMap
