import Mathlib.Data.List.Nodup

/-!
# Timers

The timers of an event loop: each has a number, the time at which it is due and what it calls. A timer goes off no
earlier than it is due, and time does not pass over one that is (`wait`).
-/

structure Timer (κ : Type*) where
  id : Nat
  due : Nat
  calls : κ
  deriving DecidableEq

structure Timers (κ : Type*) where
  now : Nat
  next : Nat
  pending : List (Timer κ)

namespace Timers

variable {κ : Type*}

def initial : Timers κ := ⟨0, 0, []⟩

/-- `setTimeout`; the number of the timer is `t.next`. -/
def setTimeout (t : Timers κ) (delay : Nat) (calls : κ) : Timers κ :=
  { t with next := t.next + 1, pending := t.pending ++ [⟨t.next, t.now + delay, calls⟩] }

/-- `clearTimeout`, which ignores a timer that is not pending. -/
def clearTimeout (t : Timers κ) (id : Nat) : Timers κ := { t with pending := t.pending.filter (·.id ≠ id) }

/-- The timer that can go off under this number. -/
def due? (t : Timers κ) (id : Nat) : Option (Timer κ) := t.pending.find? (fun x => x.id = id && x.due ≤ t.now)

def wait (t : Timers κ) (ms : Nat) : Timers κ :=
  if ∀ x ∈ t.pending, t.now + ms ≤ x.due then { t with now := t.now + ms } else t

/-- Time has not passed over a timer, and the numbers are used once. -/
structure WF (t : Timers κ) : Prop where
  onTime : ∀ x ∈ t.pending, t.now ≤ x.due
  fresh : ∀ x ∈ t.pending, x.id < t.next
  nodup : (t.pending.map Timer.id).Nodup

theorem wf_initial : (initial : Timers κ).WF :=
  ⟨fun _ hx => absurd hx List.not_mem_nil, fun _ hx => absurd hx List.not_mem_nil, List.nodup_nil⟩

theorem mem_clearTimeout {t : Timers κ} {id : Nat} {x : Timer κ} :
    x ∈ (t.clearTimeout id).pending ↔ x ∈ t.pending ∧ x.id ≠ id := by
  simp [clearTimeout]

theorem mem_setTimeout {t : Timers κ} {delay : Nat} {calls : κ} {x : Timer κ} :
    x ∈ (t.setTimeout delay calls).pending ↔ x ∈ t.pending ∨ x = ⟨t.next, t.now + delay, calls⟩ := by
  simp [setTimeout]

theorem due?_eq_some {t : Timers κ} {id : Nat} {x : Timer κ} (h : t.due? id = some x) :
    x ∈ t.pending ∧ x.id = id ∧ x.due ≤ t.now := by
  have hfound := List.find?_some h
  simp only [Bool.and_eq_true, decide_eq_true_eq] at hfound
  exact ⟨List.mem_of_find?_eq_some h, hfound⟩

theorem WF.eq_of_id {t : Timers κ} (h : t.WF) {x y : Timer κ} (hx : x ∈ t.pending) (hy : y ∈ t.pending)
    (hid : x.id = y.id) : x = y := List.inj_on_of_nodup_map h.nodup hx hy hid

theorem WF.wait {t : Timers κ} (h : t.WF) (ms : Nat) : (t.wait ms).WF := by
  rw [Timers.wait]
  split_ifs with hwait
  · exact ⟨hwait, h.fresh, h.nodup⟩
  · exact h

theorem WF.clearTimeout {t : Timers κ} (h : t.WF) (id : Nat) : (t.clearTimeout id).WF where
  onTime x hx := h.onTime x (mem_clearTimeout.mp hx).1
  fresh x hx := h.fresh x (mem_clearTimeout.mp hx).1
  nodup := h.nodup.sublist (List.filter_sublist.map _)

theorem WF.setTimeout {t : Timers κ} (h : t.WF) (delay : Nat) (calls : κ) : (t.setTimeout delay calls).WF where
  onTime x hx := by
    rcases mem_setTimeout.mp hx with hx | rfl
    · exact h.onTime x hx
    · exact Nat.le_add_right _ _
  fresh x hx := by
    rcases mem_setTimeout.mp hx with hx | rfl
    · exact Nat.lt_succ_of_lt (h.fresh x hx)
    · exact Nat.lt_succ_self _
  nodup := by
    show ((t.pending ++ [_]).map Timer.id).Nodup
    rw [List.map_append, List.nodup_append]
    refine ⟨h.nodup, List.nodup_singleton _, fun a ha b hb => ?_⟩
    obtain ⟨x, hx, rfl⟩ := List.mem_map.mp ha
    rw [List.mem_singleton.mp hb]
    exact Nat.ne_of_lt (h.fresh x hx)

end Timers
