import Mathlib.Data.List.Basic

/-!
# The last entries of a history

`recent N l` are the last `N` entries of `l`. A buffer that drops what goes beyond `N` after every push has the
recent ones of all that was pushed (`recent_push`).
-/

namespace Recent

variable {α β : Type*}

def recent (N : Nat) (l : List α) : List α := l.drop (l.length - N)

theorem length_recent (N : Nat) (l : List α) : (recent N l).length = min N l.length := by
  rw [recent, List.length_drop]
  omega

theorem recent_of_le {N : Nat} {l : List α} (h : l.length ≤ N) : recent N l = l := by
  rw [recent, Nat.sub_eq_zero_of_le h, List.drop_zero]

theorem recent_suffix (N : Nat) (l : List α) : recent N l <:+ l := List.drop_suffix _ _

theorem map_recent (f : α → β) (N : Nat) (l : List α) : (recent N l).map f = recent N (l.map f) := by
  rw [recent, recent, List.map_drop, List.length_map]

/-- What was dropped before does not matter. -/
theorem recent_append (N : Nat) (l m : List α) : recent N (recent N l ++ m) = recent N (l ++ m) := by
  have hdrop : recent N l ++ m = (l ++ m).drop (l.length - N) :=
    (List.drop_append_of_le_length (Nat.sub_le _ _)).symm
  have hlength : (recent N l ++ m).length = min N l.length + m.length := by rw [List.length_append, length_recent]
  have hnum : l.length - N + (min N l.length + m.length - N) = l.length + m.length - N := by omega
  rw [recent, hlength, hdrop, List.drop_drop, hnum, recent, List.length_append]

/-- A short tail is left, behind the last entries before it. -/
theorem recent_append_of_ge {N : Nat} (l : List α) {m : List α} (h : m.length ≤ N) :
    recent N (l ++ m) = recent (N - m.length) l ++ m := by
  have hnum : (l ++ m).length - N = l.length - (N - m.length) := by
    rw [List.length_append]
    omega
  rw [recent, hnum, List.drop_append_of_le_length (Nat.sub_le _ _), recent]

/-- **A push, and a shift if there are too many.** -/
theorem recent_push (N : Nat) (l : List α) (x : α) :
    (if (recent N l ++ [x]).length > N then (recent N l ++ [x]).drop 1 else recent N l ++ [x]) =
      recent N (l ++ [x]) := by
  have hlength : (recent N l ++ [x]).length = min N l.length + 1 := by
    rw [List.length_append, length_recent, List.length_singleton]
  rw [← recent_append]
  split_ifs with hmany
  · have hone : (recent N l ++ [x]).length - N = 1 := by omega
    nth_rewrite 2 [recent]
    rw [hone]
  · exact (recent_of_le (by omega)).symm

end Recent
