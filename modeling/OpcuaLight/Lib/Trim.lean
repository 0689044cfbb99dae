import OpcuaLight.Lib.Js

/-!
# Trimmed strings

What `trim` leaves has no white space at its ends (`trim_ends`), and a string without it is left as it is
(`trim_eq_self`).
-/

namespace Js

/-- The string neither starts nor ends with white space. -/
structure Trimmed (cs : List Char) : Prop where
  head : ∀ c ∈ cs.head?, isSpace c = false
  last : ∀ c ∈ cs.getLast?, isSpace c = false

theorem digit_notSpace {c : Char} (h : c.isDigit = true) : isSpace c = false := by
  have hspaces : ['\t', '\n', '\x0b', '\x0c', '\r', ' ', '\u00a0', '\u1680', '\u2028', '\u2029',
      '\u202f', '\u205f', '\u3000', '\ufeff'].all (fun d => !d.isDigit) = true := by decide
  have hrange : c.toNat ≤ 57 := by
    rw [Char.isDigit, Bool.and_eq_true, decide_eq_true_eq, decide_eq_true_eq] at h
    exact h.2
  rw [Bool.eq_false_iff]
  intro hspace
  rw [isSpace, Bool.or_eq_true, Bool.and_eq_true, decide_eq_true_eq, decide_eq_true_eq,
    decide_eq_true_eq] at hspace
  rcases hspace with hspace | hspace
  · have hno := List.all_eq_true.mp hspaces c hspace
    rw [h] at hno
    cases hno
  · omega

theorem dropWhile_eq_self {cs : List Char} (h : ∀ c ∈ cs.head?, isSpace c = false) :
    cs.dropWhile isSpace = cs := by
  cases cs with
  | nil => rfl
  | cons c cs => rw [List.dropWhile_cons, h c rfl]; rfl

theorem head_dropWhile {cs : List Char} : ∀ c ∈ (cs.dropWhile isSpace).head?, isSpace c = false := by
  intro c hc
  have hne : cs.dropWhile isSpace ≠ [] := fun h => by rw [h] at hc; cases hc
  rw [List.head?_eq_some_head hne] at hc
  rw [← Option.some.inj hc]
  simpa using List.head_dropWhile_not isSpace hne

theorem trim_eq_self {s : String} (h : Trimmed s.toList) : trim s = s := by
  have hlast : s.toList.reverse.dropWhile isSpace = s.toList.reverse :=
    dropWhile_eq_self fun c hc => h.last c (by rwa [List.head?_reverse] at hc)
  rw [trim, dropWhile_eq_self h.head, hlast, List.reverse_reverse, String.ofList_toList]

theorem trim_of_no_space {s : String} (h : ∀ c ∈ s.toList, isSpace c = false) : trim s = s :=
  trim_eq_self ⟨fun c hc => h c (List.mem_of_mem_head? hc), fun c hc => h c (List.mem_of_mem_getLast? hc)⟩

theorem trim_ends (s : String) : Trimmed (trim s).toList := by
  rw [trim, String.toList_ofList]
  constructor
  · -- what is left is the front of what the first loop left
    intro c hc
    obtain ⟨tail, htail⟩ := List.dropWhile_suffix isSpace (l := (s.toList.dropWhile isSpace).reverse)
    have hsplit := congrArg List.reverse htail
    rw [List.reverse_append, List.reverse_reverse] at hsplit
    apply @head_dropWhile s.toList
    rw [← hsplit, List.head?_append, hc]
    rfl
  · intro c hc
    rw [List.getLast?_reverse] at hc
    exact head_dropWhile c hc

theorem trim_trim (s : String) : trim (trim s) = trim s := trim_eq_self (trim_ends s)

/-- The characters that are left are characters of the string. -/
theorem mem_of_mem_trim {s : String} {c : Char} (h : c ∈ (trim s).toList) : c ∈ s.toList := by
  rw [trim, String.toList_ofList, List.mem_reverse] at h
  have hfront := (List.dropWhile_suffix isSpace).subset h
  rw [List.mem_reverse] at hfront
  exact (List.dropWhile_suffix isSpace).subset hfront

theorem mem_dropWhile {c : Char} {cs : List Char} (h : c ∈ cs) (hc : isSpace c = false) :
    c ∈ cs.dropWhile isSpace := by
  induction cs with
  | nil => cases h
  | cons d cs ih =>
      rw [List.dropWhile_cons]
      split_ifs with hd
      · rcases List.mem_cons.mp h with rfl | h
        · exact absurd (hc.symm.trans hd) (by decide)
        · exact ih h
      · exact h

/-- A character that is no white space is left. -/
theorem trim_ne_empty {s : String} {c : Char} (h : c ∈ s.toList) (hc : isSpace c = false) :
    trim s ≠ "" := by
  intro hempty
  have hmem : c ∈ (trim s).toList := by
    rw [trim, String.toList_ofList, List.mem_reverse]
    exact mem_dropWhile (List.mem_reverse.mpr (mem_dropWhile h hc)) hc
  rw [hempty] at hmem
  cases hmem

end Js
