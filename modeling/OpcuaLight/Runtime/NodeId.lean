import Mathlib.Data.List.TakeWhile
import Mathlib.Tactic.Common

/-!
# Node ids of the runtime

C strings, and `parse_node_id_string`. A C string is a `String` without NUL, and the text of a JSON value
is read up to its first NUL (`cString`). The characters that the parser looks for are ASCII, so that
characters may stand for the bytes of their UTF-8 encoding.
-/

namespace OpcuaLight.Runtime

/-- A text as a C function sees it. -/
def cString (s : String) : String := String.ofList (s.toList.takeWhile (· ≠ '\x00'))

/-- A node id with a string identifier. -/
structure NodeId where
  nsIndex : Nat
  identifier : String
  deriving DecidableEq, Repr, Inhabited

/-- `strncmp(s, pre, strlen(pre)) == 0`, with what comes after it. -/
def skip (pre s : List Char) : Option (List Char) :=
  if pre.isPrefixOf s then some (s.drop pre.length) else none

theorem skip_append (pre s : List Char) : skip pre (pre ++ s) = some s := by
  simp [skip]

/-- `strstr`, with what comes after the first place where the pattern is found. -/
def strstr (pattern : List Char) : List Char → Option (List Char)
  | [] => skip pattern []
  | c :: s => (skip pattern (c :: s)).orElse (fun _ => strstr pattern s)

/-- `strtoul` in base ten on a text that starts with a digit: the number, and where it ends. -/
def strtoul (s : List Char) : Nat × List Char :=
  (Nat.ofDigitChars 10 (s.takeWhile Char.isDigit) 0, s.dropWhile Char.isDigit)

/-- `parse_node_id_string`, with `none` for an error. -/
def parseNodeIdString (str : String) : Option NodeId :=
  match skip "ns=".toList str.toList with
  | none => none
  | some p =>
      if !p.head?.any Char.isDigit then none
      else
        let (nsVal, endptr) := strtoul p
        if 65535 < nsVal then none
        else match skip ";s=".toList endptr with
          | none => none
          | some identifier =>
              if identifier = [] then none else some ⟨nsVal, String.ofList identifier⟩

/-! ## The strings the generator writes -/

/-- The text of a node id under the index. -/
def nodeIdText (index : Nat) (identifier : List Char) : List Char :=
  "ns=".toList ++ (Nat.toDigits 10 index ++ (";s=".toList ++ identifier))

theorem takeWhile_digits {ds s : List Char} (hd : ∀ c ∈ ds, c.isDigit = true)
    (hs : s.head?.all (fun c => !c.isDigit) = true) :
    (ds ++ s).takeWhile Char.isDigit = ds ∧ (ds ++ s).dropWhile Char.isDigit = s := by
  induction ds with
  | nil =>
      match s with
      | [] => exact ⟨rfl, rfl⟩
      | c :: s =>
          have hc : c.isDigit = false := by simpa using hs
          simp [hc]
  | cons d ds ih =>
      obtain ⟨htake, hdrop⟩ := ih (fun c hc => hd c (List.mem_cons_of_mem d hc))
      simp [hd d List.mem_cons_self, htake, hdrop]

theorem strtoul_digits (n : Nat) (s : List Char) (hs : s.head?.all (fun c => !c.isDigit) = true) :
    strtoul (Nat.toDigits 10 n ++ s) = (n, s) := by
  have hd : ∀ c ∈ Nat.toDigits 10 n, c.isDigit = true := fun c hc =>
    Nat.isDigit_of_mem_toDigits (by decide) (by decide) hc
  obtain ⟨htake, hdrop⟩ := takeWhile_digits hd hs
  rw [strtoul, htake, hdrop, Nat.ofDigitChars_ten_toDigits]

/-- What the parser makes of such a text. -/
theorem parse_nodeIdText (index : Nat) (identifier : List Char) :
    parseNodeIdString (String.ofList (nodeIdText index identifier)) =
      if 65535 < index ∨ identifier = [] then none else some ⟨index, String.ofList identifier⟩ := by
  have hhead : (Nat.toDigits 10 index ++ (";s=".toList ++ identifier)).head?.any Char.isDigit = true := by
    obtain ⟨d, ds, hds⟩ := List.exists_cons_of_ne_nil (Nat.toDigits_ne_nil (n := index) (b := 10))
    have hd : d.isDigit = true := Nat.isDigit_of_mem_toDigits (b := 10) (n := index) (by decide)
      (by decide) (by rw [hds]; exact List.mem_cons_self)
    simp [hds, hd]
  unfold parseNodeIdString
  rw [show (String.ofList (nodeIdText index identifier)).toList = nodeIdText index identifier from
    String.toList_ofList, nodeIdText, skip_append]
  simp only [hhead, Bool.not_true, Bool.false_eq_true, if_false]
  rw [strtoul_digits _ _ rfl]
  simp only [skip_append]
  by_cases hi : 65535 < index
  · rw [if_pos hi, if_pos (Or.inl hi)]
  · by_cases hid : identifier = []
    · rw [if_neg hi, if_pos hid, if_pos (Or.inr hid)]
    · rw [if_neg hi, if_neg hid, if_neg (not_or.mpr ⟨hi, hid⟩)]

theorem skip_of_head {c d : Char} {pre s : List Char} (h : c ≠ d) :
    skip (d :: pre) (c :: s) = none := by
  simp [skip, Ne.symm h]

theorem strstr_skip {d : Char} {pre ds s : List Char} (h : ∀ c ∈ ds, c ≠ d) :
    strstr (d :: pre) (ds ++ (d :: pre ++ s)) = some s := by
  induction ds with
  | nil =>
      show (skip (d :: pre) (d :: pre ++ s)).orElse _ = some s
      rw [skip_append]
      rfl
  | cons c ds ih =>
      show (skip (d :: pre) (c :: (ds ++ (d :: pre ++ s)))).orElse _ = some s
      rw [skip_of_head (h c List.mem_cons_self)]
      exact ih fun c' hc' => h c' (List.mem_cons_of_mem c hc')

/-- The first `;s=` is the one before the identifier. -/
theorem strstr_nodeIdText (index : Nat) (identifier : List Char) :
    strstr ";s=".toList (nodeIdText index identifier) = some identifier := by
  have hno : ∀ c ∈ "ns=".toList ++ Nat.toDigits 10 index, c ≠ ';' := by
    intro c hc
    rcases List.mem_append.mp hc with hc | hc
    · intro he
      rw [he] at hc
      exact absurd hc (by decide)
    · intro he
      have hd := Nat.isDigit_of_mem_toDigits (by decide) (by decide) hc
      rw [he] at hd
      exact absurd hd (by decide)
  rw [nodeIdText, ← List.append_assoc]
  exact strstr_skip hno

end OpcuaLight.Runtime
