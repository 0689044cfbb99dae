import OpcuaLight.Lib.Strtoul
import OpcuaLight.Runtime.Numbering

/-!
# The grammar of node ids

`parse_node_id_string` with all that `strtoul` does accepts exactly `Denotes`, so that it is the parser of the other
modules, which only reads digits (`parseNodeIdStringWith_eq`). What `create_variable_node` finds after the first
`;s=` of a text that is accepted is the identifier.
-/

namespace OpcuaLight.Runtime

open Strtoul (ULong)

/-- `*p`: the character behind a text is NUL. -/
def first (p : List Char) : Char := p.head?.getD '\x00'

/-- `parse_node_id_string`, with `none` for an error. -/
def parseNodeIdStringWith (ulong : ULong) (str : String) : Option NodeId :=
  if str = "" then none
  else (skip "ns=".toList str.toList).bind fun p =>
    if first p < '0' ∨ '9' < first p then none
    else
      let nsVal := (Strtoul.strtoul ulong p).1
      let endptr := (Strtoul.strtoul ulong p).2
      if endptr = p then none
      else if 65535 < nsVal then none
      else (skip ";s=".toList endptr).bind fun identifier =>
        if identifier = [] then none else some ⟨nsVal % 2 ^ 16, String.ofList identifier⟩

/-- The text is `ns=`, digits of a number of at most 16 bits, `;s=` and an identifier that is not empty. -/
structure Denotes (str : String) (id : NodeId) : Prop where
  fits : id.nsIndex ≤ 65535
  named : id.identifier ≠ ""
  text : ∃ digits, digits ≠ [] ∧ (∀ c ∈ digits, c.isDigit = true) ∧ Nat.ofDigitChars 10 digits 0 = id.nsIndex ∧
    str.toList = "ns=".toList ++ (digits ++ (";s=".toList ++ id.identifier.toList))

variable {ulong : ULong} {str : String} {id : NodeId}

theorem skip_eq_some {pre s t : List Char} : skip pre s = some t ↔ s = pre ++ t := by
  unfold skip
  split_ifs with hpre
  · obtain ⟨rest, rfl⟩ := List.isPrefixOf_iff_prefix.mp hpre
    rw [List.drop_left, Option.some.injEq, List.append_cancel_left_eq]
  · refine iff_of_false (fun h => by cases h) ?_
    rintro rfl
    exact hpre (List.isPrefixOf_iff_prefix.mpr (List.prefix_append pre t))

/-- The check of the first character lets digits pass. -/
theorem first_isDigit {p : List Char} : ¬ (first p < '0' ∨ '9' < first p) ↔ ∃ c s, p = c :: s ∧ c.isDigit = true := by
  rw [not_or, Char.not_lt, Char.not_lt]
  cases p with
  | nil => exact iff_of_false (fun h => absurd h.1 (by decide)) fun ⟨c, s, h, _⟩ => by cases h
  | cons c s =>
      have hdigit : c.isDigit = true ↔ '0' ≤ c ∧ c ≤ '9' := by
        rw [Char.isDigit, Bool.and_eq_true, decide_eq_true_eq, decide_eq_true_eq]
        exact Iff.rfl
      constructor
      · exact fun h => ⟨c, s, rfl, hdigit.mpr h⟩
      · rintro ⟨c', s', heq, h⟩
        rw [← (List.cons.inj heq).1] at h
        exact hdigit.mp h

/-- The parser with all of `strtoul` is the one with digits only. -/
theorem parseNodeIdStringWith_eq (ulong : ULong) (str : String) :
    parseNodeIdStringWith ulong str = parseNodeIdString str := by
  unfold parseNodeIdStringWith parseNodeIdString
  split_ifs with hempty
  · rw [hempty]
    rfl
  cases hskip : skip "ns=".toList str.toList with
  | none => rfl
  | some p =>
      rw [Option.bind_some]
      simp only
      by_cases hfirst : first p < '0' ∨ '9' < first p
      · have hany : p.head?.any Char.isDigit = false := by
          rw [← Bool.not_eq_true, Option.any_eq_true]
          rintro ⟨c, hc, hdigit⟩
          obtain ⟨s, rfl⟩ := List.head?_eq_some_iff.mp hc
          exact first_isDigit.mpr ⟨c, s, rfl, hdigit⟩ hfirst
        rw [if_pos hfirst, hany]
        rfl
      · obtain ⟨c, s, rfl, hdigit⟩ := first_isDigit.mp hfirst
        have hwide := ulong.wide
        have hany : (!(c :: s).head?.any Char.isDigit) = false := by
          rw [List.head?_cons, Option.any_some, hdigit]
          rfl
        have hread : Strtoul.strtoul ulong (c :: s) = (min (strtoul (c :: s)).1 ulong.max, (strtoul (c :: s)).2) :=
          Strtoul.strtoul_of_digit ulong s hdigit
        have hmoved : (c :: s).dropWhile Char.isDigit ≠ c :: s := by
          rw [List.dropWhile_cons_of_pos hdigit]
          intro h
          have hlen := (List.dropWhile_suffix Char.isDigit (l := s)).length_le
          rw [h, List.length_cons] at hlen
          omega
        rw [if_neg hfirst, hread, hany]
        rcases hnum : strtoul (c :: s) with ⟨n, rest⟩
        have hrest : rest ≠ c :: s := fun h => hmoved ((congrArg Prod.snd hnum).trans h)
        simp only [Bool.false_eq_true, if_false]
        rw [if_neg hrest]
        by_cases hbig : 65535 < n
        · rw [if_pos hbig, if_pos (by omega)]
        · rw [if_neg hbig, if_neg (by omega), Nat.min_eq_left (by omega), Nat.mod_eq_of_lt (by omega)]
          cases skip ";s=".toList rest <;> rfl

/-! ## The grammar -/

/-- The digits at the front, and what is after them. -/
theorem strtoul_eq_iff {p rest : List Char} {n : ℕ} (hrest : rest.head?.all (fun c => !c.isDigit) = true) :
    strtoul p = (n, rest) ↔ ∃ digits, (∀ c ∈ digits, c.isDigit = true) ∧ Nat.ofDigitChars 10 digits 0 = n ∧
      p = digits ++ rest := by
  constructor
  · intro h
    obtain ⟨hn, hdrop⟩ := Prod.mk.inj h
    refine ⟨p.takeWhile Char.isDigit, fun c hc => List.mem_takeWhile_imp hc, hn, ?_⟩
    rw [← hdrop, List.takeWhile_append_dropWhile]
  · rintro ⟨digits, hdigits, hn, rfl⟩
    obtain ⟨htake, hdrop⟩ := takeWhile_digits hdigits hrest
    rw [strtoul, htake, hdrop, hn]

theorem parseNodeIdString_eq_some : parseNodeIdString str = some id ↔ Denotes str id := by
  constructor
  · intro h
    unfold parseNodeIdString at h
    split at h
    · cases h
    rename_i p hskip
    split at h
    · cases h
    rename_i hany
    rcases hnum : strtoul p with ⟨n, endptr⟩
    rw [hnum] at h
    simp only at h
    split at h
    · cases h
    rename_i hfits
    split at h
    · cases h
    rename_i identifier hrest
    split at h
    · cases h
    rename_i hne
    rw [skip_eq_some] at hskip hrest
    rw [hrest] at hnum
    obtain ⟨digits, hdigits, hn, rfl⟩ := (strtoul_eq_iff rfl).mp hnum
    rw [← Option.some.inj h]
    refine ⟨Nat.not_lt.mp hfits, fun hempty => hne (String.ofList_eq_empty_iff.mp hempty), digits, ?_, hdigits, hn, ?_⟩
    · rintro rfl
      exact hany rfl
    · show str.toList = _ ++ (_ ++ (_ ++ (String.ofList identifier).toList))
      rw [hskip, @String.toList_ofList identifier]
  · rintro ⟨hfits, hnamed, digits, hne, hdigits, hn, htext⟩
    have hnum : strtoul (digits ++ (";s=".toList ++ id.identifier.toList)) =
        (id.nsIndex, ";s=".toList ++ id.identifier.toList) := (strtoul_eq_iff rfl).mpr ⟨digits, hdigits, hn, rfl⟩
    have hany : (digits ++ (";s=".toList ++ id.identifier.toList)).head?.any Char.isDigit = true := by
      obtain ⟨d, ds, rfl⟩ := List.exists_cons_of_ne_nil hne
      exact hdigits d List.mem_cons_self
    unfold parseNodeIdString
    rw [htext, skip_append]
    simp only
    rw [hany, hnum]
    simp only [Bool.not_true, Bool.false_eq_true, if_false]
    rw [if_neg (Nat.not_lt.mpr hfits), skip_append]
    simp only
    rw [if_neg fun hnil => hnamed (String.toList_eq_nil_iff.mp hnil), String.ofList_toList]

/-- What `create_variable_node` makes of a text that is accepted. -/
theorem variableIdentifier_of_denotes (h : Denotes str id) (name : String) :
    variableIdentifier (some str) name = id.identifier := by
  obtain ⟨digits, -, hdigits, -, htext⟩ := h.text
  have hne : str ≠ "" := by
    rintro rfl
    cases htext
  have hno : ∀ c ∈ "ns=".toList ++ digits, c ≠ ';' := by
    rintro c hc rfl
    rcases List.mem_append.mp hc with hc | hc
    · exact absurd hc (by decide)
    · exact absurd (hdigits _ hc) (by decide)
  have hfound : strstr ";s=".toList str.toList = some id.identifier.toList := by
    rw [htext, ← List.append_assoc]
    exact strstr_skip hno
  have hkept : nonEmpty (some str) = some str := Option.filter_eq_some_iff.mpr ⟨rfl, decide_eq_true hne⟩
  rw [variableIdentifier, hkept]
  simp only
  rw [parseNodeIdString_eq_some.mpr h, hfound, Option.isSome_some, if_pos rfl, Option.getD_some, String.ofList_toList]

/-- The text that the generator writes. -/
theorem denotes_nodeIdText {i : ℕ} (hi : i ≤ 65535) {p : String} (hp : p ≠ "") :
    Denotes (String.ofList (nodeIdText i p.toList)) ⟨i, p⟩ where
  fits := hi
  named := hp
  text := ⟨Nat.toDigits 10 i, Nat.toDigits_ne_nil,
    fun c hc => Nat.isDigit_of_mem_toDigits (by decide) (by decide) hc, Nat.ofDigitChars_ten_toDigits, by
    rw [String.toList_ofList, nodeIdText]⟩

/-- **The parser accepts its grammar.** A text without NUL is accepted exactly if it denotes a node id, which the
parser gives; the texts of the generator denote the index and the identifier they are made of; and the search for
`;s=` in a text that is accepted finds the same identifier. -/
theorem parseNodeIdString_exact (ulong : ULong) :
    (∀ str, '\x00' ∉ str.toList → ∀ id, parseNodeIdStringWith ulong str = some id ↔ Denotes str id) ∧
    (∀ i ≤ 65535, ∀ p : String, p ≠ "" → '\x00' ∉ p.toList →
      parseNodeIdStringWith ulong (String.ofList (nodeIdText i p.toList)) = some ⟨i, p⟩) ∧
    (∀ i ≤ 65535, ∀ parentPath name : String, '\x00' ∉ parentPath.toList → '\x00' ∉ name.toList →
      parseNodeIdStringWith ulong (Config.nodeIdString i parentPath name) = some ⟨i, parentPath ++ "." ++ name⟩) ∧
    ∀ str id, parseNodeIdStringWith ulong str = some id →
      ∀ nsIndex name, variableNodeId nsIndex (some str) name = ⟨nsIndex, id.identifier⟩ := by
  refine ⟨fun str _ id => ?_, fun i hi p hp _ => ?_, fun i hi parentPath name _ _ => ?_, fun str id h nsIndex name => ?_⟩
  · rw [parseNodeIdStringWith_eq, parseNodeIdString_eq_some]
  · rw [parseNodeIdStringWith_eq, parseNodeIdString_eq_some]
    exact denotes_nodeIdText hi hp
  · have hne : parentPath ++ "." ++ name ≠ "" := by
      intro hempty
      have hlist := congrArg String.toList hempty
      simp at hlist
    have htext : Config.nodeIdString i parentPath name =
        String.ofList (nodeIdText i (parentPath ++ "." ++ name).toList) := by
      rw [← String.toList_inj, toList_nodeIdString, String.toList_ofList]
      simp
    rw [parseNodeIdStringWith_eq, parseNodeIdString_eq_some, htext]
    exact denotes_nodeIdText hi hne
  · rw [parseNodeIdStringWith_eq, parseNodeIdString_eq_some] at h
    rw [variableNodeId, variableIdentifier_of_denotes h]

/-- An `unsigned long` of 64 bits. -/
def ulong64 : ULong := ⟨2 ^ 64 - 1, by decide⟩

theorem parseNodeIdString_exact_twice : parseNodeIdStringWith ulong64 "ns=2;s=a;s=b" = some ⟨2, "a;s=b"⟩ ∧
    variableNodeId 7 (some "ns=2;s=a;s=b") "b" = ⟨7, "a;s=b"⟩ := by
  obtain ⟨-, htext, -, hfound⟩ := parseNodeIdString_exact ulong64
  have hparsed : parseNodeIdStringWith ulong64 "ns=2;s=a;s=b" = some ⟨2, "a;s=b"⟩ :=
    htext 2 (by decide) "a;s=b" (by decide) (by decide)
  exact ⟨hparsed, hfound _ _ hparsed 7 "b"⟩

end OpcuaLight.Runtime
