import Mathlib.Data.List.TakeWhile
import Mathlib.Data.Nat.Log
import Mathlib.Data.Nat.Prime.Basic
import OpcuaLight.Lib.Binary
import OpcuaLight.Lib.Js

/-!
# Decimal numerals

How JavaScript writes a number, and how the number of a JSON text is read. The writer takes the shortest
digits that denote a number of the format after rounding (`shortest`) and sets them with a point or an
exponent (`setDigits`); the reader rounds what a numeral denotes.

* `readNumeral_render` : a well-formed numeral is read as its value, whatever follows it;
* `readNumber_numberText` : a number of the format is read from its text.
-/

namespace Numerals

open Binary (Format)
open Nat (toDigits ofDigitChars)

/-! ## Numerals -/

/-- The digits before and after the point, and the exponent if one is written. -/
structure Numeral where
  int : List Char
  frac : List Char
  exp : Option ℤ

namespace Numeral

def render (n : Numeral) : List Char :=
  n.int ++ (if n.frac = [] then [] else '.' :: n.frac) ++
    match n.exp with
    | none => []
    | some e => 'e' :: (if e < 0 then '-' else '+') :: toDigits 10 e.natAbs

def value (n : Numeral) : ℚ :=
  (ofDigitChars 10 (n.int ++ n.frac) 0 : ℚ) * 10 ^ (n.exp.getD 0 - n.frac.length)

/-- There is a digit before the point, and no zero before another digit. -/
structure WellFormed (n : Numeral) : Prop where
  int : n.int ≠ []
  digits : ∀ c ∈ n.int ++ n.frac, c.isDigit = true
  leading : n.int = ['0'] ∨ n.int.head? ≠ some '0'

end Numeral

/-! ## Reading -/

/-- Digits, at least one, and what follows them. -/
def readDigits (cs : List Char) : Option (List Char × List Char) :=
  match cs.takeWhile Char.isDigit with
  | [] => none
  | ds => some (ds, cs.dropWhile Char.isDigit)

/-- A zero, or digits that do not start with one. -/
def readInt : List Char → Option (List Char × List Char)
  | '0' :: cs => some (['0'], cs)
  | cs => readDigits cs

def readFrac : List Char → Option (List Char × List Char)
  | '.' :: cs => readDigits cs
  | cs => some ([], cs)

def readExp : List Char → Option (ℤ × List Char)
  | e :: cs =>
      if e = 'e' ∨ e = 'E' then
        (readDigits (Js.signed cs).2).map (fun p =>
          (if (Js.signed cs).1 then -(ofDigitChars 10 p.1 0 : ℤ) else ofDigitChars 10 p.1 0, p.2))
      else some (0, e :: cs)
  | [] => some (0, [])

/-- The number that an unsigned numeral at the front denotes, and what follows it. -/
def readNumeral (cs : List Char) : Option (ℚ × List Char) :=
  (readInt cs).bind fun int => (readFrac int.2).bind fun frac => (readExp frac.2).map fun exp =>
    (Numeral.value ⟨int.1, frac.1, some exp.1⟩, exp.2)

/-- What follows does not go on with the numeral. -/
def Ends (rest : List Char) : Prop :=
  ∀ c ∈ rest.head?, c.isDigit = false ∧ c ≠ '.' ∧ c ≠ 'e' ∧ c ≠ 'E'

theorem ends_nil : Ends [] := nofun

theorem ends_cons {c : Char} (rest : List Char)
    (h : c.isDigit = false ∧ c ≠ '.' ∧ c ≠ 'e' ∧ c ≠ 'E') : Ends (c :: rest) := by
  intro d hd
  rw [← Option.some.inj hd]
  exact h

theorem readDigits_append {ds rest : List Char} (hne : ds ≠ []) (hds : ∀ c ∈ ds, c.isDigit = true)
    (hrest : ∀ c ∈ rest.head?, c.isDigit = false) : readDigits (ds ++ rest) = some (ds, rest) := by
  have htail : rest.takeWhile Char.isDigit = [] ∧ rest.dropWhile Char.isDigit = rest := by
    cases rest with
    | nil => exact ⟨rfl, rfl⟩
    | cons c rest =>
        have hc := hrest c rfl
        exact ⟨by rw [List.takeWhile_cons, hc]; rfl, by rw [List.dropWhile_cons, hc]; rfl⟩
  rw [readDigits, List.takeWhile_append_of_pos hds, List.dropWhile_append_of_pos hds, htail.1, htail.2,
    List.append_nil]
  cases ds with
  | nil => exact absurd rfl hne
  | cons d ds => rfl

theorem readInt_append {int rest : List Char} (hne : int ≠ []) (hds : ∀ c ∈ int, c.isDigit = true)
    (hlead : int = ['0'] ∨ int.head? ≠ some '0') (hrest : ∀ c ∈ rest.head?, c.isDigit = false) :
    readInt (int ++ rest) = some (int, rest) := by
  rcases hlead with rfl | hlead
  · rfl
  · obtain ⟨d, ds, rfl⟩ := List.exists_cons_of_ne_nil hne
    have hd : d ≠ '0' := fun h => hlead (congrArg some h)
    rw [← readDigits_append hne hds hrest, List.cons_append]
    unfold readInt
    split
    · rename_i heq
      exact absurd (List.cons.inj heq).1 hd
    · rfl

theorem readExp_of_ends {rest : List Char} (h : Ends rest) : readExp rest = some (0, rest) := by
  cases rest with
  | nil => rfl
  | cons c rest =>
      obtain ⟨-, -, he, hE⟩ := h c rfl
      rw [readExp, if_neg (not_or.mpr ⟨he, hE⟩)]

theorem toDigits_isDigit (n : ℕ) : ∀ c ∈ toDigits 10 n, c.isDigit = true := fun _ hc =>
  Nat.isDigit_of_mem_toDigits (by decide) (by decide) hc

/-- The end of a numeral: its exponent. -/
theorem readExp_render (e : Option ℤ) {rest : List Char} (h : Ends rest) :
    readExp ((match e with
      | none => []
      | some e => 'e' :: (if e < 0 then '-' else '+') :: toDigits 10 e.natAbs) ++ rest) =
      some (e.getD 0, rest) := by
  cases e with
  | none => exact readExp_of_ends h
  | some e =>
      have hdigits : readDigits (toDigits 10 e.natAbs ++ rest) = some (toDigits 10 e.natAbs, rest) :=
        readDigits_append Nat.toDigits_ne_nil (toDigits_isDigit _) (fun c hc => (h c hc).1)
      simp only [List.cons_append, readExp, true_or, if_true, Option.getD_some]
      rcases lt_or_ge e 0 with he | he
      · simp only [if_pos he, Js.signed, hdigits, Option.map_some, Nat.ofDigitChars_ten_toDigits, if_true]
        rw [Int.ofNat_natAbs_of_nonpos he.le, neg_neg]
      · simp only [if_neg (not_lt.mpr he), Js.signed, hdigits, Option.map_some,
          Nat.ofDigitChars_ten_toDigits, Bool.false_eq_true, if_false]
        rw [Int.natAbs_of_nonneg he]

/-- The middle of a numeral: its fraction. -/
theorem readFrac_append {frac rest : List Char} (hds : ∀ c ∈ frac, c.isDigit = true)
    (hrest : ∀ c ∈ rest.head?, c.isDigit = false ∧ c ≠ '.') :
    readFrac ((if frac = [] then [] else '.' :: frac) ++ rest) = some (frac, rest) := by
  split_ifs with hnil
  · rw [hnil, List.nil_append]
    unfold readFrac
    split
    · exact absurd rfl (hrest '.' rfl).2
    · rfl
  · exact readDigits_append hnil hds (fun c hc => (hrest c hc).1)

/-- **A numeral is read as its value**, whatever follows it. -/
theorem readNumeral_render {n : Numeral} (hn : n.WellFormed) {rest : List Char} (h : Ends rest) :
    readNumeral (n.render ++ rest) = some (n.value, rest) := by
  have hint : ∀ c ∈ n.int, c.isDigit = true := fun c hc => hn.digits c (List.mem_append_left _ hc)
  have hfrac : ∀ c ∈ n.frac, c.isDigit = true := fun c hc => hn.digits c (List.mem_append_right _ hc)
  rw [Numeral.render, List.append_assoc, List.append_assoc]
  generalize htail : (match n.exp with
    | none => []
    | some e => 'e' :: (if e < 0 then '-' else '+') :: toDigits 10 e.natAbs) ++ rest = tail
  have hexp : readExp tail = some (n.exp.getD 0, rest) := htail ▸ readExp_render n.exp h
  have hends : ∀ c ∈ tail.head?, c.isDigit = false ∧ c ≠ '.' := by
    intro c hc
    rw [← htail] at hc
    cases he : n.exp with
    | none =>
        rw [he] at hc
        exact ⟨(h c hc).1, (h c hc).2.1⟩
    | some e =>
        rw [he] at hc
        rw [← Option.some.inj hc]
        decide
  have hafter : ∀ c ∈ ((if n.frac = [] then [] else '.' :: n.frac) ++ tail).head?, c.isDigit = false := by
    split_ifs with hnil
    · exact fun c hc => (hends c hc).1
    · intro c hc
      rw [← Option.some.inj hc]
      rfl
  rw [readNumeral, readInt_append hn.int hint hn.leading hafter, Option.bind_some,
    readFrac_append hfrac hends, Option.bind_some, hexp, Option.map_some]
  rfl

/-! ## Digits -/

theorem digitChar_ne_zero : ∀ n < 10, n ≠ 0 → n.digitChar ≠ '0' := by decide

theorem head?_toDigits {n : ℕ} (hn : n ≠ 0) : (toDigits 10 n).head? ≠ some '0' := by
  induction n using Nat.strong_induction_on with
  | _ n ih =>
      rw [Nat.toDigits_eq_if (by decide)]
      split_ifs with hlt
      · exact fun h => digitChar_ne_zero n hlt hn (Option.some.inj h)
      · rw [List.head?_append_of_ne_nil _ Nat.toDigits_ne_nil]
        exact ih (n / 10) (by omega) (by omega)

/-- The digits without the zeros at their end. -/
def stripZeros (ds : List Char) : List Char := (ds.reverse.dropWhile (· = '0')).reverse

theorem stripZeros_append (ds : List Char) :
    ds = stripZeros ds ++ List.replicate (ds.length - (stripZeros ds).length) '0' := by
  have htake : ds.reverse.takeWhile (· = '0') =
      List.replicate (ds.reverse.takeWhile (· = '0')).length '0' :=
    List.eq_replicate_of_mem fun c hc => by simpa using List.mem_takeWhile_imp hc
  have hsplit : ds = stripZeros ds ++ (ds.reverse.takeWhile (· = '0')).reverse := by
    rw [stripZeros, ← List.reverse_append, List.takeWhile_append_dropWhile, List.reverse_reverse]
  have hlen := congrArg List.length hsplit
  rw [List.length_append, List.length_reverse] at hlen
  conv_lhs => rw [hsplit, htake, List.reverse_replicate]
  congr 2
  omega

theorem stripZeros_ne_nil {ds : List Char} (hne : ds ≠ []) (h : ds.head? ≠ some '0') :
    stripZeros ds ≠ [] := by
  intro hnil
  have hds := stripZeros_append ds
  rw [hnil, List.nil_append] at hds
  obtain ⟨d, rest, rfl⟩ := List.exists_cons_of_ne_nil hne
  have hmem : d ∈ List.replicate ((d :: rest).length - [].length) '0' := hds ▸ List.mem_cons_self
  exact h (congrArg some (List.eq_of_mem_replicate hmem))

theorem head?_stripZeros {ds : List Char} (h : ds.head? ≠ some '0') :
    (stripZeros ds).head? ≠ some '0' := by
  intro hzero
  have hne : stripZeros ds ≠ [] := fun hnil => by
    rw [hnil] at hzero
    cases hzero
  apply h
  rw [stripZeros_append ds, List.head?_append_of_ne_nil _ hne, hzero]

/-! ## Writing -/

/-- The numeral of the digits with the point after the first `n` of them. -/
def setDigits (ds : List Char) (n : ℤ) : Numeral :=
  if ds.length ≤ n ∧ n ≤ 21 then ⟨ds ++ List.replicate (n - ds.length).toNat '0', [], none⟩
  else if 0 < n ∧ n ≤ 21 then ⟨ds.take n.toNat, ds.drop n.toNat, none⟩
  else if -6 < n ∧ n ≤ 0 then ⟨['0'], List.replicate (-n).toNat '0' ++ ds, none⟩
  else ⟨ds.take 1, ds.drop 1, some (n - 1)⟩

theorem setDigits_wellFormed {ds : List Char} (n : ℤ) (hne : ds ≠ []) (hds : ∀ c ∈ ds, c.isDigit = true)
    (hhead : ds.head? ≠ some '0') : (setDigits ds n).WellFormed := by
  have hpos : 0 < ds.length := List.length_pos_of_ne_nil hne
  have htake : ∀ k, 0 < k → ds.take k ≠ [] ∧ (ds.take k).head? ≠ some '0' := by
    intro k hk
    refine ⟨fun h => ?_, by rwa [List.head?_take, if_neg hk.ne']⟩
    rcases List.take_eq_nil_iff.mp h with h | h
    · exact hk.ne' h
    · exact hne h
  have hzeros : ∀ k, ∀ c ∈ List.replicate k '0', c.isDigit = true := by
    intro k c hc
    rw [List.eq_of_mem_replicate hc]
    rfl
  unfold setDigits
  split_ifs with h1 h2 h3
  · refine ⟨List.append_ne_nil_of_left_ne_nil hne _, ?_, Or.inr ?_⟩
    · intro c hc
      have hc : c ∈ ds ++ List.replicate (n - ds.length).toNat '0' ++ [] := hc
      rw [List.append_nil] at hc
      exact (List.mem_append.mp hc).elim (hds c) (hzeros _ c)
    · rwa [List.head?_append_of_ne_nil _ hne]
  · have hn : 0 < n.toNat := by omega
    refine ⟨(htake _ hn).1, ?_, Or.inr (htake _ hn).2⟩
    rwa [List.take_append_drop]
  · refine ⟨by simp, fun c hc => ?_, Or.inl rfl⟩
    have hc : c ∈ '0' :: (List.replicate (-n).toNat '0' ++ ds) := hc
    rcases List.mem_cons.mp hc with rfl | hc
    · rfl
    · exact (List.mem_append.mp hc).elim (hzeros _ c) (hds c)
  · refine ⟨(htake 1 Nat.one_pos).1, ?_, Or.inr (htake 1 Nat.one_pos).2⟩
    rwa [List.take_append_drop]

/-- The point does not change what the digits denote. -/
theorem value_setDigits {ds : List Char} (n : ℤ) (hne : ds ≠ []) :
    (setDigits ds n).value = (ofDigitChars 10 ds 0 : ℚ) * 10 ^ (n - ds.length) := by
  have hpos : 0 < ds.length := List.length_pos_of_ne_nil hne
  unfold setDigits
  split_ifs with h1 h2 h3
  · have hexp : (n - ds.length : ℤ) = ((n - ds.length).toNat : ℤ) := by omega
    rw [Numeral.value, List.append_nil, Nat.ofDigitChars_append, Nat.ofDigitChars_replicate_zero]
    conv_rhs => rw [hexp, zpow_natCast]
    rw [Option.getD_none, List.length_nil, Nat.cast_zero, sub_zero, zpow_zero, mul_one, Nat.cast_mul,
      Nat.cast_pow, Nat.cast_ofNat, mul_comm]
  · have hexp : (0 - (ds.drop n.toNat).length : ℤ) = n - ds.length := by
      rw [List.length_drop]
      omega
    rw [Numeral.value, List.take_append_drop, Option.getD_none, hexp]
  · have hexp : (0 - (List.replicate (-n).toNat '0' ++ ds).length : ℤ) = n - ds.length := by
      rw [List.length_append, List.length_replicate]
      omega
    rw [Numeral.value, Option.getD_none, hexp, List.singleton_append, Nat.ofDigitChars_cons,
      Nat.ofDigitChars_append, Nat.mul_zero, Nat.sub_self, Nat.zero_add,
      Nat.ofDigitChars_replicate_zero, Nat.mul_zero]
  · have hexp : (n - 1 - (ds.drop 1).length : ℤ) = n - ds.length := by
      rw [List.length_drop]
      omega
    rw [Numeral.value, List.take_append_drop, Option.getD_some, hexp]

/-- The text of `s * 10 ^ e`. -/
def numeral (s : ℕ) (e : ℤ) : Numeral :=
  let ds := toDigits 10 s
  setDigits (stripZeros ds) (ds.length + e)

theorem numeral_wellFormed {s : ℕ} (e : ℤ) (hs : s ≠ 0) : (numeral s e).WellFormed := by
  have hhead := head?_toDigits hs
  refine setDigits_wellFormed _ (stripZeros_ne_nil Nat.toDigits_ne_nil hhead) (fun c hc => ?_)
    (head?_stripZeros hhead)
  refine toDigits_isDigit s c ?_
  rw [stripZeros_append (toDigits 10 s)]
  exact List.mem_append_left _ hc

theorem value_numeral {s : ℕ} (e : ℤ) (hs : s ≠ 0) : (numeral s e).value = s * 10 ^ e := by
  have hne := stripZeros_ne_nil Nat.toDigits_ne_nil (head?_toDigits hs)
  have hstrip := stripZeros_append (toDigits 10 s)
  generalize hds : toDigits 10 s = ds at hne hstrip
  have hlen := congrArg List.length hstrip
  rw [List.length_append, List.length_replicate] at hlen
  -- the zeros that were left out are a power of ten
  have hvalue : (s : ℚ) =
      (ofDigitChars 10 (stripZeros ds) 0 : ℚ) * 10 ^ (ds.length - (stripZeros ds).length) := by
    have hs := congrArg (fun ds => ofDigitChars 10 ds 0) hstrip
    simp only [Nat.ofDigitChars_append, Nat.ofDigitChars_replicate_zero] at hs
    rw [← hds, Nat.ofDigitChars_ten_toDigits, hds] at hs
    rw [hs]
    push_cast
    ring
  have hexp : (ds.length + e - (stripZeros ds).length : ℤ) =
      ((ds.length - (stripZeros ds).length : ℕ) : ℤ) + e := by omega
  rw [numeral, hds, value_setDigits _ hne, hexp, zpow_add₀ (by norm_num), zpow_natCast, hvalue]
  ring

/-! ## The shortest digits -/

section Shortest
variable (F : Format)

/-- The number is a finite number of the format. -/
def Holds (x : ℚ) : Prop := F.ofRat x = .finite x

instance (x : ℚ) : Decidable (Holds F x) := inferInstanceAs (Decidable (F.ofRat x = .finite x))

/-- The integers next to a number, the nearer one first; in a tie the even one. -/
def neighbours (y : ℚ) : List ℕ :=
  let f := ⌊y⌋₊
  if Binary.roundEven y = f then [f, f + 1] else [f + 1, f]

/-- The digits and the exponent of a positive number, with the last digit at `10 ^ e`. -/
def atPlace (x : ℚ) (e : ℤ) : Option (ℕ × ℤ) :=
  ((neighbours (x / 10 ^ e)).find? (fun s : ℕ =>
    decide (F.ofRat (s * 10 ^ e) = .finite x))).map (fun s => (s, e))

/-- As few digits as denote the number after rounding. A number with `2 ^ j` as its denominator has `j`
digits after the point. -/
def shortest (x : ℚ) : Option (ℕ × ℤ) :=
  let n := Int.log 10 x + 1
  (List.range (n + Nat.log 2 x.den).toNat).findSome? (fun k : ℕ => atPlace F x (n - 1 - k))

variable {F} {x : ℚ}

theorem atPlace_spec {e e' : ℤ} {s : ℕ} (h : atPlace F x e = some (s, e')) :
    F.ofRat (s * 10 ^ e') = .finite x := by
  obtain ⟨s', hs, hse⟩ := Option.map_eq_some_iff.mp h
  obtain ⟨rfl, rfl⟩ := Prod.mk.inj hse
  simpa using List.find?_some hs

theorem shortest_spec {s : ℕ} {e : ℤ} (h : shortest F x = some (s, e)) :
    F.ofRat (s * 10 ^ e) = .finite x := by
  obtain ⟨k, -, hk⟩ := List.exists_of_findSome?_eq_some h
  exact atPlace_spec hk

theorem floor_mem_neighbours (y : ℚ) : ⌊y⌋₊ ∈ neighbours y := by
  unfold neighbours
  simp only
  split_ifs <;> simp

/-- A number whose last digit is at the place is found there. -/
theorem atPlace_isSome (h : Holds F x) {e : ℤ} {m : ℕ} (hm : x = m * 10 ^ e) :
    (atPlace F x e).isSome = true := by
  have hu : (10 : ℚ) ^ e ≠ 0 := zpow_ne_zero e (by norm_num)
  have hy : x / 10 ^ e = m := by rw [hm, mul_div_assoc, div_self hu, mul_one]
  have hmem : m ∈ neighbours (x / 10 ^ e) := by
    have hfloor := floor_mem_neighbours (x / 10 ^ e)
    rwa [hy, Nat.floor_natCast, ← hy] at hfloor
  rw [atPlace, Option.isSome_map, List.find?_isSome]
  refine ⟨m, hmem, ?_⟩
  rw [← hm]
  exact decide_eq_true h

/-- The denominator of a number of the format is a power of two. -/
theorem den_eq_pow (h : Holds F x) : ∃ j, x.den = 2 ^ j := by
  obtain ⟨m, e, -, -, he⟩ := Format.round_eq_self.mp (Format.ofRat_eq_finite.mp h).2
  have hden : x.den ∣ 2 ^ (-e).toNat := by
    obtain ⟨n, hn⟩ := Format.zpow_eq_mul (show -((-e).toNat : ℤ) ≤ e by omega)
    have hx : x = Rat.divInt (m * n) (2 ^ (-e).toNat : ℕ) := by
      rw [Rat.divInt_eq_div, he, hn, zpow_neg, zpow_natCast, div_eq_mul_inv]
      push_cast
      ring
    have hdvd := Rat.den_dvd (m * n) (2 ^ (-e).toNat : ℕ)
    rw [← hx] at hdvd
    exact_mod_cast hdvd
  obtain ⟨j, -, hj⟩ := (Nat.dvd_prime_pow Nat.prime_two).mp hden
  exact ⟨j, hj⟩

theorem shortest_isSome (h : Holds F x) (hx : 0 < x) : (shortest F x).isSome = true := by
  obtain ⟨j, hj⟩ := den_eq_pow h
  have hnum : 0 < x.num := Rat.num_pos.mpr hx
  -- the digits up to place `-j` are all of them
  have hm : x = (x.num.toNat * 5 ^ j : ℕ) * 10 ^ (-(j : ℤ)) := by
    have hcast : ((x.num.toNat : ℕ) : ℚ) = x.num := by exact_mod_cast Int.toNat_of_nonneg hnum.le
    have hten : (10 : ℚ) ^ j = 2 ^ j * 5 ^ j := by rw [← mul_pow]; norm_num
    conv_lhs => rw [← Rat.num_div_den x, hj]
    rw [Nat.cast_mul, hcast, zpow_neg, zpow_natCast, hten]
    push_cast
    field_simp
  have hlow : (10 : ℚ) ^ (-(j : ℤ)) ≤ x := by
    have hone : (1 : ℚ) ≤ (x.num.toNat * 5 ^ j : ℕ) := by
      exact_mod_cast Nat.mul_pos (Int.pos_iff_toNat_pos.mp hnum) (pow_pos (by decide) j)
    calc (10 : ℚ) ^ (-(j : ℤ)) = 1 * 10 ^ (-(j : ℤ)) := (one_mul _).symm
      _ ≤ _ := mul_le_mul_of_nonneg_right hone (zpow_pos (by norm_num) _).le
      _ = x := hm.symm
  have hhigh : x < (10 : ℚ) ^ (Int.log 10 x + 1) := by
    exact_mod_cast Int.lt_zpow_succ_log_self (by norm_num) x
  have hplaces : -(j : ℤ) < Int.log 10 x + 1 :=
    (zpow_lt_zpow_iff_right₀ (by norm_num)).mp (hlow.trans_lt hhigh)
  have hlog : Nat.log 2 x.den = j := by rw [hj, Nat.log_pow (by decide)]
  rw [shortest, List.findSome?_isSome_iff]
  refine ⟨(Int.log 10 x + j).toNat, ?_, ?_⟩
  · rw [List.mem_range, hlog]
    omega
  · have hplace : Int.log 10 x + 1 - 1 - ((Int.log 10 x + j).toNat : ℤ) = -(j : ℤ) := by omega
    rw [hplace]
    exact atPlace_isSome h hm

/-! ## Texts of numbers -/

variable (F)

/-- `String(x)` of a positive number. -/
def positiveText (x : ℚ) : List Char :=
  match shortest F x with
  | some (s, e) => (numeral s e).render
  | none => []

/-- `String(x)`. -/
def numberText (x : ℚ) : List Char :=
  if x = 0 then ['0'] else if x < 0 then '-' :: positiveText F (-x) else positiveText F x

/-- The number that a numeral at the front denotes in the format, and what follows it. -/
def readNumber (cs : List Char) : Option (Binary.Datum × List Char) :=
  match cs with
  | '-' :: cs => (readNumeral cs).map (fun p => (F.ofRat (-p.1), p.2))
  | cs => (readNumeral cs).map (fun p => (F.ofRat p.1, p.2))

variable {F}

theorem ofRat_neg {y : ℚ} (h : F.ofRat y = .finite x) : F.ofRat (-y) = .finite (-x) := by
  obtain ⟨hlt, hround⟩ := Format.ofRat_eq_finite.mp h
  rw [Format.ofRat_eq_finite, Format.round_neg, abs_neg, hround]
  exact ⟨hround ▸ hlt, rfl⟩

theorem holds_neg (h : Holds F x) : Holds F (-x) := ofRat_neg h

/-- The text of a positive number is a numeral whose value is rounded to it. -/
theorem positiveText_spec (h : Holds F x) (hx : 0 < x) :
    ∃ n : Numeral, n.WellFormed ∧ positiveText F x = n.render ∧ F.ofRat n.value = .finite x := by
  obtain ⟨⟨s, e⟩, hse⟩ := Option.isSome_iff_exists.mp (shortest_isSome h hx)
  have hround := shortest_spec hse
  have hs : s ≠ 0 := by
    rintro rfl
    rw [Nat.cast_zero, zero_mul, Format.ofRat_eq_finite, Format.round_zero] at hround
    exact hx.ne hround.2
  exact ⟨numeral s e, numeral_wellFormed e hs, by rw [positiveText, hse],
    by rw [value_numeral e hs]; exact hround⟩

theorem Numeral.WellFormed.head {n : Numeral} (h : n.WellFormed) :
    ∃ d ∈ n.render.head?, d.isDigit = true := by
  obtain ⟨d, ds, hds⟩ := List.exists_cons_of_ne_nil h.int
  refine ⟨d, ?_, h.digits d ?_⟩
  · simp only [Numeral.render, hds, List.cons_append]
    rfl
  · rw [hds]
    exact List.mem_cons_self

theorem Numeral.WellFormed.mem {n : Numeral} (h : n.WellFormed) {c : Char} (hc : c ∈ n.render) :
    c.isDigit = true ∨ c ∈ ['-', '+', '.', 'e'] := by
  rw [Numeral.render, List.append_assoc, List.mem_append, List.mem_append] at hc
  rcases hc with hc | hc | hc
  · exact Or.inl (h.digits c (List.mem_append_left _ hc))
  · split_ifs at hc
    · cases hc
    · rcases List.mem_cons.mp hc with rfl | hc
      · exact Or.inr (by decide)
      · exact Or.inl (h.digits c (List.mem_append_right _ hc))
  · cases he : n.exp with
    | none =>
        rw [he] at hc
        cases hc
    | some e =>
        rw [he] at hc
        rcases List.mem_cons.mp hc with rfl | hc
        · exact Or.inr (by decide)
        · rcases List.mem_cons.mp hc with rfl | hc
          · right
            split_ifs <;> decide
          · exact Or.inl (toDigits_isDigit _ c hc)

/-- The characters of the text of a number. -/
theorem mem_numberText (h : Holds F x) {c : Char} (hc : c ∈ numberText F x) :
    c.isDigit = true ∨ c ∈ ['-', '+', '.', 'e'] := by
  unfold numberText at hc
  split_ifs at hc with h0 hneg
  · rw [List.mem_singleton.mp hc]
    exact Or.inl rfl
  · obtain ⟨n, hwell, htext, -⟩ := positiveText_spec (holds_neg h) (neg_pos.mpr hneg)
    rcases List.mem_cons.mp hc with rfl | hc
    · exact Or.inr (by decide)
    · exact hwell.mem (htext ▸ hc)
  · obtain ⟨n, hwell, htext, -⟩ := positiveText_spec h (lt_of_le_of_ne (not_lt.mp hneg) (Ne.symm h0))
    exact hwell.mem (htext ▸ hc)

theorem readNumber_of_digit {cs : List Char} (h : ∃ d ∈ cs.head?, d.isDigit = true) :
    readNumber F cs = (readNumeral cs).map (fun p => (F.ofRat p.1, p.2)) := by
  obtain ⟨d, hd, hdigit⟩ := h
  unfold readNumber
  split
  · rw [← Option.some.inj hd] at hdigit
    cases hdigit
  · rfl

/-- **A number of the format is read from its text**, whatever follows it. -/
theorem readNumber_numberText (h : Holds F x) {rest : List Char} (hrest : Ends rest) :
    readNumber F (numberText F x ++ rest) = some (.finite x, rest) := by
  unfold numberText
  split_ifs with h0 hneg
  · have hzero : readNumeral ('0' :: rest) = some (0, rest) := by
      have hwell : (⟨['0'], [], none⟩ : Numeral).WellFormed := ⟨by simp, by simp, Or.inl rfl⟩
      have hvalue : (⟨['0'], [], none⟩ : Numeral).value = 0 := by
        simp [Numeral.value, Nat.ofDigitChars_cons]
      rw [← hvalue]
      exact readNumeral_render hwell hrest
    rw [List.singleton_append, readNumber_of_digit ⟨'0', rfl, rfl⟩, hzero, Option.map_some, ← h0]
    exact congrArg (fun d => some (d, rest)) h
  · obtain ⟨n, hwell, htext, hround⟩ := positiveText_spec (holds_neg h) (neg_pos.mpr hneg)
    show (readNumeral (positiveText F (-x) ++ rest)).map _ = _
    rw [htext, readNumeral_render hwell hrest, Option.map_some, ofRat_neg hround, neg_neg]
  · have hpos : 0 < x := lt_of_le_of_ne (not_lt.mp hneg) (Ne.symm h0)
    obtain ⟨n, hwell, htext, hround⟩ := positiveText_spec h hpos
    obtain ⟨d, hd, hdigit⟩ := hwell.head
    have hhead : ∃ d ∈ (n.render ++ rest).head?, d.isDigit = true :=
      ⟨d, by rw [List.head?_append, hd]; rfl, hdigit⟩
    rw [htext, readNumber_of_digit hhead, readNumeral_render hwell hrest, Option.map_some, hround]

end Shortest

end Numerals
