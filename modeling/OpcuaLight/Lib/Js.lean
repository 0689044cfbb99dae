import Mathlib.Algebra.Order.Ring.Nat
import Mathlib.Data.List.Infix
import Mathlib.Data.Rat.Defs

/-!
# JavaScript values and strings

JSON values with the truth test and the property access of JavaScript, and the string functions
(`trim`, `split`, `includes`) on character lists. Text is a `String` of Unicode scalar
values; where JavaScript folds case, only the characters whose image is ASCII are mapped, since the
patterns they are compared with are ASCII.
-/

/-- A JSON value. An object's keys are distinct. -/
inductive Json where
  | null
  | bool (b : Bool)
  | num (q : ℚ)
  | str (s : String)
  | arr (items : List Json)
  | obj (fields : List (String × Json))
  deriving Inhabited

namespace Json

mutual
def decEq : (a b : Json) → Decidable (a = b)
  | null, null => .isTrue rfl
  | bool a, bool b => if h : a = b then .isTrue (by rw [h]) else .isFalse (by simp [h])
  | num a, num b => if h : a = b then .isTrue (by rw [h]) else .isFalse (by simp [h])
  | str a, str b => if h : a = b then .isTrue (by rw [h]) else .isFalse (by simp [h])
  | arr a, arr b =>
      match decEqItems a b with
      | .isTrue h => .isTrue (by rw [h])
      | .isFalse h => .isFalse (by simp [h])
  | obj a, obj b =>
      match decEqFields a b with
      | .isTrue h => .isTrue (by rw [h])
      | .isFalse h => .isFalse (by simp [h])
  | null, bool _ | null, num _ | null, str _ | null, arr _ | null, obj _ => .isFalse (by simp)
  | bool _, null | bool _, num _ | bool _, str _ | bool _, arr _ | bool _, obj _ => .isFalse (by simp)
  | num _, null | num _, bool _ | num _, str _ | num _, arr _ | num _, obj _ => .isFalse (by simp)
  | str _, null | str _, bool _ | str _, num _ | str _, arr _ | str _, obj _ => .isFalse (by simp)
  | arr _, null | arr _, bool _ | arr _, num _ | arr _, str _ | arr _, obj _ => .isFalse (by simp)
  | obj _, null | obj _, bool _ | obj _, num _ | obj _, str _ | obj _, arr _ => .isFalse (by simp)

def decEqItems : (a b : List Json) → Decidable (a = b)
  | [], [] => .isTrue rfl
  | [], _ :: _ => .isFalse (by simp)
  | _ :: _, [] => .isFalse (by simp)
  | x :: xs, y :: ys =>
      match decEq x y, decEqItems xs ys with
      | .isTrue hx, .isTrue hxs => .isTrue (by rw [hx, hxs])
      | .isFalse hx, _ => .isFalse (by simp [hx])
      | _, .isFalse hxs => .isFalse (by simp [hxs])

def decEqFields : (a b : List (String × Json)) → Decidable (a = b)
  | [], [] => .isTrue rfl
  | [], _ :: _ => .isFalse (by simp)
  | _ :: _, [] => .isFalse (by simp)
  | (k, x) :: xs, (l, y) :: ys =>
      if hk : k = l then
        match decEq x y, decEqFields xs ys with
        | .isTrue hx, .isTrue hxs => .isTrue (by rw [hk, hx, hxs])
        | .isFalse hx, _ => .isFalse (by simp [hx])
        | _, .isFalse hxs => .isFalse (by simp [hxs])
      else .isFalse (by simp [hk])
end

instance : DecidableEq Json := decEq

/-- The truth value of `Boolean(v)`. -/
def truthy : Json → Bool
  | null => false
  | bool b => b
  | num q => q ≠ 0
  | str s => s ≠ ""
  | arr _ => true
  | obj _ => true

/-- `v.key`, with `none` for `undefined`; only an object has the properties asked for here. -/
def field (v : Json) (key : String) : Option Json :=
  match v with
  | obj fields => (fields.find? (fun f => f.1 = key)).map (fun f => f.2)
  | _ => none

/-- `v ?? d`. -/
def orElse (v : Option Json) (d : Json) : Json :=
  match v with
  | none | some null => d
  | some v => v

end Json

namespace Js

/-! ## Strings -/

/-- The white space and line terminators that `trim` and `parseInt` skip. -/
def isSpace (c : Char) : Bool :=
  c ∈ ['\t', '\n', '\x0b', '\x0c', '\r', ' ', '\u00a0', '\u1680', '\u2028', '\u2029', '\u202f',
    '\u205f', '\u3000', '\ufeff'] || (0x2000 ≤ c.toNat && c.toNat ≤ 0x200a)

def trim (s : String) : String :=
  String.ofList ((s.toList.dropWhile isSpace).reverse.dropWhile isSpace).reverse

/-- `if (s)` for a string that may be `undefined` or `null`. -/
def truthyString (s : Option String) : Bool := s.any (· ≠ "")

def includes (s t : String) : Bool := decide (t.toList <:+: s.toList)

/-- `toLowerCase`, as far as a test for ASCII text sees it. -/
def toLowerCase (s : String) : String := String.ofList (s.toList.map Char.toLower)

/-- `toUpperCase`, as far as a comparison with ASCII capitals sees it: of the other characters only
the dotless `ı` and the long `ſ` have an ASCII capital. -/
def toUpperCase (s : String) : String :=
  String.ofList (s.toList.map (fun c => if c = 'ı' then 'I' else if c = 'ſ' then 'S' else c.toUpper))

/-- `s.split(sep)` for a one-character separator. -/
def split (s : String) (sep : Char) : List String := (s.toList.splitOn sep).map String.ofList

/-- The number denoted by a run of decimal digits. -/
def digitsValue (ds : List Char) : Nat := ds.foldl (fun n d => 10 * n + (d.toNat - '0'.toNat)) 0

/-! ## Numbers -/

/-- `Number(n)` of a bigint within the range of a double: the nearest integer with 53 significant
bits, ties to even. -/
def numberOfBigInt (n : Int) : Int :=
  let a := n.natAbs
  let k := Nat.log2 a - 52
  let q := a / 2 ^ k
  let r := 2 * (a % 2 ^ k)
  let up := decide (2 ^ k < r) || (r == 2 ^ k && q % 2 == 1)
  let v := (if up then q + 1 else q) * 2 ^ k
  if n < 0 then -(v : Int) else v

/-- The value of a digit of a base up to 16. -/
def digitOf (base : Nat) (c : Char) : Option Nat :=
  let n := if c.isDigit then c.toNat - '0'.toNat
    else if 'a' ≤ c.toLower ∧ c.toLower ≤ 'f' then c.toLower.toNat - 'a'.toNat + 10 else base
  if n < base then some n else none

def digitsOf (base : Nat) (cs : List Char) : Option Nat :=
  match cs with
  | [] => none
  | cs => cs.foldl (fun n c => n.bind (fun n => (digitOf base c).map (fun d => base * n + d))) (some 0)

/-- `n * 10 ^ e`. -/
def scale (n : Nat) (e : Int) : ℚ :=
  if 0 ≤ e then ((n * 10 ^ e.toNat : Nat) : ℚ) else mkRat n (10 ^ (-e).toNat)

/-- The sign of a number and what follows it. -/
def signed : List Char → Bool × List Char
  | '-' :: cs => (true, cs)
  | '+' :: cs => (false, cs)
  | cs => (false, cs)

/-- An optional exponent, up to the end. -/
def exponent : List Char → Option Int
  | [] => some 0
  | e :: cs =>
      if e = 'e' ∨ e = 'E' then
        (digitsOf 10 (signed cs).2).map (fun n => if (signed cs).1 then -(n : Int) else n)
      else none

/-- Digits with an optional fraction and an optional exponent. -/
def decimal (cs : List Char) : Option ℚ :=
  let int := cs.takeWhile Char.isDigit
  let (frac, rest) := match cs.dropWhile Char.isDigit with
    | '.' :: cs => (cs.takeWhile Char.isDigit, cs.dropWhile Char.isDigit)
    | cs => ([], cs)
  (digitsOf 10 (int ++ frac)).bind (fun n =>
    (exponent rest).map (fun e => scale n (e - frac.length)))

end Js
