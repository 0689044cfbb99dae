import OpcuaLight.Lib.Utf8

/-!
# Reading bytes that may not be UTF-8

How `TextDecoder` reads bytes: as the characters that they are, with U+FFFD for each longest piece that could be
the start of a character and is not continued as one, and for each byte that starts none.

* `decodeLossy_encode` : a text is read from its bytes;
* `decodeLossy_take` : if the bytes of a text are cut, the characters are read that are whole, and U+FFFD if the
  cut is inside a character.
-/

namespace Utf8

/-- The continuation bytes that are needed, the range of the next one, and the bits that have been read. -/
structure Pending where
  needed : Nat
  lower : Nat
  upper : Nat
  point : Nat
  deriving DecidableEq, Repr

/-- What a byte between characters gives. -/
def lead (b : UInt8) : List Char × Option Pending :=
  let n := b.toNat
  if n < 0x80 then ([Char.ofNat n], none)
  else if 0xc2 ≤ n ∧ n ≤ 0xdf then ([], some ⟨1, 0x80, 0xbf, n - 0xc0⟩)
  else if 0xe0 ≤ n ∧ n ≤ 0xef then
    ([], some ⟨2, if n = 0xe0 then 0xa0 else 0x80, if n = 0xed then 0x9f else 0xbf, n - 0xe0⟩)
  else if 0xf0 ≤ n ∧ n ≤ 0xf4 then
    ([], some ⟨3, if n = 0xf0 then 0x90 else 0x80, if n = 0xf4 then 0x8f else 0xbf, n - 0xf0⟩)
  else (['\ufffd'], none)

/-- What a byte gives; one that does not continue the character is read again as a first one. -/
def next : Option Pending → UInt8 → List Char × Option Pending
  | none, b => lead b
  | some p, b =>
      if p.lower ≤ b.toNat ∧ b.toNat ≤ p.upper then
        let point := p.point * 64 + (b.toNat - 0x80)
        if p.needed = 1 then ([Char.ofNat point], none) else ([], some ⟨p.needed - 1, 0x80, 0xbf, point⟩)
      else ('\ufffd' :: (lead b).1, (lead b).2)

def decodeFrom : Option Pending → List UInt8 → List Char
  | none, [] => []
  | some _, [] => ['\ufffd']
  | state, b :: bytes => (next state b).1 ++ decodeFrom (next state b).2 bytes

def decodeLossy (bytes : List UInt8) : List Char := decodeFrom none bytes

example : decodeLossy [0x41, 0xe2, 0x82, 0xac, 0xe2, 0x82, 0x41, 0xff] = ['A', '€', '\ufffd', 'A', '\ufffd'] := by decide

/-! ## One byte -/

theorem decodeFrom_cons (state : Option Pending) (b : UInt8) (bytes : List UInt8) :
    decodeFrom state (b :: bytes) = (next state b).1 ++ decodeFrom (next state b).2 bytes := by
  cases state <;> rfl

theorem decodeFrom_lead {b : UInt8} {p : Pending} (h : lead b = ([], some p)) (rest : List UInt8) :
    decodeFrom none (b :: rest) = decodeFrom (some p) rest := by
  rw [decodeFrom_cons, next, h, List.nil_append]

theorem lead_one {b : UInt8} (hb : b.toNat < 0x80) : lead b = ([Char.ofNat b.toNat], none) := if_pos hb

theorem lead_two {b : UInt8} {n : Nat} (hb : b.toNat = n + 0xc0) (hn : 2 ≤ n ∧ n < 32) :
    lead b = ([], some ⟨1, 0x80, 0xbf, n⟩) := by
  rw [lead, if_neg (by omega), if_pos (by omega), hb, Nat.add_sub_cancel]

theorem lead_three {b : UInt8} {n : Nat} (hb : b.toNat = n + 0xe0) (hn : n < 16) :
    lead b = ([], some ⟨2, if n = 0 then 0xa0 else 0x80, if n = 13 then 0x9f else 0xbf, n⟩) := by
  rw [lead, if_neg (by omega), if_neg (by omega), if_pos (by omega), hb, Nat.add_sub_cancel]
  simp

theorem lead_four {b : UInt8} {n : Nat} (hb : b.toNat = n + 0xf0) (hn : n < 5) :
    lead b = ([], some ⟨3, if n = 0 then 0x90 else 0x80, if n = 4 then 0x8f else 0xbf, n⟩) := by
  rw [lead, if_neg (by omega), if_neg (by omega), if_neg (by omega), if_pos (by omega), hb, Nat.add_sub_cancel]
  simp

/-- A continuation byte that is not the last one. -/
theorem decodeFrom_more {p : Pending} {b : UInt8} {n : Nat} (hb : b.toNat = n + 0x80)
    (hrange : p.lower ≤ n + 0x80 ∧ n + 0x80 ≤ p.upper) (hneeded : p.needed ≠ 1) (rest : List UInt8) :
    decodeFrom (some p) (b :: rest) = decodeFrom (some ⟨p.needed - 1, 0x80, 0xbf, p.point * 64 + n⟩) rest := by
  simp only [decodeFrom_cons, next, hb, hrange, hneeded, and_self, if_true, if_false, Nat.add_sub_cancel,
    List.nil_append]

/-- The last continuation byte. -/
theorem decodeFrom_last {p : Pending} {b : UInt8} {n : Nat} (hb : b.toNat = n + 0x80)
    (hrange : p.lower ≤ n + 0x80 ∧ n + 0x80 ≤ p.upper) (hneeded : p.needed = 1) (rest : List UInt8) :
    decodeFrom (some p) (b :: rest) = Char.ofNat (p.point * 64 + n) :: decodeFrom none rest := by
  simp only [decodeFrom_cons, next, hb, hrange, hneeded, and_self, if_true, Nat.add_sub_cancel, List.singleton_append]

theorem toNat_ofNat_add {n k : Nat} (h : n + k < 256) : (UInt8.ofNat (n + k)).toNat = n + k := by
  rw [UInt8.toNat_ofNat', Nat.mod_eq_of_lt h]

/-! ## One character -/

/-- The first bytes of a character, and the last of them. -/
structure Spells (c : Char) (bytes : List UInt8) : Prop where
  whole : ∀ rest, decodeFrom none (bytes ++ rest) = c :: decodeFrom none rest
  cut : ∀ j, 0 < j → j < bytes.length → ∃ p, ∀ rest, decodeFrom none (bytes.take j ++ rest) = decodeFrom (some p) rest

theorem spells_encodeChar (c : Char) : Spells c (String.utf8EncodeChar c) := by
  have hvalid : c.val.toNat < 0xd800 ∨ 0xdfff < c.val.toNat ∧ c.val.toNat < 0x110000 := c.valid
  have hofNat : Char.ofNat c.val.toNat = c := Char.ofNat_toNat c
  set v := c.val.toNat with hv
  have hencode : String.utf8EncodeChar c = if v ≤ 0x7f then [UInt8.ofNat v]
      else if v ≤ 0x7ff then [UInt8.ofNat (v / 64 % 32 + 0xc0), UInt8.ofNat (v % 64 + 0x80)]
      else if v ≤ 0xffff then
        [UInt8.ofNat (v / 4096 % 16 + 0xe0), UInt8.ofNat (v / 64 % 64 + 0x80), UInt8.ofNat (v % 64 + 0x80)]
      else [UInt8.ofNat (v / 262144 % 8 + 0xf0), UInt8.ofNat (v / 4096 % 64 + 0x80), UInt8.ofNat (v / 64 % 64 + 0x80),
        UInt8.ofNat (v % 64 + 0x80)] := rfl
  have htail : ∀ n, (UInt8.ofNat (n % 64 + 0x80)).toNat = n % 64 + 0x80 := fun n => toNat_ofNat_add (by omega)
  rw [hencode]
  split_ifs with h₁ h₂ h₃
  · have hb : (UInt8.ofNat v).toNat = v := by
      rw [UInt8.toNat_ofNat', Nat.mod_eq_of_lt (by omega)]
    constructor
    · intro rest
      rw [List.singleton_append, decodeFrom_cons, next, lead_one (by omega), hb, hofNat, List.singleton_append]
    · intro j hpos hlt
      rw [List.length_singleton] at hlt
      omega
  · have hlead := decodeFrom_lead (lead_two (n := v / 64 % 32) (toNat_ofNat_add (by omega)) (by omega))
    constructor
    · intro rest
      rw [List.cons_append, hlead, List.singleton_append, decodeFrom_last (htail v) (by simp; omega) rfl]
      rw [show v / 64 % 32 * 64 + v % 64 = v by omega, hofNat]
    · intro j hpos hlt
      obtain rfl : j = 1 := by
        rw [List.length_cons, List.length_singleton] at hlt
        omega
      exact ⟨_, hlead⟩
  · have hlead := decodeFrom_lead (lead_three (n := v / 4096 % 16) (toNat_ofNat_add (by omega)) (by omega))
    have hsecond : ∀ rest, decodeFrom (some ⟨2, if v / 4096 % 16 = 0 then 0xa0 else 0x80,
        if v / 4096 % 16 = 13 then 0x9f else 0xbf, v / 4096 % 16⟩) (UInt8.ofNat (v / 64 % 64 + 0x80) :: rest) =
        decodeFrom (some ⟨1, 0x80, 0xbf, v / 4096 % 16 * 64 + v / 64 % 64⟩) rest :=
      decodeFrom_more (htail (v / 64)) (by simp only; split_ifs <;> omega) (by simp)
    constructor
    · intro rest
      rw [List.cons_append, hlead, List.cons_append, hsecond, List.singleton_append,
        decodeFrom_last (htail v) (by simp; omega) rfl]
      rw [show (v / 4096 % 16 * 64 + v / 64 % 64) * 64 + v % 64 = v by omega, hofNat]
    · intro j hpos hlt
      simp only [List.length_cons, List.length_nil] at hlt
      obtain rfl | rfl : j = 1 ∨ j = 2 := by omega
      · exact ⟨_, hlead⟩
      · exact ⟨_, fun rest => (hlead _).trans (hsecond rest)⟩
  · have hlead := decodeFrom_lead (lead_four (n := v / 262144 % 8) (toNat_ofNat_add (by omega)) (by omega))
    have hsecond : ∀ rest, decodeFrom (some ⟨3, if v / 262144 % 8 = 0 then 0x90 else 0x80,
        if v / 262144 % 8 = 4 then 0x8f else 0xbf, v / 262144 % 8⟩) (UInt8.ofNat (v / 4096 % 64 + 0x80) :: rest) =
        decodeFrom (some ⟨2, 0x80, 0xbf, v / 262144 % 8 * 64 + v / 4096 % 64⟩) rest :=
      decodeFrom_more (htail (v / 4096)) (by simp only; split_ifs <;> omega) (by simp)
    have hthird : ∀ rest, decodeFrom (some ⟨2, 0x80, 0xbf, v / 262144 % 8 * 64 + v / 4096 % 64⟩)
        (UInt8.ofNat (v / 64 % 64 + 0x80) :: rest) =
        decodeFrom (some ⟨1, 0x80, 0xbf, (v / 262144 % 8 * 64 + v / 4096 % 64) * 64 + v / 64 % 64⟩) rest :=
      decodeFrom_more (htail (v / 64)) (by simp only; omega) (by simp)
    constructor
    · intro rest
      rw [List.cons_append, hlead, List.cons_append, hsecond, List.cons_append, hthird, List.singleton_append,
        decodeFrom_last (htail v) (by simp; omega) rfl]
      rw [show ((v / 262144 % 8 * 64 + v / 4096 % 64) * 64 + v / 64 % 64) * 64 + v % 64 = v by omega, hofNat]
    · intro j hpos hlt
      simp only [List.length_cons, List.length_nil] at hlt
      obtain rfl | rfl | rfl : j = 1 ∨ j = 2 ∨ j = 3 := by omega
      · exact ⟨_, hlead⟩
      · exact ⟨_, fun rest => (hlead _).trans (hsecond rest)⟩
      · exact ⟨_, fun rest => ((hlead _).trans (hsecond _)).trans (hthird rest)⟩

/-! ## Texts -/

theorem decodeFrom_encode (cs : List Char) (rest : List UInt8) :
    decodeFrom none (encode cs ++ rest) = cs ++ decodeFrom none rest := by
  induction cs with
  | nil => rfl
  | cons c cs ih =>
      rw [encode, List.flatMap_cons, List.append_assoc, (spells_encodeChar c).whole, List.cons_append]
      exact congrArg (List.cons c) ih

/-- **A text is read from its bytes.** -/
@[simp] theorem decodeLossy_encode (cs : List Char) : decodeLossy (encode cs) = cs := by
  have hread := decodeFrom_encode cs []
  rwa [List.append_nil, decodeFrom, List.append_nil] at hread

/-- The characters that are whole in the first `n` bytes. -/
def whole : Nat → List Char → List Char
  | _, [] => []
  | n, c :: cs =>
      if (String.utf8EncodeChar c).length ≤ n then c :: whole (n - (String.utf8EncodeChar c).length) cs else []

/-- **Of the first bytes of a text the characters are read that are whole, and U+FFFD for one that is not.** -/
theorem decodeLossy_take (n : Nat) (cs : List Char) :
    decodeLossy ((encode cs).take n) =
      whole n cs ++ if (encode (whole n cs)).length < min n (encode cs).length then ['\ufffd'] else [] := by
  induction cs generalizing n with
  | nil => simp [whole, decodeLossy, decodeFrom]
  | cons c cs ih =>
      set bytes := String.utf8EncodeChar c with hbytes
      have hencode : ∀ cs, encode (c :: cs) = bytes ++ encode cs := fun cs => List.flatMap_cons
      rw [hencode, whole, ← hbytes]
      by_cases hwhole : bytes.length ≤ n
      · rw [if_pos hwhole, List.take_append, List.take_of_length_le hwhole, decodeLossy,
          (spells_encodeChar c).whole, ← decodeLossy, ih, hencode, List.cons_append, List.length_append,
          List.length_append]
        refine congrArg (fun l => c :: (_ ++ l)) (if_congr ?_ rfl rfl)
        omega
      · have hlt := Nat.not_le.mp hwhole
        rw [if_neg hwhole, List.take_append_of_le_length (Nat.le_of_lt hlt), List.nil_append, List.length_append, encode_nil,
          List.length_nil]
        rcases Nat.eq_zero_or_pos n with rfl | hpos
        · simp [decodeLossy, decodeFrom]
        · obtain ⟨p, hcut⟩ := (spells_encodeChar c).cut n hpos hlt
          have hread := hcut []
          rw [List.append_nil] at hread
          rw [decodeLossy, hread, if_pos (by omega), decodeFrom]

end Utf8
