import Mathlib.Data.List.Basic

/-!
# Base64

The encoding of bytes in groups of four characters with padding; a decoder that takes three bytes from each
group, a padding character counting as zero; and one that packs values as they come.

* `length_encode`, `encode_append` : the length of an encoding, and encodings of whole groups;
* `plain_of_mem_encode` : the characters are letters, digits, `+`, `/` and `=`;
* `encode_ends` : the padding stands at the end;
* `decode_encode` : the decoder gives the bytes and a zero for each padding character;
* `packed_encode` : the values of the characters before the padding, packed again, are the bytes.
-/

namespace Base64

/-- The character of a value below 64. -/
def char (v : ℕ) : UInt8 :=
  if v < 26 then .ofNat (65 + v) else if v < 52 then .ofNat (97 + (v - 26))
  else if v < 62 then .ofNat (48 + (v - 52)) else if v = 62 then 43 else 47

/-- The padding character `=`. -/
def pad : UInt8 := 61

def encode : List UInt8 → List UInt8
  | a :: b :: c :: rest => char (a.toNat / 4) :: char (a.toNat % 4 * 16 + b.toNat / 16) ::
      char (b.toNat % 16 * 4 + c.toNat / 64) :: char (c.toNat % 64) :: encode rest
  | [a, b] => [char (a.toNat / 4), char (a.toNat % 4 * 16 + b.toNat / 16), char (b.toNat % 16 * 4), pad]
  | [a] => [char (a.toNat / 4), char (a.toNat % 4 * 16), pad, pad]
  | [] => []

/-- The value of a character. -/
def value (c : UInt8) : Option ℕ :=
  if 65 ≤ c.toNat ∧ c.toNat ≤ 90 then some (c.toNat - 65)
  else if 97 ≤ c.toNat ∧ c.toNat ≤ 122 then some (c.toNat - 97 + 26)
  else if 48 ≤ c.toNat ∧ c.toNat ≤ 57 then some (c.toNat - 48 + 52)
  else if c = 43 then some 62 else if c = 47 then some 63 else if c = pad then some 0 else none

def decode : List UInt8 → Option (List UInt8)
  | c₀ :: c₁ :: c₂ :: c₃ :: rest => do
      let v₀ ← value c₀
      let v₁ ← value c₁
      let v₂ ← value c₂
      let v₃ ← value c₃
      let out ← decode rest
      return .ofNat (v₀ * 4 + v₁ / 16) :: .ofNat (v₁ % 16 * 16 + v₂ / 4) :: .ofNat (v₂ % 4 * 64 + v₃) :: out
  | [] => some []
  | _ => none

/-- The number of padding characters. -/
def padding (d : List UInt8) : ℕ := (3 - d.length % 3) % 3

/-! ## Encodings -/

theorem length_encode (d : List UInt8) : (encode d).length = 4 * ((d.length + 2) / 3) := by
  induction d using encode.induct with
  | case1 a b c rest ih =>
      simp only [encode, List.length_cons, ih]
      omega
  | case2 => simp only [encode, List.length_cons, List.length_nil]
  | case3 => simp only [encode, List.length_cons, List.length_nil]
  | case4 => rfl

theorem length_add_padding (d : List UInt8) : d.length + padding d = 3 * ((d.length + 2) / 3) := by
  unfold padding
  omega

/-- Whole groups are encoded on their own. -/
theorem encode_append {d : List UInt8} (h : 3 ∣ d.length) (rest : List UInt8) :
    encode (d ++ rest) = encode d ++ encode rest := by
  induction d using encode.induct with
  | case1 a b c d ih =>
      have hd : 3 ∣ d.length := by
        simp only [List.length_cons] at h
        omega
      simp only [List.cons_append, encode, ih hd]
  | case2 => exact absurd h (by simp)
  | case3 => exact absurd h (by simp)
  | case4 => rfl

/-- A letter, a digit, `+` or `/`. -/
def IsPlain (c : UInt8) : Prop :=
  (65 ≤ c.toNat ∧ c.toNat ≤ 90) ∨ (97 ≤ c.toNat ∧ c.toNat ≤ 122) ∨ (48 ≤ c.toNat ∧ c.toNat ≤ 57) ∨
    c.toNat = 43 ∨ c.toNat = 47

theorem isPlain_char {v : ℕ} (h : v < 64) : IsPlain (char v) := by
  revert v
  unfold IsPlain
  decide

theorem plain_of_mem_encode {d : List UInt8} {c : UInt8} (h : c ∈ encode d) : IsPlain c ∨ c = pad := by
  induction d using encode.induct with
  | case1 x y z rest ih =>
      have hx := x.toNat_lt
      have hy := y.toNat_lt
      have hz := z.toNat_lt
      simp only [encode, List.mem_cons] at h
      rcases h with rfl | rfl | rfl | rfl | h
      · exact Or.inl (isPlain_char (by omega))
      · exact Or.inl (isPlain_char (by omega))
      · exact Or.inl (isPlain_char (by omega))
      · exact Or.inl (isPlain_char (by omega))
      · exact ih h
  | case2 x y =>
      have hx := x.toNat_lt
      have hy := y.toNat_lt
      simp only [encode, List.mem_cons, List.not_mem_nil, or_false] at h
      rcases h with rfl | rfl | rfl | rfl
      · exact Or.inl (isPlain_char (by omega))
      · exact Or.inl (isPlain_char (by omega))
      · exact Or.inl (isPlain_char (by omega))
      · exact Or.inr rfl
  | case3 x =>
      have hx := x.toNat_lt
      simp only [encode, List.mem_cons, List.not_mem_nil, or_false] at h
      rcases h with rfl | rfl | rfl | rfl
      · exact Or.inl (isPlain_char (by omega))
      · exact Or.inl (isPlain_char (by omega))
      · exact Or.inr rfl
      · exact Or.inr rfl
  | case4 => cases h

theorem char_ne_pad {v : ℕ} (h : v < 64) : char v ≠ pad := by
  revert v
  decide

/-- The last two characters tell the padding. -/
theorem encode_ends {d : List UInt8} (h : d ≠ []) : ∃ front c₂ c₃, encode d = front ++ [c₂, c₃] ∧
    (if c₃ = pad then 1 else 0) + (if c₂ = pad then 1 else 0) = padding d := by
  induction d using encode.induct with
  | case1 a b c rest ih =>
      have hb := b.toNat_lt
      have hc := c.toNat_lt
      cases rest with
      | nil =>
          refine ⟨[_, _], _, _, rfl, ?_⟩
          rw [if_neg (char_ne_pad (by omega)), if_neg (char_ne_pad (by omega))]
          simp [padding]
      | cons x rest =>
          obtain ⟨front, c₂, c₃, hencode, hcount⟩ := ih (List.cons_ne_nil _ _)
          refine ⟨_ :: _ :: _ :: _ :: front, c₂, c₃, by rw [encode, hencode]; rfl, ?_⟩
          rw [hcount]
          simp only [padding, List.length_cons]
          omega
  | case2 a b =>
      have hb := b.toNat_lt
      refine ⟨[_, _], _, _, rfl, ?_⟩
      rw [if_pos rfl, if_neg (char_ne_pad (by omega))]
      rfl
  | case3 a => exact ⟨[_, _], _, _, rfl, rfl⟩
  | case4 => exact absurd rfl h

/-! ## Decoding -/

theorem value_char {v : ℕ} (h : v < 64) : value (char v) = some v := by
  revert v
  decide

theorem value_pad : value pad = some 0 := rfl

theorem ofNat_eq {n : ℕ} {a : UInt8} (h : n = a.toNat) : UInt8.ofNat n = a := by
  rw [h, UInt8.ofNat_toNat]

/-- **The decoder inverts the encoder**, with a zero for each padding character. -/
theorem decode_encode (d : List UInt8) : decode (encode d) = some (d ++ List.replicate (padding d) 0) := by
  induction d using encode.induct with
  | case1 a b c rest ih =>
      have ha := a.toNat_lt
      have hb := b.toNat_lt
      have hc := c.toNat_lt
      have hpad : padding (a :: b :: c :: rest) = padding rest := by
        simp only [padding, List.length_cons]
        omega
      rw [encode, decode, value_char (by omega), value_char (by omega), value_char (by omega),
        value_char (by omega), ih, hpad]
      simp only [Option.bind_eq_bind, Option.bind_some, Option.pure_def]
      rw [ofNat_eq (a := a) (by omega), ofNat_eq (a := b) (by omega), ofNat_eq (a := c) (by omega)]
      rfl
  | case2 a b =>
      have ha := a.toNat_lt
      have hb := b.toNat_lt
      rw [encode, decode, value_char (by omega), value_char (by omega), value_char (by omega), value_pad, decode]
      simp only [Option.bind_eq_bind, Option.bind_some, Option.pure_def]
      rw [ofNat_eq (a := a) (by omega), ofNat_eq (a := b) (by omega), ofNat_eq (a := 0) (by
        rw [show (0 : UInt8).toNat = 0 from rfl]; omega)]
      rfl
  | case3 a =>
      have ha := a.toNat_lt
      rw [encode, decode, value_char (by omega), value_char (by omega), value_pad, decode]
      simp only [Option.bind_eq_bind, Option.bind_some, Option.pure_def]
      rw [ofNat_eq (a := a) (by omega), ofNat_eq (a := 0) (by
        rw [show (0 : UInt8).toNat = 0 from rfl]; omega)]
      rfl
  | case4 => rfl

/-! ## Packing -/

/-- Whole bytes from values of six bits. -/
def packed : List ℕ → List UInt8
  | v₀ :: v₁ :: v₂ :: v₃ :: rest =>
      .ofNat (v₀ * 4 + v₁ / 16) :: .ofNat (v₁ % 16 * 16 + v₂ / 4) :: .ofNat (v₂ % 4 * 64 + v₃) :: packed rest
  | [v₀, v₁, v₂] => [.ofNat (v₀ * 4 + v₁ / 16), .ofNat (v₁ % 16 * 16 + v₂ / 4)]
  | [v₀, v₁] => [.ofNat (v₀ * 4 + v₁ / 16)]
  | _ => []

/-- The value of a character that is no padding. -/
def plainValue (c : UInt8) : Option ℕ := if c = pad then none else value c

theorem plainValue_char {v : ℕ} (h : v < 64) : plainValue (char v) = some v := by
  rw [plainValue, if_neg (char_ne_pad h), value_char h]

/-- The characters before the padding. -/
def unpadded (cs : List UInt8) : List UInt8 := cs.takeWhile (· ≠ pad)

theorem unpadded_char {v : ℕ} (h : v < 64) (cs : List UInt8) : unpadded (char v :: cs) = char v :: unpadded cs :=
  List.takeWhile_cons_of_pos (decide_eq_true (char_ne_pad h))

theorem unpadded_pad (cs : List UInt8) : unpadded (pad :: cs) = [] := rfl

theorem packed_encode (d : List UInt8) : packed ((unpadded (encode d)).filterMap plainValue) = d := by
  induction d using encode.induct with
  | case1 a b c rest ih =>
      have ha := a.toNat_lt
      have hb := b.toNat_lt
      have hc := c.toNat_lt
      rw [encode, unpadded_char (by omega), unpadded_char (by omega), unpadded_char (by omega),
        unpadded_char (by omega), List.filterMap_cons_some (plainValue_char (by omega)),
        List.filterMap_cons_some (plainValue_char (by omega)), List.filterMap_cons_some (plainValue_char (by omega)),
        List.filterMap_cons_some (plainValue_char (by omega)), packed, ih, @ofNat_eq _ a (by omega),
        @ofNat_eq _ b (by omega), @ofNat_eq _ c (by omega)]
  | case2 a b =>
      have ha := a.toNat_lt
      have hb := b.toNat_lt
      rw [encode, unpadded_char (by omega), unpadded_char (by omega), unpadded_char (by omega), unpadded_pad,
        List.filterMap_cons_some (plainValue_char (by omega)), List.filterMap_cons_some (plainValue_char (by omega)),
        List.filterMap_cons_some (plainValue_char (by omega)), List.filterMap_nil, packed, @ofNat_eq _ a (by omega),
        @ofNat_eq _ b (by omega)]
  | case3 a =>
      have ha := a.toNat_lt
      rw [encode, unpadded_char (by omega), unpadded_char (by omega), unpadded_pad,
        List.filterMap_cons_some (plainValue_char (by omega)), List.filterMap_cons_some (plainValue_char (by omega)),
        List.filterMap_nil, packed, @ofNat_eq _ a (by omega)]
  | case4 => rfl

end Base64
