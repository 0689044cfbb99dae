import Mathlib.Data.List.Basic

/-!
# UTF-8

The bytes of a text, and the text of the bytes if they are well formed. A byte below 128 stands for the
character with its number and for nothing else (`mem_encode_ascii`), so that a text may be cut at such
characters before it is decoded.
-/

namespace Utf8

def encode (cs : List Char) : List UInt8 := cs.flatMap String.utf8EncodeChar

def decode (bytes : List UInt8) : Option (List Char) := bytes.toByteArray.utf8Decode?.map Array.toList

/-- **A text is read from its bytes.** -/
@[simp] theorem decode_encode (cs : List Char) : decode (encode cs) = some cs := by
  have hdecode : (encode cs).toByteArray.utf8Decode? = some cs.toArray := List.utf8Decode?_utf8Encode
  rw [decode, hdecode]
  rfl

@[simp] theorem encode_nil : encode [] = [] := rfl

@[simp] theorem encode_append (cs ds : List Char) : encode (cs ++ ds) = encode cs ++ encode ds :=
  List.flatMap_append

theorem encode_eq_nil_iff {cs : List Char} : encode cs = [] ↔ cs = [] := by
  constructor
  · intro h
    have hdecode := decode_encode cs
    rw [h, ← encode_nil, decode_encode] at hdecode
    exact (Option.some.inj hdecode).symm
  · rintro rfl
    rfl

/-- The bytes of a character that is not ASCII are all from 128 on. -/
theorem le_of_mem_encodeChar {c : Char} (hc : 128 ≤ c.toNat) {b : UInt8} (hb : b ∈ String.utf8EncodeChar c) :
    128 ≤ b.toNat := by
  have hvalid : c.val.toNat < 0x110000 := by
    have hc' := c.valid
    simp only [UInt32.isValidChar, Nat.isValidChar] at hc'
    omega
  have hval : c.toNat = c.val.toNat := rfl
  have hmod : ∀ n k, n < 128 → 128 ≤ k → k ≤ 0xf0 → n + k < 256 →
      128 ≤ (UInt8.ofNat (n + k)).toNat := by
    intro n k hn hk hk' hlt
    rw [UInt8.toNat_ofNat', Nat.mod_eq_of_lt hlt]
    omega
  unfold String.utf8EncodeChar at hb
  simp only at hb
  split_ifs at hb with h1 h2 h3
  · omega
  all_goals
    simp only [List.mem_cons, List.not_mem_nil, or_false] at hb
  · rcases hb with rfl | rfl <;> apply hmod <;> omega
  · rcases hb with rfl | rfl | rfl <;> apply hmod <;> omega
  · rcases hb with rfl | rfl | rfl | rfl <;> apply hmod <;> omega

/-- An ASCII character is one byte. -/
theorem encodeChar_ascii {c : Char} (hc : c.toNat < 128) :
    String.utf8EncodeChar c = [UInt8.ofNat c.toNat] := by
  have hle : c.val.toNat ≤ 0x7f := Nat.le_of_lt_succ hc
  unfold String.utf8EncodeChar
  simp only
  rw [if_pos hle]
  rfl

/-- ASCII characters are as many bytes. -/
theorem length_encode_ascii {cs : List Char} (h : ∀ c ∈ cs, c.toNat < 128) : (encode cs).length = cs.length := by
  induction cs with
  | nil => rfl
  | cons c cs ih =>
      obtain ⟨hc, hrest⟩ := List.forall_mem_cons.mp h
      rw [encode, List.flatMap_cons, List.length_append, encodeChar_ascii hc, ← encode, ih hrest,
        List.length_singleton, List.length_cons, Nat.add_comm]

theorem mem_encodeChar_ascii {b : UInt8} (hb : b.toNat < 128) {c : Char} :
    b ∈ String.utf8EncodeChar c ↔ c.toNat = b.toNat := by
  by_cases hc : c.toNat < 128
  · rw [encodeChar_ascii hc, List.mem_singleton, ← UInt8.toNat_inj, UInt8.toNat_ofNat',
      Nat.mod_eq_of_lt (by omega)]
    exact eq_comm
  · have hge := Nat.not_lt.mp hc
    constructor
    · intro hmem
      have hle := le_of_mem_encodeChar hge hmem
      omega
    · intro heq
      omega

/-- **A byte below 128 is the character with its number.** -/
theorem mem_encode_ascii {b : UInt8} (hb : b.toNat < 128) {cs : List Char} :
    b ∈ encode cs ↔ ∃ c ∈ cs, c.toNat = b.toNat := by
  simp only [encode, List.mem_flatMap, mem_encodeChar_ascii hb]

end Utf8
