import Mathlib.Algebra.Order.Ring.Int
import Mathlib.Data.Nat.Cast.Basic
import OpcuaLight.Lib.Base64

/-!
# Private keys in PEM

`pem_to_der` of `security_config.c` on the bytes of a buffer. What it reads outside a buffer is undefined: each
access is checked, and the result is `none` where one fails. `malloc` and `EVP_DecodeBlock` are parameters.
-/

namespace OpcuaLight.Runtime

open Base64 (encode padding pad)

/-- The bytes of an ASCII text. -/
def ascii (s : String) : List UInt8 := s.toList.map (fun c => .ofNat c.toNat)

/-! ## `security_config.c` -/

/-- `memcmp(&data[i], marker, n) == 0`, which may read all the bytes. -/
def matchesAt (data : List UInt8) (i : ℕ) (marker : List UInt8) : Option Bool :=
  if i + marker.length ≤ data.length then some ((data.drop i).take marker.length = marker) else none

/-- The rounds of the scan from `i` on: where the line after the first newline starts, and where the END marker
does. -/
def findBoundaries (data : List UInt8) : ℕ → ℕ → Option ℕ → Option (Option ℕ × Option ℕ)
  | 0, _, start => some (start, none)
  | rounds + 1, i, start => do
      let c ← data[i]?
      let start := if c = 10 && start.isNone then some (i + 1) else start
      if c = 45 && i + 8 ≤ data.length then
        if ← matchesAt data i (ascii "-----END") then return (start, some i)
      findBoundaries data rounds (i + 1) start

def notLineEnd (c : UInt8) : Bool := c ≠ 10 && c ≠ 13

/-- The loop that copies what is no line end to a buffer of `capacity` bytes. -/
def copyBody (data : List UInt8) (capacity : ℕ) : ℕ → ℕ → List UInt8 → Option (List UInt8)
  | 0, _, out => some out
  | rounds + 1, p, out => do
      let c ← data[p]?
      if notLineEnd c then
        if out.length < capacity then copyBody data capacity rounds (p + 1) (out ++ [c]) else none
      else copyBody data capacity rounds (p + 1) out

/-- The result and the buffer after the call. `allocates n` says whether an allocation of `n` bytes succeeds, and
`decodeBlock` what `EVP_DecodeBlock` returns for a buffer and a count, and the bytes it writes. -/
def pemToDer (allocates : ℕ → Bool) (decodeBlock : List UInt8 → ℤ → ℤ × List UInt8) (data : List UInt8) :
    Option (ℤ × List UInt8) := do
  -- `length - 1` of an empty buffer is the greatest `size_t`
  let rounds := if data.length = 0 then 2 ^ 64 - 1 else data.length - 1
  let (start, stop) ← findBoundaries data rounds 0 none
  match start, stop with
  | some start, some stop =>
      if stop ≤ start then return (-1, data)
      if !allocates (stop - start) then return (-1, data)
      let b64 ← copyBody data (stop - start) (stop - start) start []
      let decodedMax := b64.length / 4 * 3 + 3
      if !allocates decodedMax then return (-1, data)
      -- the count is an `int`
      let (rawLength, decoded) := decodeBlock b64 ((b64.length : ℤ).bmod (2 ^ 32))
      if decodedMax < decoded.length then none
      if rawLength ≤ 0 then return (-1, data)
      let last : ℤ := if 0 < b64.length && b64[b64.length - 1]? = some pad then 1 else 0
      let beforeLast : ℤ := if 1 < b64.length && b64[b64.length - 2]? = some pad then 1 else 0
      -- the length is a `size_t`
      return (0, decoded.take ((rawLength - (last + beforeLast)) % 2 ^ 64).toNat)
  | _, _ => return (-1, data)

/-! ## The encoding -/

inductive LineEnd where
  | lf
  | crlf
  deriving DecidableEq

def LineEnd.bytes : LineEnd → List UInt8
  | lf => [10]
  | crlf => [13, 10]

/-- The lines of a text that is broken at a width. -/
def breakLines (width : ℕ) (text : List UInt8) : List (List UInt8) :=
  if 0 < width ∧ text ≠ [] then text.take width :: breakLines width (text.drop width) else []
termination_by text.length
decreasing_by
  rename_i h
  have hpos := List.length_pos_of_ne_nil h.2
  rw [List.length_drop]
  omega

theorem flatten_breakLines {width : ℕ} (hwidth : 0 < width) (text : List UInt8) :
    (breakLines width text).flatten = text := by
  fun_induction breakLines width text with
  | case1 text _ ih => rw [List.flatten_cons, ih, List.take_append_drop]
  | case2 text h =>
      have hnil : text = [] := Decidable.byContradiction fun hne => h ⟨hwidth, hne⟩
      rw [hnil]
      rfl

/-- The PEM encoding of the lines under a label. -/
def pemEncoding (label : List UInt8) (lineEnd : LineEnd) (trailing : Bool) (lines : List (List UInt8)) :
    List UInt8 :=
  ascii "-----BEGIN " ++ label ++ ascii "-----" ++ lineEnd.bytes ++
    lines.flatMap (fun line => line ++ lineEnd.bytes) ++
    ascii "-----END " ++ label ++ ascii "-----" ++
    (if trailing then lineEnd.bytes else [])

/-- What is relied on of `EVP_DecodeBlock`: groups at the front of a buffer are decoded, three bytes from each
with zeros for the padding, and without a positive count nothing is. -/
structure DecodesBlocks (decodeBlock : List UInt8 → ℤ → ℤ × List UInt8) : Prop where
  groups : ∀ d rest, d ≠ [] → (encode d).length < 2 ^ 31 → decodeBlock (encode d ++ rest) (encode d).length =
    (((d.length + padding d : ℕ) : ℤ), d ++ List.replicate (padding d) 0)
  none : ∀ buffer n, n ≤ 0 → (decodeBlock buffer n).1 ≤ 0

/-! ## The scan -/

section Scan
variable {data pre seg post : List UInt8} {start : Option ℕ} {n i : ℕ} {c : UInt8}

/-- What follows is the END marker. -/
def AtMarker (data : List UInt8) (i : ℕ) : Prop :=
  i + 8 ≤ data.length ∧ (data.drop i).take 8 = ascii "-----END"

instance (data : List UInt8) (i : ℕ) : Decidable (AtMarker data i) := inferInstanceAs (Decidable (_ ∧ _))

/-- Where the first line after the newline starts, once a byte is read. -/
def startAfter (c : UInt8) (i : ℕ) (start : Option ℕ) : Option ℕ :=
  if c = 10 && start.isNone then some (i + 1) else start

theorem findBoundaries_succ (hget : data[i]? = some c) : findBoundaries data (n + 1) i start =
    if c = 45 ∧ AtMarker data i then some (startAfter c i start, some i)
    else findBoundaries data n (i + 1) (startAfter c i start) := by
  have hlen : (ascii "-----END").length = 8 := rfl
  rw [findBoundaries, hget]
  simp only [Option.bind_eq_bind, Option.bind_some, matchesAt, hlen, AtMarker, startAfter, Option.pure_def,
    Bool.and_eq_true, decide_eq_true_eq]
  by_cases hdash : c = 45 ∧ i + 8 ≤ data.length
  · rw [if_pos hdash, if_pos hdash.2, Option.bind_some]
    simp only [hdash, true_and, decide_eq_true_eq]
  · have hmarker : ¬ (c = 45 ∧ i + 8 ≤ data.length ∧ (data.drop i).take 8 = ascii "-----END") :=
      fun h => hdash ⟨h.1, h.2.1⟩
    simp only [if_neg hdash, if_neg hmarker]

theorem getElem?_middle : (pre ++ c :: post)[pre.length]? = some c := by simp

/-- A byte is passed at which no marker starts. -/
theorem findBoundaries_pass (hmarker : c = 45 → ¬ AtMarker (pre ++ c :: post) pre.length) :
    findBoundaries (pre ++ c :: post) (n + 1) pre.length start =
      findBoundaries (pre ++ [c] ++ post) n (pre ++ [c]).length (startAfter c pre.length start) := by
  rw [findBoundaries_succ getElem?_middle, if_neg fun h => hmarker h.1 h.2, List.append_assoc,
    List.singleton_append, List.length_append, List.length_singleton]

theorem startAfter_eq (h : start.isSome ∨ c ≠ 10) : startAfter c i start = start := by
  unfold startAfter
  rw [if_neg]
  rw [Bool.and_eq_true, decide_eq_true_eq, Option.isNone_iff_eq_none]
  rintro ⟨hc, hnone⟩
  rw [hnone] at h
  exact h.elim (fun h => by cases h) fun h => h hc

/-- Bytes are passed that are neither dashes nor newlines that are looked for. -/
theorem findBoundaries_skip (hseg : 45 ∉ seg) (hnewline : start.isSome ∨ 10 ∉ seg) :
    findBoundaries (pre ++ (seg ++ post)) (seg.length + n) pre.length start =
      findBoundaries (pre ++ seg ++ post) n (pre ++ seg).length start := by
  induction seg generalizing pre with
  | nil => simp
  | cons c seg ih =>
      rw [List.mem_cons, not_or] at hseg
      have hc : start.isSome ∨ c ≠ 10 := hnewline.imp_right fun h heq => h (heq ▸ List.mem_cons_self)
      have hrest : start.isSome ∨ 10 ∉ seg := hnewline.imp_right fun h hmem => h (List.mem_cons_of_mem c hmem)
      have hlen : (c :: seg).length + n = (seg.length + n) + 1 := by
        rw [List.length_cons]
        omega
      rw [hlen, List.cons_append, findBoundaries_pass fun h => absurd h.symm hseg.1, startAfter_eq hc,
        ih hseg.2 hrest]
      simp

/-- At most five dashes are passed that a byte follows which is no `E`. -/
theorem findBoundaries_dashes {k : ℕ} (hk : k ≤ 5) (hc : c ≠ 45 ∧ c ≠ 69) :
    findBoundaries (pre ++ (List.replicate k 45 ++ c :: post)) (k + n) pre.length start =
      findBoundaries (pre ++ List.replicate k 45 ++ c :: post) n (pre ++ List.replicate k 45).length start := by
  induction k generalizing pre with
  | zero => simp
  | succ k ih =>
      have hmarker : ¬ AtMarker (pre ++ 45 :: (List.replicate k 45 ++ c :: post)) pre.length := by
        rintro ⟨-, hmatch⟩
        rw [List.drop_left] at hmatch
        have hat : (ascii "-----END")[k + 1]? = some c := by
          rw [← hmatch, List.getElem?_take_of_lt (by omega), List.getElem?_cons_succ, List.getElem?_append_right
            (by rw [List.length_replicate])]
          simp
        have hvalues : ∀ j < 5, (ascii "-----END")[j + 1]? = some 45 ∨ (ascii "-----END")[j + 1]? = some 69 := by
          decide
        rcases hvalues k (by omega) with h | h
        · exact hc.1 (Option.some.inj (hat.symm.trans h))
        · exact hc.2 (Option.some.inj (hat.symm.trans h))
      have hlen : k + 1 + n = (k + n) + 1 := by omega
      rw [hlen, List.replicate_succ, List.cons_append, findBoundaries_pass fun _ => hmarker,
        startAfter_eq (Or.inr (by decide)), ih (by omega)]
      simp

theorem findBoundaries_newline : findBoundaries (pre ++ 10 :: post) (n + 1) pre.length none =
    findBoundaries (pre ++ [10] ++ post) n (pre ++ [10]).length (some (pre ++ [10]).length) := by
  rw [findBoundaries_pass fun h => absurd h (by decide)]
  simp [startAfter]

theorem findBoundaries_marker : findBoundaries (pre ++ (ascii "-----END" ++ post)) (n + 1) pre.length start =
    some (start, some pre.length) := by
  have hget : (pre ++ (ascii "-----END" ++ post))[pre.length]? = some 45 := getElem?_middle
  have hmarker : AtMarker (pre ++ (ascii "-----END" ++ post)) pre.length := by
    have hlen : (ascii "-----END").length = 8 := rfl
    refine ⟨by simp [hlen], ?_⟩
    rw [List.drop_left, ← hlen, List.take_left]
  rw [findBoundaries_succ hget, if_pos ⟨rfl, hmarker⟩, startAfter_eq (Or.inr (by decide))]

end Scan

/-! ## The encoding is scanned -/

/-- The bytes before the lines, and those after the END marker. -/
def header (label : List UInt8) (lineEnd : LineEnd) : List UInt8 :=
  ascii "-----BEGIN " ++ label ++ ascii "-----" ++ lineEnd.bytes

def body (lineEnd : LineEnd) (lines : List (List UInt8)) : List UInt8 :=
  lines.flatMap (fun line => line ++ lineEnd.bytes)

def footer (label : List UInt8) (lineEnd : LineEnd) (trailing : Bool) : List UInt8 :=
  ascii " " ++ label ++ ascii "-----" ++ (if trailing then lineEnd.bytes else [])

theorem pemEncoding_eq (label : List UInt8) (lineEnd : LineEnd) (trailing : Bool) (lines : List (List UInt8)) :
    pemEncoding label lineEnd trailing lines =
      header label lineEnd ++ (body lineEnd lines ++ (ascii "-----END" ++ footer label lineEnd trailing)) := by
  have hmarker : ascii "-----END " = ascii "-----END" ++ ascii " " := by decide
  simp [pemEncoding, header, body, footer, hmarker]

/-- After the dashes of the header its line ends, and with it the search for a newline. -/
theorem findBoundaries_lineEnd {pre post : List UInt8} {n : ℕ} (lineEnd : LineEnd) :
    findBoundaries (pre ++ (List.replicate 5 45 ++ (lineEnd.bytes ++ post))) (5 + (lineEnd.bytes.length + n))
        pre.length none =
      findBoundaries (pre ++ List.replicate 5 45 ++ lineEnd.bytes ++ post) n
        (pre ++ List.replicate 5 45 ++ lineEnd.bytes).length
        (some (pre ++ List.replicate 5 45 ++ lineEnd.bytes).length) := by
  cases lineEnd with
  | lf =>
      have hdashes := @findBoundaries_dashes pre post none (1 + n) 10 5 le_rfl (by decide)
      have hlen : (LineEnd.lf.bytes.length + n) = 1 + n := rfl
      rw [hlen]
      refine hdashes.trans ?_
      rw [Nat.add_comm 1 n, findBoundaries_newline]
      rfl
  | crlf =>
      have hdashes := @findBoundaries_dashes pre (10 :: post) none (1 + (1 + n)) 13 5 le_rfl (by decide)
      have hlen : (LineEnd.crlf.bytes.length + n) = 1 + (1 + n) := by
        change 2 + n = _
        omega
      rw [hlen]
      refine hdashes.trans ?_
      have hskip := @findBoundaries_skip (pre ++ List.replicate 5 45) [13] (10 :: post) none (1 + n) (by decide)
        (Or.inr (by decide))
      refine hskip.trans ?_
      rw [Nat.add_comm 1 n, findBoundaries_newline]
      simp [LineEnd.bytes]

theorem findBoundaries_encoding {label : List UInt8} (hlabel : 10 ∉ label ∧ 45 ∉ label) (lineEnd : LineEnd)
    {text post : List UInt8} (htext : 45 ∉ text) (n : ℕ) :
    findBoundaries (header label lineEnd ++ (text ++ (ascii "-----END" ++ post)))
        ((header label lineEnd).length + (text.length + (n + 1))) 0 none =
      some (some (header label lineEnd).length, some (header label lineEnd ++ text).length) := by
  have hbegin : ascii "-----BEGIN " = List.replicate 5 45 ++ 66 :: ascii "EGIN " := by decide
  have hdash : ascii "-----" = List.replicate 5 45 := by decide
  have hwords : 45 ∉ 66 :: (ascii "EGIN " ++ label) ∧ 10 ∉ 66 :: (ascii "EGIN " ++ label) := by
    have hegin : 45 ∉ 66 :: ascii "EGIN " ∧ 10 ∉ 66 :: ascii "EGIN " := by decide
    rw [← List.cons_append, List.mem_append, List.mem_append]
    exact ⟨not_or.mpr ⟨hegin.1, hlabel.2⟩, not_or.mpr ⟨hegin.2, hlabel.1⟩⟩
  have hheader : header label lineEnd = List.replicate 5 45 ++ (66 :: (ascii "EGIN " ++ label) ++
      (List.replicate 5 45 ++ lineEnd.bytes)) := by
    rw [header, hbegin, hdash]
    simp
  have hdata : header label lineEnd ++ (text ++ (ascii "-----END" ++ post)) =
      List.replicate 5 45 ++ 66 :: (ascii "EGIN " ++ label ++ (List.replicate 5 45 ++ (lineEnd.bytes ++
        (text ++ (ascii "-----END" ++ post))))) := by
    rw [hheader]
    simp
  have hrounds : (header label lineEnd).length + (text.length + (n + 1)) =
      5 + ((66 :: (ascii "EGIN " ++ label)).length + (5 + (lineEnd.bytes.length + (text.length + (n + 1))))) := by
    rw [hheader]
    simp only [List.length_append, List.length_replicate]
    omega
  rw [hdata, hrounds]
  -- one lemma for each stretch of the bytes
  refine (@findBoundaries_dashes [] _ none _ 66 5 le_rfl (by decide)).trans ?_
  refine (@findBoundaries_skip _ (66 :: (ascii "EGIN " ++ label)) _ none _ hwords.1 (Or.inr hwords.2)).trans ?_
  refine (findBoundaries_lineEnd lineEnd).trans ?_
  refine (findBoundaries_skip htext (Or.inl rfl)).trans ?_
  refine findBoundaries_marker.trans ?_
  rw [hheader]
  simp

/-! ## The body is copied -/

theorem copyBody_eq {pre seg post out : List UInt8} {capacity : ℕ} (h : out.length + seg.length ≤ capacity) :
    copyBody (pre ++ (seg ++ post)) capacity seg.length pre.length out =
      some (out ++ seg.filter notLineEnd) := by
  induction seg generalizing pre out with
  | nil => simp [copyBody]
  | cons c seg ih =>
      have hget : (pre ++ (c :: seg ++ post))[pre.length]? = some c := getElem?_middle
      rw [List.length_cons] at h
      rw [List.length_cons, copyBody, hget]
      simp only [Option.bind_eq_bind, Option.bind_some]
      have happend : pre ++ (c :: seg ++ post) = (pre ++ [c]) ++ (seg ++ post) := by simp
      have hlen : pre.length + 1 = (pre ++ [c]).length := by simp
      rw [happend, hlen]
      by_cases hc : notLineEnd c = true
      · rw [if_pos hc, if_pos (by omega), ih (by rw [List.length_append, List.length_singleton]; omega),
          List.filter_cons_of_pos hc]
        simp
      · rw [if_neg hc, ih (by omega), List.filter_cons_of_neg hc]

theorem filter_body {lineEnd : LineEnd} {lines : List (List UInt8)}
    (h : ∀ c ∈ lines.flatten, c ≠ 10 ∧ c ≠ 13) :
    (body lineEnd lines).filter notLineEnd = lines.flatten := by
  induction lines with
  | nil => rfl
  | cons line lines ih =>
      rw [List.flatten_cons] at h
      have hline : line.filter notLineEnd = line :=
        List.filter_eq_self.mpr fun c hc => by simpa [notLineEnd] using h c (List.mem_append_left _ hc)
      have hend : lineEnd.bytes.filter notLineEnd = [] := by cases lineEnd <;> decide
      have hrest := ih fun c hc => h c (List.mem_append_right _ hc)
      rw [body, List.flatMap_cons, List.filter_append, List.filter_append, hline, hend, List.append_nil,
        List.flatten_cons]
      exact congrArg _ hrest

/-! ## The call -/

section Call
variable {allocates : ℕ → Bool} {decodeBlock : List UInt8 → ℤ → ℤ × List UInt8} {d label : List UInt8}
  {lineEnd : LineEnd} {trailing : Bool} {lines : List (List UInt8)}

/-- The characters of an encoding are no dashes and no line ends. -/
theorem encode_chars {c : UInt8} (h : c ∈ encode d) : c ≠ 45 ∧ c ≠ 10 ∧ c ≠ 13 := by
  refine ⟨?_, ?_, ?_⟩ <;>
  · rintro rfl
    rcases Base64.plain_of_mem_encode h with hplain | hpad
    · revert hplain
      unfold Base64.IsPlain
      decide
    · exact absurd hpad (by decide)

/-- The padding is counted at the end of the encoding. -/
theorem padding_eq (hd : d ≠ []) :
    (if (0 < (encode d).length && (encode d)[(encode d).length - 1]? = some pad) = true then (1 : ℤ) else 0) +
      (if (1 < (encode d).length && (encode d)[(encode d).length - 2]? = some pad) = true then 1 else 0) =
    padding d := by
  obtain ⟨front, c₂, c₃, hencode, hcount⟩ := Base64.encode_ends hd
  rw [← hcount, hencode, Nat.cast_add, Nat.cast_ite, Nat.cast_ite]
  simp

/-- What the call does after the copy. -/
def afterCopy (decodeBlock : List UInt8 → ℤ → ℤ × List UInt8) (data d : List UInt8) : Option (ℤ × List UInt8) :=
  let result := decodeBlock (encode d) (((encode d).length : ℤ).bmod (2 ^ 32))
  if (encode d).length / 4 * 3 + 3 < result.2.length then none
  else if result.1 ≤ 0 then some (-1, data)
  else some (0, result.2.take ((result.1 - (padding d : ℕ)) % 2 ^ 64).toNat)

theorem pemToDer_encoding (hd : d ≠ []) (hlabel : 10 ∉ label ∧ 45 ∉ label)
    (hlines : lines.flatten = encode d) :
    pemToDer allocates decodeBlock (pemEncoding label lineEnd trailing lines) =
      if allocates (body lineEnd lines).length && allocates ((encode d).length / 4 * 3 + 3) then
        afterCopy decodeBlock (pemEncoding label lineEnd trailing lines) d
      else some (-1, pemEncoding label lineEnd trailing lines) := by
  have hflat : ∀ c ∈ lines.flatten, c ≠ 45 ∧ c ≠ 10 ∧ c ≠ 13 := fun c hc =>
    encode_chars (hlines ▸ hc)
  have hcopied : (body lineEnd lines).filter notLineEnd = encode d :=
    (filter_body fun c hc => (hflat c hc).2).trans hlines
  have hdash : 45 ∉ body lineEnd lines := by
    intro hmem
    obtain ⟨line, hline, hc⟩ := List.mem_flatMap.mp hmem
    rcases List.mem_append.mp hc with hc | hc
    · exact (hflat 45 (List.mem_flatten.mpr ⟨line, hline, hc⟩)).1 rfl
    · revert hc
      cases lineEnd <;> decide
  have hbody : 0 < (body lineEnd lines).length := by
    have hle := List.length_filter_le notLineEnd (body lineEnd lines)
    have hpos := List.length_pos_of_ne_nil hd
    rw [hcopied, Base64.length_encode] at hle
    omega
  rw [pemEncoding_eq]
  generalize hfooter : footer label lineEnd trailing = rest
  have hlen : (header label lineEnd ++ (body lineEnd lines ++ (ascii "-----END" ++ rest))).length =
      (header label lineEnd).length + ((body lineEnd lines).length + (rest.length + 7 + 1)) := by
    have hmarker : (ascii "-----END").length = 8 := rfl
    simp only [List.length_append, hmarker]
    omega
  have hrounds : (header label lineEnd).length + ((body lineEnd lines).length + (rest.length + 7 + 1)) - 1 =
      (header label lineEnd).length + ((body lineEnd lines).length + (rest.length + 6 + 1)) := by omega
  have hsize : (header label lineEnd ++ body lineEnd lines).length - (header label lineEnd).length =
      (body lineEnd lines).length := by
    rw [List.length_append]
    omega
  have hafter : ¬ (header label lineEnd ++ body lineEnd lines).length ≤ (header label lineEnd).length := by
    rw [List.length_append]
    omega
  have hcopy : copyBody (header label lineEnd ++ (body lineEnd lines ++ (ascii "-----END" ++ rest)))
      (body lineEnd lines).length (body lineEnd lines).length (header label lineEnd).length [] =
        some (encode d) := by
    rw [copyBody_eq (by simp), List.nil_append, hcopied]
  rw [pemToDer, hlen, if_neg (by omega), hrounds, findBoundaries_encoding hlabel lineEnd hdash]
  simp only [Option.bind_eq_bind, Option.bind_some, if_neg hafter, hsize, hcopy, afterCopy, padding_eq hd,
    Option.pure_def, Option.bind_none]
  cases allocates (body lineEnd lines).length with
  | false => rfl
  | true => cases allocates ((encode d).length / 4 * 3 + 3) <;> rfl

/-- Where the count fits, the bytes are decoded. -/
theorem afterCopy_fits (hdecode : DecodesBlocks decodeBlock) (hd : d ≠ []) {data : List UInt8}
    (hfits : (encode d).length < 2 ^ 31) : afterCopy decodeBlock data d = some (0, d) := by
  have hcount : ((encode d).length : ℤ).bmod (2 ^ 32) = (encode d).length := by
    rw [Int.bmod_def]
    omega
  have hgroups := hdecode.groups d [] hd hfits
  rw [List.append_nil] at hgroups
  have hpos := List.length_pos_of_ne_nil hd
  have hlen := Base64.length_add_padding d
  rw [afterCopy, hcount, hgroups, Base64.length_encode]
  simp only
  rw [if_neg (by rw [List.length_append, List.length_replicate]; omega), if_neg (by omega)]
  have htake : (((d.length + padding d : ℕ) - (padding d : ℕ) : ℤ) % 2 ^ 64).toNat = d.length := by
    rw [Base64.length_encode] at hfits
    omega
  rw [htake, List.take_left]

/-- Where it does not, nothing is decoded, or less. -/
theorem afterCopy_wraps (hdecode : DecodesBlocks decodeBlock) {data : List UInt8}
    (hlong : 2 ^ 31 ≤ (encode d).length) : afterCopy decodeBlock data d ≠ some (0, d) := by
  have hlen := Base64.length_encode d
  rw [afterCopy]
  rcases le_or_gt (((encode d).length : ℤ).bmod (2 ^ 32)) 0 with hn | hn
  · have hnone := hdecode.none (encode d) _ hn
    simp only [if_pos hnone]
    split_ifs
    · exact fun h => by cases h
    · exact fun h => by cases h
  · -- the count is that of a front of whole groups
    obtain ⟨m, hm⟩ : ∃ m : ℕ, ((encode d).length : ℤ).bmod (2 ^ 32) = (4 * m : ℕ) := by
      refine ⟨(((encode d).length : ℤ).bmod (2 ^ 32)).toNat / 4, ?_⟩
      rw [Int.bmod_def] at hn ⊢
      omega
    have hsmall : 4 * m < 2 ^ 31 ∧ 0 < m := by
      rw [Int.bmod_def] at hn hm
      omega
    have hfront : (d.take (3 * m)).length = 3 * m := by
      rw [List.length_take]
      omega
    have hcount : (encode (d.take (3 * m))).length = 4 * m := by
      rw [Base64.length_encode, hfront]
      omega
    have hwhole : encode d = encode (d.take (3 * m)) ++ encode (d.drop (3 * m)) := by
      rw [← Base64.encode_append (Dvd.intro m hfront.symm), List.take_append_drop]
    have hpadding : padding (d.take (3 * m)) = 0 := by
      unfold padding
      omega
    have hgroups := hdecode.groups (d.take (3 * m)) (encode (d.drop (3 * m)))
      (List.ne_nil_of_length_pos (by omega)) (by omega)
    rw [← hwhole, hcount, hpadding, List.replicate_zero, List.append_nil, Nat.add_zero, ← hm] at hgroups
    rw [hgroups]
    intro h
    have htaken : ∀ k, (d.take (3 * m)).take k ≠ d := by
      intro k heq
      have hshort := congrArg List.length heq
      rw [List.length_take, hfront] at hshort
      omega
    simp only at h
    split_ifs at h
    · have hsign : (-1 : ℤ) = 0 := congrArg Prod.fst (Option.some.inj h)
      exact absurd hsign (by decide)
    · exact htaken _ (congrArg Prod.snd (Option.some.inj h))

end Call

/-- **Decoding inverts the encoding** exactly when both buffers are allocated and an `int` holds the number of
base64 characters. -/
theorem pemToDer_encoding_iff (allocates : ℕ → Bool) {decodeBlock : List UInt8 → ℤ → ℤ × List UInt8}
    (hdecode : DecodesBlocks decodeBlock) {d label : List UInt8} (hd : d ≠ []) (hlabel : 10 ∉ label ∧ 45 ∉ label)
    {width : ℕ} (hwidth : 0 < width) (lineEnd : LineEnd) (trailing : Bool) :
    pemToDer allocates decodeBlock (pemEncoding label lineEnd trailing (breakLines width (encode d))) =
        some (0, d) ↔
      allocates (body lineEnd (breakLines width (encode d))).length = true ∧
        allocates ((encode d).length / 4 * 3 + 3) = true ∧ (encode d).length < 2 ^ 31 := by
  rw [pemToDer_encoding hd hlabel (flatten_breakLines hwidth _), ← and_assoc, ← Bool.and_eq_true]
  split_ifs with hallocates
  · constructor
    · intro h
      exact ⟨hallocates, Nat.lt_of_not_le fun hlong => afterCopy_wraps hdecode hlong h⟩
    · rintro ⟨-, hfits⟩
      exact afterCopy_fits hdecode hd hfits
  · constructor
    · intro h
      have hsign : (-1 : ℤ) = 0 := congrArg Prod.fst (Option.some.inj h)
      exact absurd hsign (by decide)
    · rintro ⟨h, -⟩
      exact absurd h hallocates

/-- A decoder of the groups at the front. -/
def decodeFront (buffer : List UInt8) (n : ℤ) : ℤ × List UInt8 :=
  match Base64.decode (buffer.take n.toNat) with
  | some out => (out.length, out)
  | none => (-1, [])

theorem decodesBlocks_decodeFront : DecodesBlocks decodeFront where
  groups d rest _ _ := by
    rw [decodeFront, Int.toNat_natCast, List.take_left, Base64.decode_encode]
    simp
  none buffer n h := by
    rw [decodeFront, Int.toNat_of_nonpos h, List.take_zero]
    rfl

theorem pemToDer_four :
    pemToDer (fun _ => true) decodeFront
        (pemEncoding (ascii "PRIVATE KEY") .crlf true (breakLines 5 (encode [1, 2, 3, 250]))) =
      some (0, [1, 2, 3, 250]) :=
  (pemToDer_encoding_iff (fun _ => true) decodesBlocks_decodeFront (by decide) (by decide) (by decide) .crlf
    true).mpr ⟨rfl, rfl, by decide⟩

/-- Three times 2^29 bytes, whose base64 text has 2^31 characters. -/
def longKey : List UInt8 := List.replicate (3 * 2 ^ 29) 0

/-- As an `int` that number is negative. -/
theorem pemToDer_longKey : longKey ≠ [] ∧
    pemToDer (fun _ => true) decodeFront
      (pemEncoding (ascii "PRIVATE KEY") .lf true (breakLines 64 (encode longKey))) ≠ some (0, longKey) := by
  have hlength : longKey.length = 3 * 2 ^ 29 := List.length_replicate
  generalize longKey = d at hlength ⊢
  have hd : d ≠ [] := List.ne_nil_of_length_pos (by omega)
  refine ⟨hd, ?_⟩
  rw [pemToDer_encoding hd (by decide) (flatten_breakLines (by decide) _), if_pos (Bool.and_self true)]
  refine afterCopy_wraps decodesBlocks_decodeFront ?_
  rw [Base64.length_encode]
  omega

end OpcuaLight.Runtime
