import OpcuaLight.Lib.Lines
import OpcuaLight.Runtime.Ipc

/-!
# Lines on stdin

The POSIX `ipc_process`: a read into `stdin_buffer`, the loop that cuts the lines at their newlines, and the move
of what is left over. A write outside the buffer has no result (`CharArray.write`). The function reads as
a bounded reader with one byte less than the buffer (`ipcProcess_spec`), so that what it makes of a
stream does not depend on how the stream comes.
-/

namespace OpcuaLight.Runtime

open Lines (feed keep lines readPiece residue rest seen)

/-! ## Arrays of characters -/

/-- A `char` array. -/
structure CharArray (size : Nat) where
  bytes : List UInt8
  length_bytes : bytes.length = size

namespace CharArray

variable {size : Nat}

/-- Bytes written at an offset; there is no result if they do not fit. -/
def write (a : CharArray size) (offset : Nat) (bytes : List UInt8) : Option (CharArray size) :=
  if h : offset + bytes.length ≤ size then
    some ⟨a.bytes.take offset ++ bytes ++ a.bytes.drop (offset + bytes.length), by
      have hlen := a.length_bytes
      rw [List.length_append, List.length_append, List.length_take, List.length_drop]
      omega⟩
  else none

/-- The string at an offset, which a NUL ends. -/
def string (a : CharArray size) (offset : Nat) : List UInt8 := (a.bytes.drop offset).takeWhile (· ≠ 0)

/-- Where `strchr` finds the character in the string at the offset. -/
def strchr (a : CharArray size) (offset : Nat) (c : UInt8) : Option Nat :=
  if c ∈ a.string offset then some (offset + (a.string offset).idxOf c) else none

theorem strchr_bounds {a : CharArray size} {offset i : Nat} {c : UInt8} (h : a.strchr offset c = some i) :
    offset ≤ i ∧ i < size := by
  unfold strchr at h
  split_ifs at h with hmem
  cases h
  have hidx := List.idxOf_lt_length_of_mem hmem
  have hle : (a.string offset).length ≤ (a.bytes.drop offset).length :=
    (List.takeWhile_prefix _).length_le
  rw [List.length_drop, a.length_bytes] at hle
  omega

end CharArray

/-! ## `ipc_processor.c` -/

def newline : UInt8 := 10

/-- `sizeof(ctx->stdin_buffer)`. -/
def stdinBufferSize : Nat := 65536

/-- `stdin_buffer` and `stdin_buffer_len`. -/
structure StdinBuffer where
  chars : CharArray stdinBufferSize
  len : Nat

/-- The loop over the complete lines: the array, the start of what is left over, and the strings passed to
`apply_value_update`. -/
def processLines {size : Nat} (a : CharArray size) (lineStart : Nat) :
    Option (CharArray size × Nat × List (List UInt8)) :=
  match h : a.strchr lineStart newline with
  | none => some (a, lineStart, [])
  | some i =>
      (a.write i [0]).bind fun a =>
        (processLines a (i + 1)).map fun (a', start, applied) =>
          (a', start, (if lineStart < i then [a.string lineStart] else []) ++ applied)
termination_by size - lineStart
decreasing_by
  have hbounds := CharArray.strchr_bounds h
  omega

/-- `memmove` of the partial line, if there is one and it is not at the front. -/
def moveToFront (a : CharArray stdinBufferSize) (lineStart remaining : Nat) :
    Option (CharArray stdinBufferSize) :=
  if remaining > 0 ∧ lineStart ≠ 0 then a.write 0 ((a.bytes.drop lineStart).take remaining) else some a

/-- The end of a call: the partial line at the front, and the NUL behind it. -/
def keepRemaining (a : CharArray stdinBufferSize) (lineStart len : Nat) : Option StdinBuffer := do
  let remaining := len - lineStart
  let a ← moveToFront a lineStart remaining
  let a ← a.write remaining [0]
  return ⟨a, remaining⟩

/-- What follows a read after which the buffer is filled up to `len`: the strings passed to
`apply_value_update`, and the buffer. -/
def processBuffer (a : CharArray stdinBufferSize) (len : Nat) : Option (List (List UInt8) × StdinBuffer) := do
  let a ← a.write len [0]
  let (a, lineStart, applied) ← processLines a 0
  let b ← keepRemaining a lineStart len
  return (applied, b)

/-- Where the read goes: a full buffer is given up. -/
def StdinBuffer.start (b : StdinBuffer) : Nat := if stdinBufferSize - b.len - 1 = 0 then 0 else b.len

/-- How much the read may return. -/
def StdinBuffer.space (b : StdinBuffer) : Nat :=
  if stdinBufferSize - b.len - 1 = 0 then stdinBufferSize - 1 else stdinBufferSize - b.len - 1

/-- A call of `ipc_process` when `read` has `input` to read and returns `n` bytes of it, or as many as it
may: the strings passed to `apply_value_update`, the buffer, and the input left. -/
def ipcProcess (b : StdinBuffer) (input : List UInt8) (n : Nat) :
    Option (List (List UInt8) × StdinBuffer × List UInt8) := do
  let chunk := input.take (min n b.space)
  let a ← b.chars.write b.start chunk
  if chunk = [] then return ([], ⟨a, b.start⟩, input)
  let (applied, b) ← processBuffer a (b.start + chunk.length)
  return (applied, b, input.drop chunk.length)

/-- Successive calls, with the number of bytes that `read` returns in each. -/
def ipcRun (b : StdinBuffer) (input : List UInt8) : List Nat →
    Option (List (List UInt8) × StdinBuffer × List UInt8)
  | [] => some ([], b, input)
  | n :: ns => do
      let (applied, b, input) ← ipcProcess b input n
      let (applied', b, input) ← ipcRun b input ns
      return (applied ++ applied', b, input)

/-! ## One call -/

namespace CharArray

variable {size : Nat} {a : CharArray size} {before after : List UInt8}

theorem write_eq (a : CharArray size) (offset : Nat) (bytes : List UInt8) (h : offset + bytes.length ≤ size) :
    ∃ a', a.write offset bytes = some a' ∧
      a'.bytes = a.bytes.take offset ++ bytes ++ a.bytes.drop (offset + bytes.length) := by
  rw [write, dif_pos h]
  exact ⟨_, rfl, rfl⟩

/-- A byte written over the first byte of `after`. -/
theorem write_byte {x : UInt8} (c : UInt8) (h : a.bytes = before ++ x :: after) :
    ∃ a', a.write before.length [c] = some a' ∧ a'.bytes = before ++ c :: after := by
  have hlen := a.length_bytes
  rw [h, List.length_append, List.length_cons] at hlen
  obtain ⟨a', hwrite, hbytes⟩ := a.write_eq before.length [c]
    (by rw [List.length_singleton]; omega)
  refine ⟨a', hwrite, ?_⟩
  rw [hbytes, h, List.take_left, List.length_singleton, List.drop_append, List.drop_of_length_le (by omega)]
  simp

/-- The string at the end of `before`. -/
theorem string_eq {s : List UInt8} (h : a.bytes = before ++ s ++ 0 :: after) (hs : 0 ∉ s) :
    a.string before.length = s := by
  rw [string, h, List.append_assoc, List.drop_left, List.takeWhile_append_of_pos]
  · simp
  · intro x hx
    simp only [ne_eq, decide_not, Bool.not_eq_true', decide_eq_false_iff_not]
    rintro rfl
    exact hs hx

theorem strchr_none {s : List UInt8} (h : a.bytes = before ++ s ++ 0 :: after) (hs : 0 ∉ s) {c : UInt8}
    (hc : c ∉ s) : a.strchr before.length c = none := by
  rw [strchr, string_eq h hs, if_neg hc]

theorem strchr_some {line s : List UInt8} {c : UInt8}
    (h : a.bytes = before ++ (line ++ c :: s) ++ 0 :: after) (hs : 0 ∉ line ++ c :: s) (hc : c ∉ line) :
    a.strchr before.length c = some (before.length + line.length) := by
  rw [strchr, string_eq h hs, if_pos (by simp), List.idxOf_append_of_notMem hc, List.idxOf_cons_self,
    Nat.add_zero]

end CharArray

/-- The loop passes on the lines that are not empty, and stops at what is left over. -/
theorem processLines_spec {size : Nat} (k : Nat) :
    ∀ (a : CharArray size) (before s after : List UInt8), s.length ≤ k →
      a.bytes = before ++ s ++ 0 :: after → 0 ∉ s →
      ∃ a' before', processLines a before.length =
          some (a', before'.length, (lines newline s).filter (· ≠ [])) ∧
        a'.bytes = before' ++ rest newline s ++ 0 :: after := by
  induction k with
  | zero =>
      intro a before s after hk ha hs
      have hnil : s = [] := List.eq_nil_of_length_eq_zero (Nat.le_zero.mp hk)
      subst hnil
      refine ⟨a, before, ?_, ha⟩
      rw [processLines]
      split
      · rfl
      · next i hi =>
          rw [CharArray.strchr_none ha hs List.not_mem_nil] at hi
          cases hi
  | succ k ih =>
      intro a before s after hk ha hs
      rcases Lines.notMem_or_line newline s with hnl | ⟨line, tail, rfl, hnl⟩
      · obtain ⟨hlines, hrest⟩ := Lines.lines_of_notMem hnl
        rw [hlines, hrest]
        refine ⟨a, before, ?_, ha⟩
        rw [processLines]
        split
        · rfl
        · next i hi =>
            rw [CharArray.strchr_none ha hs hnl] at hi
            cases hi
      · -- the newline becomes the NUL that ends the line
        have hline : (0 : UInt8) ∉ line := fun h => hs (List.mem_append_left _ h)
        have htail : (0 : UInt8) ∉ tail :=
          fun h => hs (List.mem_append_right _ (List.mem_cons_of_mem _ h))
        obtain ⟨a₁, hwrite, ha₁⟩ : ∃ a', a.write (before ++ line).length [0] = some a' ∧
            a'.bytes = (before ++ line) ++ 0 :: (tail ++ 0 :: after) := by
          apply CharArray.write_byte 0 (x := newline)
          rw [ha]
          simp
        rw [List.length_append] at hwrite
        rw [List.length_append, List.length_cons] at hk
        obtain ⟨a', before', hloop, ha'⟩ := ih a₁ (before ++ line ++ [0]) tail after (by omega)
          (by rw [ha₁]; simp) htail
        rw [List.length_append, List.length_append, List.length_singleton] at hloop
        obtain ⟨hlines, hrest⟩ := Lines.lines_line tail hnl
        rw [hlines, hrest]
        refine ⟨a', before', ?_, ha'⟩
        rw [processLines]
        split
        · next hnone =>
            rw [CharArray.strchr_some ha hs hnl] at hnone
            cases hnone
        · next i hi =>
            rw [CharArray.strchr_some ha hs hnl] at hi
            cases hi
            rw [hwrite, Option.bind_some, hloop, Option.map_some]
            have hstring : a₁.string before.length = line := CharArray.string_eq ha₁ hline
            rw [hstring]
            cases line with
            | nil => simp
            | cons x line => simp

/-- The move, if there is one, brings the partial line to the front. -/
theorem moveToFront_spec {a : CharArray stdinBufferSize} {before tail after : List UInt8}
    (ha : a.bytes = before ++ tail ++ 0 :: after) :
    ∃ a', moveToFront a before.length tail.length = some a' ∧ a'.bytes.take tail.length = tail := by
  have hsize := a.length_bytes
  rw [ha, List.length_append, List.length_append, List.length_cons] at hsize
  have htake : (a.bytes.drop before.length).take tail.length = tail := by
    rw [ha, List.append_assoc, List.drop_left, List.take_left]
  unfold moveToFront
  split_ifs with hcase
  · obtain ⟨a', hwrite, hbytes⟩ := a.write_eq 0 tail (by omega)
    rw [htake]
    refine ⟨a', hwrite, ?_⟩
    rw [hbytes, List.take_zero, List.nil_append, List.take_left]
  · refine ⟨a, rfl, ?_⟩
    by_cases htail : tail = []
    · rw [htail]
      rfl
    · have hbefore : before = [] := by
        by_contra hne
        exact hcase ⟨List.length_pos_of_ne_nil htail, fun h0 => hne (List.eq_nil_of_length_eq_zero h0)⟩
      rw [hbefore] at htake
      exact htake

theorem keepRemaining_spec {a : CharArray stdinBufferSize} {before tail after : List UInt8}
    (ha : a.bytes = before ++ tail ++ 0 :: after) {len : Nat} (hlen : len = before.length + tail.length) :
    ∃ b, keepRemaining a before.length len = some b ∧ b.len = tail.length ∧
      b.chars.bytes.take tail.length = tail := by
  have hsize := a.length_bytes
  rw [ha, List.length_append, List.length_append, List.length_cons] at hsize
  have hremaining : len - before.length = tail.length := by omega
  obtain ⟨a₁, hmove, ha₁⟩ := moveToFront_spec ha
  obtain ⟨a₂, hwrite, hbytes⟩ := a₁.write_eq tail.length [0]
    (by rw [List.length_singleton]; omega)
  refine ⟨⟨a₂, tail.length⟩, ?_, rfl, ?_⟩
  · rw [keepRemaining, hremaining, hmove]
    simp only [Option.bind_eq_bind, Option.bind_some, hwrite]
    rfl
  · show a₂.bytes.take tail.length = tail
    rw [hbytes, ha₁, List.append_assoc, List.take_left]

/-- The buffer holds these bytes of an unfinished line, and there is room for the NUL. -/
structure Keeps (b : StdinBuffer) (held : List UInt8) : Prop where
  len : b.len = held.length
  fits : held.length ≤ stdinBufferSize - 1
  chars : b.chars.bytes.take held.length = held
  noNul : 0 ∉ held
  noNewline : newline ∉ held

theorem processBuffer_spec {a : CharArray stdinBufferSize} {s : List UInt8}
    (ha : a.bytes.take s.length = s) (hs : s.length ≤ stdinBufferSize - 1) (hnul : 0 ∉ s) :
    ∃ b, processBuffer a s.length = some ((lines newline s).filter (· ≠ []), b) ∧
      Keeps b (rest newline s) := by
  have hsize : stdinBufferSize = 65536 := rfl
  -- the byte behind the filled part becomes NUL
  obtain ⟨x, after, hafter⟩ : ∃ x after, a.bytes.drop s.length = x :: after := by
    apply List.exists_cons_of_length_pos
    rw [List.length_drop, a.length_bytes]
    omega
  have hbytes : a.bytes = s ++ x :: after := by
    rw [← hafter]
    conv_lhs => rw [← List.take_append_drop s.length a.bytes, ha]
  obtain ⟨a₁, hwrite, ha₁⟩ := CharArray.write_byte 0 hbytes
  obtain ⟨a₂, before, hloop, ha₂⟩ := processLines_spec s.length a₁ [] s after le_rfl ha₁ hnul
  have hlen : s.length = before.length + (rest newline s).length := by
    have hlen₁ := a₁.length_bytes
    have hlen₂ := a₂.length_bytes
    rw [ha₁, List.length_append, List.length_cons] at hlen₁
    rw [ha₂, List.length_append, List.length_append, List.length_cons] at hlen₂
    omega
  obtain ⟨b, hkeep, hblen, hchars⟩ := keepRemaining_spec ha₂ hlen
  refine ⟨b, ?_, hblen, by omega, hchars, ?_, Lines.notMem_rest s⟩
  · rw [List.length_nil] at hloop
    simp only [processBuffer, Option.bind_eq_bind, hwrite, Option.bind_some, hloop, hkeep]
    rfl
  · exact fun h => hnul ((Lines.rest_suffix s).mem h)

/-- What a call starts with. -/
theorem Keeps.start {b : StdinBuffer} {held kept : List UInt8} (h : Keeps b held)
    (hkept : keep (stdinBufferSize - 1) held = kept) :
    b.start = kept.length ∧ b.space = stdinBufferSize - 1 - kept.length ∧
      b.chars.bytes.take kept.length = kept ∧ 0 ∉ kept ∧ newline ∉ kept := by
  have hsize : stdinBufferSize = 65536 := rfl
  have hfits := h.fits
  rw [StdinBuffer.start, StdinBuffer.space, h.len, ← hkept, keep]
  by_cases hfull : held.length = stdinBufferSize - 1
  · rw [if_pos hfull, if_pos (by omega), if_pos (by omega)]
    exact ⟨rfl, rfl, rfl, List.not_mem_nil, List.not_mem_nil⟩
  · rw [if_neg hfull, if_neg (by omega), if_neg (by omega)]
    exact ⟨rfl, by omega, h.chars, h.noNul, h.noNewline⟩

/-- **One call.** `ipc_process` writes inside its buffer only, and reads as a bounded reader. -/
theorem ipcProcess_spec {b : StdinBuffer} {held input piece : List UInt8} (h : Keeps b held)
    (hinput : 0 ∉ input) {n : Nat}
    (hpiece : input.take (min n (stdinBufferSize - 1 - (keep (stdinBufferSize - 1) held).length)) = piece) :
    ∃ b', ipcProcess b input n =
        some ((readPiece newline (stdinBufferSize - 1) held piece).1, b', input.drop piece.length) ∧
      Keeps b' (readPiece newline (stdinBufferSize - 1) held piece).2 := by
  have hsize : stdinBufferSize = 65536 := rfl
  obtain ⟨hstart, hspace, hchars, hnul, hnewline⟩ := h.start rfl
  have hfits : (keep (stdinBufferSize - 1) held).length ≤ stdinBufferSize - 1 := by
    have hle := h.fits
    rw [keep]
    split_ifs
    · exact Nat.zero_le _
    · exact hle
  rw [readPiece]
  generalize keep (stdinBufferSize - 1) held = kept at hpiece hstart hspace hchars hnul hnewline hfits ⊢
  have hlen : piece.length ≤ stdinBufferSize - 1 - kept.length := by
    rw [← hpiece, List.length_take]
    omega
  obtain ⟨a, hwrite, ha⟩ := b.chars.write_eq kept.length piece (by omega)
  rw [hchars] at ha
  have hcall : ipcProcess b input n =
      if piece = [] then some ([], ⟨a, kept.length⟩, input)
      else (processBuffer a (kept ++ piece).length).map fun x => (x.1, x.2, input.drop piece.length) := by
    simp only [ipcProcess, hspace, hpiece, hstart, hwrite, List.length_append, Option.bind_eq_bind,
      Option.bind_some]
    split_ifs
    · rfl
    · exact Option.map_eq_bind.symm
  rw [hcall]
  split_ifs with hnil
  · -- nothing is read
    subst hnil
    rw [List.length_nil, List.drop_zero, Lines.feed_nil]
    refine ⟨⟨a, kept.length⟩, rfl, rfl, hfits, ?_, hnul, hnewline⟩
    show a.bytes.take kept.length = kept
    rw [ha, List.append_assoc, List.take_left]
  · have htake : a.bytes.take (kept ++ piece).length = kept ++ piece := by
      rw [ha, List.take_left]
    have hnul' : 0 ∉ kept ++ piece := by
      intro hmem
      rcases List.mem_append.mp hmem with hmem | hmem
      · exact hnul hmem
      · rw [← hpiece] at hmem
        exact hinput (List.mem_of_mem_take hmem)
    obtain ⟨b', hprocess, hkeeps⟩ := processBuffer_spec htake (by rw [List.length_append]; omega) hnul'
    rw [hprocess, Option.map_some, Lines.feed_held _ hnewline]
    exact ⟨b', rfl, hkeeps⟩

/-! ## A run -/

/-- The calls write inside the buffer only, and read as a bounded reader. -/
theorem ipcRun_spec (ns : List Nat) {b : StdinBuffer} {held input : List UInt8} (h : Keeps b held)
    (hinput : 0 ∉ input) :
    ∃ b', ipcRun b input ns =
        some ((Lines.run newline (stdinBufferSize - 1) held input ns).1, b',
          (Lines.run newline (stdinBufferSize - 1) held input ns).2.2) ∧
      Keeps b' (Lines.run newline (stdinBufferSize - 1) held input ns).2.1 := by
  induction ns generalizing b held input with
  | nil => exact ⟨b, rfl, h⟩
  | cons n ns ih =>
      obtain ⟨b₁, hcall, hkeeps⟩ := ipcProcess_spec h hinput (n := n) rfl
      obtain ⟨b₂, hrun, hkeeps'⟩ := ih hkeeps (fun hmem => hinput (List.mem_of_mem_drop hmem))
      refine ⟨b₂, ?_, hkeeps'⟩
      simp only [ipcRun, hcall, hrun, Option.bind_eq_bind, Option.bind_some]
      rfl

end OpcuaLight.Runtime
