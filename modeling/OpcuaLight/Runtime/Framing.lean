import OpcuaLight.Runtime.Stdin

/-!
# What reaches `apply_value_update`

However a stream without NUL bytes comes, the strings passed to `apply_value_update` are its lines without the
blocks of 65535 bytes at their fronts, the empty ones left out (`ipcRun_applied`). So the lines of up to 65534
bytes arrive whole, and a longer line leaves a fragment of itself unless its length is a multiple of
65535 (`recovers_iff`). The messages that the bridge writes arrive as they are if none is longer
(`messages_delivered`).
-/

namespace OpcuaLight.Runtime

open Connector (Entry)
open Lines (lines residue rest seen)

/-- The buffer after `memset`. -/
def StdinBuffer.empty : StdinBuffer where
  chars := ⟨List.replicate stdinBufferSize 0, List.length_replicate⟩
  len := 0

/-- The bytes in the filled part of the buffer. -/
def StdinBuffer.held (b : StdinBuffer) : List UInt8 := b.chars.bytes.take b.len

theorem keeps_empty : Keeps StdinBuffer.empty [] :=
  ⟨rfl, Nat.zero_le _, rfl, List.not_mem_nil, List.not_mem_nil⟩

theorem Keeps.held_eq {b : StdinBuffer} {held : List UInt8} (h : Keeps b held) : b.held = held := by
  rw [StdinBuffer.held, h.len, h.chars]

/-- Any run from the start: what it has passed on, of what it has taken, and what it holds. -/
theorem ipcRun_applied {s : List UInt8} (hs : 0 ∉ s) (ns : List Nat) :
    ∃ applied b left taken, ipcRun .empty s ns = some (applied, b, left) ∧ s = taken ++ left ∧
      applied = seen (stdinBufferSize - 1) (lines newline taken) ∧
      Lines.Holds newline (stdinBufferSize - 1) taken b.held := by
  obtain ⟨b, hrun, hkeeps⟩ := ipcRun_spec ns keeps_empty hs
  obtain ⟨taken, hs', hholds, hseen⟩ :=
    Lines.run_seen (N := stdinBufferSize - 1) (by decide) ns s (Lines.holds_nil newline _)
  refine ⟨_, b, _, taken, hrun, hs', hseen.symm, ?_⟩
  rw [hkeeps.held_eq]
  exact hholds

/-- A run consumes the stream if it goes on reading. -/
theorem ipcRun_consumes {s : List UInt8} (hs : 0 ∉ s) (ns : List Nat) (hns : ∀ n ∈ ns, 0 < n)
    (hlen : s.length ≤ ns.length) : ∃ applied b, ipcRun .empty s ns = some (applied, b, []) := by
  obtain ⟨b, hrun, -⟩ := ipcRun_spec ns keeps_empty hs
  rw [Lines.run_consumes (by decide) ns s (Nat.zero_le _) hns hlen] at hrun
  exact ⟨_, b, hrun⟩

/-- What has come through of a stream that has been read to its end. -/
theorem ipcRun_end {s : List UInt8} (hs : 0 ∉ s) {ns : List Nat} {applied : List (List UInt8)}
    {b : StdinBuffer} (hrun : ipcRun .empty s ns = some (applied, b, [])) :
    applied = seen (stdinBufferSize - 1) (lines newline s) ∧
      Lines.Holds newline (stdinBufferSize - 1) s b.held := by
  obtain ⟨applied', b', left, taken, hrun', hs', happlied, hholds⟩ := ipcRun_applied hs ns
  rw [hrun] at hrun'
  cases hrun'
  rw [List.append_nil] at hs'
  subst hs'
  exact ⟨happlied, hholds⟩

/-! ## Lines that fit -/

/-- **Framing.** A stream whose lines have at most 65534 bytes each passes on exactly its lines that are not
empty, once it has been read, and keeps what comes after them if that fits too; no write is outside
the buffer. -/
theorem stdin_framing (s : List UInt8) (ns : List Nat) (hnul : 0 ∉ s)
    (hlines : ∀ line ∈ lines newline s, line.length ≤ 65534) :
    ∃ applied b left, ipcRun .empty s ns = some (applied, b, left) ∧
      (left = [] → applied = (lines newline s).filter (· ≠ []) ∧
        ((rest newline s).length ≤ 65534 → b.held = rest newline s)) := by
  obtain ⟨applied, b, left, -, hrun, -⟩ := ipcRun_applied hnul ns
  refine ⟨applied, b, left, hrun, ?_⟩
  rintro rfl
  obtain ⟨happlied, hholds⟩ := ipcRun_end hnul hrun
  constructor
  · rw [happlied]
    exact Lines.seen_of_lt fun line hline => Nat.lt_of_le_of_lt (hlines line hline) (by decide)
  · exact fun hrest => hholds.eq_rest (Nat.lt_of_le_of_lt hrest (by decide))

/-- Two lines and the start of a third, in three reads. -/
theorem stdin_framing_threeReads :
    ∃ applied b left, ipcRun .empty [91, 93, 10, 10, 123, 125, 10, 91] [4, 0, 9] = some (applied, b, left) ∧
      (left = [] → applied = [[91, 93], [123, 125]] ∧ ([91].length ≤ 65534 → b.held = [91])) := by
  apply stdin_framing [91, 93, 10, 10, 123, 125, 10, 91] [4, 0, 9] (by decide)
  decide

/-- Bytes other than newline make one unfinished line. -/
theorem lines_replicate (n : Nat) :
    lines newline (List.replicate n 97) = [] ∧ rest newline (List.replicate n 97) = List.replicate n 97 := by
  apply Lines.lines_of_notMem
  intro hmem
  exact absurd (List.eq_of_mem_replicate hmem) (by decide)

theorem zero_notMem_replicate (n : Nat) : (0 : UInt8) ∉ List.replicate n (97 : UInt8) :=
  fun hmem => absurd (List.eq_of_mem_replicate hmem) (by decide)

/-- A tail that fills the buffer is not kept. -/
theorem longTail_dropped :
    ¬∀ (s : List UInt8) (ns : List Nat), 0 ∉ s → (∀ line ∈ lines newline s, line.length ≤ 65534) →
      ∃ applied b left, ipcRun .empty s ns = some (applied, b, left) ∧
        (left = [] → applied = (lines newline s).filter (· ≠ []) ∧ b.held = rest newline s) := by
  intro h
  have hnul := zero_notMem_replicate 65536
  obtain ⟨hlines, hrest⟩ := lines_replicate 65536
  obtain ⟨applied, b, hrun⟩ := ipcRun_consumes hnul (List.replicate 65536 1)
    (fun n hn => by rw [List.eq_of_mem_replicate hn]; exact Nat.one_pos)
    (by rw [List.length_replicate, List.length_replicate])
  obtain ⟨applied', b', left, hrun', hkept⟩ := h _ (List.replicate 65536 1) hnul (by rw [hlines]; nofun)
  rw [hrun] at hrun'
  cases hrun'
  have hheld := (hkept rfl).2
  have hfits := (ipcRun_end hnul hrun).2.fits
  rw [hheld, hrest, List.length_replicate] at hfits
  exact absurd hfits (by decide)

/-! ## Lines that do not fit -/

/-- Each string passed on is a whole line, in order, and each line of at most 65534 bytes is passed on once; an
empty line is no message. -/
def Recovers (ls applied : List (List UInt8)) : Prop :=
  List.Sublist applied (ls.filter (· ≠ [])) ∧
    applied.filter (·.length ≤ 65534) = (ls.filter (· ≠ [])).filter (·.length ≤ 65534)

/-- The lines seen when those that are too long leave nothing. -/
theorem seen_eq_filter {ls : List (List UInt8)}
    (h : ∀ line ∈ ls, 65534 < line.length → line.length % 65535 = 0) :
    seen (stdinBufferSize - 1) ls = (ls.filter (· ≠ [])).filter (·.length ≤ 65534) := by
  induction ls with
  | nil => rfl
  | cons line ls ih =>
      have htail := ih fun l hl => h l (List.mem_cons_of_mem _ hl)
      have hcons : seen (stdinBufferSize - 1) (line :: ls) =
          seen (stdinBufferSize - 1) [line] ++ seen (stdinBufferSize - 1) ls :=
        Lines.seen_append _ [line] ls
      have hsingle : seen (stdinBufferSize - 1) [line] =
          ([line].filter (· ≠ [])).filter (·.length ≤ 65534) := by
        by_cases hfits : line.length ≤ 65534
        · rw [Lines.seen_of_lt (by
            intro l hl
            rw [List.mem_singleton.mp hl]
            exact Nat.lt_of_le_of_lt hfits (by decide)), List.filter_filter]
          simp only [List.filter_singleton, hfits, decide_true, Bool.true_and]
        · have hnil : residue (stdinBufferSize - 1) line = [] :=
            Lines.residue_eq_nil_iff.mpr (h line List.mem_cons_self (Nat.lt_of_not_le hfits))
          rw [seen, List.map_singleton, hnil, List.filter_filter]
          simp [hfits]
      rw [hcons, hsingle, htail, ← List.filter_append, ← List.filter_append, List.singleton_append]

/-- All that is seen fits. -/
theorem filter_seen (ls : List (List UInt8)) :
    (seen (stdinBufferSize - 1) ls).filter (·.length ≤ 65534) = seen (stdinBufferSize - 1) ls := by
  apply List.filter_eq_self.mpr
  intro line hline
  have hlt := Lines.length_of_mem_seen (by decide) hline
  exact decide_eq_true (Nat.le_of_lt_succ hlt)

/-- As many lines are seen as have a residue. -/
theorem length_seen (ls : List (List UInt8)) :
    (seen (stdinBufferSize - 1) ls).length = (ls.filter (·.length % 65535 ≠ 0)).length := by
  rw [seen, ← List.countP_eq_length_filter, List.countP_map, List.countP_eq_length_filter]
  congr 1
  apply List.filter_congr
  intro line _
  have hiff : residue (stdinBufferSize - 1) line = [] ↔ line.length % 65535 = 0 := Lines.residue_eq_nil_iff
  simp only [Function.comp_apply, ne_eq, hiff]

theorem recovers_seen_iff (ls : List (List UInt8)) :
    Recovers ls (seen (stdinBufferSize - 1) ls) ↔
      ∀ line ∈ ls, 65534 < line.length → line.length % 65535 = 0 := by
  constructor
  · rintro ⟨-, hfilter⟩ line hline hlong
    rw [filter_seen] at hfilter
    by_contra hne
    -- the lines that fit have a residue, and there are as many of them as of all that have one
    have hsub : List.Sublist (ls.filter (fun l => l ≠ [] ∧ l.length ≤ 65534))
        (ls.filter (·.length % 65535 ≠ 0)) := by
      apply List.monotone_filter_right
      intro l hl
      obtain ⟨hnil, hfits⟩ := of_decide_eq_true hl
      have hpos := List.length_pos_of_ne_nil hnil
      apply decide_eq_true
      omega
    have hlen : (ls.filter (fun l => l ≠ [] ∧ l.length ≤ 65534)).length =
        (ls.filter (·.length % 65535 ≠ 0)).length := by
      rw [← length_seen, hfilter, List.filter_filter]
      congr 1
      apply List.filter_congr
      intro l _
      rw [Bool.decide_and, Bool.and_comm]
    have hmem : line ∈ ls.filter (·.length % 65535 ≠ 0) :=
      List.mem_filter.mpr ⟨hline, decide_eq_true hne⟩
    rw [← hsub.eq_of_length hlen] at hmem
    have hfits := (of_decide_eq_true (List.mem_filter.mp hmem).2).2
    omega
  · intro h
    rw [Recovers, filter_seen, seen_eq_filter h]
    exact ⟨List.filter_sublist, rfl⟩

/-- **Recovery.** Once a stream has been read, no fragment of a line that is too long has been passed on, and
all lines that fit have, exactly if the lengths of the lines that are too long are multiples of 65535. -/
theorem recovers_iff (s : List UInt8) (ns : List Nat) (applied : List (List UInt8)) (b : StdinBuffer)
    (hnul : 0 ∉ s) (hrun : ipcRun .empty s ns = some (applied, b, [])) :
    Recovers (lines newline s) applied ↔
      ∀ line ∈ lines newline s, 65534 < line.length → line.length % 65535 = 0 := by
  rw [(ipcRun_end hnul hrun).1]
  exact recovers_seen_iff _

/-- A stream of one line of `n` bytes. -/
def oneLine (n : Nat) : List UInt8 := List.replicate n 97 ++ [newline]

theorem lines_oneLine (n : Nat) : lines newline (oneLine n) = [List.replicate n 97] :=
  (Lines.lines_line [] fun hmem => absurd (List.eq_of_mem_replicate hmem) (by decide)).1

theorem zero_notMem_oneLine (n : Nat) : (0 : UInt8) ∉ oneLine n := by
  intro hmem
  rcases List.mem_append.mp hmem with hmem | hmem
  · exact zero_notMem_replicate n hmem
  · exact absurd (List.mem_singleton.mp hmem) (by decide)

/-- The stream is read byte by byte. -/
theorem ipcRun_oneLine (n : Nat) :
    ∃ applied b, ipcRun .empty (oneLine n) (List.replicate (n + 1) 1) = some (applied, b, []) :=
  ipcRun_consumes (zero_notMem_oneLine n) (List.replicate (n + 1) 1)
    (fun k hk => by rw [List.eq_of_mem_replicate hk]; exact Nat.one_pos)
    (by rw [oneLine, List.length_append, List.length_replicate, List.length_replicate, List.length_singleton])

/-- A line of 65535 bytes leaves nothing behind. -/
theorem recovers_65535 : ∃ applied b, ipcRun .empty (oneLine 65535) (List.replicate 65536 1) = some (applied, b, []) ∧
    Recovers (lines newline (oneLine 65535)) applied := by
  obtain ⟨applied, b, hrun⟩ := ipcRun_oneLine 65535
  refine ⟨applied, b, hrun, (recovers_iff _ _ applied b (zero_notMem_oneLine 65535) hrun).mpr ?_⟩
  rw [lines_oneLine]
  intro line hline _
  rw [List.mem_singleton.mp hline, List.length_replicate]

/-- The last byte of a line of 65536 bytes is passed on as if it were a message. -/
theorem longLine_fragment :
    ¬∀ (s : List UInt8) (ns : List Nat) (applied : List (List UInt8)) (b : StdinBuffer), 0 ∉ s →
      (∃ line ∈ lines newline s, 65534 < line.length) → ipcRun .empty s ns = some (applied, b, []) →
      Recovers (lines newline s) applied := by
  intro h
  have hnul := zero_notMem_oneLine 65536
  have hlines := lines_oneLine 65536
  obtain ⟨applied, b, hrun⟩ := ipcRun_oneLine 65536
  have hlong : 65534 < (List.replicate 65536 (97 : UInt8)).length := by
    rw [List.length_replicate]
    decide
  have hrecovers := h _ _ applied b hnul (by rw [hlines]; exact ⟨_, List.mem_singleton_self _, hlong⟩) hrun
  rw [(ipcRun_end hnul hrun).1, hlines, recovers_seen_iff] at hrecovers
  have hmod := hrecovers _ (List.mem_singleton_self _) hlong
  rw [List.length_replicate] at hmod
  exact absurd hmod (by decide)

/-! ## Messages -/

section Messages
variable {print : List Entry → List UInt8} {parse : List UInt8 → Option (List Entry)}

/-- The messages of the bridge, a line each, are applied in order. -/
theorem messages_delivered (ua : Ua) (S : Server) {messages : List (List Entry)} {ns : List Nat}
    (hparse : ∀ m ∈ messages, parse (print m) = some m)
    (hbytes : ∀ m ∈ messages, print m ≠ [] ∧ 0 ∉ print m ∧ newline ∉ print m ∧ (print m).length ≤ 65534)
    {applied : List (List UInt8)} {b : StdinBuffer}
    (hrun : ipcRun .empty (messages.flatMap fun m => print m ++ [newline]) ns = some (applied, b, [])) :
    (applied.filterMap parse).foldl (applyValueUpdate ua) S = messages.foldl (applyValueUpdate ua) S := by
  have hstream : messages.flatMap (fun m => print m ++ [newline]) =
      (messages.map print).flatMap (· ++ [newline]) ++ [] := by
    rw [List.append_nil, List.flatMap_map]
  have hlines : lines newline (messages.flatMap fun m => print m ++ [newline]) = messages.map print := by
    refine (Lines.lines_eq_iff.mpr ⟨hstream, fun line hline => ?_, List.not_mem_nil⟩).1
    obtain ⟨m, hm, rfl⟩ := List.mem_map.mp hline
    exact (hbytes m hm).2.2.1
  have hnul : 0 ∉ messages.flatMap fun m => print m ++ [newline] := by
    intro hmem
    obtain ⟨m, hm, hmem⟩ := List.mem_flatMap.mp hmem
    rcases List.mem_append.mp hmem with hmem | hmem
    · exact (hbytes m hm).2.1 hmem
    · exact absurd (List.mem_singleton.mp hmem) (by decide)
  have happlied : applied = messages.map print := by
    rw [(ipcRun_end hnul hrun).1, hlines, Lines.seen_of_lt, List.filter_eq_self]
    · intro line hline
      obtain ⟨m, hm, rfl⟩ := List.mem_map.mp hline
      exact decide_eq_true (hbytes m hm).1
    · intro line hline
      obtain ⟨m, hm, rfl⟩ := List.mem_map.mp hline
      exact Nat.lt_of_le_of_lt (hbytes m hm).2.2.2 (by decide)
  have hparsed : applied.filterMap parse = messages := by
    rw [happlied, List.filterMap_map]
    calc messages.filterMap (parse ∘ print) = messages.filterMap some := List.filterMap_congr hparse
      _ = messages := List.filterMap_some
  rw [hparsed]

end Messages

end OpcuaLight.Runtime
