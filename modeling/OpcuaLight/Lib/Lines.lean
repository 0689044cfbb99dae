import Mathlib.Data.List.Basic
import Mathlib.Tactic.Ring

/-!
# Lines of a stream

A stream is cut at each occurrence of a delimiter into complete lines and a rest, and it may be read in pieces:
`feed` takes what is left over from one piece to the next (`feed_append`), and `feed_eq_iff` says what its
results are. A reader that holds at most `N` elements, and drops them when the line has not ended by then
(`Reader`), sees of each line what is left when blocks of `N` are taken off its front (`residue`); this
does not depend on the pieces (`Reader.run_sees`).
-/

namespace Lines

variable {α : Type*} [DecidableEq α] (d : α)

/-- The lines that end in the stream when `held` came before it, and what is left over. -/
def feed : List α → List α → List (List α) × List α
  | held, [] => ([], held)
  | held, x :: xs =>
      if x = d then (held :: (feed [] xs).1, (feed [] xs).2) else feed (held ++ [x]) xs

/-- The complete lines of the stream. -/
def lines (s : List α) : List (List α) := (feed d [] s).1

/-- What comes after the last complete line. -/
def rest (s : List α) : List α := (feed d [] s).2

variable {d}

@[simp] theorem feed_nil (held : List α) : feed d held [] = ([], held) := rfl

theorem feed_of_notMem {s : List α} (held : List α) (h : d ∉ s) : feed d held s = ([], held ++ s) := by
  induction s generalizing held with
  | nil => rw [feed_nil, List.append_nil]
  | cons x s ih =>
      have hx : x ≠ d := fun heq => h (heq ▸ List.mem_cons_self)
      rw [feed, if_neg hx, ih _ (fun hs => h (List.mem_cons_of_mem _ hs)), List.append_assoc,
        List.singleton_append]

/-- A line ends at the first delimiter. -/
theorem feed_line {line : List α} (held s : List α) (h : d ∉ line) :
    feed d held (line ++ d :: s) = ((held ++ line) :: (feed d [] s).1, (feed d [] s).2) := by
  induction line generalizing held with
  | nil => rw [List.nil_append, feed, if_pos rfl, List.append_nil]
  | cons x line ih =>
      have hx : x ≠ d := fun heq => h (heq ▸ List.mem_cons_self)
      rw [List.cons_append, feed, if_neg hx, ih _ (fun hs => h (List.mem_cons_of_mem _ hs)),
        List.append_assoc, List.singleton_append]

theorem lines_of_notMem {s : List α} (h : d ∉ s) : lines d s = [] ∧ rest d s = s := by
  rw [lines, rest, feed_of_notMem _ h]
  exact ⟨rfl, List.nil_append s⟩

theorem lines_line {line : List α} (s : List α) (h : d ∉ line) :
    lines d (line ++ d :: s) = line :: lines d s ∧ rest d (line ++ d :: s) = rest d s := by
  rw [lines, rest, feed_line _ _ h]
  exact ⟨rfl, rfl⟩

/-- A stream has no delimiter, or a first one. -/
theorem notMem_or_line (d : α) (s : List α) : d ∉ s ∨ ∃ line tail, s = line ++ d :: tail ∧ d ∉ line := by
  by_cases h : d ∈ s
  · obtain ⟨line, tail, hs, hline⟩ := List.eq_append_cons_of_mem h
    exact Or.inr ⟨line, tail, hs, hline⟩
  · exact Or.inl h

/-- What is held may as well stand before the stream. -/
theorem feed_held {held : List α} (s : List α) (h : d ∉ held) : feed d held s = feed d [] (held ++ s) := by
  rcases notMem_or_line d s with hs | ⟨line, tail, rfl, hline⟩
  · have hboth : d ∉ held ++ s := fun hm => (List.mem_append.mp hm).elim h hs
    rw [feed_of_notMem _ hs, feed_of_notMem _ hboth, List.nil_append]
  · have hboth : d ∉ held ++ line := fun hm => (List.mem_append.mp hm).elim h hline
    rw [feed_line _ _ hline, ← List.append_assoc, feed_line _ _ hboth, List.nil_append]

theorem feed_append (held s t : List α) :
    feed d held (s ++ t) =
      ((feed d held s).1 ++ (feed d (feed d held s).2 t).1, (feed d (feed d held s).2 t).2) := by
  induction s generalizing held with
  | nil => rfl
  | cons x s ih =>
      rw [List.cons_append, feed, feed]
      split_ifs
      · rw [ih]
        rfl
      · exact ih _

theorem lines_snoc (s : List α) : lines d (s ++ [d]) = lines d s ++ [rest d s] ∧ rest d (s ++ [d]) = [] := by
  unfold lines rest
  rw [feed_append, feed, if_pos rfl]
  exact ⟨rfl, rfl⟩

theorem lines_snoc_of_ne {x : α} (h : x ≠ d) (s : List α) :
    lines d (s ++ [x]) = lines d s ∧ rest d (s ++ [x]) = rest d s ++ [x] := by
  unfold lines rest
  rw [feed_append, feed, if_neg h]
  exact ⟨List.append_nil _, rfl⟩

theorem lines_prefix (s t : List α) : lines d s <+: lines d (s ++ t) := by
  rw [lines, lines, feed_append]
  exact List.prefix_append _ _

theorem notMem_feed {held : List α} (s : List α) (h : d ∉ held) :
    (∀ line ∈ (feed d held s).1, d ∉ line) ∧ d ∉ (feed d held s).2 := by
  induction s generalizing held with
  | nil => exact ⟨nofun, h⟩
  | cons x s ih =>
      rw [feed]
      split_ifs with hx
      · obtain ⟨hlines, hrest⟩ := ih (List.not_mem_nil (a := d))
        refine ⟨fun line hline => ?_, hrest⟩
        rcases List.mem_cons.mp hline with rfl | hline
        · exact h
        · exact hlines line hline
      · apply ih
        simp only [List.mem_append, List.mem_singleton, not_or]
        exact ⟨h, fun heq => hx heq.symm⟩

theorem notMem_rest (s : List α) : d ∉ rest d s := (notMem_feed s List.not_mem_nil).2

/-- **What the lines are.** They are the lists without a delimiter that give the stream, each followed by a
delimiter, with a rest that has no delimiter either. -/
theorem lines_eq_iff {s tail : List α} {ls : List (List α)} :
    (lines d s = ls ∧ rest d s = tail) ↔
      s = ls.flatMap (· ++ [d]) ++ tail ∧ (∀ line ∈ ls, d ∉ line) ∧ d ∉ tail := by
  have hfeed : ∀ (ls : List (List α)) (tail : List α), (∀ line ∈ ls, d ∉ line) → d ∉ tail →
      feed d [] (ls.flatMap (· ++ [d]) ++ tail) = (ls, tail) := by
    intro ls tail hls htail
    induction ls with
    | nil => exact feed_of_notMem [] htail
    | cons line ls ih =>
        rw [List.flatMap_cons, List.append_assoc, List.append_assoc, List.singleton_append,
          feed_line [] _ (hls line List.mem_cons_self),
          ih (fun l hl => hls l (List.mem_cons_of_mem _ hl)), List.nil_append]
  have hjoin : ∀ (held s : List α),
      held ++ s = (feed d held s).1.flatMap (· ++ [d]) ++ (feed d held s).2 := by
    intro held s
    induction s generalizing held with
    | nil => rw [feed_nil, List.flatMap_nil, List.append_nil, List.nil_append]
    | cons x s ih =>
        rw [feed]
        split_ifs with hx
        · rw [hx, List.flatMap_cons, List.append_assoc, List.append_assoc, ← ih []]
          rfl
        · rw [← ih, List.append_assoc, List.singleton_append]
  constructor
  · rintro ⟨rfl, rfl⟩
    obtain ⟨hlines, hrest⟩ := notMem_feed s (List.not_mem_nil (a := d))
    exact ⟨hjoin [] s, hlines, hrest⟩
  · rintro ⟨rfl, hls, htail⟩
    rw [lines, rest, hfeed ls tail hls htail]
    exact ⟨rfl, rfl⟩

/-- The rest is the end of the stream. -/
theorem rest_suffix (s : List α) : rest d s <:+ s := by
  have hs := (lines_eq_iff.mp ⟨rfl, rfl⟩ : s = (lines d s).flatMap (· ++ [d]) ++ rest d s ∧ _).1
  exact ⟨_, hs.symm⟩

/-- No line is longer than what was held and the stream together. -/
theorem length_feed (held s : List α) :
    (∀ line ∈ (feed d held s).1, line.length < held.length + s.length) ∧
      (feed d held s).2.length ≤ held.length + s.length := by
  induction s generalizing held with
  | nil => exact ⟨nofun, le_rfl⟩
  | cons x s ih =>
      rw [feed, List.length_cons]
      split_ifs
      · obtain ⟨hlines, hrest⟩ := ih []
        rw [List.length_nil] at hlines hrest
        refine ⟨fun line hline => ?_, Nat.le_trans hrest (by omega)⟩
        rcases List.mem_cons.mp hline with rfl | hline
        · omega
        · have hlt := hlines line hline
          omega
      · obtain ⟨hlines, hrest⟩ := ih (held ++ [x])
        rw [List.length_append, List.length_singleton] at hlines hrest
        refine ⟨fun line hline => ?_, Nat.le_trans hrest (by omega)⟩
        have hlt := hlines line hline
        omega

/-! ## What is left of a list without blocks of `N` -/

section Residue
variable {N : Nat} {s t : List α}

omit [DecidableEq α]

/-- The list without the blocks of `N` at its front. -/
def residue (N : Nat) (s : List α) : List α := s.drop (N * (s.length / N))

theorem length_residue (N : Nat) (s : List α) : (residue N s).length = s.length % N := by
  rw [residue, List.length_drop]
  exact Nat.sub_eq_of_eq_add' (Nat.div_add_mod s.length N).symm

theorem residue_of_lt (h : s.length < N) : residue N s = s := by
  rw [residue, Nat.div_eq_of_lt h, Nat.mul_zero, List.drop_zero]

theorem residue_eq_nil_iff : residue N s = [] ↔ s.length % N = 0 := by
  rw [← length_residue, List.length_eq_zero_iff]

theorem residue_append (hN : 0 < N) (s t : List α) : residue N (residue N s ++ t) = residue N (s ++ t) := by
  have hdrop : (s ++ t).drop (N * (s.length / N)) = residue N s ++ t :=
    List.drop_append_of_le_length (Nat.mul_div_le _ _)
  have hlen : (s ++ t).length = N * (s.length / N) + (residue N s ++ t).length := by
    rw [← hdrop, List.length_drop, List.length_append]
    have hle := Nat.mul_div_le s.length N
    omega
  have hblocks : residue N (s ++ t) =
      (s ++ t).drop (N * (s.length / N) + N * ((residue N s ++ t).length / N)) := by
    rw [← Nat.mul_add, ← Nat.mul_add_div hN, ← hlen]
    rfl
  rw [hblocks, ← List.drop_drop, hdrop]
  rfl

/-- What a reader that holds at most `N` elements goes on with: a full buffer without a complete line is
dropped. -/
def keep (N : Nat) (held : List α) : List α := if held.length = N then [] else held

theorem keep_eq_residue {held : List α} (h : held.length ≤ N) : keep N held = residue N held := by
  rw [keep]
  split_ifs with heq
  · rw [eq_comm, residue_eq_nil_iff, heq, Nat.mod_self]
  · rw [residue_of_lt (by omega)]

theorem keep_suffix (N : Nat) (held : List α) : keep N held <:+ held := by
  rw [keep]
  split_ifs
  · exact List.nil_suffix
  · exact List.suffix_refl _

/-- The lines as that reader sees them. -/
def seen (N : Nat) (ls : List (List α)) : List (List α) := (ls.map (residue N)).filter (· ≠ [])

theorem seen_append (N : Nat) (ls ls' : List (List α)) : seen N (ls ++ ls') = seen N ls ++ seen N ls' := by
  rw [seen, List.map_append, List.filter_append]
  rfl

theorem length_of_mem_seen (hN : 0 < N) {ls : List (List α)} {line : List α} (h : line ∈ seen N ls) :
    line.length < N := by
  obtain ⟨l, -, rfl⟩ := List.mem_map.mp (List.mem_of_mem_filter h)
  rw [length_residue]
  exact Nat.mod_lt _ hN

/-- Lines that fit are seen whole. -/
theorem seen_of_lt {ls : List (List α)} (h : ∀ line ∈ ls, line.length < N) :
    seen N ls = ls.filter (· ≠ []) := by
  have hmap : ls.map (residue N) = ls := by
    conv_rhs => rw [← List.map_id ls]
    exact List.map_congr_left fun line hline => residue_of_lt (h line hline)
  rw [seen, hmap]

end Residue

/-! ## A reader of bounded capacity -/

/-- A reader with the capacity `N`: given a piece, it says the lines that are not empty and what it holds
then. -/
def readPiece (d : α) (N : Nat) (held piece : List α) : List (List α) × List α :=
  let fed := feed d (keep N held) piece
  (fed.1.filter (· ≠ []), fed.2)

/-- What the reader holds stands for the rest of what it has read. -/
structure Holds (d : α) (N : Nat) (read held : List α) : Prop where
  fits : held.length ≤ N
  suffix : held <:+ rest d read
  kept : keep N held = residue N (rest d read)

theorem holds_nil (d : α) (N : Nat) : Holds d N [] [] :=
  ⟨Nat.zero_le N, List.suffix_refl _, keep_eq_residue (Nat.zero_le N)⟩

/-- One piece, no longer than the space there is. -/
theorem Holds.readPiece {N : Nat} {read held : List α} (hN : 0 < N) (h : Holds d N read held)
    {piece : List α} (hpiece : piece.length ≤ N - (keep N held).length) :
    lines d (read ++ piece) = lines d read ++ (feed d (rest d read) piece).1 ∧
      (readPiece d N held piece).1 = seen N (feed d (rest d read) piece).1 ∧
      Holds d N (read ++ piece) (readPiece d N held piece).2 := by
  have hlines : lines d (read ++ piece) = lines d read ++ (feed d (rest d read) piece).1 := by
    rw [lines, feed_append]
    rfl
  have hrest : rest d (read ++ piece) = (feed d (rest d read) piece).2 := by
    rw [rest, feed_append]
    rfl
  have hkeep : (keep N held).length < N := by
    rw [h.kept, length_residue]
    exact Nat.mod_lt _ hN
  refine ⟨hlines, ?_⟩
  unfold Lines.readPiece
  rcases notMem_or_line d piece with hd | ⟨line, tail, rfl, hd⟩
  · -- no line ends in the piece
    rw [feed_of_notMem _ hd] at hrest
    simp only [feed_of_notMem _ hd]
    have hfits : (keep N held ++ piece).length ≤ N := by
      rw [List.length_append]
      omega
    refine ⟨rfl, hfits, ?_, ?_⟩
    · rw [hrest]
      apply List.suffix_append_self_iff.mpr
      exact (keep_suffix N held).trans h.suffix
    · rw [keep_eq_residue hfits, hrest, h.kept, residue_append hN]
  · -- the line that is held ends first; what follows is shorter than `N`
    rw [feed_line _ _ hd] at hrest
    simp only [feed_line _ _ hd]
    rw [List.length_append, List.length_cons] at hpiece
    obtain ⟨htail, hlast⟩ := length_feed (d := d) [] tail
    rw [List.length_nil] at htail hlast
    have hfirst : residue N (rest d read ++ line) = keep N held ++ line := by
      rw [← residue_append hN, ← h.kept]
      apply residue_of_lt
      rw [List.length_append]
      omega
    have hothers : seen N (feed d [] tail).1 = (feed d [] tail).1.filter (· ≠ []) := by
      apply seen_of_lt
      intro l hl
      have hlt := htail l hl
      omega
    refine ⟨?_, by omega, hrest ▸ List.suffix_refl _, ?_⟩
    · rw [← List.singleton_append, ← List.singleton_append (l := (feed d [] tail).1), seen_append,
        hothers, seen, List.map_singleton, hfirst, List.filter_append]
    · rw [keep_eq_residue (by omega), hrest]

/-- A rest that fits is held. -/
theorem Holds.eq_rest {N : Nat} {read held : List α} (h : Holds d N read held)
    (hfits : (rest d read).length < N) : held = rest d read := by
  have hlen : held.length ≠ N := by
    have hle := h.suffix.length_le
    omega
  have hkept := h.kept
  rwa [keep, if_neg hlen, residue_of_lt hfits] at hkept

/-- The reader takes a piece of the stream for each number, as long as that, or as long as there is space
or anything left. -/
def run (d : α) (N : Nat) : List α → List α → List Nat → List (List α) × List α × List α
  | held, s, [] => ([], held, s)
  | held, s, n :: ns =>
      let piece := s.take (min n (N - (keep N held).length))
      let now := readPiece d N held piece
      let later := run d N now.2 (s.drop piece.length) ns
      (now.1 ++ later.1, later.2)

/-- **What a bounded reader sees.** Whatever the pieces, it says the lines of what it has read, each without
blocks of `N` at its front, and holds the rest. -/
theorem run_seen {N : Nat} (hN : 0 < N) (ns : List Nat) {read held : List α} (s : List α)
    (h : Holds d N read held) :
    ∃ taken, s = taken ++ (run d N held s ns).2.2 ∧
      Holds d N (read ++ taken) (run d N held s ns).2.1 ∧
      seen N (lines d (read ++ taken)) = seen N (lines d read) ++ (run d N held s ns).1 := by
  induction ns generalizing read held s with
  | nil =>
      refine ⟨[], rfl, ?_, ?_⟩
      · rw [List.append_nil]
        exact h
      · rw [List.append_nil]
        exact (List.append_nil _).symm
  | cons n ns ih =>
      have hspace : (s.take (min n (N - (keep N held).length))).length ≤ N - (keep N held).length := by
        rw [List.length_take]
        omega
      obtain ⟨hlines, hsaid, hholds⟩ := h.readPiece hN hspace
      obtain ⟨taken, hs, hrun, hseen⟩ :=
        ih (s.drop (s.take (min n (N - (keep N held).length))).length) hholds
      refine ⟨s.take (min n (N - (keep N held).length)) ++ taken, ?_, ?_, ?_⟩
      · rw [List.append_assoc, run, ← hs]
        exact (List.prefix_iff_eq_append.mp (List.take_prefix _ s)).symm
      · rw [← List.append_assoc]
        exact hrun
      · rw [← List.append_assoc, hseen, hlines, seen_append, ← hsaid, List.append_assoc]
        rfl

/-- A reader that never reads nothing reads everything. -/
theorem run_consumes {N : Nat} (hN : 0 < N) (ns : List Nat) {held : List α} (s : List α)
    (hheld : held.length ≤ N) (hns : ∀ n ∈ ns, 0 < n) (hlen : s.length ≤ ns.length) :
    (run d N held s ns).2.2 = [] := by
  induction ns generalizing held s with
  | nil => exact List.eq_nil_of_length_eq_zero (Nat.le_zero.mp hlen)
  | cons n ns ih =>
      have hkeep : (keep N held).length < N := by
        rw [keep_eq_residue hheld, length_residue]
        exact Nat.mod_lt _ hN
      have hn := hns n List.mem_cons_self
      rw [List.length_cons] at hlen
      apply ih
      · have hpiece := (length_feed (d := d) (keep N held) (s.take (min n (N - (keep N held).length)))).2
        rw [List.length_take] at hpiece
        exact Nat.le_trans hpiece (by omega)
      · exact fun m hm => hns m (List.mem_cons_of_mem _ hm)
      · rw [List.length_drop, List.length_take]
        omega

end Lines
