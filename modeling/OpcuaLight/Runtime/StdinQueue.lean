import Mathlib.Data.List.Perm.Basic
import Mathlib.Data.List.Sort
import OpcuaLight.Lib.Machine
import OpcuaLight.Lib.RingBuffer
import OpcuaLight.Runtime.Stdin

/-!
# The queue of lines on Windows

The reader thread `win32_stdin_reader` and the main thread, which calls `ipc_process` and at last `ipc_shutdown`. A
critical section is one event. A copied line is named by the number of lines copied before it, and the state
keeps which copies were passed to `apply_value_update`, dropped, drained and freed.
-/

namespace OpcuaLight.Runtime.StdinQueue

open Lines (lines rest)
open Machine (run Guarded)
open RingBuffer (Buffer Holds contents)

/-! ## `ipc_processor.c` -/

/-- `STDIN_QUEUE_SIZE`. -/
def stdinQueueSize : ℕ := 256

/-- `sizeof(line_buf)`. -/
def lineBufSize : ℕ := 65536

/-- `sizeof(chunk)`. -/
def chunkSize : ℕ := 4096

def carriageReturn : UInt8 := 13

/-- Where the reader thread is. -/
inductive Reader where
  | starting
  /-- Before the test of `stdin_running`. -/
  | checking
  /-- Before `ReadFile`. -/
  | reading
  /-- In the loop over the chunk, with what is left of it. -/
  | scanning (chunk : List UInt8)
  /-- Before the critical section, with the copy. -/
  | enqueuing (copy : ℕ) (chunk : List UInt8)
  | ended
  deriving DecidableEq

/-- Where the main thread is. -/
inductive Main where
  /-- Outside `ipc_process`. -/
  | idle
  /-- Before the critical section with the test for pending lines. -/
  | dequeuing
  | holding (line : Option ℕ)
  /-- Between `apply_value_update` and `free`. -/
  | applied (line : ℕ)
  /-- In `ipc_shutdown`, before the last critical section. -/
  | waiting
  | finished
  deriving DecidableEq

structure State where
  /-- `stdin_queue`, `stdin_queue_head` and `stdin_queue_tail`. -/
  queue : Buffer ℕ
  /-- `stdin_running`. -/
  running : Bool
  reader : Reader
  main : Main
  /-- What is left of the stream. -/
  unread : List UInt8
  /-- `line_buf` up to `line_len`. -/
  lineBuf : List UInt8
  /-- The strings that `_strdup` has allocated. -/
  copies : List (List UInt8)
  applied : List ℕ
  dropped : List ℕ
  drained : List ℕ
  freed : List ℕ

inductive Event where
  | getStdHandle (valid : Bool)
  | check
  | readFile (ok : Bool) (n : ℕ)
  /-- One character of the chunk; `allocates` says whether `_strdup` succeeds. -/
  | scan (allocates : Bool)
  | enqueue
  /-- The call of `ipc_process`. -/
  | process
  | dequeue
  | apply
  | free
  /-- The call of `ipc_shutdown`. -/
  | shutdown
  | drain
  deriving DecidableEq

/-- `ipc_init`. -/
def ipcInit (started : Bool) (stream : List UInt8) : State where
  queue := ⟨fun _ => none, 0, 0⟩
  running := true
  reader := if started then .starting else .ended
  main := .idle
  unread := stream
  lineBuf := []
  copies := []
  applied := []
  dropped := []
  drained := []
  freed := []

/-- A copy of the string at the front of the characters. -/
def strdup (chars : List UInt8) : List UInt8 := chars.takeWhile (· ≠ 0)

/-- `ReadFile` that returns `n` bytes, or as many as fit. -/
def readFile (s : State) (ok : Bool) (n : ℕ) : State :=
  let chunk := s.unread.take (min n chunkSize)
  if !ok || chunk = [] then { s with reader := .ended }
  else { s with reader := .scanning chunk, unread := s.unread.drop chunk.length }

/-- The body of the loop over the chunk, up to the critical section. -/
def scan (s : State) (allocates : Bool) (c : UInt8) (chunk : List UInt8) : State :=
  if c = newline then
    if 0 < s.lineBuf.length && allocates then
      { s with reader := .enqueuing s.copies.length chunk, copies := s.copies ++ [strdup s.lineBuf] }
    else { s with reader := .scanning chunk, lineBuf := [] }
  else if c ≠ carriageReturn && s.lineBuf.length < lineBufSize - 1 then
    { s with reader := .scanning chunk, lineBuf := s.lineBuf ++ [c] }
  else { s with reader := .scanning chunk }

def enqueue (s : State) (copy : ℕ) (chunk : List UInt8) : State :=
  let nextTail := (s.queue.tail + 1) % stdinQueueSize
  if nextTail ≠ s.queue.head then
    { s with
      queue := { s.queue with cells := Function.update s.queue.cells s.queue.tail (some copy), tail := nextTail }
      reader := .scanning chunk, lineBuf := [] }
  else
    { s with
      dropped := s.dropped ++ [copy], freed := s.freed ++ [copy], reader := .scanning chunk, lineBuf := [] }

/-- The head moves past the line there. -/
def advance (q : Buffer ℕ) : Buffer ℕ := { q with head := (q.head + 1) % stdinQueueSize }

def dequeue (s : State) : State :=
  if s.queue.head ≠ s.queue.tail then
    { s with queue := advance s.queue, main := .holding (s.queue.cells s.queue.head) }
  else { s with main := .idle }

/-- The loop of `ipc_shutdown`, which ends after so many rounds. -/
def drain : ℕ → State → State
  | 0, s => s
  | rounds + 1, s =>
      if s.queue.head ≠ s.queue.tail then
        match s.queue.cells s.queue.head with
        | some line => drain rounds
            { s with queue := advance s.queue, drained := s.drained ++ [line], freed := s.freed ++ [line] }
        | none => drain rounds { s with queue := advance s.queue }
      else s

def step (s : State) (e : Event) : State :=
  match e, s.reader, s.main with
  | .getStdHandle valid, .starting, _ => { s with reader := if valid then .checking else .ended }
  | .check, .checking, _ => { s with reader := if s.running then .reading else .ended }
  | .readFile ok n, .reading, _ => readFile s ok n
  | .scan _, .scanning [], _ => { s with reader := .checking }
  | .scan allocates, .scanning (c :: chunk), _ => scan s allocates c chunk
  | .enqueue, .enqueuing copy chunk, _ => enqueue s copy chunk
  | .process, _, .idle => { s with main := .dequeuing }
  | .dequeue, _, .dequeuing => dequeue s
  | .apply, _, .holding (some line) => { s with applied := s.applied ++ [line], main := .applied line }
  | .apply, _, .holding none => { s with main := .dequeuing }
  | .free, _, .applied line => { s with freed := s.freed ++ [line], main := .dequeuing }
  | .shutdown, _, .idle => { s with running := false, main := .waiting }
  | .drain, _, .waiting => { drain stdinQueueSize s with main := .finished }
  | _, _, _ => s

/-! ## What a run is said to do -/

/-- The lines that are pending. -/
def pending (s : State) : List (Option ℕ) := contents stdinQueueSize s.queue

/-- What is left of the chunk. -/
def Reader.chunk : Reader → List UInt8
  | scanning chunk => chunk
  | enqueuing _ chunk => chunk
  | _ => []

/-- The copy that the reader holds. -/
def Reader.copy : Reader → List ℕ
  | enqueuing copy _ => [copy]
  | _ => []

/-- The line that the main thread has taken and not yet processed. -/
def Main.unapplied : Main → List ℕ
  | holding (some line) => [line]
  | _ => []

/-- The places where a copy can be: processed, in the hand of the main thread, in that of the reader, dropped, drained
or pending. -/
def copyPlaces (s : State) : List (Option ℕ) :=
  (s.applied ++ s.main.unapplied ++ s.reader.copy ++ s.dropped ++ s.drained).map some ++ pending s

/-- The strings that were passed to `apply_value_update`. -/
def appliedLines (s : State) : List (List UInt8) := s.applied.filterMap fun line => s.copies[line]?

def nonEmptyLines (stream : List UInt8) : List (List UInt8) := (lines newline stream).filter (· ≠ [])

/-- The allocation succeeds, and the reader thread has ended before the last critical section. -/
def Assumed (s : State) : Event → Prop
  | .scan allocates => allocates = true
  | .drain => s.main = .waiting → s.reader = .ended
  | _ => True

instance (s : State) : (e : Event) → Decidable (Assumed s e)
  | .scan allocates => inferInstanceAs (Decidable (allocates = true))
  | .drain => inferInstanceAs (Decidable (s.main = .waiting → s.reader = .ended))
  | .getStdHandle _ | .check | .readFile _ _ | .enqueue | .process | .dequeue | .apply | .free | .shutdown =>
      inferInstanceAs (Decidable True)

/-- The run treats the queue as a bounded one, and its copies as owned by one place at a time. -/
structure IsBoundedFifo (stream : List UInt8) (s₀ : State) (es : List Event) : Prop where
  /-- Each line that is completed and not empty is copied, in order, and nothing else is: the stream is what the
  reader has scanned, what is left of its chunk and what it has not read. -/
  copied : ∃ scanned, stream = scanned ++ ((run step s₀ es).reader.chunk ++ (run step s₀ es).unread) ∧
    (run step s₀ es).copies = nonEmptyLines scanned
  /-- Each copy is in one of the places. -/
  placed : (copyPlaces (run step s₀ es)).Perm ((List.range (run step s₀ es).copies.length).map some)
  /-- The lines processed are a subsequence of the lines that are not empty, each processed at most once. -/
  subsequence : (appliedLines (run step s₀ es)).Sublist (nonEmptyLines stream)
  /-- A line is completed when it is copied. It is dropped only if 255 lines are pending then. -/
  full : ∀ fs e, fs ++ [e] <+: es →
    (run step s₀ (fs ++ [e])).copies.length = (run step s₀ fs).copies.length + 1 →
    (run step s₀ fs).copies.length ∈ (run step s₀ es).dropped → (pending (run step s₀ fs)).length = 255
  /-- So many are pending when it is dropped, too. -/
  still_full : ∀ fs e line, fs ++ [e] <+: es → line ∈ (run step s₀ (fs ++ [e])).dropped →
    line ∉ (run step s₀ fs).dropped → (pending (run step s₀ fs)).length = 255
  /-- No copy is freed twice, and none is processed once it is freed. -/
  freed_once : (run step s₀ es).freed.Nodup
  live : ∀ line, (run step s₀ es).main = .holding (some line) → line ∉ (run step s₀ es).freed
  /-- After the shutdown each copy has been freed: it was processed, dropped or drained. -/
  all_freed : (run step s₀ es).main = .finished →
    (run step s₀ es).freed.Perm (List.range (run step s₀ es).copies.length) ∧
      (run step s₀ es).freed.Perm
        ((run step s₀ es).applied ++ (run step s₀ es).dropped ++ (run step s₀ es).drained)

/-! ## The moves -/

/-- The line that the main thread has processed and not yet freed. -/
def Main.unfreed : Main → List ℕ
  | applied line => [line]
  | _ => []

/-- What one step does to the queue and to the copies. -/
inductive Move (s : State) : State → Prop where
  | reader (r : Reader) (unread lineBuf : List UInt8) (hfrom : s.reader.copy = []) (hto : r.copy = [])
      (hended : s.reader = .ended → r = .ended) :
      Move s { s with reader := r, unread := unread, lineBuf := lineBuf }
  | copy (chunk text : List UInt8) (hfrom : s.reader.copy = []) (hended : s.reader ≠ .ended) :
      Move s { s with reader := .enqueuing s.copies.length chunk, copies := s.copies ++ [text] }
  | enqueue (copy : ℕ) (chunk : List UInt8) (hreader : s.reader = .enqueuing copy chunk)
      (hspace : (s.queue.tail + 1) % stdinQueueSize ≠ s.queue.head) :
      Move s { s with
        queue := ⟨Function.update s.queue.cells s.queue.tail (some copy), s.queue.head,
          (s.queue.tail + 1) % stdinQueueSize⟩
        reader := .scanning chunk, lineBuf := [] }
  | drop (copy : ℕ) (chunk : List UInt8) (hreader : s.reader = .enqueuing copy chunk)
      (hfull : (s.queue.tail + 1) % stdinQueueSize = s.queue.head) :
      Move s { s with
        dropped := s.dropped ++ [copy], freed := s.freed ++ [copy], reader := .scanning chunk, lineBuf := [] }
  | main (m : Main) (running : Bool) (hfrom : s.main.unapplied = [] ∧ s.main.unfreed = [] ∧ s.main ≠ .finished)
      (hto : m.unapplied = [] ∧ m.unfreed = [] ∧ m ≠ .finished) :
      Move s { s with main := m, running := running }
  | dequeue (hmain : s.main = .dequeuing) (hpending : s.queue.head ≠ s.queue.tail) :
      Move s { s with queue := advance s.queue, main := .holding (s.queue.cells s.queue.head) }
  | apply (line : ℕ) (hmain : s.main = .holding (some line)) :
      Move s { s with applied := s.applied ++ [line], main := .applied line }
  | free (line : ℕ) (hmain : s.main = .applied line) :
      Move s { s with freed := s.freed ++ [line], main := .dequeuing }
  | drain (hmain : s.main = .waiting) (hreader : s.reader = .ended) :
      Move s { drain stdinQueueSize s with main := .finished }

variable {s : State} {e : Event}

theorem scan_move {allocates : Bool} {c : UInt8} {chunk : List UInt8} (hfrom : s.reader.copy = [])
    (hended : s.reader ≠ .ended) : Move s (scan s allocates c chunk) := by
  have hnever : s.reader = .ended → Reader.scanning chunk = .ended := fun h => absurd h hended
  unfold scan
  split_ifs
  · exact .copy chunk _ hfrom hended
  · exact .reader (.scanning chunk) s.unread [] hfrom rfl hnever
  · exact .reader (.scanning chunk) s.unread (s.lineBuf ++ [c]) hfrom rfl hnever
  · exact .reader (.scanning chunk) s.unread s.lineBuf hfrom rfl hnever

theorem readFile_move {ok : Bool} {n : ℕ} (hreader : s.reader = .reading) : Move s (readFile s ok n) := by
  have hfrom : s.reader.copy = [] := by rw [hreader]; rfl
  unfold readFile
  simp only
  split_ifs
  · exact .reader .ended s.unread s.lineBuf hfrom rfl fun _ => rfl
  · exact .reader _ _ s.lineBuf hfrom rfl fun h => by rw [hreader] at h; cases h

theorem enqueue_move {copy : ℕ} {chunk : List UInt8} (hreader : s.reader = .enqueuing copy chunk) :
    Move s (enqueue s copy chunk) := by
  unfold enqueue
  simp only
  split_ifs with hspace
  · exact .enqueue copy chunk hreader hspace
  · exact .drop copy chunk hreader (not_not.mp hspace)

theorem dequeue_move (hmain : s.main = .dequeuing) : Move s (dequeue s) := by
  unfold dequeue
  split_ifs with hpending
  · exact .dequeue hmain hpending
  · exact .main .idle s.running (by rw [hmain]; decide) (by decide)

theorem step_move (hok : Assumed s e) : step s e = s ∨ Move s (step s e) := by
  unfold step
  split
  · next hreader =>
      refine Or.inr (.reader _ s.unread s.lineBuf (by rw [hreader]; rfl) ?_ ?_)
      · split_ifs <;> rfl
      · exact fun h => by rw [hreader] at h; cases h
  · next hreader =>
      refine Or.inr (.reader _ s.unread s.lineBuf (by rw [hreader]; rfl) ?_ ?_)
      · split_ifs <;> rfl
      · exact fun h => by rw [hreader] at h; cases h
  · next hreader => exact Or.inr (readFile_move hreader)
  · next hreader =>
      refine Or.inr (.reader .checking s.unread s.lineBuf (by rw [hreader]; rfl) rfl ?_)
      exact fun h => by rw [hreader] at h; cases h
  · next hreader => exact Or.inr (scan_move (by rw [hreader]; rfl) fun h => by rw [hreader] at h; cases h)
  · next hreader => exact Or.inr (enqueue_move hreader)
  · next hmain => exact Or.inr (.main .dequeuing s.running (by rw [hmain]; decide) (by decide))
  · next hmain => exact Or.inr (dequeue_move hmain)
  · next hmain => exact Or.inr (.apply _ hmain)
  · next hmain => exact Or.inr (.main .dequeuing s.running (by rw [hmain]; decide) (by decide))
  · next hmain => exact Or.inr (.free _ hmain)
  · next hmain => exact Or.inr (.main .waiting false (by rw [hmain]; decide) (by decide))
  · next hmain => exact Or.inr (.drain hmain (hok hmain))
  · exact Or.inl rfl

/-- The loop of the shutdown takes all lines that are pending. -/
theorem drain_eq {xs : List ℕ} (h : Holds stdinQueueSize s.queue xs) {rounds : ℕ} (hrounds : xs.length ≤ rounds) :
    ∃ q, Holds stdinQueueSize q [] ∧
      drain rounds s = { s with queue := q, drained := s.drained ++ xs, freed := s.freed ++ xs } := by
  induction xs generalizing s rounds with
  | nil =>
      refine ⟨s.queue, h, ?_⟩
      have hempty := h.empty_iff.mpr rfl
      cases rounds with
      | zero => simp [drain]
      | succ rounds => simp [drain, hempty]
  | cons x xs ih =>
      obtain ⟨rounds, rfl⟩ : ∃ n, rounds = n + 1 := by
        rw [List.length_cons] at hrounds
        exact ⟨rounds - 1, by omega⟩
      obtain ⟨hcell, hrest⟩ := h.pop
      have hpending : s.queue.head ≠ s.queue.tail := fun heq => List.cons_ne_nil x xs (h.empty_iff.mp heq)
      obtain ⟨q, hq, hdrain⟩ := @ih
        { s with queue := advance s.queue, drained := s.drained ++ [x], freed := s.freed ++ [x] } hrest rounds
        (by rw [List.length_cons] at hrounds; omega)
      refine ⟨q, hq, ?_⟩
      rw [drain, if_pos hpending, hcell]
      simp only [hdrain, List.append_assoc, List.singleton_append]

/-! ## Ownership -/

/-- Each copy is in one place, and the copies are taken, and processed, in their order. -/
structure Owned (s : State) (xs : List ℕ) : Prop where
  holds : Holds stdinQueueSize s.queue xs
  order : (s.applied ++ s.main.unapplied ++ xs ++ s.reader.copy).Pairwise (· < ·)
  places : (s.applied ++ s.main.unapplied ++ xs ++ s.reader.copy ++ s.dropped ++ s.drained).Perm
    (List.range s.copies.length)
  freed : (s.freed ++ s.main.unfreed).Perm (s.applied ++ s.dropped ++ s.drained)
  finished : s.main = .finished → xs = [] ∧ s.reader = .ended

theorem owned_ipcInit (started : Bool) (stream : List UInt8) : Owned (ipcInit started stream) [] where
  holds := .zero (by decide) _
  order := by cases started <;> exact List.Pairwise.nil
  places := by cases started <;> exact List.Perm.refl _
  freed := List.Perm.refl _
  finished := fun h => by cases h

theorem Owned.move {xs : List ℕ} {s' : State} (h : Owned s xs) (hmove : Move s s') : ∃ ys, Owned s' ys := by
  have hplaces := h.places
  have horder := h.order
  have hfreed := h.freed
  cases hmove with
  | reader r unread lineBuf hfrom hto hended =>
      rw [hfrom, ← hto] at horder hplaces
      exact ⟨xs, h.holds, horder, hplaces, hfreed, fun hm => (h.finished hm).imp_right hended⟩
  | copy chunk text hfrom hended =>
      rw [hfrom, List.append_nil] at horder hplaces
      have hlt : ∀ p ∈ s.applied ++ s.main.unapplied ++ xs, p < s.copies.length := fun p hp =>
        List.mem_range.mp (hplaces.subset (List.mem_append_left _ (List.mem_append_left _ hp)))
      refine ⟨xs, h.holds, ?_, ?_, hfreed, fun hm => absurd (h.finished hm).2 hended⟩
      · refine List.pairwise_append.mpr ⟨horder, List.pairwise_singleton _ _, fun p hp q hq => ?_⟩
        rw [List.mem_singleton.mp hq]
        exact hlt p hp
      · rw [List.length_append, List.length_singleton, List.range_succ]
        refine List.perm_iff_count.mpr fun p => ?_
        have hcount := List.perm_iff_count.mp hplaces p
        simp only [List.count_append, Reader.copy] at hcount ⊢
        omega
  | enqueue copy chunk hreader hspace =>
      have hcopy : s.reader.copy = [copy] := by rw [hreader]; rfl
      rw [hcopy, List.append_assoc _ xs, ← List.append_nil (_ ++ (xs ++ _))] at horder hplaces
      refine ⟨xs ++ [copy], h.holds.push hspace copy, horder, hplaces, hfreed, fun hm => ?_⟩
      have hended := (h.finished hm).2
      rw [hreader] at hended
      cases hended
  | drop copy chunk hreader hfull =>
      have hcopy : s.reader.copy = [copy] := by rw [hreader]; rfl
      rw [hcopy] at horder hplaces
      refine ⟨xs, h.holds, ?_, ?_, ?_, fun hm => ?_⟩
      · exact (List.append_nil _).symm ▸ (List.pairwise_append.mp horder).1
      · refine List.perm_iff_count.mpr fun p => ?_
        have hcount := List.perm_iff_count.mp hplaces p
        simp only [List.count_append, Reader.copy, List.count_nil] at hcount ⊢
        omega
      · refine List.perm_iff_count.mpr fun p => ?_
        have hcount := List.perm_iff_count.mp hfreed p
        simp only [List.count_append] at hcount ⊢
        omega
      · have hended := (h.finished hm).2
        rw [hreader] at hended
        cases hended
  | main m running hfrom hto =>
      rw [hfrom.1, ← hto.1] at horder hplaces
      rw [hfrom.2.1, ← hto.2.1] at hfreed
      exact ⟨xs, h.holds, horder, hplaces, hfreed, fun hm => absurd hm hto.2.2⟩
  | dequeue hmain hpending =>
      cases xs with
      | nil => exact absurd (h.holds.empty_iff.mpr rfl) hpending
      | cons x xs =>
          obtain ⟨hcell, hrest⟩ := h.holds.pop
          rw [hmain] at horder hplaces hfreed
          simp only [Main.unapplied, List.append_nil, Main.unfreed] at horder hplaces hfreed
          rw [hcell]
          refine ⟨xs, hrest, ?_, ?_, ?_, fun hm => by cases hm⟩
          · simpa only [Main.unapplied, List.append_assoc, List.singleton_append] using horder
          · simpa only [Main.unapplied, List.append_assoc, List.singleton_append] using hplaces
          · simpa only [Main.unfreed, List.append_nil] using hfreed
  | apply line hmain =>
      rw [hmain] at horder hplaces hfreed
      refine ⟨xs, h.holds, ?_, ?_, ?_, fun hm => by cases hm⟩
      · exact (List.append_nil (s.applied ++ [line])).symm ▸ horder
      · exact (List.append_nil (s.applied ++ [line])).symm ▸ hplaces
      · refine List.perm_iff_count.mpr fun p => ?_
        have hcount := List.perm_iff_count.mp hfreed p
        simp only [List.count_append, Main.unfreed, List.count_nil] at hcount ⊢
        omega
  | free line hmain =>
      rw [hmain] at horder hplaces hfreed
      exact ⟨xs, h.holds, horder, hplaces, (List.append_nil (s.freed ++ [line])).symm ▸ hfreed,
        fun hm => by cases hm⟩
  | drain hmain hreader =>
      have hlen := h.holds.length_lt
      obtain ⟨q, hq, hdrain⟩ := drain_eq h.holds hlen.le
      have hcopy : s.reader.copy = [] := by rw [hreader]; rfl
      rw [hdrain]
      rw [hmain] at horder hplaces hfreed
      rw [hcopy] at horder hplaces
      refine ⟨[], hq, ?_, ?_, ?_, fun _ => ⟨rfl, hreader⟩⟩
      · simp only [hcopy, Main.unapplied, List.append_nil] at horder ⊢
        exact (List.pairwise_append.mp horder).1
      · refine List.perm_iff_count.mpr fun p => ?_
        have hcount := List.perm_iff_count.mp hplaces p
        simp only [List.count_append, hcopy, Main.unapplied, List.count_nil] at hcount ⊢
        omega
      · refine List.perm_iff_count.mpr fun p => ?_
        have hcount := List.perm_iff_count.mp hfreed p
        simp only [List.count_append, Main.unfreed, List.count_nil] at hcount ⊢
        omega

theorem Owned.step {xs : List ℕ} (h : Owned s xs) (hok : Assumed s e) : ∃ ys, Owned (step s e) ys := by
  rcases step_move hok with hsame | hmove
  · exact ⟨xs, hsame.symm ▸ h⟩
  · exact h.move hmove

/-! ## The reader -/

/-- The copies are the lines of what has been scanned, and the buffer holds the line that has begun. -/
structure Reads (stream : List UInt8) (s : State) (scanned : List UInt8) : Prop where
  stream_eq : stream = scanned ++ (s.reader.chunk ++ s.unread)
  copies_eq : s.copies = nonEmptyLines scanned
  line_eq : (if s.reader.copy = [] then s.lineBuf else []) = (rest newline scanned).take (lineBufSize - 1)

theorem reads_ipcInit (started : Bool) (stream : List UInt8) : Reads stream (ipcInit started stream) [] where
  stream_eq := by cases started <;> rfl
  copies_eq := rfl
  line_eq := by cases started <;> rfl

/-- The reader goes on without scanning anything. -/
theorem Reads.goes_on {stream scanned : List UInt8} {r : Reader} (h : Reads stream s scanned)
    (hchunk : r.chunk = s.reader.chunk) (hcopy : r.copy = s.reader.copy) :
    Reads stream { s with reader := r } scanned where
  stream_eq := hchunk ▸ h.stream_eq
  copies_eq := h.copies_eq
  line_eq := by
    change (if r.copy = [] then s.lineBuf else []) = _
    rw [hcopy]
    exact h.line_eq

/-- The main thread does not touch what the reader works with. -/
theorem Reads.frame {stream scanned : List UInt8} {s' : State} (h : Reads stream s scanned)
    (hreader : s'.reader = s.reader) (hunread : s'.unread = s.unread) (hlineBuf : s'.lineBuf = s.lineBuf)
    (hcopies : s'.copies = s.copies) : Reads stream s' scanned where
  stream_eq := by rw [hreader, hunread]; exact h.stream_eq
  copies_eq := hcopies.trans h.copies_eq
  line_eq := by rw [hreader, hlineBuf]; exact h.line_eq

theorem drain_frame (rounds : ℕ) (s : State) : (drain rounds s).reader = s.reader ∧
    (drain rounds s).unread = s.unread ∧ (drain rounds s).lineBuf = s.lineBuf ∧
    (drain rounds s).copies = s.copies ∧ (drain rounds s).dropped = s.dropped := by
  induction rounds generalizing s with
  | zero => exact ⟨rfl, rfl, rfl, rfl, rfl⟩
  | succ rounds ih =>
      rw [drain]
      split_ifs
      · split
        · exact ih _
        · exact ih _
      · exact ⟨rfl, rfl, rfl, rfl, rfl⟩

theorem Reads.readFile {stream scanned : List UInt8} {ok : Bool} {n : ℕ} (h : Reads stream s scanned)
    (hreader : s.reader = .reading) : Reads stream (readFile s ok n) scanned := by
  have hstream := h.stream_eq
  have hline := h.line_eq
  rw [hreader] at hstream hline
  unfold StdinQueue.readFile
  simp only
  split_ifs
  · exact h.goes_on (by rw [hreader]; rfl) (by rw [hreader]; rfl)
  · refine ⟨?_, h.copies_eq, hline⟩
    have hsplit := List.prefix_iff_eq_append.mp (List.take_prefix (min n chunkSize) s.unread)
    rw [hstream]
    exact congrArg _ hsplit.symm

theorem nonEmptyLines_snoc (scanned : List UInt8) : nonEmptyLines (scanned ++ [newline]) =
    nonEmptyLines scanned ++ [rest newline scanned].filter (· ≠ []) := by
  rw [nonEmptyLines, (Lines.lines_snoc scanned).1, List.filter_append]
  rfl

theorem nonEmptyLines_append (scanned more : List UInt8) :
    nonEmptyLines scanned <+: nonEmptyLines (scanned ++ more) :=
  (Lines.lines_prefix scanned more).filter _

theorem strdup_eq {chars : List UInt8} (h : 0 ∉ chars) : strdup chars = chars := by
  refine List.takeWhile_eq_self_iff.mpr fun c hc => ?_
  have hne : c ≠ 0 := fun heq => h (heq ▸ hc)
  simpa using hne

theorem Reads.scan {stream scanned : List UInt8} {c : UInt8} {chunk : List UInt8}
    (hbytes : carriageReturn ∉ stream ∧ 0 ∉ stream)
    (hlines : ∀ line ∈ lines newline stream, line.length ≤ lineBufSize - 1) (h : Reads stream s scanned)
    (hreader : s.reader = .scanning (c :: chunk)) : Reads stream (scan s true c chunk) (scanned ++ [c]) := by
  have hstream : stream = scanned ++ [c] ++ (chunk ++ s.unread) := by
    have heq := h.stream_eq
    rw [hreader] at heq
    rw [heq, List.append_assoc]
    rfl
  have hline := h.line_eq
  rw [hreader] at hline
  change s.lineBuf = _ at hline
  unfold StdinQueue.scan
  by_cases hc : c = newline
  · -- a line ends, which fits and has no NUL
    subst hc
    have hmem : rest newline scanned ∈ lines newline stream := by
      rw [hstream]
      refine (Lines.lines_prefix _ _).subset ?_
      rw [(Lines.lines_snoc scanned).1]
      exact List.mem_append_right _ (List.mem_singleton.mpr rfl)
    have hwhole : s.lineBuf = rest newline scanned := by
      rw [hline, List.take_of_length_le (hlines _ hmem)]
    have hnul : 0 ∉ s.lineBuf := by
      rw [hwhole]
      intro hzero
      refine hbytes.2 (hstream ▸ ?_)
      exact List.mem_append_left _ (List.mem_append_left _ ((Lines.rest_suffix scanned).subset hzero))
    have hnone : ([] : List UInt8) = (rest newline (scanned ++ [newline])).take (lineBufSize - 1) := by
      rw [(Lines.lines_snoc scanned).2, List.take_nil]
    rw [if_pos rfl, Bool.and_true]
    split_ifs with hpos
    · refine ⟨hstream, ?_, hnone⟩
      rw [decide_eq_true_eq, hwhole, List.length_pos_iff] at hpos
      change s.copies ++ [strdup s.lineBuf] = _
      rw [strdup_eq hnul, hwhole, h.copies_eq, nonEmptyLines_snoc, List.filter_cons_of_pos (by simpa using hpos)]
      rfl
    · refine ⟨hstream, ?_, hnone⟩
      rw [decide_eq_true_eq, hwhole, List.length_pos_iff, not_not] at hpos
      change s.copies = _
      rw [h.copies_eq, nonEmptyLines_snoc, hpos]
      exact (List.append_nil _).symm
  · have hcr : c ≠ carriageReturn := by
      rintro rfl
      exact hbytes.1 (hstream ▸ List.mem_append_left _ (List.mem_append_right _ (List.mem_singleton.mpr rfl)))
    obtain ⟨hsame, hrest⟩ := Lines.lines_snoc_of_ne hc scanned
    have hcopies : s.copies = nonEmptyLines (scanned ++ [c]) := by
      rw [h.copies_eq, nonEmptyLines, nonEmptyLines, hsame]
    rw [if_neg hc, decide_eq_true hcr, Bool.true_and]
    have hlen := congrArg List.length hline
    rw [List.length_take] at hlen
    split_ifs with hspace
    · rw [decide_eq_true_eq] at hspace
      refine ⟨hstream, hcopies, ?_⟩
      change s.lineBuf ++ [c] = _
      rw [hrest, hline, List.take_of_length_le (by omega), List.take_of_length_le]
      rw [List.length_append, List.length_singleton]
      omega
    · rw [decide_eq_true_eq] at hspace
      refine ⟨hstream, hcopies, ?_⟩
      change s.lineBuf = _
      rw [hrest, hline, List.take_append_of_le_length (by omega)]

theorem Reads.step {stream scanned : List UInt8} (hbytes : carriageReturn ∉ stream ∧ 0 ∉ stream)
    (hlines : ∀ line ∈ lines newline stream, line.length ≤ lineBufSize - 1) (h : Reads stream s scanned)
    (hok : Assumed s e) : ∃ scanned', Reads stream (step s e) scanned' := by
  unfold StdinQueue.step
  split
  · next hreader =>
      refine ⟨scanned, h.goes_on ?_ ?_⟩ <;> rw [hreader] <;> split_ifs <;> rfl
  · next hreader =>
      refine ⟨scanned, h.goes_on ?_ ?_⟩ <;> rw [hreader] <;> split_ifs <;> rfl
  · next hreader => exact ⟨scanned, h.readFile hreader⟩
  · next hreader => exact ⟨scanned, h.goes_on (by rw [hreader]; rfl) (by rw [hreader]; rfl)⟩
  · next allocates c chunk hreader =>
      obtain rfl : allocates = true := hok
      exact ⟨scanned ++ [c], h.scan hbytes hlines hreader⟩
  · next hreader =>
      have hstream := h.stream_eq
      have hline := h.line_eq
      rw [hreader] at hstream hline
      refine ⟨scanned, ?_⟩
      unfold enqueue
      simp only
      split_ifs <;> exact ⟨hstream, h.copies_eq, hline⟩
  · exact ⟨scanned, h.frame rfl rfl rfl rfl⟩
  · refine ⟨scanned, ?_⟩
    unfold dequeue
    split_ifs <;> exact h.frame rfl rfl rfl rfl
  · exact ⟨scanned, h.frame rfl rfl rfl rfl⟩
  · exact ⟨scanned, h.frame rfl rfl rfl rfl⟩
  · exact ⟨scanned, h.frame rfl rfl rfl rfl⟩
  · exact ⟨scanned, h.frame rfl rfl rfl rfl⟩
  · obtain ⟨hreader, hunread, hlineBuf, hcopies, -⟩ := drain_frame stdinQueueSize s
    exact ⟨scanned, h.frame hreader hunread hlineBuf hcopies⟩
  · exact ⟨scanned, h⟩

/-! ## Dropped lines -/

theorem Owned.pending_length {xs : List ℕ} (h : Owned s xs) : (pending s).length = xs.length := by
  rw [pending, h.holds.contents_eq, List.length_map]

theorem Owned.perm_places {xs : List ℕ} (h : Owned s xs) :
    (copyPlaces s).Perm ((List.range s.copies.length).map some) := by
  rw [copyPlaces, pending, h.holds.contents_eq, ← List.map_append]
  refine List.Perm.map some (List.perm_iff_count.mpr fun p => ?_)
  have hcount := List.perm_iff_count.mp h.places p
  simp only [List.count_append] at hcount ⊢
  omega

/-- A copy is in one place at a time. -/
theorem Owned.notMem_dropped {xs : List ℕ} {p : ℕ} (h : Owned s xs) (hp : s.reader.copy = [p]) :
    p < s.copies.length ∧ p ∉ s.dropped := by
  have hplaces := h.places
  rw [hp] at hplaces
  have hmem : p ∈ s.applied ++ s.main.unapplied ++ xs ++ [p] :=
    List.mem_append_right _ (List.mem_singleton.mpr rfl)
  refine ⟨List.mem_range.mp (hplaces.subset (List.mem_append_left _ (List.mem_append_left _ hmem))), ?_⟩
  have hnodup := hplaces.nodup_iff.mpr List.nodup_range
  exact List.disjoint_of_nodup_append (List.nodup_append.mp hnodup).1 hmem

/-- A copy that the reader does not hold, and has not dropped, is kept. -/
theorem kept_run {es : List Event} {p : ℕ} (hok : Guarded step Assumed s es) (hp : p < s.copies.length)
    (hdropped : p ∉ s.dropped) (hcopy : p ∉ s.reader.copy) : p ∉ (run step s es).dropped := by
  have hrun : p < (run step s es).copies.length ∧ p ∉ (run step s es).dropped ∧
      p ∉ (run step s es).reader.copy := by
    refine Machine.run_invariant (I := fun t => p < t.copies.length ∧ p ∉ t.dropped ∧ p ∉ t.reader.copy)
      (fun t e hok ht => ?_) hok ⟨hp, hdropped, hcopy⟩
    rcases step_move hok with hsame | hmove
    · rw [hsame]
      exact ht
    · generalize step t e = t' at hmove
      obtain ⟨hlt, hnot, hheld⟩ := ht
      cases hmove with
      | reader r unread lineBuf hfrom hto hended => exact ⟨hlt, hnot, by rw [hto]; exact List.not_mem_nil⟩
      | copy chunk text hfrom hended =>
          refine ⟨?_, hnot, fun hmem => absurd (List.mem_singleton.mp hmem) (by omega)⟩
          change p < (t.copies ++ [text]).length
          rw [List.length_append]
          omega
      | enqueue copy chunk hreader hspace => exact ⟨hlt, hnot, List.not_mem_nil⟩
      | drop copy chunk hreader hfull =>
          refine ⟨hlt, fun hmem => ?_, List.not_mem_nil⟩
          rw [hreader] at hheld
          exact (List.mem_append.mp hmem).elim hnot hheld
      | main m running hfrom hto => exact ⟨hlt, hnot, hheld⟩
      | dequeue hmain hpending => exact ⟨hlt, hnot, hheld⟩
      | apply line hmain => exact ⟨hlt, hnot, hheld⟩
      | free line hmain => exact ⟨hlt, hnot, hheld⟩
      | drain hmain hreader =>
          obtain ⟨hsame, -, -, hcopies, hdropped⟩ := drain_frame stdinQueueSize t
          refine ⟨?_, ?_, ?_⟩
          · exact hcopies.symm ▸ hlt
          · exact hdropped.symm ▸ hnot
          · exact hsame.symm ▸ hheld
  exact hrun.2.1

/-- A copy that the reader holds is dropped in a later step only if the queue is full already. -/
theorem full_of_dropped {es : List Event} {p : ℕ} {xs : List ℕ} (hok : Guarded step Assumed s es)
    (h : Owned s xs) (hp : s.reader.copy = [p]) (hdropped : p ∈ (run step s es).dropped) :
    (pending s).length = 255 := by
  induction es generalizing s xs with
  | nil => exact absurd hdropped (h.notMem_dropped hp).2
  | cons e es ih =>
      rw [Machine.run_cons] at hdropped
      have hok' := hok.2
      rcases step_move hok.1 with hsame | hmove
      · rw [hsame] at hok' hdropped
        exact ih hok' h hp hdropped
      · obtain ⟨ys, hown⟩ := h.move hmove
        generalize step s e = s' at hmove hown hok' hdropped
        have hafter : s'.reader.copy = [p] → (pending s').length = 255 := fun hp' => ih hok' hown hp' hdropped
        have hne : s.reader.copy ≠ [] := hp ▸ List.cons_ne_nil p []
        cases hmove with
        | reader r unread lineBuf hfrom hto hended => exact absurd hfrom hne
        | copy chunk text hfrom hended => exact absurd hfrom hne
        | enqueue copy chunk hreader hspace =>
            obtain ⟨hlt, hnot⟩ := h.notMem_dropped hp
            exact absurd hdropped (kept_run hok' hlt hnot List.not_mem_nil)
        | drop copy chunk hreader hfull =>
            have hlen := h.holds.full_iff.mp hfull
            rw [h.pending_length]
            exact Nat.succ.inj hlen
        | main m running hfrom hto => exact hafter hp
        | dequeue hmain hpending =>
            -- fewer lines are pending after the step, so that there would be too many before it
            cases xs with
            | nil => exact absurd (h.holds.empty_iff.mpr rfl) hpending
            | cons x xs =>
                have hrest : contents stdinQueueSize (advance s.queue) = xs.map some := h.holds.pop.2.contents_eq
                have hlast : (contents stdinQueueSize (advance s.queue)).length = 255 := hafter hp
                have hlen : (x :: xs).length < 256 := h.holds.length_lt
                rw [hrest, List.length_map] at hlast
                rw [List.length_cons] at hlen
                omega
        | apply line hmain => exact hafter hp
        | free line hmain => exact hafter hp
        | drain hmain hreader =>
            rw [hreader] at hne
            exact absurd rfl hne

/-- The step that completes a line, when that line is dropped later. -/
theorem full_of_completed {es : List Event} {xs : List ℕ} (hok : Guarded step Assumed s (e :: es))
    (h : Owned s xs) (hcompleted : (step s e).copies.length = s.copies.length + 1)
    (hdropped : s.copies.length ∈ (run step s (e :: es)).dropped) : (pending s).length = 255 := by
  rw [Machine.run_cons] at hdropped
  have hok' := hok.2
  rcases step_move hok.1 with hsame | hmove
  · rw [hsame] at hcompleted
    omega
  · obtain ⟨ys, hown⟩ := h.move hmove
    generalize step s e = s' at hmove hown hok' hdropped hcompleted
    have hafter : s'.reader.copy = [s.copies.length] → (pending s').length = 255 := fun hp =>
      full_of_dropped hok' hown hp hdropped
    have hmore : s'.copies ≠ s.copies := fun heq => by rw [heq] at hcompleted; omega
    cases hmove with
    | copy chunk text hfrom hended => exact hafter rfl
    | drain hmain hreader => exact absurd (drain_frame stdinQueueSize s).2.2.2.1 hmore
    | _ => exact absurd rfl hmore

/-- The step that drops a line. -/
theorem full_of_drop {xs : List ℕ} {p : ℕ} (hok : Assumed s e) (h : Owned s xs) (hbefore : p ∉ s.dropped)
    (hafter : p ∈ (step s e).dropped) : (pending s).length = 255 := by
  rcases step_move hok with hsame | hmove
  · exact absurd (hsame ▸ hafter) hbefore
  · generalize step s e = s' at hmove hafter
    cases hmove with
    | drop copy chunk hreader hfull =>
        have hlen := h.holds.full_iff.mp hfull
        rw [h.pending_length]
        exact Nat.succ.inj hlen
    | drain hmain hreader => exact absurd ((drain_frame stdinQueueSize s).2.2.2.2 ▸ hafter) hbefore
    | _ => exact absurd hafter hbefore

/-! ## Whole runs -/

/-- The elements at ascending positions. -/
theorem filterMap_sublist {α : Type*} {idx : List ℕ} {l : List α} (horder : idx.Pairwise (· < ·))
    (hlt : ∀ i ∈ idx, i < l.length) : (idx.filterMap fun i => l[i]?).Sublist l := by
  have hrange : idx.Sublist (List.range l.length) :=
    List.sublist_of_subperm_of_pairwise
      (List.subperm_of_subset horder.nodup fun i hi => List.mem_range.mpr (hlt i hi)) horder
      List.pairwise_lt_range
  have hall : ((List.range l.length).filterMap fun i => l[i]?) = l := by
    clear hlt hrange
    induction l with
    | nil => rfl
    | cons x l ih => simp [List.range_succ_eq_map, List.filterMap_map, ih]
  have hsub := hrange.filterMap fun i => l[i]?
  rwa [hall] at hsub

section Runs
variable {started : Bool} {stream : List UInt8} {es : List Event}

theorem owned_run (hok : Guarded step Assumed (ipcInit started stream) es) :
    ∃ xs, Owned (run step (ipcInit started stream) es) xs := by
  refine Machine.run_invariant (I := fun s => ∃ xs, Owned s xs) ?_ hok ⟨[], owned_ipcInit started stream⟩
  rintro s e hok ⟨xs, h⟩
  exact h.step hok

theorem reads_run (hbytes : carriageReturn ∉ stream ∧ 0 ∉ stream)
    (hlines : ∀ line ∈ lines newline stream, line.length ≤ 65535)
    (hok : Guarded step Assumed (ipcInit started stream) es) :
    ∃ scanned, Reads stream (run step (ipcInit started stream) es) scanned := by
  refine Machine.run_invariant (I := fun s => ∃ scanned, Reads stream s scanned) ?_ hok
    ⟨[], reads_ipcInit started stream⟩
  rintro s e hok ⟨scanned, h⟩
  exact h.step hbytes hlines hok

theorem Owned.applied_sublist {xs : List ℕ} (h : Owned s xs) : (appliedLines s).Sublist s.copies := by
  have horder := h.order
  rw [List.append_assoc, List.append_assoc] at horder
  refine filterMap_sublist (List.pairwise_append.mp horder).1 fun i hi => ?_
  refine List.mem_range.mp (h.places.subset ?_)
  simp only [List.append_assoc]
  exact List.mem_append_left _ hi

/-- What was freed, and what the main thread holds, is not twice there. -/
theorem Owned.nodup {xs : List ℕ} (h : Owned s xs) :
    (s.freed ++ s.main.unfreed ++ s.main.unapplied).Nodup := by
  refine List.nodup_iff_count_le_one.mpr fun p => ?_
  have hplaces := List.nodup_iff_count_le_one.mp (h.places.nodup_iff.mpr List.nodup_range) p
  have hfreed := List.perm_iff_count.mp h.freed p
  simp only [List.count_append] at hplaces hfreed ⊢
  omega

theorem Owned.all_freed {xs : List ℕ} (h : Owned s xs) (hmain : s.main = .finished) :
    s.freed.Perm (List.range s.copies.length) ∧ s.freed.Perm (s.applied ++ s.dropped ++ s.drained) := by
  obtain ⟨rfl, hreader⟩ := h.finished hmain
  have hfreed := h.freed
  have hplaces := h.places
  rw [hmain] at hfreed hplaces
  rw [hreader] at hplaces
  simp only [Main.unfreed, Main.unapplied, Reader.copy, List.append_nil] at hfreed hplaces
  exact ⟨hfreed.trans hplaces, hfreed⟩

/-- **The queue is a bounded one.** -/
theorem isBoundedFifo (started : Bool) {stream : List UInt8} (hbytes : carriageReturn ∉ stream ∧ 0 ∉ stream)
    (hlines : ∀ line ∈ lines newline stream, line.length ≤ 65535) {es : List Event}
    (hok : Guarded step Assumed (ipcInit started stream) es) :
    IsBoundedFifo stream (ipcInit started stream) es := by
  obtain ⟨xs, hlast⟩ := owned_run hok
  obtain ⟨scanned, hreads⟩ := reads_run hbytes hlines hok
  refine ⟨⟨scanned, hreads.stream_eq, hreads.copies_eq⟩, hlast.perm_places, ?_, ?_, ?_, ?_, ?_, hlast.all_freed⟩
  · refine hlast.applied_sublist.trans ?_
    rw [hreads.copies_eq, hreads.stream_eq]
    exact (nonEmptyLines_append scanned _).sublist
  · intro fs e hfs hcompleted hdropped
    obtain ⟨gs, rfl⟩ := hfs
    obtain ⟨ys, howned⟩ := owned_run (hok.of_prefix ((List.prefix_append fs [e]).trans (List.prefix_append _ gs)))
    rw [List.append_assoc, List.singleton_append] at hok hdropped
    rw [Machine.run_append] at hdropped
    rw [Machine.run_snoc] at hcompleted
    exact full_of_completed (Machine.guarded_append.mp hok).2 howned hcompleted hdropped
  · intro fs e line hfs hafter hbefore
    have hsofar := hok.of_prefix hfs
    obtain ⟨ys, howned⟩ := owned_run (hsofar.of_prefix (List.prefix_append fs [e]))
    rw [Machine.run_snoc] at hafter
    exact full_of_drop ((Machine.guarded_append.mp hsofar).2.1) howned hbefore hafter
  · exact (List.nodup_append.mp (List.nodup_append.mp hlast.nodup).1).1
  · intro line hmain hfreed
    have hnodup := hlast.nodup
    rw [hmain] at hnodup
    exact List.disjoint_of_nodup_append hnodup (List.mem_append_left _ hfreed) (List.mem_singleton.mpr rfl)

/-- Of the lines `a` and `bc`, one is processed and one drained. -/
def twoLines : List Event :=
  [.getStdHandle true, .check, .readFile true 4, .scan true, .scan true, .process, .enqueue, .dequeue, .scan true,
    .apply, .scan true, .scan true, .check, .readFile true 9, .scan true, .free, .scan true, .dequeue, .shutdown,
    .enqueue, .scan true, .check, .drain]

theorem isBoundedFifo_twoLines :
    IsBoundedFifo [97, 10, 10, 98, 99, 10] (ipcInit true [97, 10, 10, 98, 99, 10]) twoLines :=
  isBoundedFifo true (by decide) (by decide) (by decide)

example : (run step (ipcInit true [97, 10, 10, 98, 99, 10]) twoLines).drained = [1] := by decide

end Runs

end OpcuaLight.Runtime.StdinQueue
