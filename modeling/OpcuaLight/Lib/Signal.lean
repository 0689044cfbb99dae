import OpcuaLight.Lib.Machine

/-!
# A flag for a changed value

A writer changes a value in place and then sets a flag. A reader that has seen the flag clears it, and then reads the
value, as often as it needs to. Nothing but the flag orders the two: a value can be written while it is read, and
the read then gives anything.

* `settled` : when the writer has set the flag for its last write and the reader has cleared it, all that the reader
  has read last is the value as it is.
* `holds_of_run` : what the reader makes of what it reads, and keeps in its other work.
-/

namespace Signal

variable {α σ ω : Type*}

/-- Where the reader is. -/
inductive Phase (α : Type*) where
  | idle
  /-- It has seen the flag. -/
  | seen
  /-- It has cleared the flag, and has read these since. -/
  | cleared (reads : List α)
  /-- It is reading; `clean` as long as nothing is written. -/
  | reading (reads : List α) (clean : Bool)

structure State (α σ : Type*) where
  value : α
  writing : Bool
  /-- The flag has not been set for the last write. -/
  owed : Bool
  flag : Bool
  phase : Phase α
  /-- What the reader has read for the last flag. -/
  last : List α
  reader : σ

inductive Event (α ω : Type*) where
  | beginWrite
  | endWrite (value : α)
  | setFlag
  | seeFlag
  | clearFlag
  | beginRead
  /-- A read that was not clean gives anything. -/
  | endRead (torn : α)
  | work (w : ω)

/-- What the reader makes of what it has read, once that is enough, and what else it does. -/
structure Reader (α σ ω : Type*) where
  handle : σ → List α → Option σ
  work : σ → ω → σ

def Phase.spoil : Phase α → Phase α
  | .reading reads _ => .reading reads false
  | phase => phase

section Step
variable (R : Reader α σ ω)

def step (s : State α σ) : Event α ω → State α σ
  | .beginWrite => { s with writing := true, phase := s.phase.spoil }
  | .endWrite value => if s.writing then { s with value, writing := false, owed := true } else s
  | .setFlag => { s with owed := false, flag := true }
  | .seeFlag =>
      match s.phase, s.flag with
      | .idle, true => { s with phase := .seen }
      | _, _ => s
  | .clearFlag =>
      match s.phase with
      | .seen => { s with flag := false, phase := .cleared [] }
      | _ => s
  | .beginRead =>
      match s.phase with
      | .cleared reads => { s with phase := .reading reads (!s.writing) }
      | _ => s
  | .endRead torn =>
      match s.phase with
      | .reading reads clean =>
          let reads := reads ++ [if clean then s.value else torn]
          match R.handle s.reader reads with
          | none => { s with phase := .cleared reads }
          | some reader => { s with phase := .idle, last := reads, reader }
      | _ => s
  | .work w =>
      match s.phase with
      | .idle => { s with reader := R.work s.reader w }
      | _ => s

end Step

/-- The reader has started on the value. -/
def State.start (value : α) (reader : σ) : State α σ := ⟨value, false, false, false, .idle, [], reader⟩

/-- Nothing is being written, and the reader has come back from the last flag. -/
structure State.Quiet (s : State α σ) : Prop where
  writing : s.writing = false
  owed : s.owed = false
  flag : s.flag = false
  phase : s.phase = .idle

/-- The flag is on its way. -/
def State.Pending (s : State α σ) : Prop := s.writing = true ∨ s.owed = true ∨ s.flag = true

/-- All that was read for the last flag is the value; what the reader has started on is `first`. -/
def State.Fresh (first : α) (s : State α σ) : Prop :=
  match s.phase with
  | .idle => (∀ x ∈ s.last, x = s.value) ∧ (s.last = [] → first = s.value)
  | .seen => False
  | .cleared reads => ∀ x ∈ reads, x = s.value
  | .reading reads clean => (∀ x ∈ reads, x = s.value) ∧ clean = true

section Rules
variable {R : Reader α σ ω}

theorem pending_or_fresh_step {first : α} {s : State α σ} (h : s.Pending ∨ s.Fresh first) (e : Event α ω) :
    (step R s e).Pending ∨ (step R s e).Fresh first := by
  cases e with
  | beginWrite => exact Or.inl (Or.inl rfl)
  | endWrite value =>
      rw [step]
      split_ifs
      · exact Or.inl (Or.inr (Or.inl rfl))
      · exact h
  | setFlag => exact Or.inl (Or.inr (Or.inr rfl))
  | seeFlag =>
      rw [step]
      split
      · rename_i hflag
        exact Or.inl (Or.inr (Or.inr hflag))
      · exact h
  | clearFlag =>
      rw [step]
      split
      · -- nothing has been read since
        exact Or.inr fun _ hx => absurd hx List.not_mem_nil
      · exact h
  | beginRead =>
      rw [step]
      split
      · rename_i reads hphase
        rcases h with hpending | hfresh
        · exact Or.inl hpending
        · rw [State.Fresh, hphase] at hfresh
          rcases Bool.eq_false_or_eq_true s.writing with hwriting | hwriting
          · exact Or.inl (Or.inl hwriting)
          · exact Or.inr ⟨hfresh, by rw [hwriting]; rfl⟩
      · exact h
  | endRead torn =>
      rw [step]
      split
      · rename_i reads clean hphase
        rcases h with hpending | hfresh
        · left
          dsimp only
          split <;> exact hpending
        · rw [State.Fresh, hphase] at hfresh
          obtain ⟨hreads, rfl⟩ := hfresh
          have hall : ∀ x ∈ reads ++ [s.value], x = s.value :=
            List.forall_mem_append.mpr ⟨hreads, List.forall_mem_singleton.mpr rfl⟩
          right
          dsimp only [if_true]
          split
          · exact hall
          · exact ⟨hall, fun hnil => absurd hnil (List.append_ne_nil_of_right_ne_nil _ (List.cons_ne_nil _ _))⟩
      · exact h
  | work w =>
      rw [step]
      split
      · rename_i hphase
        rcases h with hpending | hfresh
        · exact Or.inl hpending
        · rw [State.Fresh, hphase] at hfresh
          right
          rw [State.Fresh, hphase]
          exact hfresh
      · exact h

/-- **No change is lost.** In every interleaving. -/
theorem settled (value : α) (reader : σ) (es : List (Event α ω)) {s : State α σ}
    (hs : s = Machine.run (step R) (State.start value reader) es) (hquiet : s.Quiet) :
    (∀ x ∈ s.last, x = s.value) ∧ (s.last = [] → value = s.value) := by
  have h : s.Pending ∨ s.Fresh value := by
    rw [hs]
    exact Machine.run_invariant' (I := fun s : State α σ => s.Pending ∨ s.Fresh value)
      (fun s e h => pending_or_fresh_step h e) es
      (Or.inr ⟨fun _ hx => absurd hx List.not_mem_nil, fun _ => rfl⟩)
  rcases h with (hwriting | howed | hflag) | hfresh
  · exact absurd (hquiet.writing.symm.trans hwriting) Bool.false_ne_true
  · exact absurd (hquiet.owed.symm.trans howed) Bool.false_ne_true
  · exact absurd (hquiet.flag.symm.trans hflag) Bool.false_ne_true
  · rw [State.Fresh, hquiet.phase] at hfresh
    exact hfresh

/-- What the reader keeps, and what holds of it and of what it has read last. -/
theorem holds_of_run {I : σ → Prop} {J : List α → σ → Prop}
    (hhandle : ∀ S reads S', I S → R.handle S reads = some S' → I S' ∧ J reads S')
    (hwork : ∀ S w, I S → I (R.work S w)) (hkeep : ∀ S w reads, I S → J reads S → J reads (R.work S w))
    {value : α} {reader : σ} (hI : I reader) (hJ : J [] reader) (es : List (Event α ω)) :
    I (Machine.run (step R) (State.start value reader) es).reader ∧
      J (Machine.run (step R) (State.start value reader) es).last
        (Machine.run (step R) (State.start value reader) es).reader := by
  refine Machine.run_invariant' (I := fun s : State α σ => I s.reader ∧ J s.last s.reader) ?_ es ⟨hI, hJ⟩
  intro s e h
  cases e with
  | beginWrite => exact h
  | setFlag => exact h
  | endWrite value =>
      rw [step]
      split_ifs <;> exact h
  | seeFlag =>
      rw [step]
      split <;> exact h
  | clearFlag =>
      rw [step]
      split <;> exact h
  | beginRead =>
      rw [step]
      split <;> exact h
  | endRead torn =>
      rw [step]
      split
      · dsimp only
        split
        · exact h
        · rename_i hread
          exact hhandle _ _ _ h.1 hread
      · exact h
  | work w =>
      rw [step]
      split
      · exact ⟨hwork _ w h.1, hkeep _ w _ h.1 h.2⟩
      · exact h

/-! ## The reader comes back -/

/-- Reads, with what the torn ones give. -/
def reads (torn : α) : ℕ → List (Event α ω)
  | 0 => []
  | n + 1 => .beginRead :: .endRead torn :: reads torn n

/-- The steps of the reader for one flag. -/
def turn (torn : α) (n : ℕ) : List (Event α ω) := .endRead torn :: .seeFlag :: .clearFlag :: reads torn n

/-- Of the state, only what the reader has read has changed. -/
structure Untouched (s s' : State α σ) : Prop where
  value : s'.value = s.value
  writing : s'.writing = s.writing
  owed : s'.owed = s.owed
  flag : s'.flag = s.flag

theorem Untouched.trans {s s' s'' : State α σ} (h : Untouched s s') (h' : Untouched s' s'') : Untouched s s'' :=
  ⟨h'.value.trans h.value, h'.writing.trans h.writing, h'.owed.trans h.owed, h'.flag.trans h.flag⟩

theorem untouched_beginRead (s : State α σ) : Untouched s (step R s .beginRead) := by
  rw [step]
  split <;> exact ⟨rfl, rfl, rfl, rfl⟩

theorem untouched_endRead (s : State α σ) (torn : α) : Untouched s (step R s (.endRead torn)) := by
  rw [step]
  split
  · dsimp only
    split <;> exact ⟨rfl, rfl, rfl, rfl⟩
  · exact ⟨rfl, rfl, rfl, rfl⟩

/-- The reader is not in a read, and `m` more are enough. -/
def Nearly (n m : ℕ) : Phase α → Prop
  | .idle => True
  | .cleared reads => m ≠ 0 ∧ n ≤ reads.length + m
  | _ => False

section Bounded
variable {n : ℕ} (hn : ∀ S reads, n ≤ List.length reads → R.handle S reads ≠ none) (torn : α)
include hn

/-- A read ends with the reader idle, or with one read less to go. -/
theorem nearly_endRead {s : State α σ} {reads : List α} {clean : Bool} (hphase : s.phase = .reading reads clean)
    {m : ℕ} (hm : n ≤ reads.length + (m + 1)) : Nearly n m (step R s (.endRead torn)).phase := by
  rw [step, hphase]
  dsimp only
  split
  · rename_i hread
    have hshort := mt (hn s.reader _) (not_not.mpr hread)
    rw [List.length_append, List.length_singleton] at hshort
    rw [Nearly, List.length_append, List.length_singleton]
    omega
  · trivial

theorem idle_reads {m : ℕ} {s : State α σ} (h : Nearly n m s.phase) :
    (Machine.run (step R) s (reads torn m)).phase = .idle ∧ Untouched s (Machine.run (step R) s (reads torn m)) := by
  induction m generalizing s with
  | zero =>
      refine ⟨?_, rfl, rfl, rfl, rfl⟩
      unfold Nearly at h
      split at h
      · assumption
      · exact absurd rfl h.1
      · exact h.elim
  | succ m ih =>
      have htouch := (untouched_beginRead (R := R) s).trans (untouched_endRead (R := R) _ torn)
      have hnext : Nearly n m (step R (step R s .beginRead) (.endRead torn)).phase := by
        unfold Nearly at h
        split at h
        · rename_i hphase
          have hsame : step R (step R s .beginRead) (.endRead torn) = s := by
            simp only [step, hphase]
          rw [hsame, hphase]
          trivial
        · rename_i reads hphase
          have hreading : (step R s .beginRead).phase = .reading reads (!s.writing) := by
            simp only [step, hphase]
          exact nearly_endRead hn torn hreading h.2
        · exact h.elim
      obtain ⟨hidle, hrest⟩ := ih hnext
      exact ⟨hidle, htouch.trans hrest⟩

omit hn in
/-- The reader sees the flag and clears it, unless it is reading for one. -/
theorem clear_flag (s : State α σ) (hphase : ∀ reads clean, s.phase ≠ .reading reads clean) :
    let s' := step R (step R s .seeFlag) .clearFlag
    Nearly n (n + 1) s'.phase ∧ s'.value = s.value ∧ s'.writing = s.writing ∧ s'.owed = s.owed ∧
      (s.flag = false ∨ s.phase = .idle → s'.flag = false) := by
  rcases s with ⟨value, writing, owed, flag, phase, last, reader⟩
  cases phase with
  | reading reads clean => exact absurd rfl (hphase reads clean)
  | seen => exact ⟨⟨Nat.succ_ne_zero n, by omega⟩, rfl, rfl, rfl, fun _ => rfl⟩
  | cleared reads =>
      exact ⟨⟨Nat.succ_ne_zero n, by omega⟩, rfl, rfl, rfl, fun h => h.resolve_right (fun hidle => nomatch hidle)⟩
  | idle =>
      cases flag with
      | false => exact ⟨trivial, rfl, rfl, rfl, fun _ => rfl⟩
      | true => exact ⟨⟨Nat.succ_ne_zero n, by omega⟩, rfl, rfl, rfl, fun _ => rfl⟩

/-- After a turn the reader is idle; if it was idle before, it has cleared the flag. -/
theorem idle_turn (s : State α σ) :
    let s' := Machine.run (step R) s (turn torn (n + 1))
    s'.phase = .idle ∧ s'.value = s.value ∧ s'.writing = s.writing ∧ s'.owed = s.owed ∧
      (s.flag = false ∨ s.phase = .idle → s'.flag = false) := by
  intro s'
  have hend : ∀ reads clean, (step R s (.endRead torn)).phase ≠ .reading reads clean := by
    intro reads clean
    rw [step]
    split
    · dsimp only
      split <;> exact nofun
    · rename_i hphase
      exact hphase reads clean
  have hstay : s.phase = .idle → step R s (.endRead torn) = s := fun hidle => by
    rw [step, hidle]
  have htouch := untouched_endRead (R := R) s torn
  obtain ⟨hnearly, hvalue, hwriting, howed, hflag⟩ := clear_flag (R := R) (n := n) _ hend
  obtain ⟨hidle, hrest⟩ := idle_reads hn torn hnearly
  refine ⟨hidle, hrest.value.trans (hvalue.trans htouch.value), hrest.writing.trans (hwriting.trans htouch.writing),
    hrest.owed.trans (howed.trans htouch.owed), fun h => hrest.flag.trans (hflag ?_)⟩
  exact h.imp htouch.flag.trans fun hphase => by rw [hstay hphase, hphase]

/-- **The reader comes back** within two turns, once the writer has set the flag for its last write. -/
theorem quiet_turns {s : State α σ} (hwriting : s.writing = false) (howed : s.owed = false) :
    let s' := Machine.run (step R) s (turn torn (n + 1) ++ turn torn (n + 1))
    s'.Quiet ∧ s'.value = s.value := by
  obtain ⟨hidle, hvalue, hwriting₁, howed₁, -⟩ := idle_turn hn torn s
  obtain ⟨hidle', hvalue', hwriting', howed', hflag⟩ :=
    idle_turn hn torn (Machine.run (step R) s (turn torn (n + 1)))
  rw [Machine.run_append]
  exact ⟨⟨hwriting'.trans (hwriting₁.trans hwriting), howed'.trans (howed₁.trans howed), hflag (Or.inr hidle), hidle'⟩,
    hvalue'.trans hvalue⟩

end Bounded

end Rules

end Signal
