import OpcuaLight.Process.Manager

/-!
# The manager tracks its child

As long as a start comes after the exit of the child spawned last, and no `error` comes of an earlier
child, all earlier children have exited (`Inv.earlier`), so that no event of theirs is left. An `error`
of a live child is where this fails: the manager drops the child, and the next start spawns another.
-/

namespace OpcuaLight.Process

namespace Manager

theorem cleanups_children (m : Manager) (calls : List Nat) :
    (m.cleanups calls).children = m.children := by
  unfold cleanups
  induction calls generalizing m with
  | nil => rfl
  | cons call calls ih => exact ih m.cleanup

theorem cleanups_state (m : Manager) (calls : List Nat) :
    (m.cleanups calls).state = .stopped ∨ calls = [] ∧ (m.cleanups calls).state = m.state := by
  unfold cleanups
  induction calls generalizing m with
  | nil => exact Or.inr ⟨rfl, rfl⟩
  | cons call calls ih =>
      apply Or.inl
      rcases ih m.cleanup with h | ⟨-, h⟩
      · exact h
      · exact h.trans rfl

theorem crash_children (m : Manager) (reason : String) : (m.crash reason).1.children = m.children := by
  unfold crash
  split_ifs <;> rfl

theorem crash_state (m : Manager) (reason : String) :
    (m.crash reason).1.state = .error ∨ m.stopping = true ∧ (m.crash reason).1.state = m.state := by
  unfold crash
  split_ifs with h
  · exact Or.inr ⟨h, rfl⟩
  · exact Or.inl rfl

/-- After the exit of a live child, or an error, with a call of `stop` waiting if the manager is
stopping, the manager is not running. -/
theorem ended_not_running {m : Manager} {reason : String} {k : Nat} {child : Child} {calls : List Nat}
    (h : m.state = .running → m.stopping = true → calls ≠ []) :
    (((m.crash reason).1.setChild k child).cleanups calls).state ≠ .running := by
  intro hrun
  rcases cleanups_state ((m.crash reason).1.setChild k child) calls with hs | ⟨hnil, hs⟩
  · exact absurd (hs.symm.trans hrun) nofun
  · have hstate : (m.crash reason).1.state = .running := hs.symm.trans hrun
    rcases crash_state m reason with hc | ⟨hstop, hc⟩
    · exact absurd (hc.symm.trans hstate) nofun
    · exact h (hc.symm.trans hstate) hstop hnil

theorem ended_children (m : Manager) (reason : String) (k : Nat) (child : Child) (calls : List Nat) :
    (((m.crash reason).1.setChild k child).cleanups calls).children = m.children.set k child := by
  rw [cleanups_children]
  show (m.crash reason).1.children.set k child = _
  rw [crash_children]

theorem onExit_of_live {m : Manager} {k : Nat} {child : Child} (hk : m.children[k]? = some child)
    (hlive : child.exited = false) (code : Option Int) (signal : Option String) :
    (m.onExit k code signal).1 = ((m.crash (m.exitReason code signal)).1.setChild k
      { child with exited := true, onceExit := [] }).cleanups child.onceExit := by
  unfold onExit
  rw [hk]
  simp only [hlive]
  rfl

theorem onExit_of_exited {m : Manager} {k : Nat} (h : ∀ child ∈ m.children[k]?, child.exited = true)
    (code : Option Int) (signal : Option String) : m.onExit k code signal = (m, ⟨[], []⟩) := by
  unfold onExit
  split
  · rfl
  · rename_i child hk
    rw [if_pos (h child hk)]

theorem onError_of_child {m : Manager} {k : Nat} {child : Child} (hk : m.children[k]? = some child)
    (message : String) : (m.onError k message).1 =
      ((m.crash s!"Process error: {message}").1.setChild k { child with onceError := [] }).cleanups
        child.onceError := by
  unfold onError
  rw [hk]

theorem onError_of_none {m : Manager} {k : Nat} (hk : m.children[k]? = none) (message : String) :
    m.onError k message = (m, ⟨[], []⟩) := by
  unfold onError
  rw [hk]

/-- A call of `stop` is refused, or it attaches its listeners to the process. -/
theorem stop_cases (m : Manager) (call : Nat) :
    ((∀ k child, m.state = .running → m.process = some k → m.children[k]? ≠ some child) ∧
      m.stop call = (m, some "Process is not running")) ∨
    ∃ k child, m.state = .running ∧ m.process = some k ∧ m.children[k]? = some child ∧
      m.stop call = ({ m with stopping := true }.setChild k (child.listen call), none) := by
  unfold stop
  split
  · rename_i k child hstate hchild
    obtain ⟨j, hj, hmap⟩ := Option.bind_eq_some_iff.mp hchild
    obtain ⟨c, hc, hpair⟩ := Option.map_eq_some_iff.mp hmap
    obtain ⟨hjk, hcc⟩ := Prod.mk.inj hpair
    rw [hjk] at hj hc
    rw [hcc] at hc
    exact Or.inr ⟨k, child, hstate, hj, hc, rfl⟩
  · rename_i hno
    refine Or.inl ⟨fun k child hstate hp hk => ?_, rfl⟩
    refine hno k child hstate ?_
    rw [hp, Option.bind_some, hk]
    rfl

/-- A start is refused, fails to spawn, or has a new child. -/
theorem start_cases (m : Manager) (now : Nat) (spawned : Spawned) :
    (m.state = .running ∧ m.process.isSome ∧
      m.start now spawned = (m, .error "Process is already running")) ∨
    (¬(m.state = .running ∧ m.process.isSome = true) ∧
      (((m.start now spawned).1.children = m.children ∧
          ((m.start now spawned).1.state = m.state ∨ (m.start now spawned).1.state = .error) ∧
          ∃ message, (m.start now spawned).2 = .error message) ∨
        ∃ pid, spawned = .pid pid ∧ (m.start now spawned).2 = .ok ⟨pid, now⟩ ∧
          (m.start now spawned).1 = { m with
            process := some m.children.length, state := .running, startedAt := some now,
            lastError := none, connectedClients := 0, stopping := false, stderrBuffer := "",
            children := m.children ++ [⟨false, [], []⟩] })) := by
  unfold start
  split_ifs with h
  · exact Or.inl ⟨h.1, h.2, rfl⟩
  · refine Or.inr ⟨h, ?_⟩
    cases spawned with
    | thrown message => exact Or.inl ⟨rfl, Or.inl rfl, message, rfl⟩
    | noPid => exact Or.inl ⟨rfl, Or.inr rfl, _, rfl⟩
    | pid pid => exact Or.inr ⟨pid, rfl, rfl, rfl⟩

/-- A start that succeeds. -/
theorem start_ok {m m' : Manager} {now : Nat} {spawned : Spawned} {r : StartResult}
    (h : m.start now spawned = (m', .ok r)) :
    ¬(m.state = .running ∧ m.process.isSome = true) ∧ m' = { m with
      process := some m.children.length, state := .running, startedAt := some now, lastError := none,
      connectedClients := 0, stopping := false, stderrBuffer := "",
      children := m.children ++ [⟨false, [], []⟩] } := by
  have hcases := m.start_cases now spawned
  rw [h] at hcases
  rcases hcases with ⟨-, -, hrefused⟩ | ⟨hno, ⟨-, -, message, herror⟩ | ⟨pid, -, -, hm⟩⟩
  · exact absurd (Prod.mk.inj hrefused).2 nofun
  · cases herror
  · exact ⟨hno, hm⟩

end Manager

/-! ## The invariant -/

/-- All children but the last have exited, the last one is tracked, and a manager that is stopping has
a call of `stop` listening to it. -/
structure Inv (m : Manager) : Prop where
  earlier : ∀ k child, m.children[k]? = some child → k + 1 < m.children.length → child.exited = true
  tracks : Tracks m
  waited : m.state = .running → m.stopping = true →
    ∀ child ∈ m.children.getLast?, child.onceExit ≠ [] ∧ child.onceError ≠ []

theorem Inv.of_not_running {m : Manager} (hstate : m.state ≠ .running)
    (hearlier : ∀ k child, m.children[k]? = some child → k + 1 < m.children.length →
      child.exited = true) : Inv m :=
  ⟨hearlier, fun h => absurd h hstate, fun h => absurd h hstate⟩

/-- A live child is the last one. -/
theorem Inv.last {m : Manager} (h : Inv m) {k : Nat} {child : Child} (hk : m.children[k]? = some child)
    (hlive : child.exited = false) : k + 1 = m.children.length := by
  have hlt := (List.getElem?_eq_some_iff.mp hk).1
  by_contra hne
  have hexited := h.earlier k child hk (by omega)
  exact absurd (hlive.symm.trans hexited) nofun

theorem Inv.getLast {m : Manager} {k : Nat} {child : Child} (hk : m.children[k]? = some child)
    (hlast : k + 1 = m.children.length) : m.children.getLast? = some child := by
  rw [List.getLast?_eq_getElem?, ← hk]
  congr 1
  omega

/-- The rows of the children before the last one stay when the last one changes. -/
theorem earlier_set {m : Manager} (h : Inv m) {k : Nat} (hlast : k + 1 = m.children.length)
    (new : Child) : ∀ j child, (m.children.set k new)[j]? = some child →
      j + 1 < (m.children.set k new).length → child.exited = true := by
  intro j child hj hlt
  rw [List.length_set] at hlt
  have hne : k ≠ j := by omega
  rw [List.getElem?_set_ne hne] at hj
  exact h.earlier j child hj hlt

theorem inv_init : Inv Manager.init := Inv.of_not_running nofun nofun

theorem inv_start {m : Manager} (h : Inv m) (now : Nat) (spawned : Spawned)
    (hok : Settled m (.start now spawned)) : Inv (m.start now spawned).1 := by
  rcases m.start_cases now spawned with ⟨-, -, he⟩ | ⟨hno, hrest⟩
  · rw [he]
    exact h
  · have hstopped : m.state ≠ .running := by
      intro hrun
      obtain ⟨child, hp, -⟩ := h.tracks hrun
      exact hno ⟨hrun, by rw [hp]; rfl⟩
    rcases hrest with ⟨hch, hst, -⟩ | ⟨pid, -, -, he⟩
    · refine Inv.of_not_running ?_ (by rw [hch]; exact h.earlier)
      rcases hst with hst | hst <;> rw [hst]
      · exact hstopped
      · nofun
    · have hlast := hok.resolve_left hstopped
      rw [he]
      refine ⟨fun k child hk hlt => ?_, fun _ => ?_, fun _ hstop => absurd hstop nofun⟩
      · simp only [List.length_append, List.length_singleton] at hlt
        rw [List.getElem?_append_left (by omega)] at hk
        by_cases hlt' : k + 1 < m.children.length
        · exact h.earlier k child hk hlt'
        · exact hlast child (Inv.getLast hk (by omega))
      · exact ⟨⟨false, [], []⟩, by simp, by simp, rfl⟩

theorem inv_stop {m : Manager} (h : Inv m) (call : Nat) : Inv (m.stop call).1 := by
  rcases m.stop_cases call with ⟨-, he⟩ | ⟨k, child, hstate, hp, hk, he⟩
  · rw [he]
    exact h
  · obtain ⟨last, hplast, hlast, hlive⟩ := h.tracks hstate
    have hkl : k = m.children.length - 1 := Option.some.inj (hp.symm.trans hplast)
    have hlt := (List.getElem?_eq_some_iff.mp hk).1
    have hchild : child = last := by
      rw [hkl] at hk
      exact Option.some.inj (hk.symm.trans hlast)
    have hend : k + 1 = m.children.length := by omega
    have hset : ∀ new, (m.children.set k new)[k]? = some new := fun new => by
      rw [List.getElem?_set_self hlt]
    have hlen : (m.children.set k (child.listen call)).length = m.children.length := List.length_set
    rw [he]
    refine ⟨earlier_set h hend _, fun _ => ⟨child.listen call, ?_, ?_, ?_⟩, fun _ _ c hc => ?_⟩
    · show m.process = some ((m.children.set k (child.listen call)).length - 1)
      rw [hlen]
      exact hplast
    · show (m.children.set k (child.listen call))[(m.children.set k (child.listen call)).length - 1]? = _
      rw [hlen, ← hkl]
      exact hset _
    · rw [← hchild] at hlive
      exact hlive
    · have hgl : (m.children.set k (child.listen call)).getLast? = some (child.listen call) := by
        rw [List.getLast?_eq_getElem?, hlen, ← hkl]
        exact hset _
      rw [← Option.some.inj (hgl.symm.trans hc)]
      exact ⟨List.append_ne_nil_of_right_ne_nil _ nofun, List.append_ne_nil_of_right_ne_nil _ nofun⟩

theorem inv_exit {m : Manager} (h : Inv m) (k : Nat) (code : Option Int) (signal : Option String) :
    Inv (m.onExit k code signal).1 := by
  by_cases hex : ∀ child ∈ m.children[k]?, child.exited = true
  · rw [Manager.onExit_of_exited hex]
    exact h
  · obtain ⟨child, hk, hlive⟩ : ∃ child, m.children[k]? = some child ∧ child.exited = false := by
      simpa using hex
    have hlast := h.last hk hlive
    have hwait : m.state = .running → m.stopping = true → child.onceExit ≠ [] := fun hrun hstop =>
      (h.waited hrun hstop child (Inv.getLast hk hlast)).1
    rw [Manager.onExit_of_live hk hlive]
    refine Inv.of_not_running (Manager.ended_not_running hwait) ?_
    rw [Manager.ended_children]
    exact earlier_set h hlast _

theorem inv_error {m : Manager} (h : Inv m) (k : Nat) (message : String)
    (hok : Settled m (.error k message)) : Inv (m.onError k message).1 := by
  cases hk : m.children[k]? with
  | none =>
      rw [Manager.onError_of_none hk]
      exact h
  | some child =>
      have hlt := (List.getElem?_eq_some_iff.mp hk).1
      have hle : m.children.length ≤ k + 1 := hok
      have hlast : k + 1 = m.children.length := by omega
      have hwait : m.state = .running → m.stopping = true → child.onceError ≠ [] := fun hrun hstop =>
        (h.waited hrun hstop child (Inv.getLast hk hlast)).2
      rw [Manager.onError_of_child hk]
      refine Inv.of_not_running (Manager.ended_not_running hwait) ?_
      rw [Manager.ended_children]
      exact earlier_set h hlast _

/-- Nothing that concerns the process differs. -/
structure Aside (m m' : Manager) : Prop where
  process : m'.process = m.process
  state : m'.state = m.state
  children : m'.children = m.children
  stopping : m'.stopping = m.stopping
  startedAt : m'.startedAt = m.startedAt

theorem Inv.aside {m m' : Manager} (h : Inv m) (ha : Aside m m') : Inv m' := by
  refine ⟨?_, ?_, ?_⟩
  · rw [ha.children]
    exact h.earlier
  · unfold Tracks
    rw [ha.state, ha.process, ha.children]
    exact h.tracks
  · rw [ha.state, ha.stopping, ha.children]
    exact h.waited

theorem parseStdout_aside (m : Manager) (output : String) : Aside m (m.parseStdout output) := by
  unfold Manager.parseStdout
  induction output.toList.splitOn '\n' generalizing m with
  | nil => exact ⟨rfl, rfl, rfl, rfl, rfl⟩
  | cons line lines ih =>
      rw [List.foldl_cons]
      cases Manager.clientsLine line with
      | none => exact ih m
      | some n =>
          obtain ⟨hp, hs, hc, hst, hat⟩ := ih { m with connectedClients := n }
          exact ⟨hp, hs, hc, hst, hat⟩

theorem onStderr_aside (m : Manager) (data : String) : Aside m (m.onStderr data) := by
  unfold Manager.onStderr
  split_ifs <;> exact ⟨rfl, rfl, rfl, rfl, rfl⟩

theorem onStdinError_aside (m : Manager) (code message : String) :
    Aside m (m.onStdinError code message) := by
  unfold Manager.onStdinError
  split_ifs <;> exact ⟨rfl, rfl, rfl, rfl, rfl⟩

theorem inv_step {m : Manager} (h : Inv m) {e : Event} (hok : Settled m e) : Inv (step m e) := by
  cases e with
  | start now spawned => exact inv_start h now spawned hok
  | stop call => exact inv_stop h call
  | reload signal => exact h
  | exit k code signal => exact inv_exit h k code signal
  | error k message => exact inv_error h k message hok
  | stdout k output => exact h.aside (parseStdout_aside m output)
  | stderr k data => exact h.aside (onStderr_aside m data)
  | stdinError k code message => exact h.aside (onStdinError_aside m code message)

/-! ## What the invariant means for a step -/

theorem Aside.undisturbed {m : Manager} {e : Event} (h : Aside m (step m e)) : Undisturbed m e :=
  fun _ _ _ => ⟨h.state, h.process, h.startedAt⟩

theorem Inv.undisturbed {m : Manager} (h : Inv m) {e : Event} (hok : Settled m e) : Undisturbed m e := by
  cases e with
  | start | stop | reload => exact fun k hk => absurd hk nofun
  | exit j code signal =>
      intro k hk hlt
      obtain rfl : j = k := Option.some.inj hk
      have hstay : step m (.exit j code signal) = m := by
        show (m.onExit j code signal).1 = m
        rw [Manager.onExit_of_exited fun child hc => h.earlier j child hc hlt]
      rw [hstay]
      exact ⟨rfl, rfl, rfl⟩
  | error j message =>
      intro k hk hlt
      obtain rfl : j = k := Option.some.inj hk
      have hle : m.children.length ≤ j + 1 := hok
      omega
  | stdout j output => exact (parseStdout_aside m output).undisturbed
  | stderr j data => exact (onStderr_aside m data).undisturbed
  | stdinError j code message => exact (onStdinError_aside m code message).undisturbed

/-- Only a start changes the number of the children. -/
theorem children_length {m : Manager} {e : Event} (h : ∀ now spawned, e ≠ .start now spawned) :
    (step m e).children.length = m.children.length := by
  cases e with
  | start now spawned => exact absurd rfl (h now spawned)
  | stop call =>
      rcases m.stop_cases call with ⟨-, he⟩ | ⟨k, child, -, -, -, he⟩
      · show (m.stop call).1.children.length = _
        rw [he]
      · show (m.stop call).1.children.length = _
        rw [he]
        exact List.length_set
  | reload signal => rfl
  | exit k code signal =>
      show (m.onExit k code signal).1.children.length = _
      by_cases hex : ∀ child ∈ m.children[k]?, child.exited = true
      · rw [Manager.onExit_of_exited hex]
      · obtain ⟨child, hk, hlive⟩ : ∃ child, m.children[k]? = some child ∧ child.exited = false := by
          simpa using hex
        rw [Manager.onExit_of_live hk hlive, Manager.ended_children, List.length_set]
  | error k message =>
      show (m.onError k message).1.children.length = _
      cases hk : m.children[k]? with
      | none => rw [Manager.onError_of_none hk]
      | some child => rw [Manager.onError_of_child hk, Manager.ended_children, List.length_set]
  | stdout k output => rw [step, (parseStdout_aside m output).children]
  | stderr k data => rw [step, (onStderr_aside m data).children]
  | stdinError k code message => rw [step, (onStdinError_aside m code message).children]

theorem Inv.spawnsAlone {m : Manager} (h : Inv m) {e : Event} (hok : Settled m e) : SpawnsAlone m e := by
  by_cases hstart : ∃ now spawned, e = .start now spawned
  · obtain ⟨now, spawned, rfl⟩ := hstart
    rcases m.start_cases now spawned with ⟨-, -, he⟩ | ⟨hno, ⟨hch, -⟩ | -⟩
    · exact Or.inl (by show (m.start now spawned).1.children.length = _; rw [he])
    · exact Or.inl (by show (m.start now spawned).1.children.length = _; rw [hch])
    · have hlast : ∀ child ∈ m.children.getLast?, child.exited = true := by
        refine hok.resolve_left fun hrun => ?_
        obtain ⟨child, hp, -⟩ := h.tracks hrun
        exact hno ⟨hrun, by rw [hp]; rfl⟩
      refine Or.inr fun child hc => ?_
      obtain ⟨k, hk, rfl⟩ := List.getElem_of_mem hc
      have hget : m.children[k]? = some m.children[k] := List.getElem?_eq_getElem hk
      by_cases hlt : k + 1 < m.children.length
      · exact h.earlier k _ hget hlt
      · exact hlast _ (Inv.getLast hget (by omega))
  · exact Or.inl (children_length fun now spawned he => hstart ⟨now, spawned, he⟩)

/-- In a run without an `error` of an earlier child, and without a start before the exit of the child
spawned last, the manager tracks this child, no event of an earlier one disturbs it, and every child is
spawned alone. -/
theorem child_tracked (es : List Event) (h : Machine.Guarded step Settled Manager.init es) :
    (∀ fs, fs <+: es → Tracks (Machine.run step Manager.init fs)) ∧
    Machine.Guarded step (fun m e => Undisturbed m e ∧ SpawnsAlone m e) Manager.init es := by
  constructor
  · intro fs hfs
    exact (Machine.run_invariant (I := Inv) (fun m e hok hm => inv_step hm hok) (h.of_prefix hfs)
      inv_init).tracks
  · exact h.of_invariant (I := Inv) (fun m e hok hm => inv_step hm hok)
      (fun m e hm hok => ⟨hm.undisturbed hok, hm.spawnsAlone hok⟩) inv_init

/-- A stop whose kill fails, a second start, and then the exit of the first child. -/
def failedKill : List Event :=
  [.start 0 (.pid 100), .stop 7, .error 0 "kill EPERM", .start 1 (.pid 101), .exit 0 (some 0) none]

/-- The second child is spawned beside the first, and the exit of the first is taken for its own. -/
theorem failedKill_not_tracked :
    ¬SpawnsAlone (Machine.run step Manager.init (failedKill.take 3)) (.start 1 (.pid 101)) ∧
    ¬Undisturbed (Machine.run step Manager.init (failedKill.take 4)) (.exit 0 (some 0) none) := by
  constructor
  · intro h
    rcases h with h | h
    · exact absurd h (by decide)
    · exact absurd (h ⟨false, [7], []⟩ (by decide)) (by decide)
  · intro h
    exact absurd (h 0 rfl (by decide)).1 (by decide)

/-- A crash, a second start, and a stop. -/
def crashAndStop : List Event :=
  [.start 0 (.pid 100), .exit 0 (some 1) none, .start 1 (.pid 101), .stop 7, .exit 1 none (some "SIGTERM")]

theorem child_tracked_crash : Tracks (Machine.run step Manager.init crashAndStop) :=
  (child_tracked crashAndStop (by decide)).1 crashAndStop (List.prefix_refl _)

end OpcuaLight.Process
