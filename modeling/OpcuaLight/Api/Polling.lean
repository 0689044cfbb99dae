import OpcuaLight.Api.Lifecycle

/-!
# The connectors and the runtime

The connectors are started exactly while the runtime is running, whenever no handler is in progress
(`polling_iff_running`): as long as a policy change does not fail to write its configuration after it
has stopped the connectors, and no handler starts them for a runtime that has ended, or that another
handler is stopping, since it was spawned.
-/

namespace OpcuaLight.Api

open Config (AddressSpaceConfig Database Env addressSpaceConfig)
open Process (Manager Spawned StartResult Child)

/-- The handler waits for the end of the runtime. -/
def Handler.Waits (h : Handler) : Prop :=
  h.point = .stopStop .pending ∨ h.point = .policyStop .pending

/-- The handler has spawned the runtime and is about to start the connectors. -/
def Handler.Starting (h : Handler) : Prop :=
  ∃ r, h.point = .startStart (.resolved r) ∨ h.point = .policyStart (.resolved r)

instance (h : Handler) : Decidable h.Starting :=
  match hp : h.point with
  | .startStart (.resolved r) => .isTrue ⟨r, Or.inl hp⟩
  | .policyStart (.resolved r) => .isTrue ⟨r, Or.inr hp⟩
  | .startStart .pending | .startStart (.rejected _) | .stopStop _ | .policyStop _
  | .policyStart .pending | .policyStart (.rejected _) => .isFalse (by
      rintro ⟨r, h⟩
      rw [hp] at h
      rcases h with h | h <;> cases h)

/-- A policy change that stops the connectors writes its configuration, and a handler that comes to start
the connectors finds the runtime running and not being stopped. -/
def Server.Calm (env : Env) (s : Server) : Event → Prop
  | .putPolicy mode disk => ∀ mode' ∈ mode, s.acceptsMode mode = true → s.manager.state = .running →
      addressSpaceConfig env (s.updatePolicy mode').db ≠ none ∧ disk = .ok
  | .resume id _ _ => ∀ h ∈ s.handlers.find? (fun h => h.id = id), h.Starting →
      s.manager.state = .running ∧ s.manager.stopping = false
  | _ => True

theorem settle_nil (handlers : List Handler) : handlers.map (Handler.settle []) = handlers := by
  apply List.map_id''
  rintro ⟨id, point⟩
  rcases point with p | p | p | p <;> cases p <;> rfl

/-! ## The invariant -/

/-- The connectors are started for a runtime that is not being stopped; a runtime that is being stopped
has a handler waiting for its end; and one without connectors has a handler about to start them. -/
structure Polled (m : Manager) (started : Bool) (handlers : List Handler) : Prop where
  process : m.state = .running → ∃ k child, m.process = some k ∧ m.children[k]? = some child
  running : started = true → m.state = .running ∧ m.stopping = false
  waited : m.state = .running → m.stopping = true →
    ∃ k child, m.process = some k ∧ m.children[k]? = some child ∧
      ∃ h ∈ handlers, h.Waits ∧ h.id ∈ child.onceExit ∧ h.id ∈ child.onceError
  starting : m.state = .running → m.stopping = false → started = false → ∃ h ∈ handlers, h.Starting

namespace Polled

variable {m : Manager} {started : Bool} {handlers handlers' : List Handler}

theorem of_not_running (h : m.state ≠ .running) : Polled m false handlers :=
  ⟨fun hr => absurd hr h, nofun, fun hr => absurd hr h, fun hr => absurd hr h⟩

theorem of_started (hp : ∃ k child, m.process = some k ∧ m.children[k]? = some child)
    (hr : m.state = .running) (hs : m.stopping = false) : Polled m true handlers :=
  ⟨fun _ => hp, fun _ => ⟨hr, hs⟩, fun _ h => absurd (hs.symm.trans h) nofun, fun _ _ => nofun⟩

/-- Handlers that neither wait nor start may come and go. -/
theorem mono (h : Polled m started handlers)
    (hsub : ∀ x ∈ handlers, x.Waits ∨ x.Starting → x ∈ handlers') : Polled m started handlers' := by
  refine ⟨h.process, h.running, fun hr hs => ?_, fun hr hs hc => ?_⟩
  · obtain ⟨k, child, hp, hk, x, hx, hw, hids⟩ := h.waited hr hs
    exact ⟨k, child, hp, hk, x, hsub x hx (Or.inl hw), hw, hids⟩
  · obtain ⟨x, hx, hst⟩ := h.starting hr hs hc
    exact ⟨x, hsub x hx (Or.inr hst), hst⟩

theorem not_started (h : Polled m started handlers) (hr : m.state ≠ .running) : started = false := by
  by_contra hs
  exact hr (h.running (by simpa using hs)).1

/-- Where a start is not refused, the runtime is not running and the connectors are stopped. -/
theorem not_refused (h : Polled m started handlers)
    (hno : ¬(m.state = .running ∧ m.process.isSome = true)) : m.state ≠ .running ∧ started = false := by
  have hstopped : m.state ≠ .running := fun hr => by
    obtain ⟨k, child, hp, -⟩ := h.process hr
    exact hno ⟨hr, by rw [hp]; rfl⟩
  exact ⟨hstopped, h.not_started hstopped⟩

/-- A start that is refused or fails. -/
theorem start_error (h : Polled m started handlers) {now : Nat} {spawned : Spawned} {m' : Manager}
    {message : String} (he : m.start now spawned = (m', .error message)) :
    Polled m' started handlers := by
  have hcases := m.start_cases now spawned
  rw [he] at hcases
  rcases hcases with ⟨-, -, hrefused⟩ | ⟨hno, ⟨-, hstate, -⟩ | ⟨pid, -, hok, -⟩⟩
  · rw [(Prod.mk.inj hrefused).1]
    exact h
  · obtain ⟨hstopped, hfalse⟩ := h.not_refused hno
    rw [hfalse]
    apply of_not_running
    rcases hstate with hstate | hstate
    · exact fun hr => hstopped (hstate.symm.trans hr)
    · exact fun hr => absurd (hstate.symm.trans hr) nofun
  · cases hok

/-- A start that succeeds, of a handler that is about to start the connectors. -/
theorem start_ok (h : Polled m started handlers) {now : Nat} {spawned : Spawned} {m' : Manager}
    {r : StartResult} (he : m.start now spawned = (m', .ok r)) (hx : ∃ x ∈ handlers', x.Starting) :
    Polled m' started handlers' := by
  obtain ⟨hno, rfl⟩ := Manager.start_ok he
  rw [(h.not_refused hno).2]
  exact ⟨fun _ => ⟨m.children.length, ⟨false, [], []⟩, rfl, by simp⟩, nofun,
    fun _ hs => absurd hs nofun, fun _ _ _ => hx⟩

/-- A stop, after the connectors have been stopped, whose handler waits if it is not refused. -/
theorem stop (h : Polled m started handlers) {id : Nat} {m' : Manager} {message : Option String}
    (he : m.stop id = (m', message))
    (hx : message = none → ∃ x ∈ handlers', x.id = id ∧ x.Waits) : Polled m' false handlers' := by
  rcases m.stop_cases id with ⟨hno, hrefused⟩ | ⟨k, child, hr, hp, hk, hok⟩
  · rw [hrefused] at he
    rw [← (Prod.mk.inj he).1]
    apply of_not_running
    intro hr
    obtain ⟨k, child, hp, hk⟩ := h.process hr
    exact hno k child hr hp hk
  · rw [hok] at he
    obtain ⟨rfl, rfl⟩ := Prod.mk.inj he
    obtain ⟨x, hx, hid, hw⟩ := hx rfl
    have hlt := (List.getElem?_eq_some_iff.mp hk).1
    have hset : (m.children.set k (child.listen id))[k]? = some (child.listen id) :=
      List.getElem?_set_self hlt
    refine ⟨fun _ => ⟨k, _, hp, hset⟩, nofun, fun _ _ => ⟨k, _, hp, hset, x, hx, hw, ?_, ?_⟩,
      fun _ hs => absurd hs nofun⟩
    · rw [hid]
      exact List.mem_append_right _ (List.mem_singleton.mpr rfl)
    · rw [hid]
      exact List.mem_append_right _ (List.mem_singleton.mpr rfl)

/-- An event of the runtime: a crash stops the connectors, and if calls of `stop` are settled the
runtime is not running any more. -/
theorem ended (h : Polled m started handlers) {reason : String} {k : Nat} {child child' : Child}
    (hk : m.children[k]? = some child) {calls : List Nat}
    (hcalls : ∀ id, id ∈ child.onceExit → id ∈ child.onceError → id ∈ calls)
    {settled : List (Nat × Option String)} (hsettled : calls = [] → settled = []) :
    Polled (((m.crash reason).1.setChild k child').cleanups calls)
      (started && (m.crash reason).2.isEmpty) (handlers.map (Handler.settle settled)) := by
  by_cases hstop : m.stopping = true
  · have hcrash : m.crash reason = (m, []) := if_pos hstop
    have hfalse : started = false := by
      by_contra hs
      exact absurd (hstop.symm.trans (h.running (by simpa using hs)).2) nofun
    rw [hcrash, hfalse]
    cases hc : calls with
    | cons call rest =>
        apply of_not_running
        rcases Manager.cleanups_state (m.setChild k child') (call :: rest) with hs | ⟨hnil, -⟩
        · exact fun hr => absurd (hs.symm.trans hr) nofun
        · cases hnil
    | nil =>
        rw [hsettled hc, settle_nil]
        -- the handler that waits does so for another child
        have hother : m.state = .running → ∃ j c, m.process = some j ∧
            (m.children.set k child')[j]? = some c ∧
              ∃ x ∈ handlers, x.Waits ∧ x.id ∈ c.onceExit ∧ x.id ∈ c.onceError := by
          intro hr
          obtain ⟨j, c, hp, hj, x, hx, hw, hexit, herror⟩ := h.waited hr hstop
          have hne : k ≠ j := by
            rintro rfl
            obtain rfl : child = c := Option.some.inj (hk.symm.trans hj)
            have hmem := hcalls x.id hexit herror
            rw [hc] at hmem
            exact absurd hmem List.not_mem_nil
          exact ⟨j, c, hp, by rw [List.getElem?_set_ne hne, hj], x, hx, hw, hexit, herror⟩
        refine ⟨fun hr => ?_, nofun, fun hr _ => hother hr, fun _ hs => absurd (hstop.symm.trans hs) nofun⟩
        obtain ⟨j, c, hp, hj, -⟩ := hother hr
        exact ⟨j, c, hp, hj⟩
  · have hcrash : (m.crash reason).2 = [reason] := by
      unfold Manager.crash
      rw [if_neg hstop]
    rw [hcrash, List.isEmpty_cons, Bool.and_false]
    exact of_not_running (Manager.ended_not_running fun _ hs => absurd hs hstop)

end Polled

/-! ## Steps -/

/-- The invariant of the server. -/
def Server.Polled (s : Server) : Prop := Api.Polled s.manager s.started s.handlers

variable (env : Env)

/-- What writes a file leaves the rest of the server alone. -/
theorem writeToFile_frame (s : Server) (path : String) (disk : Disk) :
    (s.writeToFile env path disk).1.manager = s.manager ∧
    (s.writeToFile env path disk).1.started = s.started ∧
    (s.writeToFile env path disk).1.handlers = s.handlers := by
  unfold Server.writeToFile
  split <;> exact ⟨rfl, rfl, rfl⟩

theorem Server.Polled.writeToFile {s : Server} (h : s.Polled) (path : String) (disk : Disk) :
    (s.writeToFile env path disk).1.Polled := by
  obtain ⟨hm, hs, hh⟩ := writeToFile_frame env s path disk
  unfold Server.Polled
  rw [hm, hs, hh]
  exact h

theorem Server.Polled.reloadProcess {s : Server} (h : s.Polled) (signal : Option String) :
    (s.reloadProcess env signal).1.Polled := by
  unfold Server.reloadProcess
  split <;> exact h

variable {env}

theorem polled_startProcess {s : Server} (h : s.Polled) (id now : Nat) (spawned : Spawned)
    {point : Promise StartResult → Point}
    (hpoint : ∀ r, Handler.Starting ⟨id, point (.resolved r)⟩) :
    ((s.startProcess env now spawned).1.wait id (point (s.startProcess env now spawned).2)).Polled := by
  unfold Server.startProcess
  split
  · rename_i m r he
    refine Api.Polled.start_ok h he ⟨⟨id, point (.resolved r)⟩, ?_, hpoint r⟩
    exact List.mem_append_right _ (List.mem_singleton.mpr rfl)
  · rename_i m message he
    exact (Api.Polled.start_error h he).mono fun x hx _ => List.mem_append_left _ hx

/-- A stop by a handler that has stopped the connectors. -/
theorem polled_stopProcess {s : Server} {started : Bool} (h : Api.Polled s.manager started s.handlers)
    (hs : s.started = false) (id : Nat) {point : Promise Unit → Point}
    (hpoint : Handler.Waits ⟨id, point .pending⟩) :
    ((s.stopProcess id).1.wait id (point (s.stopProcess id).2)).Polled := by
  unfold Server.stopProcess Server.Polled Server.wait
  split
  · rename_i m he
    simp only [hs]
    refine Api.Polled.stop h he fun _ => ⟨⟨id, point .pending⟩, ?_, rfl, hpoint⟩
    exact List.mem_append_right _ (List.mem_singleton.mpr rfl)
  · rename_i m message he
    simp only [hs]
    exact Api.Polled.stop h he fun hn => absurd hn nofun

/-- A settled handler that is not about to start the connectors leaves. -/
theorem polled_erase {s : Server} (h : s.Polled) {x : Handler} (hw : ¬x.Waits) (hst : ¬x.Starting) :
    Server.Polled { s with handlers := s.handlers.erase x } := by
  refine Api.Polled.mono h fun y hy hy' => (List.mem_erase_of_ne ?_).mpr hy
  rintro rfl
  exact hy'.elim hw hst

theorem polled_startAll {s : Server} (h : s.Polled) (hr : s.manager.state = .running)
    (hs : s.manager.stopping = false) (handlers : List Handler) :
    Server.Polled { s.startAll with handlers := handlers } :=
  Api.Polled.of_started (Api.Polled.process h hr) hr hs

theorem polled_putPolicy {s : Server} (h : s.Polled) {mode : Option String} {disk : Disk}
    (hok : s.Calm env (.putPolicy mode disk)) : (s.putPolicy env mode disk).Polled := by
  unfold Server.putPolicy
  simp only
  split
  · rename_i mode' haccept
    split_ifs with hr
    · obtain ⟨hconfig, rfl⟩ := hok mode' rfl haccept hr
      obtain ⟨config, hconfig⟩ := Option.ne_none_iff_exists'.mp hconfig
      unfold Server.writeToFile
      rw [show addressSpaceConfig env ((s.receive .policy).1.updatePolicy mode').stopAll.db = some config
        from hconfig]
      refine polled_stopProcess (s := { (s.receive .policy).1.updatePolicy mode' with
        started := false, files := _, written := _ }) h rfl _ (Or.inr rfl)
    · exact h
  · exact h

theorem polled_resume {s : Server} (h : s.Polled) (id now : Nat) (spawned : Spawned)
    (hok : s.Calm env (.resume id now spawned)) : (s.resume env id now spawned).Polled := by
  unfold Server.resume
  split
  · exact h
  · rename_i x hx
    have hstart := hok x hx
    have hdone : ∀ {p}, x.point = p → p ≠ .stopStop .pending → p ≠ .policyStop .pending →
        (∀ r, p ≠ .startStart (.resolved r) ∧ p ≠ .policyStart (.resolved r)) →
        Server.Polled { s with handlers := s.handlers.erase x } := by
      rintro p rfl h1 h2 h3
      refine polled_erase h (fun hw => hw.elim h1 h2) ?_
      rintro ⟨r, hr | hr⟩
      · exact (h3 r).1 hr
      · exact (h3 r).2 hr
    unfold Server.proceed
    split
    · rename_i r hp
      obtain ⟨hr, hs⟩ := hstart ⟨r, Or.inl hp⟩
      exact polled_startAll h hr hs _
    · rename_i message hp
      exact hdone hp nofun nofun fun r => ⟨nofun, nofun⟩
    · rename_i u hp
      exact hdone hp nofun nofun fun r => ⟨nofun, nofun⟩
    · rename_i message hp
      exact hdone hp nofun nofun fun r => ⟨nofun, nofun⟩
    · rename_i u hp
      have hrest := hdone hp nofun nofun fun r => ⟨nofun, nofun⟩
      exact polled_startProcess hrest x.id now spawned fun r => ⟨r, Or.inr rfl⟩
    · rename_i message hp
      exact hdone hp nofun nofun fun r => ⟨nofun, nofun⟩
    · rename_i r hp
      obtain ⟨hr, hs⟩ := hstart ⟨r, Or.inr hp⟩
      exact polled_startAll h hr hs _
    · rename_i message hp
      exact hdone hp nofun nofun fun r => ⟨nofun, nofun⟩
    · exact h
    · exact h
    · exact h
    · exact h

theorem polled_exit {s : Server} (h : s.Polled) (k : Nat) (code : Option Int) (signal : Option String) :
    (s.onRuntime (s.manager.onExit k code signal)).Polled := by
  unfold Process.Manager.onExit Server.onRuntime
  split
  · simpa [settle_nil] using h
  · rename_i child hk
    split_ifs with hex
    · simpa [settle_nil] using h
    · refine Api.Polled.ended h hk (fun id hexit _ => hexit) fun hc => ?_
      rw [hc]
      rfl

theorem polled_error {s : Server} (h : s.Polled) (k : Nat) (message : String) :
    (s.onRuntime (s.manager.onError k message)).Polled := by
  unfold Process.Manager.onError Server.onRuntime
  split
  · simpa [settle_nil] using h
  · rename_i child hk
    refine Api.Polled.ended h hk (fun id _ herror => herror) fun hc => ?_
    rw [hc]
    rfl

theorem polled_step {s : Server} (h : s.Polled) {e : Event} (hok : s.Calm env e) :
    (step env s e).Polled := by
  cases e with
  | postStart disk now spawned =>
      have hw := Server.Polled.writeToFile env (s := (s.receive .start).1) h configFilePath disk
      show (s.postStart env disk now spawned).Polled
      unfold Server.postStart
      simp only
      split
      · rename_i s' he
        rw [he] at hw
        exact hw
      · rename_i s' he
        rw [he] at hw
        exact polled_startProcess hw _ now spawned fun r => ⟨r, Or.inl rfl⟩
  | postStop => exact polled_stopProcess (s := (s.receive .stop).1.stopAll) h rfl _ (Or.inl rfl)
  | putPolicy mode disk => exact polled_putPolicy h hok
  | postReload disk signal =>
      have hw := Server.Polled.writeToFile env (s := (s.receive .reload).1) h configFilePath disk
      show (s.postReload env disk signal).Polled
      unfold Server.postReload
      simp only
      split
      · rename_i s' he
        rw [he] at hw
        exact hw
      · rename_i s' he
        rw [he] at hw
        have hr := hw.reloadProcess env signal
        split
        · rename_i s'' he'
          rw [he'] at hr
          exact hr
        · rename_i s'' message he'
          rw [he'] at hr
          exact hr
  | request path db status =>
      show (s.request path db status).Polled
      unfold Server.request
      simp only
      split_ifs <;> exact h
  | finish disk signal =>
      show (s.finish env disk signal).Polled
      unfold Server.finish
      split
      · exact h
      · rename_i status rest _
        have hw := Server.Polled.writeToFile env (s := { s with finishing := rest }) h
          configFilePath disk
        simp only
        split_ifs
        · split
          · rename_i s' he
            rw [he] at hw
            exact hw
          · rename_i s' he
            rw [he] at hw
            exact hw.reloadProcess env signal
        · exact h
  | resume id now spawned => exact polled_resume h id now spawned hok
  | exit k code signal => exact polled_exit h k code signal
  | error k message => exact polled_error h k message

theorem polled_boot {configPath : String} {s : Server} (hs : s.Booted env configPath) : s.Polled := by
  obtain ⟨db, files, disk, now, spawned, rfl⟩ := hs
  have hblank : (Server.blank configPath db files).Polled := Api.Polled.of_not_running nofun
  have hw := hblank.writeToFile env configPath disk
  unfold Server.boot
  rw [show (Server.blank configPath db files).configPath = configPath from rfl]
  split
  · rename_i s he
    rw [he] at hw
    exact hw
  · rename_i s he
    rw [he] at hw
    unfold Server.startProcess
    cases hstart : s.manager.start now spawned with
    | mk m r =>
        cases r with
        | error message => exact Api.Polled.start_error hw hstart
        | ok r =>
            obtain ⟨-, rfl⟩ := Manager.start_ok hstart
            refine Api.Polled.of_started ⟨s.manager.children.length, ⟨false, [], []⟩, rfl, ?_⟩ rfl rfl
            exact List.getElem?_concat_length

/-- In every run that meets the condition, the connectors are started exactly while the runtime is
running, in every state without a handler in progress. -/
theorem polling_iff_running {configPath : String} {s₀ s : Server} (hs₀ : s₀.Booted env configPath)
    (es : List Event) (hok : Machine.Guarded (step env) (fun s e => s.Calm env e) s₀ es)
    (hs : Machine.run (step env) s₀ es = s) (hquiet : s.handlers = []) :
    s.started = true ↔ s.manager.state = .running := by
  have h : s.Polled := by
    rw [← hs]
    refine Machine.run_invariant (I := Server.Polled) (fun _ _ hok h => polled_step h hok) hok ?_
    exact polled_boot hs₀
  unfold Server.Polled at h
  rw [hquiet] at h
  refine ⟨fun hs => (h.running hs).1, fun hr => ?_⟩
  by_contra hs
  cases hstop : s.manager.stopping with
  | true =>
      obtain ⟨_, _, -, -, x, hx, -⟩ := h.waited hr hstop
      exact absurd hx List.not_mem_nil
  | false =>
      obtain ⟨x, hx, -⟩ := h.starting hr hstop (by simpa using hs)
      exact absurd hx List.not_mem_nil

/-- A server in which files resolve to themselves. -/
def plainEnv : Env := ⟨4840, id, fun _ => true⟩

/-- The server after `main` on an empty database. -/
def freshServer : Server :=
  (Server.blank "runtime/config.json" ⟨Db.Tables.empty false, some ⟨"None", none, none⟩⟩
    (fun _ => none)).boot plainEnv .ok 0 (.pid 100)

theorem freshServer_booted : freshServer.Booted plainEnv "runtime/config.json" :=
  ⟨_, _, _, _, _, rfl⟩

/-- A policy change that cannot write the configuration. -/
def unwritten : List Event := [.putPolicy (some "None") (.fails none)]

theorem unwritten_not_polled :
    (Machine.run (step plainEnv) freshServer unwritten).handlers = [] ∧
    (Machine.run (step plainEnv) freshServer unwritten).manager.state = .running ∧
    (Machine.run (step plainEnv) freshServer unwritten).started = false := by decide

/-- A stop and a start of the runtime. -/
def restart : List Event :=
  [.postStop, .exit 0 none (some "SIGTERM"), .resume 0 1 .noPid, .postStart .ok 2 (.pid 101),
   .resume 1 3 .noPid]

theorem polling_iff_running_restart :
    (Machine.run (step plainEnv) freshServer restart).started = true ↔
      (Machine.run (step plainEnv) freshServer restart).manager.state = .running := by
  refine polling_iff_running freshServer_booted restart ?_ rfl (by decide)
  refine ⟨trivial, trivial, ?_, trivial, ?_, trivial⟩
  · unfold Server.Calm
    decide
  · unfold Server.Calm
    decide

end OpcuaLight.Api
