import OpcuaLight.Api.Polling

/-!
# A stop that stays

Once `POST /stop` has been answered with success the runtime stays stopped until another start or policy
change is requested (`stopped_stays`): as long as no policy change comes back from its own stop, and
starts the runtime again, after a stop that was requested in the meantime has been settled.
-/

namespace OpcuaLight.Api

open Config (AddressSpaceConfig Database Env addressSpaceConfig)
open Process (Manager Spawned StartResult Child)

/-- The endpoint of a handler. -/
def Point.endpoint : Point → Endpoint
  | .startStart _ => .start
  | .stopStop _ => .stop
  | .policyStop _ | .policyStart _ => .policy

/-- A start or a policy change was requested after the request `b`. -/
def Server.Later (s : Server) (b : Nat) : Prop :=
  ∃ c, b < c ∧ (s.requests[c]? = some .start ∨ s.requests[c]? = some .policy)

/-- The request `b` was answered with success, or is a stop that has been settled so. -/
def Server.Succeeded (s : Server) (b : Nat) : Prop :=
  (b, 200) ∈ s.replies ∨ ⟨b, .stopStop (.resolved ())⟩ ∈ s.handlers

/-- A policy change comes back from its stop at a time when every stop that has succeeded was followed
by the request of a start or of a policy change. -/
def Server.Undivided (s : Server) : Event → Prop
  | .resume id _ _ => ∀ h ∈ s.handlers.find? (fun h => h.id = id), h.point = .policyStop (.resolved ()) →
      ∀ b, s.Succeeded b → s.requests[b]? = some .stop → s.Later b
  | _ => True

/-! ## The invariant -/

/-- The handlers are of their requests, the replies to requests that have come, and a runtime that is
running after a stop has been requested again. -/
structure Server.Kept (s : Server) : Prop where
  replied : ∀ r ∈ s.replies, r.1 < s.requests.length
  waiting : ∀ h ∈ s.handlers, s.requests[h.id]? = some h.point.endpoint
  later : s.manager.state = .running → ∀ b, s.Succeeded b → s.requests[b]? = some .stop → s.Later b

theorem requests_append {requests : List Endpoint} {e e' : Endpoint} {b : Nat}
    (h : (requests ++ [e])[b]? = some e') :
    (b < requests.length ∧ requests[b]? = some e') ∨ (b = requests.length ∧ e = e') := by
  rcases Nat.lt_trichotomy b requests.length with hlt | heq | hgt
  · rw [List.getElem?_append_left hlt] at h
    exact Or.inl ⟨hlt, h⟩
  · rw [heq, List.getElem?_concat_length] at h
    exact Or.inr ⟨heq, Option.some.inj h⟩
  · rw [List.getElem?_eq_none (by simp; omega)] at h
    cases h

theorem requests_mono {requests : List Endpoint} {e e' : Endpoint} {b : Nat}
    (h : requests[b]? = some e') : (requests ++ [e])[b]? = some e' := by
  rw [List.getElem?_append_left (List.getElem?_eq_some_iff.mp h).1]
  exact h

theorem Server.Later.mono {s s' : Server} {b : Nat} {e : Endpoint} (h : s.Later b)
    (hreq : s'.requests = s.requests ++ [e]) : s'.Later b := by
  obtain ⟨c, hc, hs⟩ := h
  refine ⟨c, hc, ?_⟩
  rw [hreq]
  exact hs.imp requests_mono requests_mono

theorem Server.Kept.receive {s : Server} (h : s.Kept) (e : Endpoint) : (s.receive e).1.Kept := by
  refine ⟨fun r hr => ?_, fun x hx => requests_mono (h.waiting x hx), fun hr b hb hstop => ?_⟩
  · have hlt := h.replied r hr
    show r.1 < (s.requests ++ [e]).length
    rw [List.length_append]
    omega
  · have hold : b < s.requests.length := by
      rcases hb with hb | hb
      · exact h.replied _ hb
      · exact (List.getElem?_eq_some_iff.mp (h.waiting _ hb)).1
    rcases requests_append hstop with ⟨-, hstop⟩ | ⟨heq, -⟩
    · exact (h.later hr b hb hstop).mono rfl
    · omega

/-- After the request of a start or of a policy change every stop before has been followed by one. -/
theorem later_of_new {s : Server} {requests : List Endpoint} {e : Endpoint}
    (hreq : s.requests = requests ++ [e]) (he : e = .start ∨ e = .policy) {b : Nat}
    (hstop : s.requests[b]? = some .stop) : s.Later b := by
  rw [hreq] at hstop
  rcases requests_append hstop with ⟨hlt, -⟩ | ⟨-, hbad⟩
  · refine ⟨requests.length, hlt, ?_⟩
    rw [hreq, List.getElem?_concat_length]
    exact he.imp (congrArg some) (congrArg some)
  · rw [hbad] at he
    rcases he with he | he <;> cases he

/-- A step without a new request, in which nothing newly succeeds and the runtime is not started. -/
theorem Server.Kept.same {s s' : Server} (h : s.Kept) (hreq : s'.requests = s.requests)
    (hreplied : ∀ r ∈ s'.replies, r.1 < s'.requests.length)
    (hwaiting : ∀ x ∈ s'.handlers, s'.requests[x.id]? = some x.point.endpoint)
    (hsucc : ∀ b, s'.Succeeded b → s'.requests[b]? = some .stop → s.Succeeded b)
    (hrun : s'.manager.state = .running → s.manager.state = .running) : s'.Kept := by
  refine ⟨hreplied, hwaiting, fun hr b hb hstop => ?_⟩
  have hold := hsucc b hb hstop
  rw [hreq] at hstop
  obtain ⟨c, hc, hs⟩ := h.later (hrun hr) b hold hstop
  refine ⟨c, hc, ?_⟩
  rw [hreq]
  exact hs

/-! ## The parts of the handlers -/

variable (env : Env)

theorem Server.Kept.writeToFile {s : Server} (h : s.Kept) (path : String) (disk : Disk) :
    (s.writeToFile env path disk).1.Kept := by
  unfold Server.writeToFile
  split <;> exact h.same rfl h.replied h.waiting (fun _ hb _ => hb) id

theorem writeToFile_requests (s : Server) (path : String) (disk : Disk) :
    (s.writeToFile env path disk).1.requests = s.requests := by
  unfold Server.writeToFile
  split <;> rfl

theorem Server.Kept.reloadProcess {s : Server} (h : s.Kept) (signal : Option String) :
    (s.reloadProcess env signal).1.Kept := by
  unfold Server.reloadProcess
  split
  · exact h.same rfl h.replied h.waiting (fun _ hb _ => hb) id
  · exact h

theorem reloadProcess_requests (s : Server) (signal : Option String) :
    (s.reloadProcess env signal).1.requests = s.requests := by
  unfold Server.reloadProcess
  split <;> rfl

variable {env}

/-- A reply to a request. -/
theorem Server.Kept.replied_concat {s : Server} (h : s.Kept) {id status : Nat} {e : Endpoint}
    (hid : s.requests[id]? = some e) : ∀ r ∈ s.replies ++ [(id, status)], r.1 < s.requests.length := by
  intro r hr
  rcases List.mem_append.mp hr with hr | hr
  · exact h.replied r hr
  · rw [List.mem_singleton.mp hr]
    exact (List.getElem?_eq_some_iff.mp hid).1

theorem Server.Kept.reply {s : Server} (h : s.Kept) {id status : Nat} {e : Endpoint}
    (hid : s.requests[id]? = some e)
    (hstop : status = 200 → e = .stop → s.Succeeded id) : (s.reply id status).Kept := by
  refine h.same rfl (h.replied_concat hid) h.waiting (fun b hb hbs => ?_) (fun hr => hr)
  · rcases hb with hb | hb
    · rcases List.mem_append.mp hb with hb | hb
      · exact Or.inl hb
      · obtain ⟨rfl, hst⟩ := Prod.mk.inj (List.mem_singleton.mp hb)
        exact hstop hst.symm (Option.some.inj (hid.symm.trans hbs))
    · exact Or.inr hb

theorem Server.Kept.wait {s : Server} (h : s.Kept) {id : Nat} {point : Point}
    (hid : s.requests[id]? = some point.endpoint) (hnew : point ≠ .stopStop (.resolved ())) :
    (s.wait id point).Kept := by
  refine h.same rfl h.replied (fun x hx => ?_) (fun b hb _ => ?_) (fun hr => hr)
  · rcases List.mem_append.mp hx with hx | hx
    · exact h.waiting x hx
    · rw [List.mem_singleton.mp hx]
      exact hid
  · rcases hb with hb | hb
    · exact Or.inl hb
    · rcases List.mem_append.mp hb with hb | hb
      · exact Or.inr hb
      · exact absurd (congrArg Handler.point (List.mem_singleton.mp hb)).symm hnew

/-- A start at a time when every stop that has succeeded was followed by a request. -/
theorem Server.Kept.startProcess {s : Server} (h : s.Kept)
    (hlater : ∀ b, s.Succeeded b → s.requests[b]? = some .stop → s.Later b) (now : Nat)
    (spawned : Spawned) : (s.startProcess env now spawned).1.Kept := by
  unfold Server.startProcess
  split
  · exact ⟨h.replied, h.waiting, fun _ => hlater⟩
  · exact ⟨h.replied, h.waiting, fun _ => hlater⟩

theorem startProcess_requests (s : Server) (now : Nat) (spawned : Spawned) :
    (s.startProcess env now spawned).1.requests = s.requests := by
  unfold Server.startProcess
  split <;> rfl

theorem stop_state (m : Manager) (call : Nat) : (m.stop call).1.state = m.state := by
  rcases m.stop_cases call with ⟨-, he⟩ | ⟨_, _, -, -, -, he⟩ <;> rw [he]
  rfl

theorem Server.Kept.stopProcess {s : Server} (h : s.Kept) (id : Nat) : (s.stopProcess id).1.Kept := by
  have hstate := stop_state s.manager id
  unfold Server.stopProcess
  split
  · rename_i m he
    rw [he] at hstate
    exact h.same rfl h.replied h.waiting (fun _ hb _ => hb) hstate.symm.trans
  · rename_i m message he
    rw [he] at hstate
    exact h.same rfl h.replied h.waiting (fun _ hb _ => hb) hstate.symm.trans

theorem stopProcess_pending (s : Server) (id : Nat) : (s.stopProcess id).2 ≠ .resolved () := by
  unfold Server.stopProcess
  split <;> nofun

theorem stopProcess_requests (s : Server) (id : Nat) :
    (s.stopProcess id).1.requests = s.requests := by
  unfold Server.stopProcess
  split <;> rfl

theorem receive_id (s : Server) (e : Endpoint) : (s.receive e).1.requests[(s.receive e).2]? = some e :=
  List.getElem?_concat_length

/-! ## Steps -/

theorem kept_postStart {s : Server} (h : s.Kept) (disk : Disk) (now : Nat) (spawned : Spawned) :
    (s.postStart env disk now spawned).Kept := by
  have hw := (h.receive .start).writeToFile env configFilePath disk
  have hreq := writeToFile_requests env (s.receive .start).1 configFilePath disk
  unfold Server.postStart
  simp only
  split
  · rename_i s' he
    rw [he] at hw hreq
    refine hw.reply (e := .start) ?_ nofun
    rw [show s'.requests = _ from hreq]
    exact receive_id s .start
  · rename_i s' he
    rw [he] at hw hreq
    have hnew : ∀ b, s'.Succeeded b → s'.requests[b]? = some .stop → s'.Later b := fun b _ hb =>
      later_of_new hreq (Or.inl rfl) hb
    refine (hw.startProcess hnew now spawned).wait ?_ nofun
    rw [startProcess_requests, show s'.requests = _ from hreq]
    exact receive_id s .start

theorem kept_postStop {s : Server} (h : s.Kept) : s.postStop.Kept := by
  have hr : (s.receive .stop).1.stopAll.Kept :=
    (h.receive .stop).same rfl (h.receive .stop).replied (h.receive .stop).waiting (fun _ hb _ => hb) id
  refine (hr.stopProcess _).wait ?_ fun he => ?_
  · rw [stopProcess_requests]
    exact receive_id s .stop
  · exact stopProcess_pending _ _ (Point.stopStop.inj he)

theorem kept_putPolicy {s : Server} (h : s.Kept) (mode : Option String) (disk : Disk) :
    (s.putPolicy env mode disk).Kept := by
  have hid := receive_id s .policy
  have hr := h.receive .policy
  unfold Server.putPolicy
  simp only
  split
  · rename_i mode' _
    have hpolicy : ((s.receive .policy).1.updatePolicy mode').Kept :=
      hr.same rfl hr.replied hr.waiting (fun _ hb _ => hb) id
    have hstop : ((s.receive .policy).1.updatePolicy mode').stopAll.Kept :=
      hr.same rfl hr.replied hr.waiting (fun _ hb _ => hb) id
    split_ifs
    · have hw := hstop.writeToFile env configFilePath disk
      have hreq := writeToFile_requests env ((s.receive .policy).1.updatePolicy mode').stopAll
        configFilePath disk
      split
      · rename_i s' he
        rw [he] at hw hreq
        refine hw.reply (e := .policy) ?_ nofun
        rw [show s'.requests = _ from hreq]
        exact hid
      · rename_i s' he
        rw [he] at hw hreq
        refine (hw.stopProcess _).wait ?_ nofun
        rw [stopProcess_requests, show s'.requests = _ from hreq]
        exact hid
    · exact hpolicy.reply (e := .policy) hid nofun
  · exact hr.reply hid nofun

theorem kept_postReload {s : Server} (h : s.Kept) (disk : Disk) (signal : Option String) :
    (s.postReload env disk signal).Kept := by
  have hw := (h.receive .reload).writeToFile env configFilePath disk
  have hreq := writeToFile_requests env (s.receive .reload).1 configFilePath disk
  unfold Server.postReload
  simp only
  split
  · rename_i s' he
    rw [he] at hw hreq
    refine hw.reply (e := .reload) ?_ nofun
    rw [show s'.requests = _ from hreq]
    exact receive_id s .reload
  · rename_i s' he
    rw [he] at hw hreq
    have hrel := hw.reloadProcess env signal
    have hid : (s'.reloadProcess env signal).1.requests[(s.receive .reload).2]? = some .reload := by
      rw [reloadProcess_requests, show s'.requests = _ from hreq]
      exact receive_id s .reload
    split
    · rename_i s'' he'
      rw [he'] at hrel hid
      exact hrel.reply hid nofun
    · rename_i s'' message he'
      rw [he'] at hrel hid
      exact hrel.reply hid nofun

theorem kept_request {s : Server} (h : s.Kept) (path : String) (db : Database) (status : Nat) :
    (s.request path db status).Kept := by
  have hr := h.receive (.other path)
  have hdb : Server.Kept { (s.receive (.other path)).1 with db := db } :=
    hr.same rfl hr.replied hr.waiting (fun _ hb _ => hb) id
  have hreply : (Server.reply { (s.receive (.other path)).1 with db := db }
      (s.receive (.other path)).2 status).Kept := hdb.reply (receive_id s (.other path)) nofun
  unfold Server.request
  simp only
  split_ifs
  · exact hreply.same rfl hreply.replied hreply.waiting (fun _ hb _ => hb) id
  · exact hreply

theorem kept_finish {s : Server} (h : s.Kept) (disk : Disk) (signal : Option String) :
    (s.finish env disk signal).Kept := by
  unfold Server.finish
  split
  · exact h
  · rename_i status rest _
    have hrest : Server.Kept { s with finishing := rest } :=
      h.same rfl h.replied h.waiting (fun _ hb _ => hb) id
    have hw := hrest.writeToFile env configFilePath disk
    simp only
    split_ifs
    · split
      · rename_i s' he
        rw [he] at hw
        exact hw
      · rename_i s' he
        rw [he] at hw
        exact hw.reloadProcess env signal
    · exact hrest

theorem failureStatus_ne (refused message : String) : Server.failureStatus refused message ≠ 200 := by
  unfold Server.failureStatus
  split_ifs <;> decide

theorem kept_resume {s : Server} (h : s.Kept) (id now : Nat) (spawned : Spawned)
    (hok : s.Undivided (.resume id now spawned)) : (s.resume env id now spawned).Kept := by
  unfold Server.resume
  split
  · exact h
  · rename_i x hx
    have hmem := List.mem_of_find?_eq_some hx
    have hid := h.waiting x hmem
    have hsub : ∀ y, y ∈ s.handlers.erase x → y ∈ s.handlers := fun y hy => List.mem_of_mem_erase hy
    have hrest : Server.Kept { s with handlers := s.handlers.erase x } :=
      h.same rfl h.replied (fun y hy => h.waiting y (hsub y hy)) (fun b hb _ => hb.imp_right (hsub _))
        fun hr => hr
    have hstarted : Server.Kept { s with handlers := s.handlers.erase x, started := true } :=
      hrest.same rfl hrest.replied hrest.waiting (fun _ hb _ => hb) fun hr => hr
    unfold Server.proceed
    split <;> rename_i hp <;> rw [hp] at hid
    · exact hstarted.reply hid nofun
    · exact hrest.reply hid nofun
    · -- the stop that is answered now was settled before
      have hsettled : s.Succeeded x.id := by
        apply Or.inr
        rw [← hp]
        exact hmem
      refine h.same rfl (h.replied_concat hid) hrest.waiting (fun b hb _ => ?_) fun hr => hr
      rcases hb with hb | hb
      · rcases List.mem_append.mp hb with hb | hb
        · exact Or.inl hb
        · rw [(Prod.mk.inj (List.mem_singleton.mp hb)).1]
          exact hsettled
      · exact Or.inr (hsub _ hb)
    · exact hrest.reply hid fun hst => absurd hst (failureStatus_ne _ _)
    · have hlater : ∀ b, Server.Succeeded { s with handlers := s.handlers.erase x } b →
          s.requests[b]? = some .stop → s.Later b :=
        fun b hb => hok x hx hp b (hb.imp_right (hsub _))
      refine (hrest.startProcess hlater now spawned).wait ?_ nofun
      rw [startProcess_requests]
      exact hid
    · exact hrest.reply hid nofun
    · exact hstarted.reply hid nofun
    · exact hrest.reply hid nofun
    · exact h
    · exact h
    · exact h
    · exact h

/-! ## Events of the runtime -/

theorem settle_endpoint (settled : List (Nat × Option String)) (x : Handler) :
    (x.settle settled).id = x.id ∧ (x.settle settled).point.endpoint = x.point.endpoint := by
  rcases x with ⟨id, point⟩
  rcases point with p | p | p | p <;> exact ⟨rfl, rfl⟩

/-- An event after which the runtime is still running has settled no stop. -/
theorem Server.Kept.onRuntime {s : Server} (h : s.Kept) {r : Manager × Manager.Outcome}
    (hrun : r.1.state = .running → s.manager.state = .running ∧ r.2.settled = []) :
    (s.onRuntime r).Kept := by
  refine ⟨h.replied, fun x hx => ?_, fun hr b hb hstop => ?_⟩
  · obtain ⟨y, hy, rfl⟩ := List.mem_map.mp hx
    obtain ⟨hid, he⟩ := settle_endpoint r.2.settled y
    rw [hid, he]
    exact h.waiting y hy
  · obtain ⟨hr, hnil⟩ := hrun hr
    refine h.later hr b ?_ hstop
    unfold Server.Succeeded Server.onRuntime at hb
    rw [hnil, settle_nil] at hb
    exact hb

/-- A manager that still runs after the listeners of `stop` have cleaned up had none of them. -/
theorem ended_running {m : Manager} {reason : String} {k : Nat} {child : Child} {calls : List Nat}
    (hr : (((m.crash reason).1.setChild k child).cleanups calls).state = .running) :
    m.state = .running ∧ calls = [] := by
  rcases Manager.cleanups_state ((m.crash reason).1.setChild k child) calls with hs | ⟨hnil, hs⟩
  · exact absurd (hs.symm.trans hr) nofun
  · have hcrash : (m.crash reason).1.state = .running := hs.symm.trans hr
    rcases Manager.crash_state m reason with hc | ⟨-, hc⟩
    · exact absurd (hc.symm.trans hcrash) nofun
    · exact ⟨hc.symm.trans hcrash, hnil⟩

theorem kept_exit {s : Server} (h : s.Kept) (k : Nat) (code : Option Int) (signal : Option String) :
    (s.onRuntime (s.manager.onExit k code signal)).Kept := by
  apply h.onRuntime
  unfold Manager.onExit
  split
  · exact fun hr => ⟨hr, rfl⟩
  · split_ifs
    · exact fun hr => ⟨hr, rfl⟩
    · intro hr
      obtain ⟨hr, hnil⟩ := ended_running hr
      exact ⟨hr, by rw [hnil]; rfl⟩

theorem kept_error {s : Server} (h : s.Kept) (k : Nat) (message : String) :
    (s.onRuntime (s.manager.onError k message)).Kept := by
  apply h.onRuntime
  unfold Manager.onError
  split
  · exact fun hr => ⟨hr, rfl⟩
  · intro hr
    obtain ⟨hr, hnil⟩ := ended_running hr
    exact ⟨hr, by rw [hnil]; rfl⟩

/-! ## Runs -/

theorem kept_step {s : Server} (h : s.Kept) {e : Event} (hok : s.Undivided e) : (step env s e).Kept := by
  cases e with
  | postStart disk now spawned => exact kept_postStart h disk now spawned
  | postStop => exact kept_postStop h
  | putPolicy mode disk => exact kept_putPolicy h mode disk
  | postReload disk signal => exact kept_postReload h disk signal
  | request path db status => exact kept_request h path db status
  | finish disk signal => exact kept_finish h disk signal
  | resume id now spawned => exact kept_resume h id now spawned hok
  | exit child code signal => exact kept_exit h child code signal
  | error child message => exact kept_error h child message

/-- `main` answers no request. -/
theorem kept_boot {configPath : String} {s : Server} (hs : s.Booted env configPath) : s.Kept := by
  obtain ⟨db, files, disk, now, spawned, rfl⟩ := hs
  have hblank : (Server.blank configPath db files).Kept := ⟨nofun, nofun, nofun⟩
  have hw := hblank.writeToFile env configPath disk
  have hnone : ∀ b, ¬((Server.blank configPath db files).writeToFile env configPath disk).1.Succeeded b := by
    unfold Server.writeToFile
    split <;> exact fun b hb => hb.elim nofun nofun
  unfold Server.boot
  rw [show (Server.blank configPath db files).configPath = configPath from rfl]
  split
  · rename_i s he
    rw [he] at hw
    exact hw
  · rename_i s he
    rw [he] at hw hnone
    have hstart : (s.startProcess env now spawned).1.Kept :=
      hw.startProcess (fun b hb => absurd hb (hnone b)) now spawned
    cases hp : s.startProcess env now spawned with
    | mk s' p =>
        rw [hp] at hstart
        split
        · rename_i r he'
          cases he'
          exact hstart.same rfl hstart.replied hstart.waiting (fun _ hb _ => hb) id
        · rename_i he'
          cases he'
          exact hstart

/-- In every run that meets the condition, a runtime that is running after a `POST /stop` has been
answered with success was asked for by a later start or policy change. -/
theorem stopped_stays {configPath : String} {s₀ s : Server} (hs₀ : s₀.Booted env configPath)
    (es : List Event) (hok : Machine.Guarded (step env) (fun s e => s.Undivided e) s₀ es)
    (hs : Machine.run (step env) s₀ es = s) {b : Nat} (hreply : (b, 200) ∈ s.replies)
    (hstop : s.requests[b]? = some .stop) (hr : s.manager.state = .running) : s.Later b := by
  have h : s.Kept := by
    rw [← hs]
    exact Machine.run_invariant (I := Server.Kept) (fun _ _ hok h => kept_step h hok) hok (kept_boot hs₀)
  exact h.later hr b (Or.inl hreply) hstop

/-- A policy change and a stop that are settled by the same exit. -/
def sharedExit : List Event :=
  [.putPolicy (some "None") .ok, .postStop, .exit 0 none (some "SIGTERM"), .resume 0 1 (.pid 101),
   .resume 1 2 .noPid]

theorem sharedExit_not_stopped :
    (1, 200) ∈ (Machine.run (step plainEnv) freshServer sharedExit).replies ∧
    (Machine.run (step plainEnv) freshServer sharedExit).requests[1]? = some .stop ∧
    (Machine.run (step plainEnv) freshServer sharedExit).manager.state = .running ∧
    ¬(Machine.run (step plainEnv) freshServer sharedExit).Later 1 := by
  refine ⟨by decide, by decide, by decide, ?_⟩
  rintro ⟨c, hc, h⟩
  have hnone : (Machine.run (step plainEnv) freshServer sharedExit).requests[c]? = none :=
    List.getElem?_eq_none (show 2 ≤ c by omega)
  rw [hnone] at h
  exact h.elim nofun nofun

theorem stopped_stays_restart : (Machine.run (step plainEnv) freshServer restart).Later 0 := by
  refine stopped_stays freshServer_booted restart ?_ rfl (by decide) (by decide) (by decide)
  refine ⟨trivial, trivial, ?_, trivial, ?_, trivial⟩
  · intro x hx hp
    cases hx
    cases hp
  · intro x hx hp
    cases hx
    cases hp

end OpcuaLight.Api
