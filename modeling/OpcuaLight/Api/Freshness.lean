import OpcuaLight.Api.Polling

/-!
# What the runtime reads

Whenever the runtime reads its configuration, it finds what `generate` yields at that time
(`reads_fresh`): as long as the API server writes to the file that the runtime reads, or nothing has
changed the configuration since that file was written; and, where a policy change starts the runtime
after its stop, nothing has changed it since the policy change wrote it.
-/

namespace OpcuaLight.Api

open Config (AddressSpaceConfig Database Env addressSpaceConfig)
open Process (Manager Spawned StartResult)

variable (env : Env)

/-! ## The condition -/

/-- The event comes to a spawn or to a reload signal. -/
def Server.Rereads (s : Server) : Event → Prop
  | .postStart disk _ spawned => disk = .ok ∧ (∃ pid, spawned = .pid pid) ∧
      ¬(s.manager.state = .running ∧ s.manager.process.isSome = true)
  | .postReload disk signal => disk = .ok ∧ signal = none ∧
      s.manager.state = .running ∧ s.manager.process.isSome = true
  | .finish disk signal => disk = .ok ∧ signal = none ∧
      s.manager.state = .running ∧ s.manager.process.isSome = true ∧
      ∃ status ∈ s.finishing.head?, 200 ≤ status ∧ status < 300
  | .resume id _ spawned => (∃ pid, spawned = .pid pid) ∧
      ¬(s.manager.state = .running ∧ s.manager.process.isSome = true) ∧
      ∃ h ∈ s.handlers.find? (fun h => h.id = id), h.point = .policyStop (.resolved ())
  | _ => False

/-- The handler writes the configuration in the same event. -/
def Event.Writes : Event → Prop
  | .postStart _ _ _ | .postReload _ _ | .finish _ _ => True
  | _ => False

/-- The file of the runtime was written last from a database with the same configuration. -/
def Server.Current (s : Server) : Prop :=
  ∃ db, s.written (env.resolve s.configPath) = some db ∧
    addressSpaceConfig env db = addressSpaceConfig env s.db

def Server.Fresh (s : Server) (e : Event) : Prop :=
  s.Rereads e → s.Current env ∨ (e.Writes ∧ env.resolve configFilePath = env.resolve s.configPath)

/-! ## The invariant -/

/-- A file holds the configuration of the database that it was written from last, and every read has
found the configuration of its time. -/
structure Server.Faithful (s : Server) : Prop where
  written : ∀ path db, s.written path = some db →
    ∃ config, addressSpaceConfig env db = some config ∧ s.files path = some config
  reads : ∀ r ∈ s.reads, ∃ config, r.found = some config ∧ r.generated = some config

variable {env}

theorem Server.Faithful.runtimeReads {s : Server} (h : s.Faithful env) (hc : s.Current env) :
    (s.runtimeReads env).Faithful env := by
  refine ⟨h.written, fun r hr => ?_⟩
  rcases List.mem_append.mp hr with hr | hr
  · exact h.reads r hr
  · obtain ⟨db, hdb, he⟩ := hc
    obtain ⟨config, hconfig, hfile⟩ := h.written _ db hdb
    rw [List.mem_singleton.mp hr]
    exact ⟨config, hfile, he.symm.trans hconfig⟩

theorem Server.Faithful.writeToFile {s : Server} (h : s.Faithful env) (path : String) (disk : Disk) :
    (s.writeToFile env path disk).1.Faithful env := by
  unfold Server.writeToFile
  split
  · exact h
  · rename_i config hconfig
    refine ⟨fun path' db hdb => ?_, h.reads⟩
    by_cases hp : path' = env.resolve path
    · subst hp
      simp only [Function.update_self] at hdb ⊢
      exact ⟨config, Option.some.inj hdb ▸ hconfig, rfl⟩
    · simp only [Function.update_of_ne hp] at hdb ⊢
      exact h.written path' db hdb
  · refine ⟨fun path' db hdb => ?_, h.reads⟩
    by_cases hp : path' = env.resolve path
    · rw [hp] at hdb
      simp at hdb
    · simp only [Function.update_of_ne hp] at hdb ⊢
      exact h.written path' db hdb

/-- After a write that returns, the file of the runtime is current if it was before or is the one that
was written. -/
theorem Server.Current.of_write {s s' : Server} {path : String} {disk : Disk}
    (he : s.writeToFile env path disk = (s', true))
    (h : s.Current env ∨ env.resolve path = env.resolve s.configPath) : s'.Current env := by
  unfold Server.writeToFile at he
  split at he
  · cases (Prod.mk.inj he).2
  · rw [← (Prod.mk.inj he).1]
    by_cases hp : env.resolve path = env.resolve s.configPath
    · refine ⟨s.db, ?_, rfl⟩
      show Function.update s.written _ _ (env.resolve s.configPath) = _
      rw [hp, Function.update_self]
    · obtain ⟨db, hdb, hconfig⟩ := h.resolve_right hp
      refine ⟨db, ?_, hconfig⟩
      show Function.update s.written _ _ (env.resolve s.configPath) = _
      rw [Function.update_of_ne (Ne.symm hp)]
      exact hdb
  · cases (Prod.mk.inj he).2

theorem writeToFile_ok {s s' : Server} {path : String} {disk : Disk}
    (he : s.writeToFile env path disk = (s', true)) : disk = .ok ∧ s'.manager = s.manager := by
  unfold Server.writeToFile at he
  split at he
  · cases (Prod.mk.inj he).2
  · rw [← (Prod.mk.inj he).1]
    exact ⟨rfl, rfl⟩
  · cases (Prod.mk.inj he).2

theorem Server.Faithful.startProcess {s : Server} (h : s.Faithful env) (now : Nat) (spawned : Spawned)
    (hc : (∃ pid, spawned = .pid pid) →
      ¬(s.manager.state = .running ∧ s.manager.process.isSome = true) → s.Current env) :
    (s.startProcess env now spawned).1.Faithful env := by
  unfold Server.startProcess
  split
  · rename_i m r he
    have hno := (Manager.start_ok he).1
    have hpid : ∃ pid, spawned = .pid pid := by
      unfold Manager.start at he
      rw [if_neg hno] at he
      cases spawned with
      | thrown message => cases he
      | noPid => cases he
      | pid pid => exact ⟨pid, rfl⟩
    have hm : Server.Faithful env { s with manager := m } := ⟨h.written, h.reads⟩
    exact hm.runtimeReads (hc hpid hno)
  · exact ⟨h.written, h.reads⟩

theorem Server.Faithful.reloadProcess {s : Server} (h : s.Faithful env) (signal : Option String)
    (hc : signal = none → s.manager.state = .running → s.manager.process.isSome = true →
      s.Current env) : (s.reloadProcess env signal).1.Faithful env := by
  unfold Server.reloadProcess
  split
  · rename_i he
    unfold Manager.reload at he
    split_ifs at he with hr
    exact h.runtimeReads (hc he hr.1 hr.2)
  · exact h

theorem Server.Faithful.stopProcess {s : Server} (h : s.Faithful env) (id : Nat) :
    (s.stopProcess id).1.Faithful env := by
  unfold Server.stopProcess
  split <;> exact ⟨h.written, h.reads⟩

/-! ## Steps -/

theorem faithful_postStart {s : Server} (h : s.Faithful env) {disk : Disk} {now : Nat}
    {spawned : Spawned} (hok : s.Fresh env (.postStart disk now spawned)) :
    (s.postStart env disk now spawned).Faithful env := by
  have hr : (s.receive .start).1.Faithful env := ⟨h.written, h.reads⟩
  have hw := hr.writeToFile configFilePath disk
  unfold Server.postStart
  simp only
  split
  · rename_i s' he
    rw [he] at hw
    exact ⟨hw.written, hw.reads⟩
  · rename_i s' he
    rw [he] at hw
    obtain ⟨hdisk, hm⟩ := writeToFile_ok he
    have hstart := hw.startProcess now spawned fun hpid hno => by
      rw [hm] at hno
      exact Server.Current.of_write he ((hok ⟨hdisk, hpid, hno⟩).imp_right fun h => h.2)
    exact ⟨hstart.written, hstart.reads⟩

theorem faithful_postReload {s : Server} (h : s.Faithful env) {disk : Disk} {signal : Option String}
    (hok : s.Fresh env (.postReload disk signal)) : (s.postReload env disk signal).Faithful env := by
  have hr : (s.receive .reload).1.Faithful env := ⟨h.written, h.reads⟩
  have hw := hr.writeToFile configFilePath disk
  unfold Server.postReload
  simp only
  split
  · rename_i s' he
    rw [he] at hw
    exact ⟨hw.written, hw.reads⟩
  · rename_i s' he
    rw [he] at hw
    obtain ⟨hdisk, hm⟩ := writeToFile_ok he
    have hreload := hw.reloadProcess signal fun hsig hrun hsome => by
      rw [hm] at hrun hsome
      exact Server.Current.of_write he ((hok ⟨hdisk, hsig, hrun, hsome⟩).imp_right fun h => h.2)
    split
    · rename_i s'' he'
      rw [he'] at hreload
      exact ⟨hreload.written, hreload.reads⟩
    · rename_i s'' message he'
      rw [he'] at hreload
      exact ⟨hreload.written, hreload.reads⟩

theorem faithful_finish {s : Server} (h : s.Faithful env) {disk : Disk} {signal : Option String}
    (hok : s.Fresh env (.finish disk signal)) : (s.finish env disk signal).Faithful env := by
  unfold Server.finish
  split
  · exact h
  · rename_i status rest hfin
    have hrest : Server.Faithful env { s with finishing := rest } := ⟨h.written, h.reads⟩
    have hw := hrest.writeToFile configFilePath disk
    simp only
    split_ifs with hgo
    · split
      · rename_i s' he
        rw [he] at hw
        exact hw
      · rename_i s' he
        rw [he] at hw
        obtain ⟨hdisk, hm⟩ := writeToFile_ok he
        refine hw.reloadProcess signal fun hsig hrun hsome => ?_
        rw [hm] at hrun hsome
        have hhead : ∃ status ∈ s.finishing.head?, 200 ≤ status ∧ status < 300 := by
          rw [hfin]
          exact ⟨status, rfl, hgo.1, hgo.2.1⟩
        exact Server.Current.of_write he
          ((hok ⟨hdisk, hsig, hrun, hsome, hhead⟩).imp_right fun h => h.2)
    · exact hrest

theorem faithful_putPolicy {s : Server} (h : s.Faithful env) (mode : Option String) (disk : Disk) :
    (s.putPolicy env mode disk).Faithful env := by
  unfold Server.putPolicy
  simp only
  split
  · rename_i mode' _
    have hpolicy : ((s.receive .policy).1.updatePolicy mode').stopAll.Faithful env :=
      ⟨h.written, h.reads⟩
    split_ifs
    · have hw := hpolicy.writeToFile configFilePath disk
      split
      · rename_i s' he
        rw [he] at hw
        exact ⟨hw.written, hw.reads⟩
      · rename_i s' he
        rw [he] at hw
        have hstop := hw.stopProcess (s.receive .policy).2
        exact ⟨hstop.written, hstop.reads⟩
    · exact ⟨h.written, h.reads⟩
  · exact ⟨h.written, h.reads⟩

theorem faithful_resume {s : Server} (h : s.Faithful env) {id now : Nat} {spawned : Spawned}
    (hok : s.Fresh env (.resume id now spawned)) : (s.resume env id now spawned).Faithful env := by
  unfold Server.resume
  split
  · exact h
  · rename_i x hx
    have hrest : Server.Faithful env { s with handlers := s.handlers.erase x } :=
      ⟨h.written, h.reads⟩
    unfold Server.proceed
    split
    case h_5 hp =>
      have hstart := hrest.startProcess now spawned fun hpid hno =>
        (hok ⟨hpid, hno, x, hx, hp⟩).resolve_right fun h => h.1
      exact ⟨hstart.written, hstart.reads⟩
    all_goals exact ⟨h.written, h.reads⟩

theorem faithful_step {s : Server} (h : s.Faithful env) {e : Event} (hok : s.Fresh env e) :
    (step env s e).Faithful env := by
  cases e with
  | postStart disk now spawned => exact faithful_postStart h hok
  | postStop =>
      have hr : (s.receive .stop).1.stopAll.Faithful env := ⟨h.written, h.reads⟩
      have hstop := hr.stopProcess (s.receive .stop).2
      exact ⟨hstop.written, hstop.reads⟩
  | putPolicy mode disk => exact faithful_putPolicy h mode disk
  | postReload disk signal => exact faithful_postReload h hok
  | request path db status =>
      show (s.request path db status).Faithful env
      unfold Server.request
      simp only
      split_ifs <;> exact ⟨h.written, h.reads⟩
  | finish disk signal => exact faithful_finish h hok
  | resume id now spawned => exact faithful_resume h hok
  | exit child code signal => exact ⟨h.written, h.reads⟩
  | error child message => exact ⟨h.written, h.reads⟩

/-- `main` writes the file that the runtime reads. -/
theorem faithful_boot {configPath : String} {s : Server} (hs : s.Booted env configPath) :
    s.Faithful env := by
  obtain ⟨db, files, disk, now, spawned, rfl⟩ := hs
  have hblank : (Server.blank configPath db files).Faithful env :=
    ⟨nofun, fun _ hr => absurd hr List.not_mem_nil⟩
  have hw := hblank.writeToFile configPath disk
  unfold Server.boot
  rw [show (Server.blank configPath db files).configPath = configPath from rfl]
  split
  · rename_i s he
    rw [he] at hw
    exact hw
  · rename_i s he
    rw [he] at hw
    have hstart : (s.startProcess env now spawned).1.Faithful env :=
      hw.startProcess now spawned fun _ _ => Server.Current.of_write he (Or.inr rfl)
    cases hp : s.startProcess env now spawned with
    | mk s' p =>
        rw [hp] at hstart
        split
        · rename_i r he'
          cases he'
          exact ⟨hstart.written, hstart.reads⟩
        · rename_i he'
          cases he'
          exact hstart

/-- In every run that meets the condition, the runtime finds what `generate` yields whenever it reads
its configuration. -/
theorem reads_fresh {configPath : String} {s₀ s : Server} (hs₀ : s₀.Booted env configPath)
    (es : List Event) (hok : Machine.Guarded (step env) (fun s e => s.Fresh env e) s₀ es)
    (hs : Machine.run (step env) s₀ es = s) {r : Read} (hr : r ∈ s.reads) :
    ∃ config, r.found = some config ∧ r.generated = some config := by
  have h : s.Faithful env := by
    rw [← hs]
    refine Machine.run_invariant (I := Server.Faithful env) (fun _ _ hok h => faithful_step h hok) hok ?_
    exact faithful_boot hs₀
  exact h.reads r hr

/-- The runtime's second read in a run, the first after the one of `main`. -/
def secondRead (s : Server) : Read := s.reads.getD 1 ⟨none, none⟩

theorem secondRead_mem {s : Server} (h : 1 < s.reads.length) : secondRead s ∈ s.reads := by
  rw [secondRead, List.getD_eq_getElem?_getD, List.getElem?_eq_getElem h]
  exact List.getElem_mem h

/-- A server whose runtime has another file than the one the routers write. -/
def otherServer : Server :=
  (Server.blank "/data/config.json" ⟨Db.Tables.empty false, some ⟨"None", none, none⟩⟩
    (fun _ => none)).boot plainEnv .ok 0 (.pid 100)

theorem otherServer_booted : otherServer.Booted plainEnv "/data/config.json" :=
  ⟨_, _, _, _, _, rfl⟩

/-- A namespace, created while the runtime runs. -/
def withNamespace : Database :=
  ⟨{ Db.Tables.empty false with namespaces := [⟨"n1", "Plant", none, "urn:plant"⟩] },
    some ⟨"None", none, none⟩⟩

def createdNamespace : List Event :=
  [.request "/api/namespaces" withNamespace 201, .finish .ok none]

theorem createdNamespace_stale :
    otherServer.Booted plainEnv "/data/config.json" ∧
    secondRead (Machine.run (step plainEnv) otherServer createdNamespace) ∈
      (Machine.run (step plainEnv) otherServer createdNamespace).reads ∧
    (secondRead (Machine.run (step plainEnv) otherServer createdNamespace)).found ≠
      (secondRead (Machine.run (step plainEnv) otherServer createdNamespace)).generated := by
  have hreads : 1 < (Machine.run (step plainEnv) otherServer createdNamespace).reads.length := by
    decide +kernel
  refine ⟨otherServer_booted, secondRead_mem hreads, ?_⟩
  apply ne_of_apply_ne (Option.map (fun config => config.namespaces.length))
  decide +kernel

theorem reads_fresh_namespace : ∃ config,
    (secondRead (Machine.run (step plainEnv) freshServer createdNamespace)).found = some config ∧
    (secondRead (Machine.run (step plainEnv) freshServer createdNamespace)).generated = some config :=
  reads_fresh freshServer_booted createdNamespace ⟨nofun, fun _ => Or.inr ⟨trivial, rfl⟩, trivial⟩ rfl
    (secondRead_mem (by decide +kernel))

end OpcuaLight.Api
