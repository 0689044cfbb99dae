import OpcuaLight.Connector.Reads

/-!
# The poll guard

EtherNet/IP and PCCC start no poll of a connection while one is in progress. The flag is set before
the read and cleared by its handler, whatever becomes of the client in between: when the client is
dropped meanwhile, or the read throws, the flag says nothing any more about the client that the
object holds (`Released`).
-/

namespace OpcuaLight.Connector

open World

variable {p : Protocol} {w w' w'' : World} {m : ObjId}

/-- A read over the client that the object holds is not answered yet. -/
def Outstanding (w : World) (m : ObjId) : Prop :=
  ∃ c, (w.objs m).client = some c ∧ ∃ r read, w.reads r = some read ∧ read.client = some c

/-- A poll in progress is waiting for the client that the object holds. -/
def Released (w : World) (m : ObjId) : Prop :=
  (w.objs m).pollInProgress = true → Outstanding w m

theorem SameReads.outstanding (h : SameReads w w')
    (hc : (w'.objs m).client = (w.objs m).client) : Outstanding w' m ↔ Outstanding w m := by
  unfold Outstanding
  rw [h.reads, hc]

/-- After a poll the flag is as the poll found it, or the poll's own read is outstanding. -/
theorem Polled.released (h : Polled p m w w')
    (hc : (w'.objs m).client = (w.objs m).client) (hrel : Released w m) : Released w' m := by
  intro hflag
  rcases h with ⟨hs, hf⟩ | ⟨c, k, hcl, -, -, hreads, -⟩
  · exact (hs.outstanding hc).mpr (hrel (by rw [← hf, hflag]))
  · refine ⟨c, by rw [hc, hcl], w.nextRead, ⟨m, some c, k⟩, ?_, rfl⟩
    rw [hreads, Function.update_self]

/-! ## The invariant -/

structure Guardable (p : Protocol) (w : World) : Prop where
  wf : WF p w
  idle : All Idle w
  reads : ReadsOf p w

theorem sameReads_addConnection (p : Protocol) (w : World) (config : ConnectionConfig) :
    SameReads w (addConnection p w config).1 := by
  unfold addConnection
  split
  · exact SameReads.refl w
  · split
    · exact SameReads.refl w
    · rename_i params _
      have h1 : SameReads w (w.track (createManagedConnection config params)) := ⟨rfl, rfl⟩
      dsimp only
      split_ifs
      · exact h1.trans (still_initiateConnection p _ _).toSameReads
      · exact h1

/-- Calls, and the reconnect timer, neither read nor answer. -/
theorem sameReads_step (h : WF p w) {e : Event} (hread : ∀ r result, e ≠ .readReport r result)
    (hconnect : ∀ c err, e ≠ .connectReport c err) (hpoll : ∀ t, e ≠ .pollTick t) :
    SameReads w (step p w e) := by
  cases e with
  | addConnection config => exact sameReads_addConnection p w config
  | removeConnection id => exact (still_removeConnection w id).toSameReads
  | updateConnection config =>
      cases hm : w.connections.get? config.id with
      | some m => exact (still_updateConnection hm).toSameReads
      | none =>
          simp only [Connector.step, updateConnection, hm]
          exact sameReads_addConnection p w config
  | addMapping mapping => exact (still_addMapping p w mapping).toSameReads
  | removeMapping id => exact (still_removeMapping p w id).toSameReads
  | start => exact (still_start p w).toSameReads
  | stop => exact (still_stop w).toSameReads
  | connectReport c err => exact absurd rfl (hconnect c err)
  | readReport r result => exact absurd rfl (hread r result)
  | pollTick t => exact absurd rfl (hpoll t)
  | reconnectTick t =>
      cases ha : actor w (.reconnectTick t) with
      | none =>
          rw [step_of_actor_none rfl ha]
          exact SameReads.refl w
      | some m => exact (still_reconnectTick h ha).toSameReads
  | elapse n => exact ⟨rfl, rfl⟩

/-- The answers of an event are the library's. -/
def Event.isOf (p : Protocol) : Event → Bool
  | .readReport _ result => result.isOf p
  | _ => true

theorem readsOf_step (hp : p = .ethernetIp ∨ p = .pccc) (h : WF p w) (hw : ReadsOf p w) {e : Event}
    (he : e.isOf p = true) : ReadsOf p (step p w e) := by
  by_cases hsame : (∀ r result, e ≠ .readReport r result) ∧ (∀ c err, e ≠ .connectReport c err) ∧
      ∀ t, e ≠ .pollTick t
  · exact (sameReads_step h hsame.1 hsame.2.1 hsame.2.2).readsOf hw
  · cases ha : actor w e with
    | none =>
        have hsingle : e.isSingle = true := by
          cases e <;> simp at hsame <;> rfl
        rw [step_of_actor_none hsingle ha]
        exact hw
    | some m =>
        cases e with
        | connectReport c err => exact (polled_connectReport hp h ha).1.readsOf hw
        | readReport r result =>
            obtain ⟨read, hr, rfl⟩ := Option.map_eq_some_iff.mp ha
            obtain ⟨-, hreads, hnext⟩ := readReport_answered hp hw he hr
            intro r' x hx
            rw [hreads] at hx
            rw [hnext]
            by_cases hrr : r' = r
            · rw [hrr, Function.update_self] at hx
              cases hx
            · rw [Function.update_of_ne hrr] at hx
              exact hw r' x hx
        | pollTick t =>
            obtain ⟨ms, ht⟩ := actor_tick ha
            simp only [Connector.step, onPollTick, ht]
            exact (polled_poll hp w m).readsOf hw
        | _ => simp at hsame

theorem Guardable.step (hp : p = .ethernetIp ∨ p = .pccc) (h : Guardable p w) {e : Event}
    (he : e.isOf p = true) : Guardable p (step p w e) :=
  ⟨h.wf.step e, h.wf.idle_step h.idle e, readsOf_step hp h.wf h.reads he⟩

/-! ## Clients taken away -/

/-- A client that an attempt gives an object is a new one. -/
theorem initiateConnection_client (p : Protocol) (hnone : (w.objs m).client = none) {c : ClientId}
    (hc : ((initiateConnection p w m).objs m).client = some c) : w.nextClient ≤ c := by
  cases hcon : (w.objs m).connecting with
  | true =>
      rw [initiateConnection_of_connecting p hcon, hnone] at hc
      cases hc
  | false =>
      rw [(initiateConnection_self p hcon).1] at hc
      obtain rfl := Option.some.inj hc
      exact le_refl _

theorem updateConnection_client (h : WF p w) {config : ConnectionConfig} {c : ClientId}
    (hm : w.connections.get? config.id = some m)
    (hc : (((updateConnection p w config).1.objs m)).client = some c) : w.nextClient ≤ c := by
  have h1 := h.ok_disconnectAndCleanup (h.tracked _ m hm).1
  have hnone : ((w.disconnectAndCleanup m).objs m).client = none :=
    (quiet_disconnectAndCleanup w m).client
  unfold updateConnection at hc
  rw [hm] at hc
  dsimp only at hc
  split at hc
  · rw [hnone] at hc
    cases hc
  · rename_i params _
    have hparams : (((w.disconnectAndCleanup m).applyParams m config params).objs m).client = none := by
      rw [applyParams, update_objs_self]
      exact hnone
    split_ifs at hc
    · exact h1.acts.nextClient.trans (initiateConnection_client p hparams hc)
    · rw [hparams] at hc
      cases hc

theorem reconnectTick_client (h : WF p w) {t : TimerId} {c : ClientId}
    (ha : actor w (.reconnectTick t) = some m) (hrun : w.running = true)
    (hc : ((step p w (.reconnectTick t)).objs m).client = some c) : w.nextClient ≤ c := by
  obtain ⟨ms, ht⟩ := actor_tick ha
  have hlt := (h.timer t _ ht).2
  have h1 := h.ok_disarm hlt .reconnect
  have h2 := h1.trans (h1.wf.ok_dropClient (h1.lt hlt))
  have h3 := h2.trans (h2.wf.ok_setState (h2.lt hlt) .disconnected)
  rw [step, onReconnectTick_eq h ht, hrun, Bool.not_true, if_neg Bool.false_ne_true] at hc
  refine h3.acts.nextClient.trans (initiateConnection_client p ?_ hc)
  rw [setState, update_objs_self, dropClient_self]

/-- No read is outstanding over a new client. -/
theorem not_outstanding_of_new (h : WF p w) (hs : SameReads w w')
    (hnew : ∀ c, (w'.objs m).client = some c → w.nextClient ≤ c) : ¬ Outstanding w' m := by
  rintro ⟨c, hc, r, read, hr, hread⟩
  rw [hs.reads] at hr
  exact absurd ((h.read r read hr).2 c hread).1 (not_lt.mpr (hnew c hc))

/-! ## Steps -/

/-- The step takes no tracked connection's client away while a poll of it is in progress. -/
def LeavesPoll (w : World) : Event → Prop
  | .updateConnection config => ∀ m, w.connections.get? config.id = some m →
      (w.objs m).pollInProgress = false
  | .stop => w.running = true → ∀ m, w.Tracked m → (w.objs m).pollInProgress = false
  | .reconnectTick t => ∀ m, actor w (.reconnectTick t) = some m → w.running = true → w.Tracked m →
      (w.objs m).pollInProgress = false
  | _ => True

/-- Reads of other objects stay outstanding while code for `m` runs. -/
theorem all_released_of_ok (h : WF p w) (hok : Ok p m w w') (hall : All Released w)
    (hkeeps : ∀ r read, w.reads r = some read → read.obj ≠ m → w'.reads r = some read)
    (hown : w.Tracked m → Released w' m) : All Released w' := by
  intro i hi
  rw [Tracked, hok.acts.connections] at hi
  by_cases him : i = m
  · rw [him] at hi ⊢
    exact hown hi
  · intro hflag
    rw [hok.acts.objs i him] at hflag
    obtain ⟨c, hc, r, read, hr, hread⟩ := hall i hi hflag
    have hobj : read.obj = i := by
      rw [← ((h.read r read hr).2 c hread).2, ((h.obj i).client c hc).2.1]
    exact ⟨c, by rw [hok.acts.objs i him, hc], r, read, hkeeps r read hr (by rw [hobj]; exact him), hread⟩

theorem all_released_of_still (h : WF p w) (hok : Ok p m w w') (hs : Still w w')
    (hc : (w'.objs m).client = (w.objs m).client) (hall : All Released w) : All Released w' := by
  refine all_released_of_ok h hok hall (fun r read hr _ => by rw [hs.reads, hr]) fun htr hflag => ?_
  rw [hs.flag] at hflag
  exact (hs.toSameReads.outstanding hc).mpr (hall m htr hflag)

/-- Where an object gets a new client, or none, its guard is released exactly if it was open. -/
theorem all_released_iff_of_new (h : WF p w) (hok : Ok p m w w') (hs : Still w w')
    (hnew : ∀ c, (w'.objs m).client = some c → w.nextClient ≤ c) (hall : All Released w)
    (htr : w.Tracked m) : All Released w' ↔ (w.objs m).pollInProgress = false := by
  constructor
  · intro h'
    have htr' : w'.Tracked m := by
      rw [Tracked, hok.acts.connections]
      exact htr
    rw [← Bool.not_eq_true, ← hs.flag]
    exact fun hflag => not_outstanding_of_new h hs.toSameReads hnew (h' m htr' hflag)
  · intro hopen
    refine all_released_of_ok h hok hall (fun r read hr _ => by rw [hs.reads, hr]) fun _ hflag => ?_
    rw [hs.flag, hopen] at hflag
    cases hflag

theorem released_addConnection (h : WF p w) (hall : All Released w) (config : ConnectionConfig) :
    All Released (addConnection p w config).1 := by
  unfold addConnection
  split
  · exact hall
  · rename_i hnone
    split
    · exact hall
    · rename_i params _
      have h1 := h.track config params
      have hlt : w.nextObj < (w.track (createManagedConnection config params)).nextObj :=
        Nat.lt_succ_self _
      have htracked : All Released (w.track (createManagedConnection config params)) := by
        intro i hi hflag
        rcases (tracked_track hnone i).mp hi with rfl | hi
        · rw [track_objs_self] at hflag
          cases hflag
        · have ho := track_objs_of_ne w (createManagedConnection config params)
            (Nat.ne_of_lt (h.lt_of_tracked hi))
          unfold Outstanding
          rw [ho] at hflag ⊢
          exact hall i hi hflag
      have hstill := still_initiateConnection p (w.track (createManagedConnection config params)) w.nextObj
      dsimp only
      split_ifs
      · refine all_released_of_ok h1 (h1.ok_initiateConnection hlt) htracked
          (fun r read hr _ => by rw [hstill.reads, hr]) fun _ hflag => ?_
        rw [hstill.flag, track_objs_self] at hflag
        cases hflag
      · exact htracked

/-- Of a connector that is not running no guard is set, so the start finds them all open. -/
theorem Guardable.flags_of_idle (h : Guardable p w) (hall : All Released w)
    (hrun : w.running = false) (htr : w.Tracked m) : (w.objs m).pollInProgress = false := by
  rw [← Bool.not_eq_true]
  intro hflag
  obtain ⟨c, hc, -⟩ := hall m htr hflag
  rw [(h.idle m htr hrun).client] at hc
  cases hc

/-- A call or a report for one object that does nothing. -/
theorem released_of_actor_none {e : Event} (he : e.isSingle = true) (ha : actor w e = none)
    (hall : All Released w) : All Released (step p w e) := by
  rw [step_of_actor_none he ha]
  exact hall

theorem released_removeConnection (h : WF p w) (hall : All Released w) (id : String) :
    All Released (step p w (.removeConnection id)) := by
  cases hm : w.connections.get? id with
  | none =>
      simp only [Connector.step, removeConnection, hm]
      exact hall
  | some m =>
      have hok := h.ok_disconnectAndCleanup (h.tracked id m hm).1
      have hstill := still_disconnectAndCleanup w m
      intro i hi
      simp only [Connector.step, removeConnection, hm] at hi ⊢
      obtain ⟨id', hid'⟩ := JsMap.mem_values_iff.mp hi
      change ((w.disconnectAndCleanup m).connections.delete id).get? id' = some i at hid'
      rw [hok.acts.connections, JsMap.get?_delete] at hid'
      split_ifs at hid' with hne
      have him : i ≠ m := fun him => by
        rw [him] at hid'
        exact hne (by rw [← (h.tracked id' m hid').2, (h.tracked id m hm).2])
      intro hflag
      obtain ⟨c, hc, r, read, hr, hread⟩ := hall i (JsMap.mem_values_of_get? hid')
        (by rw [← hstill.flag i]; exact hflag)
      exact ⟨c, by rw [← hc, ← hok.acts.objs i him], r, read, by rw [← hr, ← hstill.reads], hread⟩

theorem released_updateConnection (h : WF p w) (hall : All Released w) (config : ConnectionConfig) :
    All Released (step p w (.updateConnection config)) ↔ LeavesPoll w (.updateConnection config) := by
  cases hm : w.connections.get? config.id with
  | none =>
      have hstep : step p w (.updateConnection config) = (addConnection p w config).1 := by
        simp only [Connector.step, updateConnection, hm]
      rw [hstep]
      simp only [LeavesPoll, hm]
      exact ⟨fun _ m hn => by simp at hn, fun _ => released_addConnection h hall config⟩
  | some m =>
      have hiff := all_released_iff_of_new h (h.ok_updateConnection hm)
        (still_updateConnection hm) (fun c hc => updateConnection_client h hm hc) hall
        (JsMap.mem_values_of_get? hm)
      refine hiff.trans ⟨fun hopen m' hm' => ?_, fun hleaves => hleaves m hm⟩
      obtain rfl := Option.some.inj (hm.symm.trans hm')
      exact hopen

theorem released_start (h : Guardable p w) (hall : All Released w) :
    All Released (step p w .start) := by
  cases hrun : w.running with
  | true =>
      simp only [Connector.step, start, hrun, if_true]
      exact hall
  | false =>
      intro i hi hflag
      change (start p w).Tracked i at hi
      rw [Tracked, h.wf.start_connections] at hi
      rw [Connector.step, (still_start p w).flag, h.flags_of_idle hall hrun hi] at hflag
      cases hflag

/-- The stop takes the clients of all tracked objects away. -/
theorem released_stop (h : Guardable p w) (hall : All Released w) :
    All Released (step p w .stop) ↔ LeavesPoll w .stop := by
  cases hrun : w.running with
  | false =>
      have hstep : step p w .stop = w := by
        simp only [Connector.step, stop, hrun, Bool.not_false, if_true]
      rw [hstep]
      refine ⟨fun _ hr => ?_, fun _ => hall⟩
      rw [hrun] at hr
      cases hr
  | true =>
      have hfold := (h.wf.setRunning false).foldl (fun _ _ h hm => h.ok_disconnectAndCleanup hm)
        w.connections.values (fun m hm => h.wf.lt_of_tracked hm)
      have hstep : step p w .stop =
          w.connections.values.foldl disconnectAndCleanup { w with running := false } := by
        simp only [Connector.step, stop, hrun, Bool.not_true, Bool.false_eq_true, if_false]
      have hstill : Still w (step p w .stop) := still_stop w
      constructor
      · intro hall' _ m htr
        have htr' : (step p w .stop).Tracked m := by
          rw [hstep, Tracked, hfold.2.1]
          exact htr
        rw [← Bool.not_eq_true, ← hstill.flag]
        intro hflag
        obtain ⟨c, hc, -⟩ := hall' m htr' hflag
        have hquiet := h.wf.idle_step h.idle .stop m htr' (by rw [hstep, hfold.2.2.1])
        rw [hquiet.client] at hc
        cases hc
      · intro hopen i hi hflag
        rw [hstep, Tracked, hfold.2.1] at hi
        rw [hstill.flag, hopen hrun i hi] at hflag
        cases hflag

theorem released_connectReport (hp : p = .ethernetIp ∨ p = .pccc) (h : Guardable p w)
    (hall : All Released w) {c : ClientId} {err : Option JsError}
    (ha : actor w (.connectReport c err) = some m) : All Released (step p w (.connectReport c err)) := by
  obtain ⟨hpolled, hc⟩ := polled_connectReport hp h.wf ha
  exact all_released_of_ok h.wf (h.wf.ok_step ha) hall (fun r read hr _ => hpolled.keeps h.reads hr)
    fun htr => hpolled.released hc (hall m htr)

theorem released_readReport (hp : p = .ethernetIp ∨ p = .pccc) (h : Guardable p w)
    (hall : All Released w) {r : ReadId} {result : ReadResult} (he : (Event.readReport r result).isOf p = true)
    (ha : actor w (.readReport r result) = some m) : All Released (step p w (.readReport r result)) := by
  have hok := h.wf.ok_step (p := p) ha
  obtain ⟨read, hr, rfl⟩ := Option.map_eq_some_iff.mp ha
  obtain ⟨hflag, hreads, -⟩ := readReport_answered hp h.reads he hr
  refine all_released_of_ok h.wf hok hall (fun r' x hx hne => ?_) fun _ hf => ?_
  · rw [hreads, Function.update_of_ne, hx]
    intro hrr
    rw [hrr, hr] at hx
    exact hne (congrArg Read.obj (Option.some.inj hx)).symm
  · rw [hflag] at hf
    cases hf

theorem released_pollTick (hp : p = .ethernetIp ∨ p = .pccc) (h : Guardable p w)
    (hall : All Released w) {t : TimerId} (ha : actor w (.pollTick t) = some m) :
    All Released (step p w (.pollTick t)) := by
  have hok := h.wf.ok_step (p := p) ha
  obtain ⟨ms, ht⟩ := actor_tick ha
  have hstep : step p w (.pollTick t) = poll p w m := by
    simp only [Connector.step, onPollTick, ht]
  rw [hstep] at hok ⊢
  have hpolled := polled_poll hp w m
  exact all_released_of_ok h.wf hok hall (fun r read hr _ => hpolled.keeps h.reads hr)
    fun htr => hpolled.released (passive_poll (h.wf.obj m)).client (hall m htr)

/-- The reconnect gives the object a new client, if the connector runs and tracks it. -/
theorem released_reconnectTick (h : Guardable p w) (hall : All Released w) {t : TimerId}
    (ha : actor w (.reconnectTick t) = some m) :
    All Released (step p w (.reconnectTick t)) ↔ LeavesPoll w (.reconnectTick t) := by
  have hok := h.wf.ok_step (p := p) ha
  have hstill := still_reconnectTick h.wf ha
  by_cases hcond : w.running = true ∧ w.Tracked m
  · refine (all_released_iff_of_new h.wf hok hstill
      (fun c hc => reconnectTick_client h.wf ha hcond.1 hc) hall hcond.2).trans
      ⟨fun hopen m' hm' _ _ => ?_, fun hleaves => hleaves m ha hcond.1 hcond.2⟩
    obtain rfl := Option.some.inj (ha.symm.trans hm')
    exact hopen
  · refine ⟨fun _ m' hm' hrun htr => ?_, fun _ => ?_⟩
    · obtain rfl := Option.some.inj (ha.symm.trans hm')
      exact absurd ⟨hrun, htr⟩ hcond
    · refine all_released_of_ok h.wf hok hall
        (fun r read hr _ => by rw [hstill.reads, hr]) fun htr hflag => ?_
      have hrun : w.running = false := by
        rw [← Bool.not_eq_true]
        exact fun hrun => hcond ⟨hrun, htr⟩
      rw [hstill.flag, h.flags_of_idle hall hrun htr] at hflag
      cases hflag

theorem released_step (hp : p = .ethernetIp ∨ p = .pccc) (h : Guardable p w)
    (hall : All Released w) {e : Event} (he : e.isOf p = true) :
    All Released (step p w e) ↔ LeavesPoll w e := by
  have htrue : ∀ {P : Prop}, P → (P ↔ True) := fun h => ⟨fun _ => trivial, fun _ => h⟩
  cases e with
  | addConnection config => exact htrue (released_addConnection h.wf hall config)
  | removeConnection id => exact htrue (released_removeConnection h.wf hall id)
  | updateConnection config => exact released_updateConnection h.wf hall config
  | addMapping mapping =>
      refine htrue ?_
      cases ha : actor w (.addMapping mapping) with
      | none => exact released_of_actor_none rfl ha hall
      | some m =>
          exact all_released_of_still h.wf (h.wf.ok_step ha) (still_addMapping p w mapping)
            (sameControl_addMapping ha).client hall
  | removeMapping id =>
      refine htrue ?_
      cases ha : actor w (.removeMapping id) with
      | none => exact released_of_actor_none rfl ha hall
      | some m =>
          exact all_released_of_still h.wf (h.wf.ok_step ha) (still_removeMapping p w id)
            (sameControl_removeMapping ha).client hall
  | start => exact htrue (released_start h hall)
  | stop => exact released_stop h hall
  | connectReport c err =>
      refine htrue ?_
      cases ha : actor w (.connectReport c err) with
      | none => exact released_of_actor_none rfl ha hall
      | some m => exact released_connectReport hp h hall ha
  | readReport r result =>
      refine htrue ?_
      cases ha : actor w (.readReport r result) with
      | none => exact released_of_actor_none rfl ha hall
      | some m => exact released_readReport hp h hall he ha
  | pollTick t =>
      refine htrue ?_
      cases ha : actor w (.pollTick t) with
      | none => exact released_of_actor_none rfl ha hall
      | some m => exact released_pollTick hp h hall ha
  | reconnectTick t =>
      cases ha : actor w (.reconnectTick t) with
      | none =>
          simp only [LeavesPoll, ha]
          exact ⟨fun _ m hn => by simp at hn, fun _ => released_of_actor_none rfl ha hall⟩
      | some m => exact released_reconnectTick h hall ha
  | elapse n => exact htrue hall

/-! ## Reads that throw -/

/-- The object whose poll's read throws, when reads throw during the step. -/
def thrower (p : Protocol) (w : World) : Event → Option ObjId
  | .pollTick t => (actor w (.pollTick t)).filter (fun m => pollReads p (w.objs m))
  | .connectReport c err => (actor w (.connectReport c err)).filter fun m =>
      !connectFailed p err && (w.objs m).pollingTimer.isNone &&
        pollReads p { w.objs m with state := .connected }
  | _ => none

/-- The step takes no client away from a poll in progress, and if its read throws, another read over
the client is outstanding. -/
def KeepsGuard (p : Protocol) (w : World) : Turn → Prop
  | .returns e => LeavesPoll w e
  | .throws e _ => LeavesPoll w e ∧ ∀ m, thrower p w e = some m → w.Tracked m → Outstanding w m

/-- The poll's own part of a step with a read that throws: the flag is set or not, and no more. -/
structure Thrown (b : Bool) (m : ObjId) (w w' : World) : Prop extends SameReads w w' where
  client : (w'.objs m).client = (w.objs m).client
  flag : (w'.objs m).pollInProgress = (b || (w.objs m).pollInProgress)

theorem all_released_of_thrown {b : Bool} (h : WF p w) (hok : Ok p m w w') (ht : Thrown b m w w')
    (hall : All Released w) :
    All Released w' ↔ (b = true → w.Tracked m → Outstanding w m) := by
  constructor
  · intro hall' hb htr
    have htr' : w'.Tracked m := by
      rw [Tracked, hok.acts.connections]
      exact htr
    exact (ht.toSameReads.outstanding ht.client).mp (hall' m htr' (by rw [ht.flag, hb]; rfl))
  · intro hthrown
    refine all_released_of_ok h hok hall (fun r read hr _ => by rw [ht.reads, hr]) fun htr hflag => ?_
    refine (ht.toSameReads.outstanding ht.client).mpr ?_
    rw [ht.flag, Bool.or_eq_true] at hflag
    rcases hflag with hb | hflag
    · exact hthrown hb htr
    · exact hall m htr hflag

theorem thrown_pollThrowing (hp : p = .ethernetIp ∨ p = .pccc) (w : World) (m : ObjId) :
    Thrown (pollReads p (w.objs m)) m w (pollThrowing p w m).1 ∧
      (pollThrowing p w m).2 = pollReads p (w.objs m) := by
  have hset : Thrown true m w (w.setPollInProgress m true) :=
    ⟨sameReads_update w m _, by rw [setPollInProgress, update_objs_self],
      setPollInProgress_self w m true⟩
  have hsame : Thrown false m w w := ⟨SameReads.refl w, rfl, rfl⟩
  have heq : pollThrowing p w m =
      if pollReads p (w.objs m) then (w.setPollInProgress m true, true) else (w, false) := by
    rcases hp with rfl | rfl <;> rfl
  rw [heq]
  cases pollReads p (w.objs m) with
  | true => exact ⟨hset, rfl⟩
  | false => exact ⟨hsame, rfl⟩

theorem Thrown.after {b : Bool} (h : Thrown b m w w') (hs : SameReads w' w'')
    (hc : (w''.objs m).client = (w'.objs m).client)
    (hf : (w''.objs m).pollInProgress = (w'.objs m).pollInProgress) : Thrown b m w w'' :=
  ⟨h.toSameReads.trans hs, by rw [hc, h.client], by rw [hf, h.flag]⟩

theorem thrown_startPollingThrowing (hp : p = .ethernetIp ∨ p = .pccc) (w : World) (m : ObjId) :
    Thrown ((w.objs m).pollingTimer.isNone && pollReads p (w.objs m)) m w
        (startPollingThrowing p w m).1 ∧
      (startPollingThrowing p w m).2 =
        ((w.objs m).pollingTimer.isNone && pollReads p (w.objs m)) := by
  obtain ⟨hthrown, hout⟩ := thrown_pollThrowing hp w m
  unfold startPollingThrowing
  cases ht : (w.objs m).pollingTimer with
  | some t => exact ⟨⟨SameReads.refl w, rfl, rfl⟩, rfl⟩
  | none =>
      simp only [Option.isSome_none, Bool.false_eq_true, if_false, Option.isNone_none, Bool.true_and]
      cases hreads : pollReads p (w.objs m) with
      | true =>
          rw [hreads] at hthrown hout
          rw [if_pos hout]
          exact ⟨hthrown, hout⟩
      | false =>
          rw [hreads] at hthrown hout
          rw [if_neg (by rw [hout]; exact Bool.false_ne_true)]
          refine ⟨hthrown.after ⟨rfl, rfl⟩ ?_ ?_, rfl⟩ <;> rw [arm_objs_self] <;> rfl

/-- A successful connect whose first poll throws. -/
theorem thrown_connectReport (hp : p = .ethernetIp ∨ p = .pccc) {c : ClientId}
    {err : Option JsError} (ha : actor w (.connectReport c err) = some m) {c' : ClientId}
    (hf : connectFailed p err = false) (hc : (w.objs m).client = some c') (thrown : JsError) :
    Thrown ((w.objs m).pollingTimer.isNone && pollReads p { w.objs m with state := .connected }) m w
      (throwStep p thrown w (.connectReport c err)) := by
  obtain ⟨hlt, hpending, rfl, -⟩ := actor_connectReport (p := p) ha
  simp only [throwStep, if_pos (And.intro hlt hpending), onConnectThrowing, reported_objs, hf, hc]
  have h1 : SameReads w ((((reported p w c err).setConnecting (w.clients c).owner false).setState
      (w.clients c).owner .connected).setErrorMessage (w.clients c).owner none) :=
    (((sameReads_reported p w c err).trans (sameReads_update _ _ _)).trans
      (sameReads_update _ _ _)).trans (sameReads_update _ _ _)
  have h2 := (h1.trans (sameReads_registerMappings p _ (w.clients c).owner c')).trans
    (sameReads_emitQualityUpdate _ (w.clients c).owner .good)
  have hobj : ((registerMappings p ((((reported p w c err).setConnecting (w.clients c).owner
      false).setState (w.clients c).owner .connected).setErrorMessage (w.clients c).owner none)
      (w.clients c).owner c').emitQualityUpdate (w.clients c).owner .good).objs (w.clients c).owner =
      { w.objs (w.clients c).owner with
        connecting := false, state := .connected, errorMessage := none } := by
    rw [emitQualityUpdate_objs, registerMappings_objs]
    simp only [setErrorMessage, setState, setConnecting, update_objs_self, reported_objs]
  revert h2 hobj
  generalize (registerMappings p ((((reported p w c err).setConnecting (w.clients c).owner
      false).setState (w.clients c).owner .connected).setErrorMessage (w.clients c).owner none)
      (w.clients c).owner c').emitQualityUpdate (w.clients c).owner .good = w₂
  generalize (w.clients c).owner = m at *
  intro h2 hobj
  obtain ⟨hthrown, -⟩ := thrown_startPollingThrowing hp w₂ m
  have hreads : pollReads p (w₂.objs m) = pollReads p { w.objs m with state := .connected } := by
    rw [hobj]
    cases p <;> rfl
  rw [hreads, hobj] at hthrown
  have hfirst : Thrown ((w.objs m).pollingTimer.isNone &&
      pollReads p { w.objs m with state := .connected }) m w (startPollingThrowing p w₂ m).1 :=
    ⟨h2.trans hthrown.toSameReads, by rw [hthrown.client, hobj], by rw [hthrown.flag, hobj]⟩
  simp only [hc] at hfirst
  split
  · refine hfirst.after ((sameReads_update _ m ({ · with connecting := false })).trans
      (sameReads_handleConnectionError _ m thrown)) ?_ ?_ <;>
    · rw [handleConnectionError_self, setConnecting, update_objs_self]
  · exact hfirst

/-- Where the connect fails, or finds no client, there is no poll. -/
theorem throwStep_of_no_poll {c : ClientId} {err : Option JsError}
    (ha : actor w (.connectReport c err) = some m)
    (hno : ¬ (connectFailed p err = false ∧ (w.objs m).client.isSome = true)) (thrown : JsError) :
    throwStep p thrown w (.connectReport c err) = step p w (.connectReport c err) := by
  obtain ⟨hlt, hpending, rfl, hstep⟩ := actor_connectReport (p := p) ha
  rw [hstep]
  simp only [throwStep, if_pos (And.intro hlt hpending), onConnectThrowing, reported_objs]
  cases hf : connectFailed p err with
  | true => rfl
  | false =>
      cases hc : (w.objs (w.clients c).owner).client with
      | none => rfl
      | some c' => exact absurd ⟨hf, by rw [hc]; rfl⟩ hno

theorem forall_mem_filter_some {α : Type*} {a : α} {q : α → Bool} {P : α → Prop} :
    (∀ b, (some a).filter q = some b → P b) ↔ (q a = true → P a) := by
  constructor
  · exact fun h hq => h a (Option.filter_eq_some_iff.mpr ⟨rfl, hq⟩)
  · intro h b hb
    obtain ⟨hsome, hq⟩ := Option.filter_eq_some_iff.mp hb
    obtain rfl := Option.some.inj hsome
    exact h hq

theorem released_throwStep (hp : p = .ethernetIp ∨ p = .pccc) (h : Guardable p w)
    (hall : All Released w) {e : Event} (he : e.isOf p = true) (thrown : JsError) :
    All Released (throwStep p thrown w e) ↔ KeepsGuard p w (.throws e thrown) := by
  have hstep : throwStep p thrown w e = step p w e → thrower p w e = none →
      (All Released (throwStep p thrown w e) ↔ KeepsGuard p w (.throws e thrown)) := fun heq hn => by
    rw [heq, released_step hp h hall he, KeepsGuard, hn]
    exact ⟨fun hl => ⟨hl, fun m hm => by cases hm⟩, fun hk => hk.1⟩
  cases ha : actor w e with
  | none =>
      refine hstep (throwStep_of_actor_none ha thrown) ?_
      cases e <;> simp [thrower, ha]
  | some m =>
      have hok := h.wf.ok_throwStep ha thrown
      cases e with
      | connectReport c err =>
          by_cases hpoll : connectFailed p err = false ∧ (w.objs m).client.isSome = true
          · obtain ⟨hf, hc⟩ := hpoll
            obtain ⟨c', hc'⟩ := Option.isSome_iff_exists.mp hc
            have hiff := all_released_of_thrown h.wf hok (thrown_connectReport hp ha hf hc' thrown) hall
            refine hiff.trans ?_
            simp only [KeepsGuard, LeavesPoll, true_and, thrower, ha, hf, Bool.not_false,
              Bool.true_and]
            refine Iff.symm ?_
            exact @forall_mem_filter_some _ m _ fun m => w.Tracked m → Outstanding w m
          · refine hstep (throwStep_of_no_poll ha hpoll thrown) ?_
            simp only [thrower, ha, Option.filter_eq_none_iff]
            rintro m' hm' hb
            obtain rfl := Option.some.inj hm'
            simp only [Bool.and_eq_true, Bool.not_eq_true', pollReads] at hb
            exact hpoll ⟨hb.1.1, hb.2.1.1.2⟩
      | pollTick t =>
          obtain ⟨ms, ht⟩ := actor_tick ha
          have heq : throwStep p thrown w (.pollTick t) = (pollThrowing p w m).1 := by
            simp only [throwStep, ht]
          rw [heq] at hok ⊢
          refine (all_released_of_thrown h.wf hok (thrown_pollThrowing hp w m).1 hall).trans ?_
          simp only [KeepsGuard, LeavesPoll, true_and, thrower, ha]
          refine Iff.symm ?_
          exact @forall_mem_filter_some _ m _ fun m => w.Tracked m → Outstanding w m
      | _ => exact hstep rfl rfl

/-- A step that answers as the protocol's library does. -/
def Turn.isOf (p : Protocol) : Turn → Bool
  | .returns e => e.isOf p
  | .throws e _ => e.isOf p

theorem released_turnStep (hp : p = .ethernetIp ∨ p = .pccc) (h : Guardable p w)
    (hall : All Released w) {t : Turn} (ht : t.isOf p = true) :
    All Released (turnStep p w t) ↔ KeepsGuard p w t := by
  cases t with
  | returns e => exact released_step hp h hall ht
  | throws e thrown => exact released_throwStep hp h hall ht thrown

theorem Guardable.turnStep (hp : p = .ethernetIp ∨ p = .pccc) (h : Guardable p w) {t : Turn}
    (ht : t.isOf p = true) : Guardable p (turnStep p w t) := by
  cases t with
  | returns e => exact h.step hp ht
  | throws e thrown =>
      refine ⟨h.wf.turnStep (.throws e thrown), h.wf.idle_turnStep h.idle (.throws e thrown), ?_⟩
      change ReadsOf p (throwStep p thrown w e)
      cases ha : actor w e with
      | none =>
          rw [throwStep_of_actor_none ha]
          exact readsOf_step hp h.wf h.reads ht
      | some m =>
          cases e with
          | connectReport c err =>
              by_cases hpoll : connectFailed p err = false ∧ (w.objs m).client.isSome = true
              · obtain ⟨c', hc'⟩ := Option.isSome_iff_exists.mp hpoll.2
                exact (thrown_connectReport hp ha hpoll.1 hc' thrown).readsOf h.reads
              · rw [throwStep_of_no_poll ha hpoll]
                exact readsOf_step hp h.wf h.reads ht
          | pollTick t =>
              obtain ⟨ms, hx⟩ := actor_tick ha
              simp only [throwStep, hx]
              exact (thrown_pollThrowing hp w m).1.readsOf h.reads
          | elapse n => cases ha
          | _ => exact readsOf_step hp h.wf h.reads ht

/-- **The guard.** In every state of a run the polls in progress of the tracked connections are
waiting for the client they hold, exactly if no step of the run takes a client away from a poll in
progress, or sets the flag for a read that throws. -/
theorem guard_released_iff (hp : p = .ethernetIp ∨ p = .pccc) (ts : List Turn)
    (hts : ∀ t ∈ ts, t.isOf p = true) :
    (∀ us, us <+: ts → ∀ m, (reachTurns p us).Tracked m →
      ((reachTurns p us).objs m).pollInProgress = true →
      ∃ c, ((reachTurns p us).objs m).client = some c ∧
        ∃ r read, (reachTurns p us).reads r = some read ∧ read.client = some c) ↔
      Machine.Guarded (turnStep p) (KeepsGuard p) World.initial ts :=
  Machine.always_iff_guarded (I := All Released) (J := Guardable p)
    (fun _ (t : Turn) (ht : t.isOf p = true) h => h.turnStep hp ht)
    (fun _ _ ht h hall => released_turnStep hp h hall ht) (Machine.guarded_of_forall _ hts)
    ⟨wf_initial p, all_initial Idle, fun r read hr => by cases hr⟩ (all_initial _)

/-- A connection with one mapping is started and connects, and its first poll is under way. -/
def pollingRun (p : Protocol) (address : String) : List Turn :=
  [.returns (.addConnection (sampleConnection p)), .returns (.addMapping (sampleMapping "m1" address)),
    .returns .start, .returns (.connectReport 0 none)]

/-- While the client is kept, the flag says that it is asked. -/
theorem guard_released_pollingRun :
    (∀ t ∈ pollingRun .ethernetIp "Tag1", t.isOf .ethernetIp = true) ∧
    ∀ us, us <+: pollingRun .ethernetIp "Tag1" → ∀ m, (reachTurns .ethernetIp us).Tracked m →
      ((reachTurns .ethernetIp us).objs m).pollInProgress = true →
      ∃ c, ((reachTurns .ethernetIp us).objs m).client = some c ∧
        ∃ r read, (reachTurns .ethernetIp us).reads r = some read ∧ read.client = some c := by
  have hof : ∀ t ∈ pollingRun .ethernetIp "Tag1", t.isOf .ethernetIp = true := by decide
  exact ⟨hof, (guard_released_iff (Or.inl rfl) (pollingRun .ethernetIp "Tag1") hof).mpr
    ⟨trivial, trivial, trivial, trivial, trivial⟩⟩

/-- The connection is updated during that poll, and connects again. -/
def updatedRun : List Turn :=
  pollingRun .ethernetIp "Tag1" ++
    [.returns (.updateConnection (sampleConnection .ethernetIp)), .returns (.connectReport 1 none)]

/-- Then the flag is set, and the only read outstanding is that of the client that was closed. -/
theorem updatedRun_not_released :
    ¬ ∀ m, (reachTurns .ethernetIp updatedRun).Tracked m →
      ((reachTurns .ethernetIp updatedRun).objs m).pollInProgress = true →
      ∃ c, ((reachTurns .ethernetIp updatedRun).objs m).client = some c ∧
        ∃ r read, (reachTurns .ethernetIp updatedRun).reads r = some read ∧ read.client = some c := by
  intro h
  obtain ⟨c, hc, r, read, hr, hread⟩ := h 0 (by decide) (by decide)
  have hclient : ((reachTurns .ethernetIp updatedRun).objs 0).client = some 1 := by decide
  obtain rfl := Option.some.inj (hclient.symm.trans hc)
  have hnext : (reachTurns .ethernetIp updatedRun).nextRead = 1 := by decide
  have hof : ∀ t ∈ updatedRun, t.isOf .ethernetIp = true := by decide
  have hguardable : Guardable .ethernetIp (reachTurns .ethernetIp updatedRun) :=
    Machine.run_invariant (fun _ _ ht h => h.turnStep (Or.inl rfl) ht)
      (Machine.guarded_of_forall World.initial hof)
      ⟨wf_initial _, all_initial Idle, fun r read hr => by cases hr⟩
  have hlt := (hguardable.reads r read hr).1
  rw [hnext, Nat.lt_one_iff] at hlt
  have hasked : ((reachTurns .ethernetIp updatedRun).reads 0).bind Read.client = some 0 := by decide
  rw [hlt] at hr
  rw [hr, Option.bind_some, hread] at hasked
  cases hasked

end OpcuaLight.Connector
