import OpcuaLight.Connector.Control

/-!
# Removed connections

The object of a removed connection has no client and no timer, and stays so as long as no callback
finds something to do for it (`Heard`): a failed connect, or a read that is answered late. PCCC's
handlers stop at the missing client, the others do not. In a run without such callbacks nothing is
done for a removed connection (`removed_stays_silent`).
-/

namespace OpcuaLight.Connector

open World

variable {p : Protocol} {w w' : World} {m : ObjId} {id : String}

/-- Handling a connection error has an effect: a reconnect is scheduled, or a mapping's quality is
written. -/
def ErrorHeard (w : World) (m : ObjId) : Prop :=
  w.running = true ∨ (w.objs m).mappings.values ≠ []

/-- The Modbus loop emits the updates it has collected when no mapping is left after `stamp`. -/
def LoopHeard (w : World) (m : ObjId) (stamp : Nat) (updates : List ValueUpdate) : Prop :=
  (w.objs m).mappings.after (some stamp) = [] ∧ updates ≠ []

/-- The answer to a read has something to do for an object that has no client. -/
def ReadHeard (p : Protocol) (w : World) (read : Read) (result : ReadResult) : Prop :=
  match p, read.cont, result with
  | .s7, .items, .items values => S7.answers (w.objs read.obj).mappings.values values ≠ []
  | .s7, .items, .failed _ => ErrorHeard w read.obj
  | .modbusTcp, .address stamp _ _ updates, .data _ =>
      read.client ≠ none ∨ LoopHeard w read.obj stamp updates
  | .modbusTcp, .address stamp _ _ updates, .failed e =>
      if read.client ≠ none ∧ Modbus.isConnectionError e then ErrorHeard w read.obj
      else LoopHeard w read.obj stamp updates
  | .ethernetIp, .tags mappings, .tags values => EthernetIp.answers mappings values ≠ []
  | .ethernetIp, .tags _, .failed e =>
      if EthernetIp.endsConnection e then ErrorHeard w read.obj
      else (w.objs read.obj).mappings.values ≠ []
  | _, _, _ => False

/-- A callback has something to do for an object that is no longer tracked. -/
def Heard (p : Protocol) (w : World) : Event → Prop
  | .connectReport c err => c < w.nextClient ∧ (w.clients c).handshake = .pending ∧
      ¬ w.Tracked (w.clients c).owner ∧ p ≠ .pccc ∧ connectFailed p err = true ∧
      ErrorHeard w (w.clients c).owner
  | .readReport r result => ∃ read, w.reads r = some read ∧ ¬ w.Tracked read.obj ∧
      ReadHeard p w read result
  | _ => False

/-! ## Code with nothing to do -/

theorem emitQualityUpdate_of_nil (h : (w.objs m).mappings.values = []) (q : Quality) :
    w.emitQualityUpdate m q = w := by
  rw [emitQualityUpdate, h]
  rfl

theorem handleConnectionError_silent (hq : (w.objs m).Quiet) (h : ¬ ErrorHeard w m) (e : JsError) :
    (w.handleConnectionError m e).effects = w.effects := by
  rw [ErrorHeard, not_or, not_not, Bool.not_eq_true] at h
  obtain ⟨hrun, hmap⟩ := h
  have hstop : ((w.setState m (stateAfterError (w.objs m).state)).setErrorMessage m
      (some (errorText e))).stopPolling m =
      (w.setState m (stateAfterError (w.objs m).state)).setErrorMessage m (some (errorText e)) := by
    have hn : (((w.setState m (stateAfterError (w.objs m).state)).setErrorMessage m
        (some (errorText e))).objs m).handle .polling = none := by
      simp only [setErrorMessage, setState, update_objs_self]
      exact hq.handle .polling
    rw [stopPolling, disarm, hn]
  unfold handleConnectionError
  dsimp only
  rw [hstop, emitQualityUpdate_of_nil]
  · rw [if_neg]
    · rfl
    · show ¬ w.running = true
      rw [hrun]
      exact Bool.false_ne_true
  · simp only [setErrorMessage, setState, update_objs_self]
    exact hmap

theorem readNext_silent {stamp : Nat} (hp : ∀ s ∈ (w.objs m).mappings.after (some stamp),
      ∃ a, parseDeviceAddress s.2.2.deviceAddress = .ok a) {updates : List ValueUpdate}
    (h : ¬ LoopHeard w m stamp updates) :
    (Modbus.readNext w m updates ((w.objs m).mappings.after (some stamp))).effects = w.effects := by
  cases hl : (w.objs m).mappings.after (some stamp) with
  | nil =>
      rw [LoopHeard, not_and, not_not] at h
      rw [h hl, Modbus.readNext, if_pos rfl]
  | cons s rest =>
      rw [hl] at hp
      obtain ⟨a, ha⟩ := hp s List.mem_cons_self
      simp only [Modbus.readNext, ha]
      rfl

theorem deliver_nil (w : World) (m : ObjId) : w.deliver m [] = w := rfl

theorem silent_error (hq : (w.objs m).Quiet) (h : ¬ ErrorHeard w m) (e : JsError) :
    (w.handleConnectionError m e).effects = w.effects ∧
      ((w.handleConnectionError m e).objs m).Quiet := by
  refine ⟨handleConnectionError_silent hq h e, quiet_handleConnectionError hq ?_ e⟩
  rw [ErrorHeard, not_or, Bool.not_eq_true] at h
  exact h.1

theorem Passive.quiet (h : Passive m w w') (hq : (w.objs m).Quiet) : (w'.objs m).Quiet :=
  h.sameControl.quiet hq

theorem errorHeard_congr (hr : w'.running = w.running)
    (hm : (w'.objs m).mappings = (w.objs m).mappings) : ErrorHeard w' m ↔ ErrorHeard w m := by
  rw [ErrorHeard, ErrorHeard, hr, hm]

/-- For a read that was asked of no client, the answer only goes on with the poll. -/
theorem readHeard_unasked {stamp : Nat} {mapping : Mapping} {parsed : ParsedAddress} {updates : List ValueUpdate}
    {result : ReadResult} (h : answersRead .modbusTcp (.address stamp mapping parsed updates) result = true) :
    ReadHeard .modbusTcp w ⟨m, none, .address stamp mapping parsed updates⟩ result ↔
      LoopHeard w m stamp updates := by
  cases result with
  | data data => exact or_iff_right fun hne => hne rfl
  | failed e =>
      simp only [ReadHeard]
      rw [if_neg fun hc => hc.1 rfl]
  | _ => cases h

/-- The answer to a read of a quiet object does nothing unless it has something to do. -/
theorem onRead_silent {r : Read} {result : ReadResult} (hl : Local p w r.obj)
    (hq : (w.objs r.obj).Quiet) (h : ¬ ReadHeard p w r result) :
    (onRead p w r result).effects = w.effects ∧ ((onRead p w r result).objs r.obj).Quiet := by
  have hpoll := passive_setPollInProgress w r.obj false
  have hloop : ∀ {stamp updates}, p = .modbusTcp → ¬ LoopHeard w r.obj stamp updates →
      (Modbus.readNext w r.obj updates ((w.objs r.obj).mappings.after (some stamp))).effects = w.effects ∧
        ((Modbus.readNext w r.obj updates ((w.objs r.obj).mappings.after (some stamp))).objs r.obj).Quiet := by
    rintro stamp updates rfl hno
    exact ⟨readNext_silent (hl.parses _) hno, (passive_readNext w _ _ _ (hl.parses _)).quiet hq⟩
  have hhandling := handling_onRead p w r result
  generalize onRead p w r result = w' at hhandling ⊢
  cases hhandling with
  | items m client values =>
      simp only [ReadHeard, not_not] at h
      rw [h, deliver_nil]
      exact ⟨rfl, (passive_setLastPollAt w m).quiet hq⟩
  | itemsLost m client e => exact silent_error hq h e
  | unasked m stamp mapping parsed updates result hresult =>
      rw [readHeard_unasked hresult] at h
      exact hloop rfl h
  | data m c stamp mapping parsed updates data =>
      exact absurd (Or.inl (Option.some_ne_none c)) h
  | dataLost m c stamp mapping parsed updates e he =>
      simp only [ReadHeard] at h
      rw [if_pos ⟨Option.some_ne_none c, he⟩] at h
      exact silent_error hq h e
  | dataFailed m c stamp mapping parsed updates e he =>
      simp only [ReadHeard] at h
      rw [if_neg fun hc => Bool.eq_false_iff.mp he hc.2] at h
      exact hloop rfl h
  | tags m client mappings values =>
      simp only [ReadHeard, not_not] at h
      rw [h, deliver_nil]
      exact ⟨rfl, ((passive_setLastPollAt w m).trans (passive_setPollInProgress _ _ _)).quiet hq⟩
  | tagsLost m client mappings e he =>
      simp only [ReadHeard] at h
      rw [if_pos he] at h
      exact silent_error (hpoll.quiet hq)
        (fun hh => h ((errorHeard_congr hpoll.running hpoll.mappings).mp hh)) e
  | tagsFailed m client mappings e he =>
      simp only [ReadHeard] at h
      rw [if_neg (Bool.eq_false_iff.mp he), not_not] at h
      rw [emitQualityUpdate_of_nil (by rw [hpoll.mappings]; exact h)]
      exact ⟨rfl, hpoll.quiet hq⟩
  | clientGone => exact ⟨rfl, hpoll.quiet hq⟩
  | allBad m client anythingBad found c hc | found m client anythingBad found c hc =>
      rw [hq.client] at hc
      cases hc
  | dropped => exact ⟨rfl, hq⟩

/-- **Step lemma.** An event of a quiet untracked object that is not heard does nothing for it. -/
theorem silent_own (h : WF p w) {e : Event} (ha : actor w e = some m) (hq : (w.objs m).Quiet)
    (htr : ¬ w.Tracked m) (hheard : ¬ Heard p w e) :
    (step p w e).effects = w.effects ∧ ((step p w e).objs m).Quiet := by
  cases e with
  | addMapping mapping => exact absurd (JsMap.mem_values_of_get? ha) htr
  | removeMapping id => exact absurd (List.mem_of_find?_eq_some ha) htr
  | connectReport c err =>
      obtain ⟨hlt, hpending, hown, hstep⟩ := actor_connectReport (p := p) ha
      have hobj := reported_objs p w c err
      have heff : (reported p w c err).effects = w.effects := by
        unfold reported
        split_ifs <;> rfl
      rw [hstep]
      rcases onConnect_cases p (reported p w c err) m err with
        ⟨-, -, he⟩ | ⟨hf, hp, e, he⟩ | ⟨-, c', hc', -⟩
      · rw [he, setConnecting, update_objs_self, hobj]
        exact ⟨heff, quiet_setConnecting hq⟩
      · have hpccc : p ≠ .pccc := fun hpp => hp hpp (by rw [hobj]; exact hq.client)
        have hq' : (((reported p w c err).setConnecting m false).objs m).Quiet := by
          rw [setConnecting, update_objs_self, hobj]
          exact quiet_setConnecting hq
        have hmap : (((reported p w c err).setConnecting m false).objs m).mappings =
            (w.objs m).mappings := by
          rw [setConnecting, update_objs_self, hobj]
        have hrun : ((reported p w c err).setConnecting m false).running = w.running :=
          reported_running p w c err
        have hsilent : ¬ ErrorHeard ((reported p w c err).setConnecting m false) m := by
          rw [errorHeard_congr hrun hmap]
          exact fun hh => hheard ⟨hlt, hpending, by rw [hown]; exact htr, hpccc, hf,
            by rw [hown]; exact hh⟩
        obtain ⟨h1, h2⟩ := silent_error hq' hsilent e
        rw [he]
        exact ⟨h1.trans heff, h2⟩
      · rw [hobj, hq.client] at hc'
        cases hc'
  | readReport r result =>
      obtain ⟨read, hr, rfl⟩ := Option.map_eq_some_iff.mp ha
      obtain ⟨hok, hstep⟩ := h.ok_answered hr result
      rw [hstep]
      exact onRead_silent (hok.wf.obj read.obj) hq (fun hh => hheard ⟨read, hr, htr, hh⟩)
  | pollTick t =>
      obtain ⟨ms, ht⟩ := actor_tick ha
      have := (h.obj m).timer t _ ht rfl
      rw [hq.handle] at this
      cases this
  | reconnectTick t =>
      obtain ⟨ms, ht⟩ := actor_tick ha
      have := (h.obj m).timer t _ ht rfl
      rw [hq.handle] at this
      cases this
  | _ => cases ha

/-! ## Removed objects in a run -/

/-- The objects of removed connections are quiet. -/
def RemovedQuiet (w : World) : Prop := ∀ m < w.nextObj, ¬ w.Tracked m → (w.objs m).Quiet

theorem framed_quiet (p : Protocol) : Framed p (fun w m => (w.objs m).Quiet) := by
  intro w w' m i _ hok hi hq
  show (w'.objs i).Quiet
  rw [hok.acts.objs i hi]
  exact hq

/-- Code for a tracked object leaves the removed ones alone. -/
theorem RemovedQuiet.of_ok (h : RemovedQuiet w) (hok : Ok p m w w') (htr : w.Tracked m) :
    RemovedQuiet w' := by
  intro i hi hni
  rw [hok.acts.nextObj] at hi
  rw [Tracked, hok.acts.connections] at hni
  have him : i ≠ m := fun he => hni (by rw [he]; exact htr)
  rw [hok.acts.objs i him]
  exact h i hi hni

theorem removedQuiet_addConnection (h : WF p w) (hr : RemovedQuiet w) (config : ConnectionConfig) :
    RemovedQuiet (addConnection p w config).1 := by
  unfold Connector.addConnection
  split
  · exact hr
  · rename_i hnone
    split
    · exact hr
    · rename_i params _
      have h1 := h.track config params
      have htracked := tracked_track (o := createManagedConnection config params) hnone
      have hr1 : RemovedQuiet (w.track (createManagedConnection config params)) := by
        intro i hi hni
        rw [htracked, not_or] at hni
        rw [track_objs_of_ne w _ hni.1]
        exact hr i (lt_of_le_of_ne (Nat.lt_succ_iff.mp hi) hni.1) hni.2
      dsimp only
      split_ifs
      · exact hr1.of_ok (h1.ok_initiateConnection (Nat.lt_succ_self _)) ((htracked _).mpr (Or.inl rfl))
      · exact hr1

/-- Code for the tracked objects, one after the other, leaves the removed ones alone. -/
theorem RemovedQuiet.foldl (hr : RemovedQuiet w) (h : WF p w) {f : World → ObjId → World}
    (hok : ∀ w m, WF p w → m < w.nextObj → Ok p m w (f w m)) :
    RemovedQuiet (w.connections.values.foldl f w) := by
  have hlt : ∀ m ∈ w.connections.values, m < w.nextObj := fun m hm => h.lt_of_tracked hm
  obtain ⟨-, hconn, -, hnext⟩ := h.foldl hok w.connections.values hlt
  intro i hi hni
  rw [hnext] at hi
  rw [Tracked, hconn] at hni
  exact (framed_quiet p).foldl hok _ h hlt hni (hr i hi hni)

theorem removedQuiet_step (h : WF p w) (hr : RemovedQuiet w) {e : Event} (hheard : ¬ Heard p w e) :
    RemovedQuiet (step p w e) := by
  have hsingle : e.isSingle = true → RemovedQuiet (step p w e) := by
    intro he
    cases ha : actor w e with
    | none =>
        rw [step_of_actor_none he ha]
        exact hr
    | some m =>
        have hok := h.ok_step ha
        by_cases htr : w.Tracked m
        · exact hr.of_ok hok htr
        · intro i hi hni
          rw [hok.acts.nextObj] at hi
          rw [Tracked, hok.acts.connections] at hni
          by_cases him : i = m
          · rw [him] at hi ⊢
            exact (silent_own h ha (hr m hi htr) htr hheard).2
          · rw [hok.acts.objs i him]
            exact hr i hi hni
  cases e with
  | addConnection config => exact removedQuiet_addConnection h hr config
  | removeConnection id =>
      simp only [Connector.step, Connector.removeConnection]
      split
      · exact hr
      · rename_i m hm
        obtain ⟨hlt, hid⟩ := h.tracked id m hm
        have hok := h.ok_disconnectAndCleanup hlt
        intro i hi hni
        by_cases him : i = m
        · rw [him]
          exact quiet_disconnectAndCleanup w m
        · show ((w.disconnectAndCleanup m).objs i).Quiet
          rw [hok.acts.objs i him]
          refine hr i (by rw [← hok.acts.nextObj]; exact hi) (fun htr => hni ?_)
          have hget := h.get?_config htr
          refine JsMap.mem_values_of_get? (k := (w.objs i).config.id) ?_
          rw [JsMap.get?_delete, hok.acts.connections, if_neg, hget]
          intro he
          rw [he, hm] at hget
          exact him (Option.some.inj hget).symm
  | updateConnection config =>
      simp only [Connector.step, Connector.updateConnection]
      split
      · exact removedQuiet_addConnection h hr config
      · rename_i m hm
        obtain ⟨hlt, -⟩ := h.tracked _ m hm
        have htr : w.Tracked m := JsMap.mem_values_of_get? hm
        have h1 := h.ok_disconnectAndCleanup hlt
        split
        · exact hr.of_ok h1 htr
        · rename_i params _
          have h2 := h1.trans (h1.wf.ok_applyParams (by rw [h1.acts.connections]; exact hm) params)
          split_ifs
          · exact hr.of_ok (h2.trans (h2.wf.ok_initiateConnection (h2.lt hlt))) htr
          · exact hr.of_ok h2 htr
  | start =>
      simp only [Connector.step, Connector.start]
      split_ifs
      · exact hr
      · exact RemovedQuiet.foldl (w := { w with running := true }) hr (h.setRunning true)
          (fun _ _ h hm => h.ok_startOne hm)
  | stop =>
      simp only [Connector.step, Connector.stop]
      split_ifs
      · exact hr
      · exact RemovedQuiet.foldl (w := { w with running := false }) hr (h.setRunning false)
          (fun _ _ h hm => h.ok_disconnectAndCleanup hm)
  | elapse n => exact hr
  | _ => exact hsingle rfl

theorem reach_removedQuiet {es : List Event}
    (hheard : Machine.Guarded (step p) (fun w e => ¬ Heard p w e) World.initial es) :
    WF p (reach p es) ∧ RemovedQuiet (reach p es) :=
  Machine.run_invariant (I := fun w => WF p w ∧ RemovedQuiet w)
    (fun _ e hh h => ⟨h.1.step e, removedQuiet_step h.1 h.2 hh⟩) hheard
    ⟨wf_initial p, fun _ hm => absurd hm (Nat.not_lt_zero _)⟩

/-! ## What is done for a connection -/

/-- What the connector has done for the connections of an id so far. -/
def effectsFor (w : World) (id : String) : List Effect :=
  w.effects.filter (fun e => e.connectionId = id)

/-- The event adds a connection of the id. -/
def Event.Adds (id : String) : Event → Prop
  | .addConnection config | .updateConnection config => config.id = id
  | _ => False

theorem Acts.effectsFor_eq (h : Acts m w w') (hid : (w.objs m).config.id ≠ id) :
    effectsFor w' id = effectsFor w id := by
  obtain ⟨es, he, hes⟩ := h.effects
  have hnil : es.filter (fun e => e.connectionId = id) = [] := by
    rw [List.filter_eq_nil_iff]
    intro e hm
    rw [decide_eq_true_eq, (hes e hm).2]
    exact hid
  rw [effectsFor, he, List.filter_append, hnil, List.append_nil, effectsFor]

/-- A tracked object is not of an id that no connection has. -/
theorem WF.config_ne (h : WF p w) (hnone : w.connections.get? id = none) (htr : w.Tracked m) :
    (w.objs m).config.id ≠ id := by
  intro he
  have := h.get?_config htr
  rw [he, hnone] at this
  cases this

theorem effectsFor_foldl {f : World → ObjId → World}
    (hok : ∀ w m, WF p w → m < w.nextObj → Ok p m w (f w m)) (l : List ObjId) (h : WF p w)
    (hnone : w.connections.get? id = none) (hl : ∀ m ∈ l, w.Tracked m) :
    effectsFor (l.foldl f w) id = effectsFor w id := by
  induction l generalizing w with
  | nil => rfl
  | cons m l ih =>
      have htr := hl m List.mem_cons_self
      have h1 := hok w m h (h.lt_of_tracked htr)
      have hl1 : ∀ i ∈ l, (f w m).Tracked i := fun i hi => by
        rw [Tracked, h1.acts.connections]
        exact hl i (List.mem_cons_of_mem _ hi)
      rw [List.foldl_cons, ih h1.wf (by rw [h1.acts.connections]; exact hnone) hl1]
      exact h1.acts.effectsFor_eq (h.config_ne hnone htr)

theorem silent_addConnection (h : WF p w) (hnone : w.connections.get? id = none)
    {config : ConnectionConfig} (hid : config.id ≠ id) :
    effectsFor (addConnection p w config).1 id = effectsFor w id ∧
      (addConnection p w config).1.connections.get? id = none := by
  unfold Connector.addConnection
  split
  · exact ⟨rfl, hnone⟩
  · split
    · exact ⟨rfl, hnone⟩
    · rename_i params _
      have h1 := h.track config params
      have h2 := h1.ok_initiateConnection (m := w.nextObj) (Nat.lt_succ_self _)
      have hself := track_objs_self w (createManagedConnection config params)
      have hconn : (w.track (createManagedConnection config params)).connections.get? id = none := by
        rw [track_connections, if_neg, hnone]
        exact fun he => hid he.symm
      dsimp only
      split_ifs
      · exact ⟨h2.acts.effectsFor_eq (by rw [hself]; exact hid), by rw [h2.acts.connections, hconn]⟩
      · exact ⟨rfl, hconn⟩

/-- **Step lemma.** While no connection has the id, an event that is not heard by a removed object
and does not add the id does nothing for it. -/
theorem silent_step (h : WF p w) (hr : RemovedQuiet w) (hnone : w.connections.get? id = none)
    {e : Event} (hheard : ¬ Heard p w e) (hadd : ¬ e.Adds id) :
    effectsFor (step p w e) id = effectsFor w id ∧ (step p w e).connections.get? id = none := by
  have hsingle : e.isSingle = true →
      effectsFor (step p w e) id = effectsFor w id ∧ (step p w e).connections.get? id = none := by
    intro he
    cases ha : actor w e with
    | none =>
        rw [step_of_actor_none he ha]
        exact ⟨rfl, hnone⟩
    | some m =>
        have hok := h.ok_step ha
        refine ⟨?_, by rw [hok.acts.connections, hnone]⟩
        by_cases htr : w.Tracked m
        · exact hok.acts.effectsFor_eq (h.config_ne hnone htr)
        · rw [effectsFor, (silent_own h ha (hr m (h.actor_lt ha) htr) htr hheard).1, effectsFor]
  cases e with
  | addConnection config => exact silent_addConnection h hnone hadd
  | removeConnection id' =>
      simp only [Connector.step, Connector.removeConnection]
      split
      · exact ⟨rfl, hnone⟩
      · rename_i m hm
        have hok := h.ok_disconnectAndCleanup (h.tracked _ m hm).1
        refine ⟨hok.acts.effectsFor_eq (h.config_ne hnone (JsMap.mem_values_of_get? hm)), ?_⟩
        show ((w.disconnectAndCleanup m).connections.delete id').get? id = none
        rw [JsMap.get?_delete, hok.acts.connections, hnone]
        split_ifs <;> rfl
  | updateConnection config =>
      simp only [Connector.step, Connector.updateConnection]
      split
      · exact silent_addConnection h hnone hadd
      · rename_i m hm
        have hlt := (h.tracked _ m hm).1
        have hne := h.config_ne hnone (JsMap.mem_values_of_get? hm)
        have h1 := h.ok_disconnectAndCleanup hlt
        split
        · exact ⟨h1.acts.effectsFor_eq hne, by rw [h1.acts.connections, hnone]⟩
        · rename_i params _
          have h2 := h1.trans (h1.wf.ok_applyParams (by rw [h1.acts.connections]; exact hm) params)
          have h3 := h2.trans (h2.wf.ok_initiateConnection (h2.lt hlt))
          split_ifs
          · exact ⟨h3.acts.effectsFor_eq hne, by rw [h3.acts.connections, hnone]⟩
          · exact ⟨h2.acts.effectsFor_eq hne, by rw [h2.acts.connections, hnone]⟩
  | start =>
      simp only [Connector.step, Connector.start]
      split_ifs
      · exact ⟨rfl, hnone⟩
      · have h1 := h.setRunning true
        obtain ⟨-, hconn, -, -⟩ := h1.foldl (fun _ _ h hm => h.ok_startOne hm) w.connections.values
          (fun m hm => h.lt_of_tracked hm)
        refine ⟨?_, by rw [hconn]; exact hnone⟩
        exact effectsFor_foldl (fun _ _ h hm => h.ok_startOne hm) _ h1 hnone (fun m hm => hm)
  | stop =>
      simp only [Connector.step, Connector.stop]
      split_ifs
      · exact ⟨rfl, hnone⟩
      · have h1 := h.setRunning false
        obtain ⟨-, hconn, -, -⟩ := h1.foldl (fun _ _ h hm => h.ok_disconnectAndCleanup hm)
          w.connections.values (fun m hm => h.lt_of_tracked hm)
        refine ⟨?_, by rw [hconn]; exact hnone⟩
        exact effectsFor_foldl (fun _ _ h hm => h.ok_disconnectAndCleanup hm) _ h1 hnone
          (fun m hm => hm)
  | elapse n => exact ⟨rfl, hnone⟩
  | _ => exact hsingle rfl

theorem removeConnection_get? (w : World) (id : String) :
    (removeConnection w id).1.connections.get? id = none := by
  unfold Connector.removeConnection
  split
  · assumption
  · exact JsMap.get?_delete_self _ _

/-- After a connection is removed, and until its id is added again, nothing is done for it: no client
is created, no timer armed, no value written and no update emitted. -/
theorem removed_stays_silent (p : Protocol) (fs gs : List Event) (id : String)
    (hheard : Machine.Guarded (step p) (fun w e => ¬ Heard p w e) World.initial
      (fs ++ .removeConnection id :: gs))
    (hadd : ∀ e ∈ gs, ¬ e.Adds id) :
    effectsFor (reach p (fs ++ .removeConnection id :: gs)) id =
      effectsFor (reach p (fs ++ [.removeConnection id])) id := by
  have hsplit : fs ++ .removeConnection id :: gs = (fs ++ [.removeConnection id]) ++ gs := by simp
  rw [hsplit, Machine.guarded_append] at hheard
  obtain ⟨hbefore, hafter⟩ := hheard
  obtain ⟨hwf, hr⟩ := reach_removedQuiet hbefore
  have hnone : (reach p (fs ++ [.removeConnection id])).connections.get? id = none := by
    rw [reach, Machine.run_snoc]
    exact removeConnection_get? (reach p fs) id
  have hinv := Machine.run_invariant
    (I := fun w => WF p w ∧ RemovedQuiet w ∧ w.connections.get? id = none ∧
      effectsFor w id = effectsFor (reach p (fs ++ [.removeConnection id])) id)
    (fun w e hh h => by
      obtain ⟨heff, hconn⟩ := silent_step h.1 h.2.1 h.2.2.1 hh.1 hh.2
      exact ⟨h.1.step e, removedQuiet_step h.1 h.2.1 hh.1, hconn, heff.trans h.2.2.2⟩)
    (Machine.guarded_and.mpr ⟨hafter, Machine.guarded_of_forall _ hadd⟩)
    ⟨hwf, hr, hnone, rfl⟩
  rw [hsplit, reach, Machine.run_append]
  exact hinv.2.2.2

/-- A success that comes after the removal finds no client and is ignored. -/
theorem removed_stays_silent_lateSuccess :
    Machine.Guarded (step .modbusTcp) (fun w e => ¬ Heard .modbusTcp w e) World.initial
      ([.addConnection (sampleConnection .modbusTcp), .start] ++
        .removeConnection "c1" :: [.connectReport 0 none]) ∧
    (∀ e ∈ [Event.connectReport 0 none], ¬ e.Adds "c1") ∧
    effectsFor (reach .modbusTcp ([.addConnection (sampleConnection .modbusTcp), .start] ++
        .removeConnection "c1" :: [.connectReport 0 none])) "c1" =
      effectsFor (reach .modbusTcp ([.addConnection (sampleConnection .modbusTcp), .start] ++
        [.removeConnection "c1"])) "c1" := by
  have hheard : Machine.Guarded (step .modbusTcp) (fun w e => ¬ Heard .modbusTcp w e) World.initial
      ([.addConnection (sampleConnection .modbusTcp), .start] ++
        .removeConnection "c1" :: [.connectReport 0 none]) :=
    ⟨id, id, id, fun h => Bool.noConfusion h.2.2.2.2.1, trivial⟩
  have hadd : ∀ e ∈ [Event.connectReport 0 none], ¬ e.Adds "c1" := by
    intro e he
    rw [List.mem_singleton] at he
    subst he
    exact id
  exact ⟨hheard, hadd, removed_stays_silent .modbusTcp _ _ "c1" hheard hadd⟩

/-- The handshake under way at the removal fails: a reconnect is scheduled, and its client connects,
is polled and read. -/
def lateFailure : List Event :=
  [.connectReport 0 (some (.error .other "connect ECONNREFUSED")), .reconnectTick 0,
    .connectReport 1 none, .readReport 0 (.data [.num 42])]

theorem lateFailure_not_silent :
    ¬ effectsFor (reach .modbusTcp ([.addConnection (sampleConnection .modbusTcp),
        .addMapping (sampleMapping "m1" "HR:0"), .start] ++ .removeConnection "c1" :: lateFailure))
        "c1" =
      effectsFor (reach .modbusTcp ([.addConnection (sampleConnection .modbusTcp),
        .addMapping (sampleMapping "m1" "HR:0"), .start] ++ [.removeConnection "c1"])) "c1" := by
  decide +kernel

/-! ## The condition is exact -/

theorem Acts.length_le (h : Acts m w w') : w.effects.length ≤ w'.effects.length := by
  obtain ⟨es, he, -⟩ := h.effects
  rw [he, List.length_append]
  exact Nat.le_add_right _ _

theorem Passive.length_le (h : Passive m w w') : w.effects.length ≤ w'.effects.length := by
  obtain ⟨es, he, -⟩ := h.effects
  rw [he, List.length_append]
  exact Nat.le_add_right _ _

theorem length_act (w : World) (m : ObjId) (a : Action) :
    (w.act m a).effects.length = w.effects.length + 1 := by
  simp [act]

/-- Making the quality of a mapping bad always writes it. -/
theorem emitQualityUpdate_bad_acts (h : (w.objs m).mappings.values ≠ []) :
    w.effects.length < (w.emitQualityUpdate m .bad).effects.length := by
  obtain ⟨mp, rest, hl⟩ := List.exists_cons_of_ne_nil h
  have hfirst : w.effects.length < (cacheQuality m .bad w mp).effects.length := by
    unfold cacheQuality
    split
    · exact Nat.lt_of_lt_of_eq (Nat.lt_succ_self _) (length_act _ m _).symm
    · rw [if_pos rfl]
      exact Nat.lt_of_lt_of_eq (Nat.lt_succ_self _) (length_act _ m _).symm
  have hrest := (Passive.foldl (passive_cacheQuality m .bad) rest (cacheQuality m .bad w mp)).length_le
  have hemit := (passive_emitValueUpdates (rest.foldl (cacheQuality m .bad) (cacheQuality m .bad w mp)) m
    (qualityUpdates .bad w.now (mp :: rest))).length_le
  rw [emitQualityUpdate, hl, List.foldl_cons]
  omega

theorem errorHeard_acts (h : ErrorHeard w m) (e : JsError) :
    w.effects.length < (w.handleConnectionError m e).effects.length := by
  have hobj : ((((w.setState m (stateAfterError (w.objs m).state)).setErrorMessage m
      (some (errorText e))).stopPolling m).objs m).mappings = (w.objs m).mappings := by
    rw [stopPolling, disarm_objs_self, Managed.setHandle_mappings]
    simp only [setErrorMessage, setState, update_objs_self]
  have hrun : ((((w.setState m (stateAfterError (w.objs m).state)).setErrorMessage m
      (some (errorText e))).stopPolling m)).running = w.running ∧
      ((((w.setState m (stateAfterError (w.objs m).state)).setErrorMessage m
      (some (errorText e))).stopPolling m)).effects = w.effects := by
    unfold stopPolling disarm
    split <;> exact ⟨rfl, rfl⟩
  unfold handleConnectionError
  dsimp only
  generalize ((w.setState m (stateAfterError (w.objs m).state)).setErrorMessage m
      (some (errorText e))).stopPolling m = w1 at hobj hrun ⊢
  have hp := passive_emitQualityUpdate w1 m .bad
  have hsched : ∀ w2 : World, w2.effects.length < (w2.scheduleReconnect m).effects.length := by
    intro w2
    have hd : (disarm .reconnect w2 m).effects = w2.effects := by
      unfold disarm
      split <;> rfl
    refine Nat.lt_of_lt_of_eq ?_ (length_act _ m _).symm
    exact Nat.lt_succ_of_le (by rw [← hd]; exact le_refl _)
  rw [hp.running, hrun.1]
  have hle := hp.length_le
  rw [hrun.2] at hle
  rcases h with h | h
  · rw [if_pos h]
    exact lt_of_le_of_lt hle (hsched _)
  · have hlt := emitQualityUpdate_bad_acts (w := w1) (m := m) (by rw [hobj]; exact h)
    rw [hrun.2] at hlt
    split_ifs
    · exact lt_trans hlt (hsched _)
    · exact hlt

theorem deliver_acts {as : List (Mapping × Answer)} (h : as ≠ []) :
    w.effects.length < (w.deliver m as).effects.length := by
  obtain ⟨a, rest, rfl⟩ := List.exists_cons_of_ne_nil h
  have hfirst : (cacheAnswer m w a).effects.length = w.effects.length + 1 := length_act _ m _
  have hrest := (Passive.foldl (fun w a => passive_cacheAnswer w m a) rest (cacheAnswer m w a)).length_le
  have hemit := (passive_emitValueUpdates (rest.foldl (cacheAnswer m) (cacheAnswer m w a)) m
    (answerUpdates w.now (a :: rest))).length_le
  rw [deliver, List.foldl_cons]
  omega

theorem loopHeard_acts {stamp : Nat} {updates : List ValueUpdate} (h : LoopHeard w m stamp updates) :
    w.effects.length < (Modbus.readNext w m updates
      ((w.objs m).mappings.after (some stamp))).effects.length := by
  rw [h.1, Modbus.readNext, if_neg h.2, emitValueUpdates, if_neg h.2]
  exact (Nat.lt_succ_self _).trans_eq (length_act (w.setLastPollAt m) m _).symm

theorem readHeard_acts {r : Read} {result : ReadResult} (hl : Local p w r.obj)
    (h : ReadHeard p w r result) : w.effects.length < (onRead p w r result).effects.length := by
  have hpoll := passive_setPollInProgress w r.obj false
  have hhandling := handling_onRead p w r result
  generalize onRead p w r result = w' at hhandling ⊢
  cases hhandling with
  | items m client values => exact @deliver_acts (w.setLastPollAt m) m _ h
  | itemsLost m client e => exact errorHeard_acts h e
  | unasked m stamp mapping parsed updates result hresult =>
      exact loopHeard_acts ((readHeard_unasked hresult).mp h)
  | data m c stamp mapping parsed updates data =>
      have hfirst : (cacheAnswer m w (mapping, ⟨Modbus.valueOf parsed data, .good⟩)).effects.length =
          w.effects.length + 1 := length_act _ _ _
      have hrest := (passive_readNext (cacheAnswer m w (mapping, ⟨Modbus.valueOf parsed data, .good⟩)) m
        (updates ++ answerUpdates w.now [(mapping, ⟨Modbus.valueOf parsed data, .good⟩)]) _
        (hl.parses (some stamp))).length_le
      rw [hfirst] at hrest
      exact hrest
  | dataLost m c stamp mapping parsed updates e he =>
      simp only [ReadHeard] at h
      rw [if_pos ⟨Option.some_ne_none c, he⟩] at h
      exact errorHeard_acts h e
  | dataFailed m c stamp mapping parsed updates e he =>
      simp only [ReadHeard] at h
      rw [if_neg fun hc => Bool.eq_false_iff.mp he hc.2] at h
      exact loopHeard_acts h
  | tags m client mappings values => exact @deliver_acts (w.setLastPollAt m) m _ h
  | tagsLost m client mappings e he =>
      simp only [ReadHeard] at h
      rw [if_pos he] at h
      exact errorHeard_acts ((errorHeard_congr hpoll.running hpoll.mappings).mpr h) e
  | tagsFailed m client mappings e he =>
      simp only [ReadHeard] at h
      rw [if_neg (Bool.eq_false_iff.mp he)] at h
      exact @emitQualityUpdate_bad_acts (w.setPollInProgress m false) m (by rw [hpoll.mappings]; exact h)
  | clientGone | allBad | found => exact h.elim
  | dropped p r result hdropped =>
      -- no answer of the protocol's library: nothing is heard either
      obtain ⟨m, client, cont⟩ := r
      unfold ReadHeard at h
      split at h <;> first
        | exact h.elim
        | cases ‹cont = _›; cases hdropped

/-- For a removed object, an event does nothing exactly if it is not heard. -/
theorem silent_iff (h : WF p w) {e : Event} (ha : actor w e = some m) (hq : (w.objs m).Quiet)
    (htr : ¬ w.Tracked m) : (step p w e).effects = w.effects ↔ ¬ Heard p w e := by
  refine ⟨fun heff hheard => ?_, fun hh => (silent_own h ha hq htr hh).1⟩
  have hlen : ¬ w.effects.length < (step p w e).effects.length := by
    rw [heff]
    exact lt_irrefl _
  cases e with
  | connectReport c err =>
      obtain ⟨-, -, hown, hstep⟩ := actor_connectReport (p := p) ha
      obtain ⟨-, -, -, hpccc, hf, herr⟩ := hheard
      have hobj := reported_objs p w c err
      rw [hown] at herr
      rcases onConnect_cases p (reported p w c err) m err with
        ⟨-, hf' | hp, -⟩ | ⟨-, -, e, he⟩ | ⟨hf', -⟩
      · rw [hf] at hf'
        cases hf'
      · exact hpccc hp
      · have hmap : (((reported p w c err).setConnecting m false).objs m).mappings =
            (w.objs m).mappings := by
          rw [setConnecting, update_objs_self, hobj]
        have hrun : ((reported p w c err).setConnecting m false).running = w.running :=
          reported_running p w c err
        have heff' : ((reported p w c err).setConnecting m false).effects = w.effects := by
          show (reported p w c err).effects = w.effects
          rw [reported, if_pos hf]
          rfl
        have hlt := errorHeard_acts ((errorHeard_congr hrun hmap).mpr herr) e
        rw [heff', ← he, ← hstep] at hlt
        exact hlen hlt
      · rw [hf] at hf'
        cases hf'
  | readReport r result =>
      obtain ⟨read, hr, -, hread⟩ := hheard
      obtain ⟨hok, hstep⟩ := h.ok_answered hr result
      refine hlen ?_
      rw [hstep]
      exact readHeard_acts (hok.wf.obj read.obj) hread
  | _ => exact hheard

end OpcuaLight.Connector
