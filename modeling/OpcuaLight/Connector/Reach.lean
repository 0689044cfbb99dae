import OpcuaLight.Connector.Handlers

/-!
# Reachable states

Every event keeps the states well-formed (`WF.step`), so every reachable state is (`reach_wf`). The
calls that add or remove a mapping have one description for the four protocols (`addMapping_cases`,
`removeMapping_cases`), and so has the firing of a timer (`fire_eq_disarm`).
-/

namespace OpcuaLight.Connector

open World

variable {p : Protocol} {w w' : World} {m : ObjId}

/-- The invariant speaks of no other fields than these, and only of tracked objects that are. -/
theorem WF.of_eq (h : WF p w)
    (hconnections : ∀ id m, w'.connections.get? id = some m → w.connections.get? id = some m)
    (hobjs : w'.objs = w.objs) (hnextObj : w'.nextObj = w.nextObj) (hclients : w'.clients = w.clients)
    (hnextClient : w'.nextClient = w.nextClient) (htimers : w'.timers = w.timers)
    (hnextTimer : w'.nextTimer = w.nextTimer) (hreads : w'.reads = w.reads) : WF p w' where
  tracked := fun id m hm => by
    rw [hobjs, hnextObj]
    exact h.tracked id m (hconnections id m hm)
  obj := fun m => by
    obtain ⟨hc, ha, ht, hmp⟩ := h.obj m
    constructor
    · rw [hobjs, hclients, hnextClient]
      exact hc
    · rw [hobjs, hnextTimer, htimers]
      exact ha
    · rw [hobjs, htimers]
      exact ht
    · rw [hobjs]
      exact hmp
  owner := by
    rw [hnextClient, hclients, hnextObj]
    exact h.owner
  timer := by
    rw [htimers, hnextTimer, hnextObj]
    exact h.timer
  read := by
    rw [hreads, hnextObj, hnextClient, hclients]
    exact h.read

theorem WF.setRunning (h : WF p w) (b : Bool) : WF p { w with running := b } :=
  h.of_eq (fun _ _ h => h) rfl rfl rfl rfl rfl rfl rfl

theorem WF.elapse (h : WF p w) (n : Nat) : WF p { w with now := n } :=
  h.of_eq (fun _ _ h => h) rfl rfl rfl rfl rfl rfl rfl

theorem WF.untrack (h : WF p w) (id : String) :
    WF p { w with connections := w.connections.delete id } := by
  refine h.of_eq (fun i m hm => ?_) rfl rfl rfl rfl rfl rfl rfl
  change (w.connections.delete id).get? i = some m at hm
  rw [JsMap.get?_delete] at hm
  split_ifs at hm
  exact hm

/-! ## Connections -/

theorem track_objs_self (w : World) (o : Managed) : (w.track o).objs w.nextObj = o :=
  Function.update_self _ _ _

theorem track_objs_of_ne (w : World) (o : Managed) {i : ObjId} (h : i ≠ w.nextObj) :
    (w.track o).objs i = w.objs i := Function.update_of_ne h _ _

theorem track_connections (w : World) (o : Managed) (id : String) :
    (w.track o).connections.get? id =
      if id = o.config.id then some w.nextObj else w.connections.get? id := JsMap.get?_set _ _ _ _

/-- A new connection's object joins the tracked ones. -/
theorem tracked_track {o : Managed} (hnone : w.connections.get? o.config.id = none) (i : ObjId) :
    (w.track o).Tracked i ↔ i = w.nextObj ∨ w.Tracked i := by
  rw [Tracked, Tracked, World.track, JsMap.mem_values_set_iff, JsMap.mem_values_iff]
  refine or_congr Iff.rfl (exists_congr fun id => ?_)
  refine and_iff_right_of_imp fun hid he => ?_
  rw [he, hnone] at hid
  cases hid

theorem WF.track (h : WF p w) (config : ConnectionConfig) (params : List (String × Json)) :
    WF p (w.track (createManagedConnection config params)) where
  tracked := fun id m hm => by
    rw [track_connections] at hm
    split_ifs at hm with hid
    · obtain rfl := Option.some.inj hm
      rw [track_objs_self]
      exact ⟨Nat.lt_succ_self _, hid.symm⟩
    · obtain ⟨hlt, hcid⟩ := h.tracked id m hm
      rw [track_objs_of_ne w _ (Nat.ne_of_lt hlt)]
      exact ⟨Nat.lt_succ_of_lt hlt, hcid⟩
  obj := fun m => by
    by_cases hm : m = w.nextObj
    · rw [hm]
      constructor
      · intro c hc
        rw [track_objs_self] at hc
        cases hc
      · intro k t ht
        rw [track_objs_self] at ht
        cases k <;> cases ht
      · intro t x hx hxm
        exact absurd hxm (Nat.ne_of_lt (h.timer t x hx).2)
      · intro id mp hmp
        rw [track_objs_self] at hmp
        cases hmp
    · obtain ⟨hc, ha, ht, hmp⟩ := h.obj m
      rw [← track_objs_of_ne w (createManagedConnection config params) hm] at hc ha ht hmp
      exact ⟨hc, ha, ht, hmp⟩
  owner := fun c hc => Nat.lt_succ_of_lt (h.owner c hc)
  timer := fun t x hx => ⟨(h.timer t x hx).1, Nat.lt_succ_of_lt (h.timer t x hx).2⟩
  read := fun r x hx => ⟨Nat.lt_succ_of_lt (h.read r x hx).1, (h.read r x hx).2⟩

theorem WF.ok_initiateConnection (h : WF p w) (hm : m < w.nextObj) :
    Ok p m w (initiateConnection p w m) := by
  cases p <;> exact h.ok_connectWith hm _

theorem WF.ok_startOne (h : WF p w) (hm : m < w.nextObj) : Ok p m w (startOne p w m) := by
  unfold startOne
  split_ifs
  · exact h.ok_initiateConnection hm
  · exact h.ok_refl m

/-- Code that acts for one object after the other keeps the invariant, and what no such code
changes. -/
theorem WF.foldl (h : WF p w) {f : World → ObjId → World}
    (hf : ∀ w m, WF p w → m < w.nextObj → Ok p m w (f w m)) (l : List ObjId)
    (hl : ∀ m ∈ l, m < w.nextObj) :
    WF p (l.foldl f w) ∧ (l.foldl f w).connections = w.connections ∧
      (l.foldl f w).running = w.running ∧ (l.foldl f w).nextObj = w.nextObj := by
  induction l generalizing w with
  | nil => exact ⟨h, rfl, rfl, rfl⟩
  | cons m l ih =>
      have h1 := hf w m h (hl m List.mem_cons_self)
      have hl1 : ∀ i ∈ l, i < (f w m).nextObj := fun i hi => by
        rw [h1.acts.nextObj]
        exact hl i (List.mem_cons_of_mem _ hi)
      obtain ⟨hwf, hconn, hrun, hnext⟩ := ih h1.wf hl1
      exact ⟨hwf, by rw [List.foldl_cons, hconn, h1.acts.connections],
        by rw [List.foldl_cons, hrun, h1.acts.running],
        by rw [List.foldl_cons, hnext, h1.acts.nextObj]⟩

/-- A fired timer is as good as disarmed: its handle is forgotten. -/
theorem WF.fire_eq_disarm (h : WF p w) {t : TimerId} {k : TimerKind} {ms : Int}
    (ht : w.timers t = some ⟨k, m, ms⟩) :
    (w.clearTimer t).update m (·.setHandle k none) = disarm k w m := by
  have hh : (w.objs m).handle k = some t := (h.obj m).timer t _ ht rfl
  rw [disarm, hh]

/-! ## Mappings -/

/-- The addresses `addMapping` lets pass. -/
def acceptsAddress (p : Protocol) (address : String) : Bool :=
  match p with
  | .s7 | .ethernetIp => true
  | .modbusTcp => (parseDeviceAddress address).isOk
  | .pccc => pcccAddressTest address

/-- The poll list a new mapping goes on: S7 asks for a connected client, PCCC for any. -/
def pollList (p : Protocol) (o : Managed) : Option ClientId :=
  match p with
  | .s7 => if o.state = .connected then o.client else none
  | .pccc => o.client
  | .modbusTcp | .ethernetIp => none

def pushItem (p : Protocol) (w : World) (m : ObjId) (address : String) : World :=
  match pollList p (w.objs m) with
  | some c => w.addItems c [address]
  | none => w

def dropItem (p : Protocol) (w : World) (m : ObjId) (address : String) : World :=
  match pollList p (w.objs m) with
  | some c => w.removeItems c address
  | none => w

theorem pollList_client {o : Managed} {c : ClientId} (h : pollList p o = some c) :
    o.client = some c := by
  cases p with
  | s7 =>
      simp only [pollList] at h
      split_ifs at h
      exact h
  | pccc => exact h
  | _ => cases h

theorem addMapping_cases (p : Protocol) (w : World) (mapping : Mapping) :
    (∃ e, addMapping p w mapping = (w, some e)) ∨
    ∃ m, w.connections.get? mapping.connectionId = some m ∧
      acceptsAddress p mapping.deviceAddress = true ∧
      addMapping p w mapping =
        (pushItem p (w.setMappings m (·.set mapping.id mapping)) m mapping.deviceAddress, none) := by
  cases hm : w.connections.get? mapping.connectionId with
  | none =>
      refine Or.inl ⟨connectionNotFound mapping.connectionId, ?_⟩
      cases p <;> simp [addMapping, S7.addMapping, Modbus.addMapping, EthernetIp.addMapping,
        World.addMapping, Pccc.addMapping, hm]
  | some m =>
      cases p with
      | s7 =>
          refine Or.inr ⟨m, rfl, rfl, ?_⟩
          simp only [addMapping, S7.addMapping, hm, pushItem, pollList]
          cases hs : ((w.setMappings m (·.set mapping.id mapping)).objs m).state <;>
            cases hc : ((w.setMappings m (·.set mapping.id mapping)).objs m).client <;> rfl
      | modbusTcp =>
          simp only [addMapping, Modbus.addMapping, hm, acceptsAddress]
          cases parseDeviceAddress mapping.deviceAddress with
          | error e => exact Or.inl ⟨e, rfl⟩
          | ok a => exact Or.inr ⟨m, rfl, rfl, rfl⟩
      | ethernetIp =>
          refine Or.inr ⟨m, rfl, rfl, ?_⟩
          simp only [addMapping, EthernetIp.addMapping, World.addMapping, hm, pushItem, pollList]
      | pccc =>
          simp only [addMapping, Pccc.addMapping, hm, acceptsAddress]
          cases pcccAddressTest mapping.deviceAddress with
          | false => exact Or.inl ⟨_, rfl⟩
          | true =>
              refine Or.inr ⟨m, rfl, rfl, ?_⟩
              simp only [Bool.not_true, Bool.false_eq_true, if_false, pushItem, pollList]
              cases ((w.setMappings m (·.set mapping.id mapping)).objs m).client <;> rfl

theorem removeMapping_cases (p : Protocol) (w : World) (id : String) :
    (w.ownerOfMapping id = none ∧ ∃ e, removeMapping p w id = (w, some e)) ∨
    ∃ m mp, w.ownerOfMapping id = some m ∧ w.Tracked m ∧ (w.objs m).mappings.get? id = some mp ∧
      removeMapping p w id =
        ((dropItem p (w.setMappings m (·.delete id)) m mp.deviceAddress).forgetValue id, none) := by
  cases hm : w.ownerOfMapping id with
  | none =>
      refine Or.inl ⟨rfl, mappingNotFound id, ?_⟩
      cases p <;> simp [removeMapping, S7.removeMapping, Modbus.removeMapping,
        EthernetIp.removeMapping, World.removeMapping, Pccc.removeMapping, hm]
  | some m =>
      obtain ⟨mp, hmp⟩ := JsMap.has_eq_true_iff.mp (List.find?_some (p := fun m => (w.objs m).mappings.has id) hm)
      refine Or.inr ⟨m, mp, rfl, List.mem_of_find?_eq_some hm, hmp, ?_⟩
      have hobj : ((w.setMappings m (·.delete id)).objs m) =
          { w.objs m with mappings := (w.objs m).mappings.delete id } := update_objs_self _ _ _
      cases p with
      | s7 =>
          simp only [removeMapping, S7.removeMapping, hm, hmp, dropItem, pollList, hobj]
          cases hs : (w.objs m).state <;> cases hc : (w.objs m).client <;> simp
      | modbusTcp =>
          simp only [removeMapping, Modbus.removeMapping, World.removeMapping, hm, dropItem, pollList]
      | ethernetIp =>
          simp only [removeMapping, EthernetIp.removeMapping, World.removeMapping, hm, dropItem,
            pollList]
      | pccc =>
          simp only [removeMapping, Pccc.removeMapping, hm, hmp, dropItem, pollList, hobj]
          cases hc : (w.objs m).client <;> rfl

theorem WF.ok_pushItem (h : WF p w) (hm : m < w.nextObj) (address : String) :
    Ok p m w (pushItem p w m address) := by
  unfold pushItem
  split
  · rename_i c hc
    exact h.ok_addItems hm (pollList_client hc) _
  · exact h.ok_refl m

theorem WF.ok_dropItem (h : WF p w) (hm : m < w.nextObj) (address : String) :
    Ok p m w (dropItem p w m address) := by
  unfold dropItem
  split
  · rename_i c hc
    exact h.ok_removeItems hm (pollList_client hc) _
  · exact h.ok_refl m

theorem acceptsAddress_parses {address : String} (h : acceptsAddress p address = true)
    (hp : p = .modbusTcp) : ∃ a, parseDeviceAddress address = .ok a := by
  subst hp
  simp only [acceptsAddress] at h
  cases ha : parseDeviceAddress address with
  | ok a => exact ⟨a, rfl⟩
  | error e =>
      rw [ha] at h
      cases h

theorem WF.ok_addMapping (h : WF p w) {mapping : Mapping}
    (hm : w.connections.get? mapping.connectionId = some m)
    (haddr : acceptsAddress p mapping.deviceAddress = true) :
    Ok p m w (pushItem p (w.setMappings m (·.set mapping.id mapping)) m mapping.deviceAddress) := by
  obtain ⟨hlt, hid⟩ := h.tracked _ m hm
  have h1 := h.ok_setMappings hlt (·.set mapping.id mapping) (fun id mp hmp => by
    rw [JsMap.get?_set] at hmp
    split_ifs at hmp with hk
    · obtain rfl := Option.some.inj hmp
      exact ⟨hk.symm, hid.symm, acceptsAddress_parses haddr⟩
    · exact (h.obj m).mapping id mp hmp)
  exact h1.trans (h1.wf.ok_pushItem (h1.lt hlt) _)

theorem WF.ok_removeMapping (h : WF p w) (hm : m < w.nextObj) (id address : String) :
    Ok p m w (dropItem p (w.setMappings m (·.delete id)) m address) := by
  have h1 := h.ok_setMappings hm (·.delete id) (fun id' mp hmp => by
    rw [JsMap.get?_delete] at hmp
    split_ifs at hmp
    exact (h.obj m).mapping id' mp hmp)
  exact h1.trans (h1.wf.ok_dropItem (h1.lt hm) _)

/-! ## Steps -/

theorem WF.addConnection (h : WF p w) (config : ConnectionConfig) :
    WF p (addConnection p w config).1 := by
  unfold Connector.addConnection
  split
  · exact h
  · split
    · exact h
    · rename_i params _
      have h1 := h.track config params
      dsimp only
      split_ifs
      · exact (h1.ok_initiateConnection (Nat.lt_succ_self _)).wf
      · exact h1

/-- The new configuration of an object keeps its connection id. -/
theorem WF.ok_applyParams (h : WF p w) {config : ConnectionConfig}
    (hm : w.connections.get? config.id = some m) (params : List (String × Json)) :
    Ok p m w (w.applyParams m config params) := by
  obtain ⟨hlt, hid⟩ := h.tracked _ m hm
  exact h.ok_update hlt _ rfl (fun k => by cases k <;> rfl) rfl hid.symm

theorem WF.ok_updateConnection (h : WF p w) {config : ConnectionConfig}
    (hm : w.connections.get? config.id = some m) :
    Ok p m w (Connector.updateConnection p w config).1 := by
  have hlt := (h.tracked _ m hm).1
  have h1 := h.ok_disconnectAndCleanup hlt
  unfold Connector.updateConnection
  rw [hm]
  dsimp only
  split
  · exact h1
  · rename_i params _
    have h2 := h1.trans (h1.wf.ok_applyParams (by rw [h1.acts.connections]; exact hm) params)
    split_ifs
    · exact h2.trans (h2.wf.ok_initiateConnection (h2.lt hlt))
    · exact h2

theorem WF.updateConnection (h : WF p w) (config : ConnectionConfig) :
    WF p (updateConnection p w config).1 := by
  cases hm : w.connections.get? config.id with
  | none =>
      simp only [Connector.updateConnection, hm]
      exact h.addConnection config
  | some m => exact (h.ok_updateConnection hm).wf

theorem WF.removeConnection (h : WF p w) (id : String) : WF p (removeConnection w id).1 := by
  unfold Connector.removeConnection
  split
  · exact h
  · rename_i m hm
    exact (h.ok_disconnectAndCleanup (h.tracked _ m hm).1).wf.untrack id

theorem WF.ok_onReconnectTimer (h : WF p w) (hm : m < w.nextObj) :
    Ok p m w (if !w.running then w
      else initiateConnection p ((w.dropClient m).setState m .disconnected) m) := by
  split_ifs
  · exact h.ok_refl m
  · have h1 := h.ok_dropClient hm
    have h2 := h1.trans (h1.wf.ok_setState (h1.lt hm) .disconnected)
    exact h2.trans (h2.wf.ok_initiateConnection (h2.lt hm))

theorem onReconnectTick_eq (h : WF p w) {t : TimerId} {ms : Int}
    (ht : w.timers t = some ⟨.reconnect, m, ms⟩) :
    onReconnectTick p w t = if !w.running then disarm .reconnect w m
      else initiateConnection p (((disarm .reconnect w m).dropClient m).setState m .disconnected) m := by
  have hrun : (disarm .reconnect w m).running = w.running := (h.acts_disarm m .reconnect).running
  rw [onReconnectTick, ht]
  simp only [onReconnectTimer, h.fire_eq_disarm ht, hrun]

/-- The one object whose code an event runs, if it is a call or a callback for one object. -/
def actor (w : World) : Event → Option ObjId
  | .addMapping mapping => w.connections.get? mapping.connectionId
  | .removeMapping id => w.ownerOfMapping id
  | .connectReport c _ =>
      if c < w.nextClient ∧ (w.clients c).handshake = .pending then some (w.clients c).owner else none
  | .readReport r _ => (w.reads r).map Read.obj
  | .pollTick t => ((w.timers t).filter (fun x => x.kind = .polling)).map Timer.obj
  | .reconnectTick t => ((w.timers t).filter (fun x => x.kind = .reconnect)).map Timer.obj
  | _ => none

theorem actor_tick {k : TimerKind} {t : TimerId}
    (h : ((w.timers t).filter (fun x => x.kind = k)).map Timer.obj = some m) :
    ∃ ms, w.timers t = some ⟨k, m, ms⟩ := by
  obtain ⟨x, hx, rfl⟩ := Option.map_eq_some_iff.mp h
  obtain ⟨hx, hk⟩ := Option.filter_eq_some_iff.mp hx
  rw [decide_eq_true_eq] at hk
  exact ⟨x.ms, by rw [hx, ← hk]⟩

/-- The answer to a read is handled in the state without the read. -/
theorem WF.ok_answered (h : WF p w) {r : ReadId} {read : Read} (hr : w.reads r = some read)
    (result : ReadResult) : Ok p read.obj w ((w.takeRead r).report (valueReports w read result)) ∧
      step p w (.readReport r result) =
        onRead p ((w.takeRead r).report (valueReports w read result)) read result := by
  have hlt := (h.read r read hr).1
  have h1 := h.ok_takeRead hlt r
  refine ⟨h1.trans (h1.wf.ok_report (h1.lt hlt) _), ?_⟩
  simp only [Connector.step, onReadReport, hr]

theorem WF.actor_lt (h : WF p w) {e : Event} (ha : actor w e = some m) : m < w.nextObj := by
  cases e with
  | addMapping mapping => exact (h.tracked _ m ha).1
  | removeMapping id => exact h.lt_of_tracked (List.mem_of_find?_eq_some ha)
  | connectReport c err =>
      simp only [actor] at ha
      split_ifs at ha with hc
      obtain rfl := Option.some.inj ha
      exact h.owner c hc.1
  | readReport r result =>
      obtain ⟨read, hr, rfl⟩ := Option.map_eq_some_iff.mp ha
      exact (h.read r read hr).1
  | pollTick t =>
      obtain ⟨ms, ht⟩ := actor_tick ha
      exact (h.timer t _ ht).2
  | reconnectTick t =>
      obtain ⟨ms, ht⟩ := actor_tick ha
      exact (h.timer t _ ht).2
  | _ => cases ha

/-- **Step lemma.** Such an event acts for its object and keeps the state well-formed. -/
theorem WF.ok_step (h : WF p w) {e : Event} (ha : actor w e = some m) : Ok p m w (step p w e) := by
  cases e with
  | addMapping mapping =>
      rcases addMapping_cases p w mapping with ⟨e, he⟩ | ⟨m', hm, haddr, he⟩ <;>
        rw [Connector.step, he]
      · exact h.ok_refl m
      · obtain rfl := Option.some.inj (ha.symm.trans hm)
        exact h.ok_addMapping hm haddr
  | removeMapping id =>
      rcases removeMapping_cases p w id with ⟨hn, e, he⟩ | ⟨m', mp, hm, htr, -, he⟩ <;>
        rw [Connector.step, he]
      · exact h.ok_refl m
      · obtain rfl := Option.some.inj (ha.symm.trans hm)
        have hlt := h.lt_of_tracked htr
        have h1 := h.ok_removeMapping hlt id mp.deviceAddress
        exact h1.trans (h1.wf.ok_forgetValue (h1.lt hlt) id)
  | connectReport c err =>
      simp only [actor] at ha
      split_ifs at ha with hc
      obtain rfl := Option.some.inj ha
      have hlt := h.owner c hc.1
      simp only [Connector.step, onConnectReport, if_pos hc]
      split_ifs
      · have h1 := h.ok_setHandshake hlt rfl .failed
        exact h1.trans (h1.wf.ok_onConnect (h1.lt hlt) err)
      · have h1 := h.ok_setHandshake hlt rfl .succeeded
        have h2 := h1.trans (h1.wf.ok_report (h1.lt hlt)
          [.connected (w.objs (w.clients c).owner).config.id c w.now])
        exact h2.trans (h2.wf.ok_onConnect (h2.lt hlt) err)
  | readReport r result =>
      obtain ⟨read, hr, rfl⟩ := Option.map_eq_some_iff.mp ha
      obtain ⟨hok, hstep⟩ := h.ok_answered hr result
      rw [hstep]
      exact hok.trans (hok.wf.ok_onRead (hok.lt (h.read r read hr).1) result)
  | pollTick t =>
      obtain ⟨ms, ht⟩ := actor_tick ha
      simp only [Connector.step, onPollTick, ht]
      exact h.ok_passive (h.timer t _ ht).2 (passive_poll (h.obj m))
  | reconnectTick t =>
      obtain ⟨ms, ht⟩ := actor_tick ha
      have hlt := (h.timer t _ ht).2
      have h1 := h.ok_disarm hlt .reconnect
      have h2 := h1.trans (h1.wf.ok_onReconnectTimer (h1.lt hlt))
      rw [Connector.step, onReconnectTick_eq h ht, ← h1.acts.running]
      exact h2
  | _ => cases ha

/-- The events that are calls or callbacks for one object. -/
def Event.isSingle : Event → Bool
  | .addMapping _ | .removeMapping _ | .connectReport _ _ | .readReport _ _ | .pollTick _
  | .reconnectTick _ => true
  | _ => false

/-- A call or a callback that finds no object changes nothing. -/
theorem step_of_actor_none {e : Event} (he : e.isSingle = true) (ha : actor w e = none) :
    step p w e = w := by
  cases e with
  | addMapping mapping =>
      rcases addMapping_cases p w mapping with ⟨e, he⟩ | ⟨m, hm, -, -⟩
      · rw [Connector.step, he]
      · rw [actor, hm] at ha
        cases ha
  | removeMapping id =>
      rcases removeMapping_cases p w id with ⟨-, e, he⟩ | ⟨m, mp, hm, -⟩
      · rw [Connector.step, he]
      · rw [actor, hm] at ha
        cases ha
  | connectReport c err =>
      simp only [actor] at ha
      split_ifs at ha with hc
      simp only [Connector.step, onConnectReport, if_neg hc]
  | readReport r result =>
      have hr : w.reads r = none := Option.map_eq_none_iff.mp ha
      simp only [Connector.step, onReadReport, hr]
  | pollTick t =>
      simp only [Connector.step, onPollTick]
      split
      · rename_i ht
        simp [actor, ht] at ha
      · rfl
  | reconnectTick t =>
      simp only [Connector.step, onReconnectTick]
      split
      · rename_i ht
        simp [actor, ht] at ha
      · rfl
  | _ => cases he

theorem WF.step_of_single (h : WF p w) {e : Event} (he : e.isSingle = true) :
    WF p (step p w e) := by
  cases ha : actor w e with
  | none =>
      rw [step_of_actor_none he ha]
      exact h
  | some m => exact (h.ok_step ha).wf

theorem WF.start_connections (h : WF p w) : (Connector.start p w).connections = w.connections := by
  unfold Connector.start
  split_ifs
  · rfl
  · exact ((h.setRunning true).foldl (fun _ _ h hm => h.ok_startOne hm) _
      (fun m hm => h.lt_of_tracked hm)).2.1

theorem WF.stop_connections (h : WF p w) : (Connector.stop w).connections = w.connections := by
  unfold Connector.stop
  split_ifs
  · rfl
  · exact ((h.setRunning false).foldl (fun _ _ h hm => h.ok_disconnectAndCleanup hm) _
      (fun m hm => h.lt_of_tracked hm)).2.1

theorem WF.start (h : WF p w) : WF p (start p w) := by
  unfold Connector.start
  split_ifs
  · exact h
  · exact ((h.setRunning true).foldl (fun _ _ h hm => h.ok_startOne hm) _
      (fun m hm => h.lt_of_tracked hm)).1

theorem WF.stop (h : WF p w) : WF p (stop w) := by
  unfold Connector.stop
  split_ifs
  · exact h
  · exact ((h.setRunning false).foldl (fun _ _ h hm => h.ok_disconnectAndCleanup hm) _
      (fun m hm => h.lt_of_tracked hm)).1

theorem WF.step (h : WF p w) (e : Event) : WF p (step p w e) := by
  cases e with
  | addConnection config => exact h.addConnection config
  | removeConnection id => exact h.removeConnection id
  | updateConnection config => exact h.updateConnection config
  | start => exact h.start
  | stop => exact h.stop
  | elapse n => exact h.elapse _
  | _ => exact h.step_of_single rfl

theorem wf_initial (p : Protocol) : WF p World.initial where
  tracked := fun id m hm => by cases hm
  obj := fun m => by
    constructor
    · intro c hc
      cases hc
    · intro k t ht
      cases k <;> cases ht
    · intro t x hx
      cases hx
    · intro id mp hmp
      cases hmp
  owner := fun c hc => absurd hc (Nat.not_lt_zero c)
  timer := fun t x hx => by cases hx
  read := fun r x hx => by cases hx

theorem reach_wf (p : Protocol) (es : List Event) : WF p (reach p es) :=
  Machine.run_invariant' (fun _ e h => h.step e) es (wf_initial p)

end OpcuaLight.Connector
