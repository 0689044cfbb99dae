import OpcuaLight.Connector.Control

/-!
# What a connector tracks

The configuration of each connection that a connector tracks, with what each of its mappings is for
(`held`). Each of the five calls of the API changes this in one place (`held_addConnection`, ...); a
start or a stop, an answer of the protocol library and a timer change none of it (`held_step`).
-/

namespace OpcuaLight.Connector

open World

variable {p : Protocol} {w w' w'' : World} {m : ObjId}

/-- The node and the device address of a mapping. -/
def Mapping.target (mapping : Mapping) : Option String × String := (mapping.nodeId, mapping.deviceAddress)

/-- A tracked connection, with the targets of its mappings by their ids. -/
@[ext] structure Held where
  config : ConnectionConfig
  targets : String → Option (Option String × String)

def Held.add (k : Held) (mapping : Mapping) : Held :=
  { k with targets := Function.update k.targets mapping.id (some mapping.target) }

def Held.forget (k : Held) (id : String) : Held :=
  { k with targets := Function.update k.targets id none }

theorem Held.forget_of_none {k : Held} {id : String} (h : k.targets id = none) : k.forget id = k :=
  Held.ext rfl (Function.update_eq_self_iff.mpr h.symm)

def Managed.held (o : Managed) : Held :=
  ⟨o.config, fun id => (o.mappings.get? id).map Mapping.target⟩

namespace World

def held (w : World) (id : String) : Option Held :=
  (w.connections.get? id).map (fun m => (w.objs m).held)

@[simp] theorem held_initial (id : String) : World.initial.held id = none := rfl

theorem held_eq_none {id : String} : w.held id = none ↔ w.connections.get? id = none :=
  Option.map_eq_none_iff

theorem held_eq_some {id : String} {k : Held} :
    w.held id = some k ↔ ∃ m, w.connections.get? id = some m ∧ (w.objs m).held = k :=
  Option.map_eq_some_iff

end World

/-! ## Code for one object -/

/-- Of the tracked connections, code that acts for one object changes that of the object. -/
theorem WF.held_of_acts (h : WF p w) (ha : Acts m w w') {id : String} (hm : w.connections.get? id = some m)
    (id' : String) : w'.held id' = if id' = id then some (w'.objs m).held else w.held id' := by
  unfold World.held
  rw [ha.connections]
  split_ifs with hid
  · rw [hid, hm]
    rfl
  · cases hi : w.connections.get? id' with
    | none => rfl
    | some i =>
        have hne : i ≠ m := by
          rintro rfl
          exact hid ((h.tracked id' i hi).2.symm.trans (h.tracked id i hm).2)
        simp only [Option.map_some, ha.objs i hne]

/-- The code acts for `m` and keeps what is tracked for it. -/
structure Keeps (p : Protocol) (m : ObjId) (w w' : World) : Prop where
  ok : Ok p m w w'
  held : (w'.objs m).held = (w.objs m).held

theorem Keeps.held_eq (hk : Keeps p m w w') : w'.held = w.held := by
  funext id
  unfold World.held
  rw [hk.ok.acts.connections]
  refine Option.map_congr fun i _ => ?_
  by_cases hi : i = m
  · rw [hi, hk.held]
  · rw [hk.ok.acts.objs i hi]

theorem Keeps.trans (hk : Keeps p m w w') (hk' : Keeps p m w' w'') : Keeps p m w w'' :=
  ⟨hk.ok.trans hk'.ok, hk'.held.trans hk.held⟩

theorem held_congr {o o' : Managed} (hconfig : o'.config = o.config) (hmappings : o'.mappings = o.mappings) :
    o'.held = o.held := by
  unfold Managed.held
  rw [hconfig, hmappings]

theorem held_initiateConnection (p : Protocol) (w : World) (m : ObjId) :
    ((initiateConnection p w m).objs m).held = (w.objs m).held := by
  cases hc : (w.objs m).connecting with
  | true => rw [initiateConnection_of_connecting p hc]
  | false =>
      rw [(initiateConnection_self p hc).1]
      rfl

theorem WF.keeps_initiateConnection (h : WF p w) (hm : m < w.nextObj) :
    Keeps p m w (initiateConnection p w m) :=
  ⟨h.ok_initiateConnection hm, held_initiateConnection p w m⟩

theorem WF.keeps_startOne (h : WF p w) (hm : m < w.nextObj) : Keeps p m w (startOne p w m) := by
  refine ⟨h.ok_startOne hm, ?_⟩
  unfold startOne
  split_ifs
  · exact held_initiateConnection p w m
  · rfl

theorem WF.keeps_disconnectAndCleanup (h : WF p w) (hm : m < w.nextObj) :
    Keeps p m w (w.disconnectAndCleanup m) := by
  refine ⟨h.ok_disconnectAndCleanup hm, ?_⟩
  rw [disconnectAndCleanup_self]
  rfl

/-! ## Steps that are no calls -/

/-- The events that are calls of the API about a connection or a mapping. -/
def Event.isCall : Event → Bool
  | .addConnection _ | .removeConnection _ | .updateConnection _ | .addMapping _ | .removeMapping _ => true
  | _ => false

theorem WF.foldl_held (h : WF p w) {f : World → ObjId → World}
    (hf : ∀ w m, WF p w → m < w.nextObj → Keeps p m w (f w m)) (l : List ObjId)
    (hl : ∀ m ∈ l, m < w.nextObj) : (l.foldl f w).held = w.held := by
  induction l generalizing w with
  | nil => rfl
  | cons m l ih =>
      have h1 := hf w m h (hl m List.mem_cons_self)
      rw [List.foldl_cons, ih h1.ok.wf fun i hi => ?_, h1.held_eq]
      rw [h1.ok.acts.nextObj]
      exact hl i (List.mem_cons_of_mem _ hi)

theorem held_connectReport (h : WF p w) {c : ClientId} {err : Option JsError}
    (ha : actor w (.connectReport c err) = some m) :
    ((step p w (.connectReport c err)).objs m).held = (w.objs m).held := by
  rcases connectReport_cases h ha with ⟨-, -, ho⟩ | ⟨-, -, w₁, e, -, ho, -, he⟩ | ⟨-, c', -, ⟨l, b, t, ho⟩, -⟩
  · rw [ho]
    rfl
  · rw [he, handleConnectionError_self, ho]
    rfl
  · rw [ho]
    rfl

theorem held_readReport (h : WF p w) {r : ReadId} {result : ReadResult}
    (ha : actor w (.readReport r result) = some m) :
    ((step p w (.readReport r result)).objs m).held = (w.objs m).held := by
  obtain ⟨read, hr, rfl⟩ := Option.map_eq_some_iff.mp ha
  obtain ⟨hok, hstep⟩ := h.ok_answered hr result
  rw [hstep]
  rcases onRead_cases (hok.wf.obj read.obj) result with hp | ⟨w₁, e, hp, -, he⟩
  · exact held_congr hp.config hp.mappings
  · rw [he, handleConnectionError_self]
    exact held_congr hp.config hp.mappings

theorem held_tick (h : WF p w) {e : Event} (ha : actor w e = some m)
    (he : (∃ t, e = .pollTick t) ∨ ∃ t, e = .reconnectTick t) :
    ((step p w e).objs m).held = (w.objs m).held := by
  rcases he with ⟨t, rfl⟩ | ⟨t, rfl⟩
  · obtain ⟨ms, ht⟩ := actor_tick ha
    simp only [Connector.step, onPollTick, ht]
    have hp := passive_poll (h.obj m)
    exact held_congr hp.config hp.mappings
  · rcases reconnectTick_cases h ha with ⟨-, he⟩ | ⟨-, -, ho⟩ | ⟨-, -, c, ho, -, -⟩
    · rw [he, disarm_objs_self]
      rfl
    · rw [ho]
      rfl
    · rw [ho]
      rfl

theorem held_step (h : WF p w) {e : Event} (he : e.isCall = false) : (step p w e).held = w.held := by
  have hsingle : e.isSingle = true → (∀ m, actor w e = some m →
      ((step p w e).objs m).held = (w.objs m).held) → (step p w e).held = w.held := by
    intro hs hk
    cases ha : actor w e with
    | none => rw [step_of_actor_none hs ha]
    | some m => exact Keeps.held_eq ⟨h.ok_step ha, hk m ha⟩
  cases e with
  | start =>
      show (start p w).held = w.held
      unfold Connector.start
      split_ifs
      · rfl
      · exact (h.setRunning true).foldl_held (fun _ _ h hm => h.keeps_startOne hm) _
          fun m hm => h.lt_of_tracked hm
  | stop =>
      show (stop w).held = w.held
      unfold Connector.stop
      split_ifs
      · rfl
      · exact (h.setRunning false).foldl_held (fun _ _ h hm => h.keeps_disconnectAndCleanup hm) _
          fun m hm => h.lt_of_tracked hm
  | connectReport c err => exact hsingle rfl fun m ha => held_connectReport h ha
  | readReport r result => exact hsingle rfl fun m ha => held_readReport h ha
  | pollTick t => exact hsingle rfl fun m ha => held_tick h ha (Or.inl ⟨t, rfl⟩)
  | reconnectTick t => exact hsingle rfl fun m ha => held_tick h ha (Or.inr ⟨t, rfl⟩)
  | elapse ms => rfl
  | _ => cases he

/-! ## Calls -/

theorem held_track {config : ConnectionConfig} (params : List (String × Json)) (h : WF p w) (id : String) :
    (w.track (createManagedConnection config params)).held id =
      if id = config.id then some ⟨config, fun _ => none⟩ else w.held id := by
  unfold World.held
  rw [track_connections]
  show Option.map _ (if id = config.id then _ else _) = _
  split_ifs with hid
  · simp only [Option.map_some, track_objs_self]
    rfl
  · refine Option.map_congr fun i hi => ?_
    rw [track_objs_of_ne w _ (Nat.ne_of_lt (h.tracked id i hi).1)]

/-- A connection that is not tracked and whose parameters pass is tracked from then on. -/
theorem held_addConnection (h : WF p w) {config : ConnectionConfig} {params : List (String × Json)}
    (hnone : w.held config.id = none) (hparams : extractParams p config = .ok params) :
    (addConnection p w config).2 = none ∧ ∀ id, (addConnection p w config).1.held id =
      if id = config.id then some ⟨config, fun _ => none⟩ else w.held id := by
  unfold addConnection
  rw [World.held_eq_none.mp hnone, hparams]
  refine ⟨rfl, fun id => ?_⟩
  rw [← held_track params h]
  simp only
  split_ifs
  · exact congrFun (WF.keeps_initiateConnection (h.track config params) (Nat.lt_succ_self _)).held_eq id
  · rfl

/-- A tracked connection gets its new configuration if the parameters pass. -/
theorem held_updateConnection (h : WF p w) {config : ConnectionConfig} {params : List (String × Json)}
    {k : Held} (hk : w.held config.id = some k) (hparams : extractParams p config = .ok params)
    (id : String) : (updateConnection p w config).1.held id =
      if id = config.id then some { k with config := config } else w.held id := by
  obtain ⟨m, hm, rfl⟩ := World.held_eq_some.mp hk
  have hlt := (h.tracked _ m hm).1
  have h1 := h.keeps_disconnectAndCleanup hlt
  have hm1 : (w.disconnectAndCleanup m).connections.get? config.id = some m := by
    rw [h1.ok.acts.connections]
    exact hm
  have h2 := h1.ok.wf.ok_applyParams hm1 params
  have hlt2 := h2.lt (h1.ok.lt hlt)
  have happly : ((w.disconnectAndCleanup m).applyParams m config params).held id =
      if id = config.id then some { (w.objs m).held with config := config } else w.held id := by
    rw [h1.ok.wf.held_of_acts h2.acts hm1, h1.held_eq, applyParams, update_objs_self,
      disconnectAndCleanup_self]
    rfl
  unfold updateConnection
  rw [hm, hparams, ← happly]
  simp only
  split_ifs
  · exact congrFun (h2.wf.keeps_initiateConnection hlt2).held_eq id
  · rfl

theorem held_removeConnection (h : WF p w) (id id' : String) :
    (removeConnection w id).1.held id' = if id' = id then none else w.held id' := by
  unfold removeConnection
  split
  · rename_i hnone
    split_ifs with hid
    · rw [hid]
      exact World.held_eq_none.mpr hnone
    · rfl
  · rename_i m hm
    have h1 := h.keeps_disconnectAndCleanup (h.tracked _ m hm).1
    rw [← h1.held_eq]
    show (((w.disconnectAndCleanup m).connections.delete id).get? id').map _ = _
    rw [JsMap.get?_delete]
    split_ifs <;> rfl

theorem held_setMappings (o : Managed) (mapping : Mapping) :
    Managed.held { o with mappings := o.mappings.set mapping.id mapping } = o.held.add mapping := by
  refine Held.ext rfl (funext fun id => ?_)
  show ((o.mappings.set mapping.id mapping).get? id).map Mapping.target = _
  unfold Held.add
  simp only [JsMap.get?_set, Function.update_apply]
  split_ifs <;> rfl

theorem held_deleteMappings (o : Managed) (id : String) :
    Managed.held { o with mappings := o.mappings.delete id } = o.held.forget id := by
  refine Held.ext rfl (funext fun id' => ?_)
  show ((o.mappings.delete id).get? id').map Mapping.target = _
  unfold Held.forget
  simp only [JsMap.get?_delete, Function.update_apply]
  split_ifs <;> rfl

theorem addMapping_accepted {mapping : Mapping} (hm : w.connections.get? mapping.connectionId = some m)
    (haddress : acceptsAddress p mapping.deviceAddress = true) : (addMapping p w mapping).2 = none := by
  cases p with
  | s7 =>
      simp only [addMapping, S7.addMapping, hm]
      split <;> rfl
  | modbusTcp =>
      obtain ⟨a, ha⟩ := acceptsAddress_parses haddress rfl
      simp only [addMapping, Modbus.addMapping, hm, ha]
  | ethernetIp => simp only [addMapping, EthernetIp.addMapping, World.addMapping, hm]
  | pccc =>
      unfold acceptsAddress at haddress
      simp only [addMapping, Pccc.addMapping, hm, haddress]
      rw [if_neg (by decide)]
      split <;> rfl

/-- A tracked connection gets a new mapping if the address passes. -/
theorem held_addMapping (h : WF p w) {mapping : Mapping} {k : Held}
    (hk : w.held mapping.connectionId = some k)
    (haddress : acceptsAddress p mapping.deviceAddress = true) :
    (addMapping p w mapping).2 = none ∧ ∀ id, (addMapping p w mapping).1.held id =
      if id = mapping.connectionId then some (k.add mapping) else w.held id := by
  obtain ⟨m, hm, rfl⟩ := World.held_eq_some.mp hk
  rcases addMapping_cases p w mapping with ⟨e, he⟩ | ⟨m', hm', -, he⟩
  · have hnone := addMapping_accepted hm haddress
    rw [he] at hnone
    cases hnone
  · obtain rfl := Option.some.inj (hm.symm.trans hm')
    rw [he]
    refine ⟨rfl, fun id => ?_⟩
    rw [h.held_of_acts (h.ok_addMapping hm haddress).acts hm, pushItem_objs, setMappings,
      update_objs_self, held_setMappings]

/-- A mapping that is tracked for one connection at most is tracked for none after its removal. -/
theorem held_removeMapping (h : WF p w) {id : String} (honce : ∀ c c' k k', w.held c = some k →
      w.held c' = some k' → (k.targets id).isSome = true → (k'.targets id).isSome = true → c = c')
    (c : String) : (removeMapping p w id).1.held c = (w.held c).map (fun k => k.forget id) := by
  rcases removeMapping_cases p w id with ⟨hnone, e, he⟩ | ⟨m, mp, -, htracked, hmp, he⟩
  · rw [he]
    cases hk : w.held c with
    | none => rfl
    | some k =>
        obtain ⟨m, hm, rfl⟩ := World.held_eq_some.mp hk
        have hhas := List.find?_eq_none.mp hnone m (JsMap.mem_values_of_get? hm)
        have hid : (w.objs m).mappings.get? id = none := by simpa [JsMap.has] using hhas
        rw [Option.map_some, Held.forget_of_none (congrArg (Option.map Mapping.target) hid)]
  · have hm := h.get?_config htracked
    have hacts := (h.ok_removeMapping (h.lt_of_tracked htracked) id mp.deviceAddress).acts
    have hheld : (w.objs m).held.targets id = some mp.target := congrArg (Option.map Mapping.target) hmp
    rw [he]
    show (dropItem p (w.setMappings m (·.delete id)) m mp.deviceAddress).held c = _
    rw [h.held_of_acts hacts hm, dropItem_objs, setMappings, update_objs_self, held_deleteMappings]
    split_ifs with hc
    · rw [hc, World.held_eq_some.mpr ⟨m, hm, rfl⟩]
      rfl
    · cases hk : w.held c with
      | none => rfl
      | some k =>
          rw [Option.map_some, Held.forget_of_none]
          refine Option.not_isSome_iff_eq_none.mp fun hsome => hc ?_
          refine honce _ _ _ _ hk (World.held_eq_some.mpr ⟨m, hm, rfl⟩) hsome ?_
          rw [hheld]
          rfl

end OpcuaLight.Connector
