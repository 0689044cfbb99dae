import OpcuaLight.Connector.Control

/-!
# Where cached values come from

* `Calm w w'` : code that neither reads nor caches, nor adds a connection. It keeps mappings, and of
  the error message and the state at most clears the one and leaves the other disconnected.
* `Traces p K m w w'` : code of `m` that knows the mappings `K`. What it asks for and what it caches
  is for these, and a value it caches was returned by a read (`Returned`) or stood there before.
* `Sourced p ms w` : the invariant of runs that added the mappings `ms`: whatever mapping an object
  holds, or one of its reads, was added, to that object alone, and every cache entry is one of an
  added mapping with a value that was returned for its address.
-/

namespace OpcuaLight.Connector

open World

variable {p : Protocol} {w w' w'' : World} {m : ObjId} {K : Mapping → Prop}

/-! ## Code that neither reads nor caches -/

structure Calm (w w' : World) : Prop where
  tracked : ∀ id m, w'.connections.get? id = some m → w.connections.get? id = some m
  mappings : ∀ i, (w'.objs i).mappings = (w.objs i).mappings
  configId : ∀ i, (w'.objs i).config.id = (w.objs i).config.id
  status : ∀ i, (w'.objs i).errorMessage = none ∧ (w'.objs i).state = .disconnected ∨
    (w'.objs i).errorMessage = (w.objs i).errorMessage ∧
      ((w'.objs i).state = (w.objs i).state ∨ (w'.objs i).state = .disconnected)
  currentValues : w'.currentValues = w.currentValues
  reads : w'.reads = w.reads
  reports : w'.reports = w.reports

theorem Calm.refl (w : World) : Calm w w :=
  ⟨fun _ _ h => h, fun _ => rfl, fun _ => rfl, fun _ => Or.inr ⟨rfl, Or.inl rfl⟩, rfl, rfl, rfl⟩

theorem Calm.trans (h : Calm w w') (h' : Calm w' w'') : Calm w w'' where
  tracked := fun id m hm => h.tracked id m (h'.tracked id m hm)
  mappings := fun i => by rw [h'.mappings, h.mappings]
  configId := fun i => by rw [h'.configId, h.configId]
  status := fun i => by
    rcases h'.status i with hc | ⟨he, hs⟩
    · exact Or.inl hc
    · rw [he]
      rcases h.status i with ⟨hn, hd⟩ | ⟨he1, hs1⟩
      · exact Or.inl ⟨hn, hs.elim (fun h => h.trans hd) id⟩
      · refine Or.inr ⟨he1, ?_⟩
        rcases hs with hs | hs
        · rw [hs]
          exact hs1
        · exact Or.inr hs
  currentValues := by rw [h'.currentValues, h.currentValues]
  reads := by rw [h'.reads, h.reads]
  reports := by rw [h'.reports, h.reports]

theorem calm_of_objs
    (ht : ∀ id m, w'.connections.get? id = some m → w.connections.get? id = some m)
    (ho : w'.objs = w.objs) (hv : w'.currentValues = w.currentValues) (hr : w'.reads = w.reads)
    (hp : w'.reports = w.reports) : Calm w w' := by
  refine ⟨ht, fun i => ?_, fun i => ?_, fun i => ?_, hv, hr, hp⟩ <;> rw [ho]
  exact Or.inr ⟨rfl, Or.inl rfl⟩

theorem calm_update (w : World) (m : ObjId) (f : Managed → Managed)
    (hmap : (f (w.objs m)).mappings = (w.objs m).mappings)
    (hid : (f (w.objs m)).config.id = (w.objs m).config.id)
    (hst : (f (w.objs m)).errorMessage = none ∧ (f (w.objs m)).state = .disconnected ∨
      (f (w.objs m)).errorMessage = (w.objs m).errorMessage ∧
        ((f (w.objs m)).state = (w.objs m).state ∨ (f (w.objs m)).state = .disconnected)) :
    Calm w (w.update m f) := by
  refine ⟨fun _ _ h => h, fun i => ?_, fun i => ?_, fun i => ?_, rfl, rfl, rfl⟩
  all_goals
    by_cases hi : i = m
  · rw [hi, update_objs_self, hmap]
  · rw [update_objs_of_ne w f hi]
  · rw [hi, update_objs_self, hid]
  · rw [update_objs_of_ne w f hi]
  · rw [hi, update_objs_self]
    exact hst
  · rw [update_objs_of_ne w f hi]
    exact Or.inr ⟨rfl, Or.inl rfl⟩

theorem calm_setHandle (w : World) (m : ObjId) (k : TimerKind) (t : Option TimerId) :
    Calm w (w.update m (·.setHandle k t)) :=
  calm_update w m _ (by rw [Managed.setHandle_mappings]) (by rw [Managed.setHandle_config])
    (Or.inr ⟨by rw [Managed.setHandle_errorMessage], Or.inl (by rw [Managed.setHandle_state])⟩)

theorem calm_disarm (k : TimerKind) (w : World) (m : ObjId) : Calm w (disarm k w m) := by
  unfold disarm
  split
  · exact Calm.refl w
  · rename_i t _
    have h1 : Calm w (w.clearTimer t) := calm_of_objs (fun _ _ h => h) rfl rfl rfl rfl
    exact h1.trans (calm_setHandle _ m k none)

theorem calm_arm (k : TimerKind) (w : World) (m : ObjId) : Calm w (arm k w m) := by
  have h1 : Calm w (w.armTimer ⟨k, m, (w.objs m).intervalMs k⟩) :=
    calm_of_objs (fun _ _ h => h) rfl rfl rfl rfl
  have h2 := h1.trans (calm_setHandle _ m k (some w.nextTimer))
  exact h2.trans (calm_of_objs (fun _ _ h => h) rfl rfl rfl rfl)

theorem calm_scheduleReconnect (w : World) (m : ObjId) : Calm w (w.scheduleReconnect m) :=
  (calm_disarm .reconnect w m).trans (calm_arm .reconnect _ m)

theorem calm_dropClient (w : World) (m : ObjId) : Calm w (w.dropClient m) := by
  have h1 : Calm w (w.closeClient m) := by
    unfold closeClient
    split
    · exact Calm.refl w
    · exact calm_of_objs (fun _ _ h => h) rfl rfl rfl rfl
  exact h1.trans (calm_update _ m ({ · with client := none })
    rfl rfl (Or.inr ⟨rfl, Or.inl rfl⟩))

theorem calm_connectWith (args : Managed → List Json) (w : World) (m : ObjId) :
    Calm w (connectWith args w m) := by
  unfold connectWith
  split_ifs
  · exact Calm.refl w
  · have h1 : Calm w (w.setConnecting m true) :=
      calm_update w m ({ · with connecting := true }) rfl rfl (Or.inr ⟨rfl, Or.inl rfl⟩)
    have h2 : Calm (w.setConnecting m true)
        ((w.setConnecting m true).createClient m (args (w.objs m))) :=
      calm_of_objs (fun _ _ h => h) rfl rfl rfl rfl
    have h3 := (h1.trans h2).trans (calm_update _ m ({ · with client := some w.nextClient })
      rfl rfl (Or.inr ⟨rfl, Or.inl rfl⟩))
    exact h3.trans (calm_of_objs (fun _ _ h => h) rfl rfl rfl rfl)

theorem calm_initiateConnection (p : Protocol) (w : World) (m : ObjId) :
    Calm w (initiateConnection p w m) := by
  cases p <;> exact calm_connectWith _ w m

theorem calm_disconnectAndCleanup (w : World) (m : ObjId) : Calm w (w.disconnectAndCleanup m) := by
  have h1 := ((calm_disarm .polling w m).trans (calm_disarm .reconnect _ m)).trans
    (calm_dropClient _ m)
  have h2 := h1.trans (calm_update _ m ({ · with state := .disconnected })
    rfl rfl (Or.inr ⟨rfl, Or.inr rfl⟩))
  have h3 := h2.trans (calm_update _ m ({ · with connecting := false })
    rfl rfl (Or.inr ⟨rfl, Or.inl rfl⟩))
  refine h3.trans (calm_update _ m ({ · with errorMessage := none }) rfl rfl (Or.inl ⟨rfl, ?_⟩))
  simp only [update_objs_self]

theorem calm_foldl {f : World → ObjId → World} (hf : ∀ w m, Calm w (f w m)) (l : List ObjId)
    (w : World) : Calm w (l.foldl f w) :=
  Machine.run_related (Calm.refl w) Calm.trans fun w m _ _ => hf w m

theorem calm_startOne (p : Protocol) (w : World) (m : ObjId) : Calm w (startOne p w m) := by
  unfold startOne
  split_ifs
  · exact calm_initiateConnection p w m
  · exact Calm.refl w

theorem calm_start (p : Protocol) (w : World) : Calm w (start p w) := by
  unfold start
  split_ifs
  · exact Calm.refl w
  · have h1 : Calm w { w with running := true } := calm_of_objs (fun _ _ h => h) rfl rfl rfl rfl
    exact h1.trans (calm_foldl (calm_startOne p) _ _)

theorem calm_stop (w : World) : Calm w (stop w) := by
  unfold stop
  split_ifs
  · exact Calm.refl w
  · have h1 : Calm w { w with running := false } := calm_of_objs (fun _ _ h => h) rfl rfl rfl rfl
    exact h1.trans (calm_foldl calm_disconnectAndCleanup _ _)

theorem calm_removeConnection (w : World) (id : String) : Calm w (removeConnection w id).1 := by
  unfold removeConnection
  split
  · exact Calm.refl w
  · refine (calm_disconnectAndCleanup w _).trans (calm_of_objs (fun i m hm => ?_) rfl rfl rfl rfl)
    change (JsMap.delete _ id).get? i = some m at hm
    rw [JsMap.get?_delete] at hm
    split_ifs at hm
    exact hm

theorem calm_reconnectTick (h : WF p w) {t : TimerId}
    (ha : actor w (.reconnectTick t) = some m) : Calm w (step p w (.reconnectTick t)) := by
  obtain ⟨ms, ht⟩ := actor_tick ha
  have h1 := calm_disarm .reconnect w m
  rw [step, onReconnectTick_eq h ht]
  split_ifs
  · exact h1
  · have h2 := h1.trans (calm_dropClient _ m)
    have h3 := h2.trans (calm_update _ m ({ · with state := .disconnected })
      rfl rfl (Or.inr ⟨rfl, Or.inr rfl⟩))
    exact h3.trans (calm_initiateConnection p _ m)

/-- The update of a connection there is. -/
theorem calm_updateConnection (h : WF p w) {config : ConnectionConfig}
    (hm : w.connections.get? config.id = some m) : Calm w (updateConnection p w config).1 := by
  have h1 := calm_disconnectAndCleanup w m
  unfold updateConnection
  rw [hm]
  dsimp only
  split
  · exact h1
  · have h2 := h1.trans (calm_update _ m
      (fun o => { o with config := config, params := ‹List (String × Json)› })
      rfl (by rw [h1.configId, (h.tracked _ m hm).2]) (Or.inr ⟨rfl, Or.inl rfl⟩))
    split_ifs
    · exact h2.trans (calm_initiateConnection p _ m)
    · exact h2

/-! ## Code that reads and caches -/

/-- The mappings a read answers for; `items` answers for those of its object at that time. -/
def Cont.mappings : Cont → List Mapping
  | .items => []
  | .tags mappings => mappings
  | .address _ mapping _ _ => [mapping]

/-- Reads that go on when they were asked of no client. -/
def Cont.isAddress : Cont → Bool
  | .address _ _ _ _ => true
  | _ => false

/-- A value the entry has was returned by a read of its address over a client of its connection; of
PCCC it may be one that the client marked as bad. -/
def Returned (p : Protocol) (w : World) (v : CurrentValue) : Prop :=
  ∀ x, v.value = some x → ∃ c good t, (good = true ∨ p = .pccc) ∧
    Report.value v.connectionId c v.deviceAddress x good t ∈ w.reports

theorem Returned.mono {v : CurrentValue} (h : Returned p w v)
    (hr : ∀ r ∈ w.reports, r ∈ w'.reports) : Returned p w' v := by
  intro x hx
  obtain ⟨c, good, t, hg, hmem⟩ := h x hx
  exact ⟨c, good, t, hg, hr _ hmem⟩

/-- The entry is for the mapping, as its object's code would write it. -/
structure EntryOf (p : Protocol) (w : World) (id : String) (mp : Mapping) (v : CurrentValue) : Prop where
  address : v.deviceAddress = mp.deviceAddress
  connection : v.connectionId = id
  returned : Returned p w v

/-- The entries differ in their quality and timestamp at most. -/
structure SameSource (v v' : CurrentValue) : Prop where
  address : v'.deviceAddress = v.deviceAddress
  connection : v'.connectionId = v.connectionId
  value : v'.value = v.value

theorem EntryOf.sameSource {id : String} {mp : Mapping} {v v' : CurrentValue}
    (h : EntryOf p w id mp v) (hs : SameSource v v') : EntryOf p w id mp v' where
  address := by rw [hs.address, h.address]
  connection := by rw [hs.connection, h.connection]
  returned := fun x hx => by
    rw [hs.value] at hx
    rw [hs.connection, hs.address]
    exact h.returned x hx

theorem EntryOf.mono {id : String} {mp : Mapping} {v : CurrentValue} (h : EntryOf p w id mp v)
    (hr : ∀ r ∈ w.reports, r ∈ w'.reports) : EntryOf p w' id mp v :=
  ⟨h.address, h.connection, h.returned.mono hr⟩

structure Traces (p : Protocol) (K : Mapping → Prop) (m : ObjId) (w w' : World) : Prop where
  mappings : (w'.objs m).mappings = (w.objs m).mappings
  configId : (w'.objs m).config.id = (w.objs m).config.id
  reports : ∀ r ∈ w.reports, r ∈ w'.reports
  reads : ∀ r x, w'.reads r = some x → w.reads r = some x ∨
    x.obj = m ∧ (∀ mp ∈ x.cont.mappings, K mp) ∧ (x.client = none → x.cont.isAddress = true)
  cache : ∀ id v', w'.currentValues.get? id = some v' → w.currentValues.get? id = some v' ∨
    ∃ mp, K mp ∧ mp.id = id ∧ ((∃ v, w.currentValues.get? id = some v ∧ SameSource v v') ∨
      EntryOf p w' (w.objs m).config.id mp v')

namespace Traces

theorem of_same (hmap : (w'.objs m).mappings = (w.objs m).mappings)
    (hid : (w'.objs m).config.id = (w.objs m).config.id) (hv : w'.currentValues = w.currentValues)
    (hr : w'.reads = w.reads) (hp : ∀ r ∈ w.reports, r ∈ w'.reports) : Traces p K m w w' where
  mappings := hmap
  configId := hid
  reports := hp
  reads := fun r x hx => Or.inl (by rw [← hr, hx])
  cache := fun id v hv' => Or.inl (by rw [← hv, hv'])

theorem refl (p : Protocol) (K : Mapping → Prop) (m : ObjId) (w : World) : Traces p K m w w :=
  of_same rfl rfl rfl rfl (fun _ h => h)

theorem trans (h : Traces p K m w w') (h' : Traces p K m w' w'') : Traces p K m w w'' where
  mappings := by rw [h'.mappings, h.mappings]
  configId := by rw [h'.configId, h.configId]
  reports := fun r hr => h'.reports r (h.reports r hr)
  reads := fun r x hx => by
    rcases h'.reads r x hx with hx | hx
    · exact h.reads r x hx
    · exact Or.inr hx
  cache := fun id v'' hv'' => by
    rcases h'.cache id v'' hv'' with hv' | ⟨mp, hK, hid, hentry⟩
    · rcases h.cache id v'' hv' with hv | ⟨mp, hK, hid, hold | hnew⟩
      · exact Or.inl hv
      · exact Or.inr ⟨mp, hK, hid, Or.inl hold⟩
      · exact Or.inr ⟨mp, hK, hid, Or.inr (hnew.mono h'.reports)⟩
    · rcases hentry with ⟨v', hv', hs'⟩ | hnew
      · rcases h.cache id v' hv' with hv | ⟨mp', hK', hid', ⟨v, hv, hs⟩ | hnew⟩
        · exact Or.inr ⟨mp, hK, hid, Or.inl ⟨v', hv, hs'⟩⟩
        · refine Or.inr ⟨mp', hK', hid', Or.inl ⟨v, hv, ?_⟩⟩
          exact ⟨hs'.address.trans hs.address, hs'.connection.trans hs.connection,
            hs'.value.trans hs.value⟩
        · exact Or.inr ⟨mp', hK', hid', Or.inr ((hnew.mono h'.reports).sameSource hs')⟩
      · rw [h.configId] at hnew
        exact Or.inr ⟨mp, hK, hid, Or.inr hnew⟩

theorem foldl {α : Type*} {f : World → α → World} {l : List α}
    (hf : ∀ w' a, a ∈ l → Traces p K m w w' → Traces p K m w' (f w' a)) :
    Traces p K m w (l.foldl f w) :=
  Machine.run_related (refl p K m w) trans hf

end Traces

theorem Calm.traces (h : Calm w w') : Traces p K m w w' :=
  .of_same (h.mappings m) (h.configId m) h.currentValues h.reads (fun r hr => by rw [h.reports]; exact hr)

theorem traces_update (w : World) (m : ObjId) (f : Managed → Managed)
    (hmap : (f (w.objs m)).mappings = (w.objs m).mappings)
    (hid : (f (w.objs m)).config.id = (w.objs m).config.id) : Traces p K m w (w.update m f) :=
  .of_same (by rw [update_objs_self, hmap]) (by rw [update_objs_self, hid]) rfl rfl (fun _ h => h)

theorem traces_emitValueUpdates (w : World) (m : ObjId) (us : List ValueUpdate) :
    Traces p K m w (w.emitValueUpdates m us) := by
  unfold emitValueUpdates
  split_ifs
  · exact .refl p K m w
  · exact .of_same rfl rfl rfl rfl (fun _ h => h)

/-- An entry that is written is the mapping's, or an old one with another quality. -/
theorem traces_cacheValue {mp : Mapping} (hK : K mp) {v : CurrentValue}
    (hv : (∃ v₀, w.currentValues.get? mp.id = some v₀ ∧ SameSource v₀ v) ∨
      EntryOf p w (w.objs m).config.id mp v) : Traces p K m w (w.cacheValue m mp.id v) := by
  refine { Traces.refl p K m w with cache := fun id v' hv' => ?_ }
  change (w.currentValues.set mp.id v).get? id = some v' at hv'
  rw [JsMap.get?_set] at hv'
  split_ifs at hv' with hid
  · obtain rfl := Option.some.inj hv'
    rw [hid]
    exact Or.inr ⟨mp, hK, rfl, hv.imp_right (·.mono fun _ hr => hr)⟩
  · exact Or.inl hv'

theorem traces_cacheQuality {mp : Mapping} (hK : K mp) (w : World) (q : Quality) :
    Traces p K m w (cacheQuality m q w mp) := by
  unfold cacheQuality
  split
  · rename_i v hv
    exact traces_cacheValue hK (Or.inl ⟨v, hv, rfl, rfl, rfl⟩)
  · split_ifs
    · exact traces_cacheValue hK (Or.inr ⟨rfl, rfl, fun x hx => by cases hx⟩)
    · exact .refl p K m w

theorem traces_emitQualityUpdate (hK : ∀ mp ∈ (w.objs m).mappings.values, K mp) (q : Quality) :
    Traces p K m w (w.emitQualityUpdate m q) :=
  (Traces.foldl fun w' mp hmp _ => traces_cacheQuality (hK mp hmp) w' q).trans
    (traces_emitValueUpdates _ m _)

/-- The answers of a read are delivered: each has a value that was returned. -/
theorem traces_deliver {answers : List (Mapping × Answer)}
    (ha : ∀ a ∈ answers, K a.1 ∧ ∀ x, a.2.value = some x → ∃ c good t, (good = true ∨ p = .pccc) ∧
      Report.value (w.objs m).config.id c a.1.deviceAddress x good t ∈ w.reports) :
    Traces p K m w (w.deliver m answers) := by
  refine (Traces.foldl fun w' a hmem h => ?_).trans (traces_emitValueUpdates _ m _)
  obtain ⟨hK, hx⟩ := ha a hmem
  refine traces_cacheValue hK (Or.inr ⟨rfl, rfl, fun x hv => ?_⟩)
  obtain ⟨c, good, t, hg, hr⟩ := hx x hv
  exact ⟨c, good, t, hg, h.reports _ (by rw [h.configId]; exact hr)⟩

theorem traces_issueRead (w : World) {c : Option ClientId} {k : Cont}
    (hK : ∀ mp ∈ k.mappings, K mp) (hc : c = none → k.isAddress = true) :
    Traces p K m w (w.issueRead ⟨m, c, k⟩) := by
  refine ⟨rfl, rfl, fun _ hr => hr, fun r x hx => ?_, fun _ _ hv => Or.inl hv⟩
  rcases issueRead_reads hx with rfl | hx
  · exact Or.inr ⟨rfl, hK, hc⟩
  · exact Or.inl hx

theorem traces_handleConnectionError (hK : ∀ mp ∈ (w.objs m).mappings.values, K mp) (e : JsError) :
    Traces p K m w (w.handleConnectionError m e) := by
  have h1 : Traces p K m w (w.setState m (stateAfterError (w.objs m).state)) :=
    traces_update w m _ rfl rfl
  have h2 := h1.trans (traces_update _ m ({ · with errorMessage := some (errorText e) }) rfl rfl)
  have h3 := h2.trans (calm_disarm .polling _ m).traces
  have h4 := h3.trans (traces_emitQualityUpdate (by rw [h3.mappings]; exact hK) .bad)
  unfold handleConnectionError
  dsimp only
  split_ifs
  · exact h4.trans (calm_scheduleReconnect _ m).traces
  · exact h4

/-! ## Polls, connects and reads -/

theorem traces_readNext {l : List (Nat × String × Mapping)}
    (hl : ∀ s ∈ l, ∃ a, parseDeviceAddress s.2.2.deviceAddress = .ok a) (hK : ∀ s ∈ l, K s.2.2)
    (w : World) (updates : List ValueUpdate) : Traces p K m w (Modbus.readNext w m updates l) := by
  cases l with
  | nil =>
      unfold Modbus.readNext
      split_ifs
      · exact .refl p K m w
      · exact (traces_update w m _ rfl rfl).trans (traces_emitValueUpdates _ m updates)
  | cons s rest =>
      obtain ⟨a, ha⟩ := hl s List.mem_cons_self
      simp only [Modbus.readNext, ha]
      refine traces_issueRead w (fun mp hmp => ?_) (fun _ => rfl)
      rw [List.mem_singleton.mp hmp]
      exact hK s List.mem_cons_self

/-- What the Modbus loop still has to visit is mapped. -/
theorem mem_values_of_mem_after {s : Nat × String × Mapping} {t : Option Nat}
    (h : s ∈ (w.objs m).mappings.after t) : s.2.2 ∈ (w.objs m).mappings.values :=
  JsMap.mem_values_of_get? (JsMap.get?_of_mem_slots (JsMap.mem_of_mem_after h))

theorem traces_poll (h : Local p w m) (hK : ∀ mp ∈ (w.objs m).mappings.values, K mp) :
    Traces p K m w (poll p w m) := by
  have hnone : ∀ mp ∈ Cont.items.mappings, K mp := fun mp hmp => by cases hmp
  have hask : Traces p K m w (w.setPollInProgress m true) := traces_update w m _ rfl rfl
  cases p with
  | s7 =>
      simp only [poll, S7.poll]
      split_ifs with hst
      · exact .refl _ K m w
      · exact .refl _ K m w
      · refine traces_issueRead w hnone (fun hc => ?_)
        rw [hc] at hst
        simp at hst
  | modbusTcp =>
      simp only [poll, Modbus.poll]
      split_ifs
      · exact .refl _ K m w
      · exact .refl _ K m w
      · exact traces_readNext (h.parses none) (fun s hs => hK _ (mem_values_of_mem_after hs)) w []
  | ethernetIp =>
      simp only [poll, EthernetIp.poll, EthernetIp.pollTags]
      split_ifs with _ _ _ hc
      any_goals exact .refl _ K m w
      refine hask.trans (traces_issueRead _ hK (fun hn => ?_))
      rw [hn] at hc
      exact absurd rfl hc
  | pccc =>
      simp only [poll, Pccc.poll, Pccc.pollAddresses]
      split_ifs with _ _ _ hc
      any_goals exact .refl _ K m w
      refine hask.trans (traces_issueRead _ hnone (fun hn => ?_))
      rw [hn] at hc
      exact absurd rfl hc

theorem calm_registerMappings (p : Protocol) (w : World) (m : ObjId) (c : ClientId) :
    Calm w (registerMappings p w m c) := by
  cases p with
  | s7 =>
      simp only [registerMappings]
      split_ifs
      · exact Calm.refl w
      · exact calm_of_objs (fun _ _ h => h) rfl rfl rfl rfl
  | _ => exact Calm.refl w

theorem traces_onConnected (h : WF p w) (hm : m < w.nextObj) {c : ClientId}
    (hc : (w.objs m).client = some c) (hK : ∀ mp ∈ (w.objs m).mappings.values, K mp) :
    Traces p K m w (onConnected p w m c) := by
  have h4 := h.ok_told hm hc
  have t1 : Traces p K m w (w.setState m .connected) := traces_update w m _ rfl rfl
  have t2 := t1.trans (traces_update _ m ({ · with errorMessage := none }) rfl rfl)
  have t3 := t2.trans (calm_registerMappings p _ m c).traces
  have t4 := t3.trans (traces_emitQualityUpdate (by rw [t3.mappings]; exact hK) .good)
  unfold onConnected startPollingWith
  dsimp only
  split_ifs
  · exact t4
  · have t5 := t4.trans (traces_poll (h4.wf.obj m) (by rw [t4.mappings]; exact hK))
    exact t5.trans (calm_arm .polling _ m).traces

theorem traces_onConnect (h : WF p w) (hm : m < w.nextObj)
    (hK : ∀ mp ∈ (w.objs m).mappings.values, K mp) (err : Option JsError) :
    Traces p K m w (onConnect p w m err) := by
  have h1 := h.ok_setConnecting hm false
  have t1 : Traces p K m w (w.setConnecting m false) := traces_update w m _ rfl rfl
  have hK1 : ∀ mp ∈ ((w.setConnecting m false).objs m).mappings.values, K mp := by
    rw [t1.mappings]
    exact hK
  rcases onConnect_cases p w m err with ⟨-, -, e⟩ | ⟨-, -, er, e⟩ | ⟨-, c, hc, e⟩ <;> rw [e]
  · exact t1
  · exact t1.trans (traces_handleConnectionError hK1 er)
  · exact t1.trans (traces_onConnected h1.wf (h1.lt hm) ((setConnecting_client w m false).trans hc) hK1)

/-- What an answer has for mappings that the read was for, the answer has reported. -/
theorem returned_s7 (i : String) (c : ClientId) (t : Nat) {values : List (String × Json)}
    {mappings : List Mapping} {a : Mapping × Answer} (ha : a ∈ S7.answers mappings values) :
    a.1 ∈ mappings ∧ ∀ x, a.2.value = some x → Report.value i c a.1.deviceAddress x true t ∈
      values.map (fun v => Report.value i c v.1 v.2 true t) := by
  obtain ⟨mp, hmp, he⟩ := List.mem_filterMap.mp ha
  obtain ⟨v, hv, rfl⟩ := Option.map_eq_some_iff.mp he
  refine ⟨hmp, fun x hx => List.mem_map.mpr ⟨v, List.mem_of_find?_eq_some hv, ?_⟩⟩
  have haddr : v.1 = mp.deviceAddress := of_decide_eq_true
    (List.find?_some (p := fun v : String × Json => decide (v.1 = mp.deviceAddress)) hv)
  rw [haddr, Option.some.inj hx]

theorem returned_ethernetIp (i : String) (c : ClientId) (t : Nat)
    {values : List (Option EthernetIp.TagValue)} {mappings : List Mapping} {a : Mapping × Answer}
    (ha : a ∈ EthernetIp.answers mappings values) :
    a.1 ∈ mappings ∧ ∀ x, a.2.value = some x → Report.value i c a.1.deviceAddress x true t ∈
      (mappings.zip values).filterMap fun p => p.2.map
        (fun v => Report.value i c p.1.deviceAddress (EthernetIp.normalizeTagValue v) true t) := by
  obtain ⟨q, hq, he⟩ := List.mem_filterMap.mp ha
  obtain ⟨v, hv, rfl⟩ := Option.map_eq_some_iff.mp he
  refine ⟨(List.of_mem_zip hq).1, fun x hx => List.mem_filterMap.mpr ⟨q, hq, ?_⟩⟩
  rw [hv, Option.map_some, Option.some.inj hx]

theorem returned_pccc (i : String) (c : ClientId) (t : Nat) {found : List Pccc.Item}
    {mappings : List Mapping} {a : Mapping × Answer} (ha : a ∈ Pccc.answers mappings found) :
    a.1 ∈ mappings ∧ ∀ x, a.2.value = some x → ∃ good,
      Report.value i c a.1.deviceAddress x good t ∈ found.filterMap
        (fun item => item.value.map (fun v => Report.value i c item.address v item.ok t)) := by
  obtain ⟨mp, hmp, he⟩ := List.mem_filterMap.mp ha
  obtain ⟨item, hi, rfl⟩ := Option.map_eq_some_iff.mp he
  rw [Pccc.findItem] at hi
  refine ⟨hmp, fun x hx => ⟨item.ok, List.mem_filterMap.mpr ⟨item, List.mem_of_find?_eq_some hi, ?_⟩⟩⟩
  have haddr : item.address = mp.deviceAddress := of_decide_eq_true
    (List.find?_some (p := fun i : Pccc.Item => decide (i.address = mp.deviceAddress)) hi)
  rw [show item.value = some x from hx, Option.map_some, haddr]

/-- The state in which a read's handler runs. -/
def answered (w : World) (r : ReadId) (read : Read) (result : ReadResult) : World :=
  (w.takeRead r).report (valueReports w read result)

theorem traces_answered (w : World) (r : ReadId) (read : Read) (result : ReadResult) :
    Traces p K m w (answered w r read result) where
  mappings := rfl
  configId := rfl
  reports := fun _ hr => List.mem_append_left _ hr
  reads := fun _ _ hx => Or.inl (takeRead_reads hx).2
  cache := fun _ _ hv => Or.inl hv

theorem reports_answered {r : ReadId} {read : Read} {result : ReadResult} {x : Report}
    (h : x ∈ valueReports w read result) : x ∈ (answered w r read result).reports :=
  List.mem_append_right _ h

theorem traces_onRead {r : ReadId} {read : Read} (h : Local p w read.obj)
    (hK : ∀ mp ∈ (w.objs read.obj).mappings.values, K mp) (hread : ∀ mp ∈ read.cont.mappings, K mp)
    (hclient : read.client = none → read.cont.isAddress = true) (result : ReadResult) :
    Traces p K read.obj w (onRead p (answered w r read result) read result) := by
  have h0 : Traces p K read.obj w (answered w r read result) := traces_answered w r read result
  have hpoll : Traces p K read.obj (answered w r read result)
      ((answered w r read result).setLastPollAt read.obj) := traces_update _ _ _ rfl rfl
  have hidle : Traces p K read.obj (answered w r read result)
      ((answered w r read result).setPollInProgress read.obj false) := traces_update _ _ _ rfl rfl
  have hKa : ∀ mp ∈ ((answered w r read result).objs read.obj).mappings.values, K mp := hK
  have hsome : read.cont.isAddress = false → ∃ c, read.client = some c := fun hf =>
    Option.ne_none_iff_exists'.mp fun hn => Bool.false_ne_true (hf.symm.trans (hclient hn))
  refine h0.trans ?_
  have hnext : ∀ stamp, ∀ s ∈ (w.objs read.obj).mappings.after (some stamp), K s.2.2 :=
    fun stamp s hs => hK _ (mem_values_of_mem_after hs)
  have hhandling := handling_onRead p (answered w r read result) read result
  generalize onRead p (answered w r read result) read result = w' at hhandling ⊢
  cases hhandling with
  | items m client values =>
      obtain ⟨c, hc⟩ := hsome rfl
      obtain rfl : client = some c := hc
      refine hpoll.trans (traces_deliver fun a ha => ?_)
      obtain ⟨hmem, hx⟩ := returned_s7 (w.objs m).config.id c w.now ha
      refine ⟨hK _ hmem, fun x hv => ⟨c, true, w.now, Or.inl rfl, ?_⟩⟩
      rw [hpoll.configId]
      refine reports_answered ?_
      exact hx x hv
  | itemsLost | dataLost => exact traces_handleConnectionError hKa _
  | unasked | dataFailed => exact traces_readNext (h.parses _) (hnext _) _ _
  | data m c stamp mapping parsed updates data =>
      have hans : Traces .modbusTcp K m (answered w r ⟨m, some c, .address stamp mapping parsed updates⟩ (.data data))
          (cacheAnswer m (answered w r ⟨m, some c, .address stamp mapping parsed updates⟩ (.data data))
            (mapping, ⟨Modbus.valueOf parsed data, .good⟩)) := by
        refine traces_cacheValue (hread _ (List.mem_singleton.mpr rfl))
          (Or.inr ⟨rfl, rfl, fun x hx => ⟨c, true, w.now, Or.inl rfl, reports_answered ?_⟩⟩)
        have hv : Modbus.valueOf parsed data = some x := hx
        simp only [valueReports, hv, Option.map_some, Option.toList_some, List.mem_singleton]
        rfl
      exact hans.trans (traces_readNext (h.parses _) (hnext _) _ _)
  | tags m client mappings values =>
      obtain ⟨c, hc⟩ := hsome rfl
      obtain rfl : client = some c := hc
      refine (hpoll.trans (traces_deliver fun a ha => ?_)).trans
        (traces_update _ _ ({ · with pollInProgress := false }) rfl rfl)
      obtain ⟨hmem, hx⟩ := returned_ethernetIp (w.objs m).config.id c w.now ha
      refine ⟨hread _ hmem, fun x hv => ⟨c, true, w.now, Or.inl rfl, ?_⟩⟩
      rw [hpoll.configId]
      refine reports_answered ?_
      exact hx x hv
  | tagsLost => exact hidle.trans (traces_handleConnectionError (by rw [hidle.mappings]; exact hK) _)
  | tagsFailed => exact hidle.trans (traces_emitQualityUpdate (by rw [hidle.mappings]; exact hK) _)
  | clientGone => exact hidle
  | allBad => exact hidle.trans (traces_handleConnectionError (by rw [hidle.mappings]; exact hK) _)
  | found m client anythingBad found c hc =>
      have hpoll' := hidle.trans (traces_update _ _ (fun o => { o with lastPollAt := some w.now }) rfl rfl)
      refine hpoll'.trans (traces_deliver fun a ha => ?_)
      obtain ⟨hmem, hx⟩ := returned_pccc (w.objs m).config.id c w.now ha
      refine ⟨hK _ hmem, fun x hv => ?_⟩
      obtain ⟨good, hr⟩ := hx x hv
      refine ⟨c, good, w.now, Or.inr rfl, ?_⟩
      rw [hpoll'.configId]
      refine reports_answered ?_
      have hclient' : (w.objs m).client = some c := hc
      simp only [valueReports, hclient']
      exact hr
  | dropped => exact .refl _ K _ _

/-! ## The invariant -/

/-- The object holds the mapping, or one of its reads does. -/
def Knows (w : World) (m : ObjId) (mp : Mapping) : Prop :=
  mp ∈ (w.objs m).mappings.values ∨
    ∃ r read, w.reads r = some read ∧ read.obj = m ∧ mp ∈ read.cont.mappings

structure Sourced (p : Protocol) (ms : List Mapping) (w : World) : Prop where
  known : ∀ m mp, Knows w m mp → mp ∈ ms ∧ mp.connectionId = (w.objs m).config.id
  owner : ∀ m m' mp mp', Knows w m mp → Knows w m' mp' → mp.id = mp'.id → m = m'
  asked : ∀ r read, w.reads r = some read → read.client = none → read.cont.isAddress = true
  cached : ∀ id v, w.currentValues.get? id = some v →
    ∃ mp ∈ ms, mp.id = id ∧ EntryOf p w mp.connectionId mp v

variable {ms : List Mapping}

theorem Traces.knows (h : Traces p (Knows w m) m w w') (hothers : ∀ i, i ≠ m → w'.objs i = w.objs i)
    {i : ObjId} {mp : Mapping} (hk : Knows w' i mp) : Knows w i mp := by
  rcases hk with hk | ⟨r, read, hr, hobj, hmem⟩
  · by_cases hi : i = m
    · rw [hi, h.mappings] at hk
      rw [hi]
      exact Or.inl hk
    · rw [hothers i hi] at hk
      exact Or.inl hk
  · rcases h.reads r read hr with hr | ⟨hm, hK, -⟩
    · exact Or.inr ⟨r, read, hr, hobj, hmem⟩
    · rw [← hobj, hm]
      exact hK mp hmem

/-- Code of one object keeps the invariant. -/
theorem Sourced.traces (h : Sourced p ms w) (ht : Traces p (Knows w m) m w w')
    (hothers : ∀ i, i ≠ m → w'.objs i = w.objs i) : Sourced p ms w' where
  known := fun i mp hk => by
    obtain ⟨hmem, hid⟩ := h.known i mp (ht.knows hothers hk)
    refine ⟨hmem, ?_⟩
    by_cases hi : i = m
    · rw [hid, hi, ht.configId]
    · rw [hid, hothers i hi]
  owner := fun i i' mp mp' hk hk' => h.owner i i' mp mp' (ht.knows hothers hk) (ht.knows hothers hk')
  asked := fun r read hr hc => by
    rcases ht.reads r read hr with hr | ⟨-, -, hask⟩
    · exact h.asked r read hr hc
    · exact hask hc
  cached := fun id v hv => by
    rcases ht.cache id v hv with hv | ⟨mp, hK, hid, ⟨v₀, hv₀, hs⟩ | hnew⟩
    · obtain ⟨mp, hmem, hid, he⟩ := h.cached id v hv
      exact ⟨mp, hmem, hid, he.mono ht.reports⟩
    · obtain ⟨mp, hmem, hid, he⟩ := h.cached id v₀ hv₀
      exact ⟨mp, hmem, hid, (he.mono ht.reports).sameSource hs⟩
    · obtain ⟨hmem, hconn⟩ := h.known m mp hK
      exact ⟨mp, hmem, hid, by rw [hconn]; exact hnew⟩

theorem Sourced.calm (h : Sourced p ms w) (hc : Calm w w') : Sourced p ms w' := by
  have hknows : ∀ i mp, Knows w' i mp → Knows w i mp := by
    intro i mp hk
    unfold Knows at hk
    rw [hc.mappings, hc.reads] at hk
    exact hk
  refine ⟨fun i mp hk => ?_, fun i i' mp mp' hk hk' => ?_, ?_, fun id v hv => ?_⟩
  · rw [hc.configId]
    exact h.known i mp (hknows i mp hk)
  · exact h.owner i i' mp mp' (hknows i mp hk) (hknows i' mp' hk')
  · rw [hc.reads]
    exact h.asked
  · rw [hc.currentValues] at hv
    obtain ⟨mp, hmem, hid, he⟩ := h.cached id v hv
    exact ⟨mp, hmem, hid, he.mono (fun r hr => by rw [hc.reports]; exact hr)⟩

/-- An object without mappings joins. -/
theorem Sourced.track (h : Sourced p ms w) (hwf : WF p w) (config : ConnectionConfig)
    (params : List (String × Json)) :
    Sourced p ms (w.track (createManagedConnection config params)) := by
  have hknows : ∀ i mp, Knows (w.track (createManagedConnection config params)) i mp →
      i ≠ w.nextObj ∧ Knows w i mp := by
    rintro i mp (hk | ⟨r, read, hr, hobj, hmem⟩)
    · by_cases hi : i = w.nextObj
      · rw [hi, track_objs_self] at hk
        cases hk
      · rw [track_objs_of_ne w _ hi] at hk
        exact ⟨hi, Or.inl hk⟩
    · have hlt := (hwf.read r read hr).1
      refine ⟨fun hi => ?_, Or.inr ⟨r, read, hr, hobj, hmem⟩⟩
      rw [hobj, hi] at hlt
      exact absurd hlt (Nat.lt_irrefl _)
  refine ⟨fun i mp hk => ?_, fun i i' mp mp' hk hk' => ?_, h.asked, fun id v hv => ?_⟩
  · obtain ⟨hi, hk⟩ := hknows i mp hk
    rw [track_objs_of_ne w _ hi]
    exact h.known i mp hk
  · exact h.owner i i' mp mp' (hknows i mp hk).2 (hknows i' mp' hk').2
  · obtain ⟨mp, hmem, hmid, he⟩ := h.cached id v hv
    exact ⟨mp, hmem, hmid, he.mono (fun _ hr => hr)⟩

/-- A mapping with a new id is added to one object. -/
theorem Sourced.set (h : Sourced p ms w) {mapping : Mapping} (hnew : mapping.id ∉ ms.map Mapping.id)
    (hid : mapping.connectionId = (w.objs m).config.id) :
    Sourced p (ms ++ [mapping]) (w.setMappings m (·.set mapping.id mapping)) := by
  have hknows : ∀ i mp, Knows (w.setMappings m (·.set mapping.id mapping)) i mp →
      (i = m ∧ mp = mapping) ∨ Knows w i mp := by
    rintro i mp (hk | hk)
    · by_cases hi : i = m
      · rw [hi, setMappings, update_objs_self] at hk
        rcases JsMap.mem_values_set_iff.mp hk with rfl | ⟨k, -, hk⟩
        · exact Or.inl ⟨hi, rfl⟩
        · rw [hi]
          exact Or.inr (Or.inl (JsMap.mem_values_of_get? hk))
      · rw [setMappings, update_objs_of_ne w _ hi] at hk
        exact Or.inr (Or.inl hk)
    · exact Or.inr (Or.inr hk)
  have hconfig : ∀ i, ((w.setMappings m (·.set mapping.id mapping)).objs i).config =
      (w.objs i).config := by
    intro i
    by_cases hi : i = m
    · rw [hi, setMappings, update_objs_self]
    · rw [setMappings, update_objs_of_ne w _ hi]
  have hold : ∀ i mp, Knows w i mp → mp.id ≠ mapping.id := fun i mp hk he =>
    hnew (by rw [← he]; exact List.mem_map_of_mem (h.known i mp hk).1)
  refine ⟨fun i mp hk => ?_, fun i i' mp mp' hk hk' he => ?_, h.asked, fun id v hv => ?_⟩
  · rw [hconfig]
    rcases hknows i mp hk with ⟨rfl, rfl⟩ | hk
    · exact ⟨List.mem_append_right _ (List.mem_singleton.mpr rfl), hid⟩
    · obtain ⟨hmem, hc⟩ := h.known i mp hk
      exact ⟨List.mem_append_left _ hmem, hc⟩
  · rcases hknows i mp hk with ⟨hi, hmp⟩ | hk1 <;> rcases hknows i' mp' hk' with ⟨hi', hmp'⟩ | hk1'
    · rw [hi, hi']
    · rw [hmp] at he
      exact absurd he.symm (hold i' mp' hk1')
    · rw [hmp'] at he
      exact absurd he (hold i mp hk1)
    · exact h.owner i i' mp mp' hk1 hk1' he
  · obtain ⟨mp, hmem, hmid, he⟩ := h.cached id v hv
    exact ⟨mp, List.mem_append_left _ hmem, hmid, he.address, he.connection, he.returned⟩

/-- A mapping and its cached value are forgotten. -/
theorem Sourced.delete (h : Sourced p ms w) (id : String) :
    Sourced p ms ((w.setMappings m (·.delete id)).forgetValue id) := by
  have hknows : ∀ i mp, Knows ((w.setMappings m (·.delete id)).forgetValue id) i mp →
      Knows w i mp := by
    rintro i mp (hk | hk)
    · change mp ∈ ((w.setMappings m (·.delete id)).objs i).mappings.values at hk
      by_cases hi : i = m
      · rw [hi, setMappings, update_objs_self] at hk
        obtain ⟨k, -, hk⟩ := JsMap.mem_values_delete_iff.mp hk
        rw [hi]
        exact Or.inl (JsMap.mem_values_of_get? hk)
      · rw [setMappings, update_objs_of_ne w _ hi] at hk
        exact Or.inl hk
    · exact Or.inr hk
  refine ⟨fun i mp hk => ?_, fun i i' mp mp' hk hk' => ?_, h.asked, fun k v hv => ?_⟩
  · have hconfig : (((w.setMappings m (·.delete id)).forgetValue id).objs i).config =
        (w.objs i).config := by
      show ((w.setMappings m (·.delete id)).objs i).config = _
      by_cases hi : i = m
      · rw [hi, setMappings, update_objs_self]
      · rw [setMappings, update_objs_of_ne w _ hi]
    rw [hconfig]
    exact h.known i mp (hknows i mp hk)
  · exact h.owner i i' mp mp' (hknows i mp hk) (hknows i' mp' hk')
  · change (w.currentValues.delete id).get? k = some v at hv
    rw [JsMap.get?_delete] at hv
    split_ifs at hv
    obtain ⟨mp, hmem, hmid, he⟩ := h.cached k v hv
    exact ⟨mp, hmem, hmid, he.address, he.connection, he.returned⟩

end OpcuaLight.Connector
