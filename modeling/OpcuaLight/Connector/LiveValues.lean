import OpcuaLight.Connector.Quality

/-!
# Values of live mappings

The entries of `currentValues` are written by handlers that run for whatever mappings their object,
or their read, still knows, and are deleted with a mapping only. They are values of mappings that
tracked connections hold (`AllLive`) as long as no connection is removed over a cached value, no
mapping is replaced by a different one over a cached value, and no handler writes for a mapping that
is gone (`KeepsLive`).

* `Files K m w w'` : code of `m` that caches for mappings in `K` only; an entry that was there keeps
  its node, its address and its connection.
-/

namespace OpcuaLight.Connector

open World

variable {p : Protocol} {w w' w'' : World} {m : ObjId} {K : Mapping → Prop}

/-! ## Entries and mappings -/

/-- The entry has the node and the address of the mapping, and the connection `id`. -/
structure EntryFor (mp : Mapping) (id : String) (v : CurrentValue) : Prop where
  nodeId : v.nodeId = mp.nodeId
  address : v.deviceAddress = mp.deviceAddress
  connection : v.connectionId = id

/-- A tracked connection holds a mapping under the key, and the entry is the mapping's. -/
def Holds (w : World) (m : ObjId) (key : String) (v : CurrentValue) : Prop :=
  w.Tracked m ∧ ∃ mp, (w.objs m).mappings.get? key = some mp ∧ EntryFor mp mp.connectionId v

def AllLive (w : World) : Prop :=
  ∀ key v, w.currentValues.get? key = some v → ∃ m, Holds w m key v

/-- A tracked connection `id` holds this mapping, or one with the same id, node and address. -/
def LiveFor (w : World) (id : String) (mp : Mapping) : Prop :=
  ∃ m, w.Tracked m ∧ ∃ mp', (w.objs m).mappings.get? mp.id = some mp' ∧ mp'.nodeId = mp.nodeId ∧
    mp'.deviceAddress = mp.deviceAddress ∧ mp'.connectionId = id

theorem LiveFor.holds {id : String} {mp : Mapping} {v : CurrentValue} (h : LiveFor w id mp)
    (hv : EntryFor mp id v) : ∃ m, Holds w m mp.id v := by
  obtain ⟨m, htr, mp', hget, hnode, haddr, hconn⟩ := h
  exact ⟨m, htr, mp', hget, by rw [hnode, hv.nodeId], by rw [haddr, hv.address],
    by rw [hconn, hv.connection]⟩

/-- What a tracked object holds is live. -/
theorem WF.liveFor (h : WF p w) (htr : w.Tracked m) {mp : Mapping}
    (hmp : mp ∈ (w.objs m).mappings.values) : LiveFor w (w.objs m).config.id mp := by
  obtain ⟨key, hget⟩ := JsMap.mem_values_iff.mp hmp
  obtain ⟨hid, hconn, -⟩ := (h.obj m).mapping key mp hget
  rw [← hid] at hget
  exact ⟨m, htr, mp, hget, rfl, rfl, hconn⟩

/-! ## Code that caches -/

/-- The entries agree in what says whose they are. -/
structure SameFile (v v' : CurrentValue) : Prop where
  nodeId : v'.nodeId = v.nodeId
  address : v'.deviceAddress = v.deviceAddress
  connection : v'.connectionId = v.connectionId

theorem SameFile.trans {v v' v'' : CurrentValue} (h : SameFile v v') (h' : SameFile v' v'') :
    SameFile v v'' :=
  ⟨h'.nodeId.trans h.nodeId, h'.address.trans h.address, h'.connection.trans h.connection⟩

theorem EntryFor.sameFile {mp : Mapping} {id : String} {v v' : CurrentValue} (h : EntryFor mp id v)
    (hs : SameFile v v') : EntryFor mp id v' :=
  ⟨hs.nodeId.trans h.nodeId, hs.address.trans h.address, hs.connection.trans h.connection⟩

structure Files (K : Mapping → Prop) (m : ObjId) (w w' : World) : Prop where
  mappings : (w'.objs m).mappings = (w.objs m).mappings
  configId : (w'.objs m).config.id = (w.objs m).config.id
  kept : ∀ key, (w.currentValues.get? key).isSome → (w'.currentValues.get? key).isSome
  cache : ∀ key v', w'.currentValues.get? key = some v' →
    (∃ v, w.currentValues.get? key = some v ∧ SameFile v v') ∨
    ∃ mp, K mp ∧ mp.id = key ∧ EntryFor mp (w.objs m).config.id v'

namespace Files

theorem of_same (hmap : (w'.objs m).mappings = (w.objs m).mappings)
    (hid : (w'.objs m).config.id = (w.objs m).config.id)
    (hv : w'.currentValues = w.currentValues) : Files K m w w' where
  mappings := hmap
  configId := hid
  kept := fun key hk => by rw [hv]; exact hk
  cache := fun key v' hv' => Or.inl ⟨v', by rw [← hv, hv'], rfl, rfl, rfl⟩

theorem refl (K : Mapping → Prop) (m : ObjId) (w : World) : Files K m w w := of_same rfl rfl rfl

theorem trans (h : Files K m w w') (h' : Files K m w' w'') : Files K m w w'' where
  mappings := by rw [h'.mappings, h.mappings]
  configId := by rw [h'.configId, h.configId]
  kept := fun key hk => h'.kept key (h.kept key hk)
  cache := fun key v'' hv'' => by
    rcases h'.cache key v'' hv'' with ⟨v', hv', hs'⟩ | ⟨mp, hK, hid, hentry⟩
    · rcases h.cache key v' hv' with ⟨v, hv, hs⟩ | ⟨mp, hK, hid, hentry⟩
      · exact Or.inl ⟨v, hv, hs.trans hs'⟩
      · exact Or.inr ⟨mp, hK, hid, hentry.sameFile hs'⟩
    · rw [h.configId] at hentry
      exact Or.inr ⟨mp, hK, hid, hentry⟩

theorem foldl {α : Type*} {f : World → α → World} {l : List α}
    (hf : ∀ w' a, a ∈ l → Files K m w w' → Files K m w' (f w' a)) : Files K m w (l.foldl f w) :=
  Machine.run_related (refl K m w) trans hf

end Files

theorem Calm.files (h : Calm w w') : Files K m w w' :=
  .of_same (h.mappings m) (h.configId m) h.currentValues

theorem files_update (w : World) (m : ObjId) (f : Managed → Managed)
    (hmap : (f (w.objs m)).mappings = (w.objs m).mappings)
    (hid : (f (w.objs m)).config.id = (w.objs m).config.id) : Files K m w (w.update m f) :=
  .of_same (by rw [update_objs_self, hmap]) (by rw [update_objs_self, hid]) rfl

theorem files_emitValueUpdates (w : World) (m : ObjId) (us : List ValueUpdate) :
    Files K m w (w.emitValueUpdates m us) := by
  unfold emitValueUpdates
  split_ifs
  · exact .refl K m w
  · exact .of_same rfl rfl rfl

theorem files_cacheValue (mp : Mapping) {v : CurrentValue}
    (hv : (∃ v₀, w.currentValues.get? mp.id = some v₀ ∧ SameFile v₀ v) ∨
      K mp ∧ EntryFor mp (w.objs m).config.id v) : Files K m w (w.cacheValue m mp.id v) := by
  have hget : ∀ key, (w.cacheValue m mp.id v).currentValues.get? key =
      if key = mp.id then some v else w.currentValues.get? key := fun key => JsMap.get?_set _ _ _ _
  refine ⟨rfl, rfl, fun key hk => ?_, fun key v' hv' => ?_⟩
  · rw [hget]
    split_ifs
    · rfl
    · exact hk
  · rw [hget] at hv'
    split_ifs at hv' with hid
    · obtain rfl := Option.some.inj hv'
      rw [hid]
      rcases hv with hold | ⟨hK, hentry⟩
      · exact Or.inl hold
      · exact Or.inr ⟨mp, hK, rfl, hentry⟩
    · exact Or.inl ⟨v', hv', rfl, rfl, rfl⟩

/-- Of an uncached mapping a bad entry is written, of a cached one the entry is marked. -/
theorem files_cacheQuality {mp : Mapping} (hK : w.currentValues.get? mp.id = none → K mp)
    (q : Quality) : Files K m w (cacheQuality m q w mp) := by
  unfold cacheQuality
  split
  · rename_i v hv
    exact files_cacheValue _ (Or.inl ⟨v, hv, rfl, rfl, rfl⟩)
  · rename_i hnone
    split_ifs
    · exact files_cacheValue _ (Or.inr ⟨hK hnone, rfl, rfl, rfl⟩)
    · exact .refl K m w

theorem files_emitQualityUpdate (q : Quality) (hK : ∀ mp ∈ (w.objs m).mappings.values,
    w.currentValues.get? mp.id = none → K mp) : Files K m w (w.emitQualityUpdate m q) := by
  refine (Files.foldl fun w' mp hmp hw => files_cacheQuality (fun hnone => ?_) q).trans
    (files_emitValueUpdates _ m _)
  refine hK mp hmp (Option.not_isSome_iff_eq_none.mp fun hsome => ?_)
  have hkept := hw.kept mp.id hsome
  rw [hnone] at hkept
  cases hkept

/-- Good quality is for values that are there. -/
theorem files_emitQualityUpdate_good (K : Mapping → Prop) (w : World) (m : ObjId) :
    Files K m w (w.emitQualityUpdate m .good) := by
  refine (Files.foldl fun w' mp _ _ => ?_).trans (files_emitValueUpdates _ m _)
  unfold cacheQuality
  split
  · rename_i v hv
    exact files_cacheValue _ (Or.inl ⟨v, hv, rfl, rfl, rfl⟩)
  · exact .refl K m w'

theorem files_deliver {answers : List (Mapping × Answer)} (ha : ∀ a ∈ answers, K a.1) :
    Files K m w (w.deliver m answers) :=
  (Files.foldl fun _ a hmem _ =>
    files_cacheValue a.1 (Or.inr ⟨ha a hmem, rfl, rfl, rfl⟩)).trans
    (files_emitValueUpdates _ m _)

theorem files_handleConnectionError (hK : ∀ mp ∈ (w.objs m).mappings.values,
    w.currentValues.get? mp.id = none → K mp) (e : JsError) :
    Files K m w (w.handleConnectionError m e) := by
  have h1 : Files K m w (w.setState m (stateAfterError (w.objs m).state)) :=
    files_update w m _ rfl rfl
  have h2 := h1.trans (files_update _ m ({ · with errorMessage := some (errorText e) }) rfl rfl)
  have h3 := calm_disarm .polling ((w.setState m (stateAfterError (w.objs m).state)).setErrorMessage m
    (some (errorText e))) m
  have h4 := h2.trans (h3.files.trans (files_emitQualityUpdate .bad (by
    rw [(h2.trans h3.files).mappings, h3.currentValues]
    exact hK)))
  unfold handleConnectionError
  dsimp only
  split_ifs
  · exact h4.trans (calm_scheduleReconnect _ m).files
  · exact h4

/-! ## Polls, connects and reads -/

theorem poll_currentValues (h : Local p w m) : (poll p w m).currentValues = w.currentValues := by
  cases p with
  | s7 =>
      simp only [poll, S7.poll]
      split_ifs <;> rfl
  | modbusTcp =>
      simp only [poll, Modbus.poll]
      split_ifs
      · rfl
      · rfl
      · exact readNext_currentValues (h.parses none) []
  | ethernetIp =>
      simp only [poll, EthernetIp.poll, EthernetIp.pollTags]
      split_ifs <;> rfl
  | pccc =>
      simp only [poll, Pccc.poll, Pccc.pollAddresses]
      split_ifs <;> rfl

/-- A poll files nothing. -/
theorem files_poll (h : Local p w m) : Files K m w (poll p w m) := by
  have hp := passive_poll h
  exact .of_same hp.mappings (by rw [hp.config]) (poll_currentValues h)

theorem files_onConnected (h : WF p w) (hm : m < w.nextObj) {c : ClientId}
    (hc : (w.objs m).client = some c) : Files K m w (onConnected p w m c) := by
  have h4 := h.ok_told hm hc
  have f1 : Files K m w (w.setState m .connected) := files_update w m _ rfl rfl
  have f2 := f1.trans (files_update _ m ({ · with errorMessage := none }) rfl rfl)
  have f3 := f2.trans (calm_registerMappings p _ m c).files
  have f5 := f3.trans (files_emitQualityUpdate_good K _ m)
  unfold onConnected startPollingWith
  dsimp only
  split_ifs
  · exact f5
  · exact (f5.trans (files_poll (h4.wf.obj m))).trans (calm_arm .polling _ m).files

/-- A connect files for the object's mappings, if it fails. -/
theorem files_onConnect (h : WF p w) (hm : m < w.nextObj) (err : Option JsError)
    (hK : connectFailed p err = true → ∀ mp ∈ (w.objs m).mappings.values,
      w.currentValues.get? mp.id = none → K mp) : Files K m w (onConnect p w m err) := by
  have h1 := h.ok_setConnecting hm false
  have f1 : Files K m w (w.setConnecting m false) := files_update w m _ rfl rfl
  rcases onConnect_cases p w m err with ⟨-, -, e⟩ | ⟨hf, -, er, e⟩ | ⟨-, c, hc, e⟩ <;> rw [e]
  · exact f1
  · refine f1.trans (files_handleConnectionError ?_ er)
    rw [f1.mappings]
    exact hK hf
  · exact f1.trans (files_onConnected h1.wf (h1.lt hm) ((setConnecting_client w m false).trans hc))

theorem files_readNext {l : List (Nat × String × Mapping)}
    (hl : ∀ s ∈ l, ∃ a, parseDeviceAddress s.2.2.deviceAddress = .ok a) (w : World)
    (updates : List ValueUpdate) : Files K m w (Modbus.readNext w m updates l) := by
  have hp := passive_readNext w m updates l hl
  exact .of_same hp.mappings (by rw [hp.config]) (readNext_currentValues hl updates)

/-- The handler of a read's answer may cache for the mapping: the object holds it, and has no entry for
it if the read failed, or the read was for it and did not fail. -/
def Concerns (w : World) (read : Read) (result : ReadResult) (mp : Mapping) : Prop :=
  mp ∈ (w.objs read.obj).mappings.values ∧
      (result.isAnswer = false → w.currentValues.get? mp.id = none) ∨
    mp ∈ read.cont.mappings ∧ result.isAnswer = true

theorem files_onRead {read : Read} (h : Local p w read.obj) (result : ReadResult) :
    Files (Concerns w read result) read.obj w (onRead p w read result) := by
  have hpoll : ∀ K, Files K read.obj w (w.setLastPollAt read.obj) :=
    fun K => files_update _ _ _ rfl rfl
  have hclear : ∀ K, Files K read.obj w (w.setPollInProgress read.obj false) :=
    fun K => files_update _ _ _ rfl rfl
  have hheld : ∀ result, ∀ mp ∈ (w.objs read.obj).mappings.values,
      w.currentValues.get? mp.id = none → Concerns w read result mp :=
    fun result mp hmp hnone => Or.inl ⟨hmp, fun _ => hnone⟩
  have hcleared : ∀ result, ∀ mp ∈ ((w.setPollInProgress read.obj false).objs read.obj).mappings.values,
      (w.setPollInProgress read.obj false).currentValues.get? mp.id = none →
        Concerns w read result mp := fun result => by
    rw [(hclear (fun _ => False)).mappings]
    exact hheld result
  have hanswer : ∀ {result : ReadResult}, result.isAnswer = true →
      ∀ mp ∈ (w.objs read.obj).mappings.values, Concerns w read result mp :=
    fun hr mp hmp => Or.inl ⟨hmp, fun hf => by rw [hr] at hf; cases hf⟩
  have hhandling := handling_onRead p w read result
  generalize onRead p w read result = w' at hhandling ⊢
  cases hhandling with
  | items m client values =>
      refine (hpoll _).trans (files_deliver fun a ha => hanswer rfl _ ?_)
      exact (returned_s7 "" 0 0 ha).1
  | itemsLost | dataLost => exact files_handleConnectionError (hheld _) _
  | unasked | dataFailed => exact files_readNext (h.parses _) w _
  | data m c stamp mapping parsed updates data =>
      have hmp : Concerns w ⟨m, some c, .address stamp mapping parsed updates⟩ (.data data) mapping :=
        Or.inr ⟨List.mem_singleton.mpr rfl, rfl⟩
      have hans : Files (Concerns w ⟨m, some c, .address stamp mapping parsed updates⟩ (.data data)) m w
          (cacheAnswer m w (mapping, ⟨Modbus.valueOf parsed data, .good⟩)) :=
        files_cacheValue _ (Or.inr ⟨hmp, rfl, rfl, rfl⟩)
      exact hans.trans (files_readNext (h.parses _) _ _)
  | tags m client mappings values =>
      have hdel : Files (Concerns w ⟨m, client, .tags mappings⟩ (.tags values)) m (w.setLastPollAt m)
          ((w.setLastPollAt m).deliver m (EthernetIp.answers mappings values)) :=
        files_deliver fun a ha => Or.inr ⟨(returned_ethernetIp "" 0 0 ha).1, rfl⟩
      exact ((hpoll _).trans hdel).trans (files_update _ _ ({ · with pollInProgress := false }) rfl rfl)
  | tagsLost => exact (hclear _).trans (files_handleConnectionError (hcleared _) _)
  | tagsFailed => exact (hclear _).trans (files_emitQualityUpdate .bad (hcleared _))
  | clientGone => exact hclear _
  | allBad => exact (hclear _).trans (files_handleConnectionError (hcleared _) _)
  | found m client anythingBad found =>
      refine ((hclear _).trans (files_update _ _ (fun o => { o with lastPollAt := some w.now }) rfl
        rfl)).trans (files_deliver fun a ha => hanswer rfl _ ?_)
      exact (returned_pccc "" 0 0 ha).1
  | dropped => exact .refl _ _ w

/-! ## Steps -/

/-- What keeps the entries live: a connection is removed when none is left to it alone, a mapping is
replaced over an entry by one that matches it, and a handler that caches does so for live
mappings. -/
def KeepsLive (p : Protocol) (w : World) : Event → Prop
  | .removeConnection id => ∀ m, w.connections.get? id = some m →
      ∀ key v, w.currentValues.get? key = some v → ∃ i, i ≠ m ∧ Holds w i key v
  | .addMapping mapping => ∀ m v, w.connections.get? mapping.connectionId = some m →
      acceptsAddress p mapping.deviceAddress = true →
      w.currentValues.get? mapping.id = some v →
      EntryFor mapping mapping.connectionId v ∨ ∃ i, i ≠ m ∧ Holds w i mapping.id v
  | .connectReport c err => ∀ m, actor w (.connectReport c err) = some m →
      connectFailed p err = true → ∀ mp ∈ (w.objs m).mappings.values,
        w.currentValues.get? mp.id = none → LiveFor w (w.objs m).config.id mp
  | .readReport r result => ∀ read, w.reads r = some read → ∀ mp, Concerns w read result mp →
      LiveFor w (w.objs read.obj).config.id mp
  | _ => True

/-- Nothing is lost where the entries, the connections and the mappings stay. -/
theorem AllLive.of_same (h : AllLive w) (hconn : ∀ m, w.Tracked m → w'.Tracked m)
    (hmap : ∀ m, w.Tracked m → (w'.objs m).mappings = (w.objs m).mappings)
    (hv : w'.currentValues = w.currentValues) : AllLive w' := by
  intro key v hkey
  rw [hv] at hkey
  obtain ⟨m, htr, mp, hget, hentry⟩ := h key v hkey
  exact ⟨m, hconn m htr, mp, by rw [hmap m htr, hget], hentry⟩

theorem AllLive.calm (h : AllLive w) (hc : Calm w w') (hconn : w'.connections = w.connections) :
    AllLive w' :=
  h.of_same (fun m htr => by rw [Tracked, hconn]; exact htr) (fun m _ => hc.mappings m)
    hc.currentValues

theorem AllLive.files (h : AllLive w) (hok : Ok p m w w') (hf : Files K m w w')
    (hK : ∀ mp, K mp → LiveFor w (w.objs m).config.id mp) : AllLive w' := by
  have hholds : ∀ i key v, Holds w i key v → Holds w' i key v := by
    rintro i key v ⟨htr, mp, hget, hentry⟩
    refine ⟨by rw [Tracked, hok.acts.connections]; exact htr, mp, ?_, hentry⟩
    by_cases hi : i = m
    · rw [hi] at hget ⊢
      rw [hf.mappings, hget]
    · rw [hok.acts.objs i hi, hget]
  intro key v' hv'
  rcases hf.cache key v' hv' with ⟨v, hv, hs⟩ | ⟨mp, hKmp, rfl, hentry⟩
  · obtain ⟨i, htr, mp, hget, he⟩ := h key v hv
    exact ⟨i, hholds i key v' ⟨htr, mp, hget, he.sameFile hs⟩⟩
  · obtain ⟨i, hi⟩ := (hK mp hKmp).holds hentry
    exact ⟨i, hholds i mp.id v' hi⟩

theorem allLive_addConnection (h : WF p w) (hall : AllLive w) (config : ConnectionConfig) :
    AllLive (addConnection p w config).1 := by
  unfold addConnection
  split
  · exact hall
  · rename_i hnone
    split
    · exact hall
    · rename_i params _
      have h1 := h.track config params
      have htracked : AllLive (w.track (createManagedConnection config params)) :=
        hall.of_same (fun m htr => (tracked_track hnone m).mpr (Or.inr htr))
          (fun m htr => by rw [track_objs_of_ne w _ (Nat.ne_of_lt (h.lt_of_tracked htr))]) rfl
      dsimp only
      split_ifs
      · exact htracked.calm (calm_initiateConnection p _ _)
          (h1.ok_initiateConnection (Nat.lt_succ_self _)).acts.connections
      · exact htracked

theorem allLive_removeConnection (h : WF p w) {id : String} (hall : AllLive w)
    (hok : KeepsLive p w (.removeConnection id)) : AllLive (removeConnection w id).1 := by
  unfold removeConnection
  split
  · exact hall
  · rename_i m hm
    have hcalm := calm_disconnectAndCleanup w m
    have h1 := h.ok_disconnectAndCleanup (h.tracked id m hm).1
    intro key v hv
    change (w.disconnectAndCleanup m).currentValues.get? key = some v at hv
    rw [hcalm.currentValues] at hv
    obtain ⟨i, hi, htr, mp, hget, hentry⟩ := hok m hm key v hv
    obtain ⟨id', hid'⟩ := JsMap.mem_values_iff.mp htr
    have hne : id' ≠ id := fun he => by
      rw [he, hm] at hid'
      exact hi (Option.some.inj hid').symm
    refine ⟨i, ?_, mp, ?_, hentry⟩
    · refine JsMap.mem_values_iff.mpr ⟨id', ?_⟩
      change ((w.disconnectAndCleanup m).connections.delete id).get? id' = some i
      rw [JsMap.get?_delete_of_ne _ hne, h1.acts.connections, hid']
    · change ((w.disconnectAndCleanup m).objs i).mappings.get? key = some mp
      rw [hcalm.mappings, hget]

theorem allLive_addMapping (h : WF p w) {mapping : Mapping} (hall : AllLive w)
    (hok : KeepsLive p w (.addMapping mapping)) : AllLive (step p w (.addMapping mapping)) := by
  rcases addMapping_cases p w mapping with ⟨e, he⟩ | ⟨m, hm, haddr, he⟩ <;> rw [step, he]
  · exact hall
  · have hacts := (h.ok_addMapping hm haddr).acts
    have hself : ((pushItem p (w.setMappings m (·.set mapping.id mapping)) m
        mapping.deviceAddress).objs m).mappings = (w.objs m).mappings.set mapping.id mapping := by
      rw [pushItem_objs, setMappings, update_objs_self]
    have hv : (pushItem p (w.setMappings m (·.set mapping.id mapping)) m
        mapping.deviceAddress).currentValues = w.currentValues := by
      unfold pushItem
      split <;> rfl
    have hkeep : ∀ i key v, (i ≠ m ∨ key ≠ mapping.id) → Holds w i key v →
        Holds (pushItem p (w.setMappings m (·.set mapping.id mapping)) m mapping.deviceAddress) i
          key v := by
      rintro i key v hne ⟨htr, mp, hget, hentry⟩
      refine ⟨by rw [Tracked, hacts.connections]; exact htr, mp, ?_, hentry⟩
      by_cases hi : i = m
      · rw [hi] at hget hne ⊢
        rw [hself, JsMap.get?_set_of_ne _ _ (hne.resolve_left (fun hn => hn rfl)), hget]
      · rw [hacts.objs i hi, hget]
    intro key v hkey
    rw [hv] at hkey
    by_cases hid : key = mapping.id
    · rw [hid] at hkey ⊢
      rcases hok m v hm haddr hkey with hentry | ⟨i, hi, hholds⟩
      · refine ⟨m, ?_, mapping, by rw [hself, JsMap.get?_set_self], hentry⟩
        rw [Tracked, hacts.connections]
        exact JsMap.mem_values_of_get? hm
      · exact ⟨i, hkeep i _ v (Or.inl hi) hholds⟩
    · obtain ⟨i, hholds⟩ := hall key v hkey
      exact ⟨i, hkeep i key v (Or.inr hid) hholds⟩

theorem allLive_removeMapping (h : WF p w) (hall : AllLive w) (id : String) :
    AllLive (step p w (.removeMapping id)) := by
  rcases removeMapping_cases p w id with ⟨-, e, he⟩ | ⟨m, mp, hm, htr, -, he⟩ <;> rw [step, he]
  · exact hall
  · have hacts := (h.ok_removeMapping (h.lt_of_tracked htr) id mp.deviceAddress).acts
    have hself : ((dropItem p (w.setMappings m (·.delete id)) m mp.deviceAddress).objs m).mappings =
        (w.objs m).mappings.delete id := by
      rw [dropItem_objs, setMappings, update_objs_self]
    have hv : (dropItem p (w.setMappings m (·.delete id)) m mp.deviceAddress).currentValues =
        w.currentValues := by
      unfold dropItem
      split <;> rfl
    intro key v hkey
    change ((dropItem p (w.setMappings m (·.delete id)) m mp.deviceAddress).currentValues.delete
      id).get? key = some v at hkey
    rw [hv, JsMap.get?_delete] at hkey
    split_ifs at hkey with hne
    obtain ⟨i, htri, mp', hget, hentry⟩ := hall key v hkey
    refine ⟨i, ?_, mp', ?_, hentry⟩
    · change i ∈ (dropItem p (w.setMappings m (·.delete id)) m mp.deviceAddress).connections.values
      rw [hacts.connections]
      exact htri
    · change ((dropItem p (w.setMappings m (·.delete id)) m mp.deviceAddress).objs i).mappings.get?
        key = some mp'
      by_cases hi : i = m
      · rw [hi] at hget ⊢
        rw [hself, JsMap.get?_delete_of_ne _ hne, hget]
      · rw [hacts.objs i hi, hget]

theorem allLive_single (h : WF p w) (hall : AllLive w) {e : Event} (ha : actor w e = some m)
    (hok : KeepsLive p w e) : AllLive (step p w e) := by
  have hlt := h.actor_lt ha
  have hacts := h.ok_step ha
  cases e with
  | addMapping mapping => exact allLive_addMapping h hall hok
  | removeMapping id => exact allLive_removeMapping h hall id
  | connectReport c err =>
      obtain ⟨hc, hpending, rfl, hstep⟩ := actor_connectReport (p := p) ha
      have hfiles := files_onConnect (K := fun mp => connectFailed p err = true ∧
          mp ∈ (w.objs (w.clients c).owner).mappings.values ∧ w.currentValues.get? mp.id = none)
        (h.ok_reported hc err).wf ((h.ok_reported hc err).lt hlt) err (fun hf mp hmp hnone => by
          rw [reported_objs] at hmp
          rw [reported_currentValues] at hnone
          exact ⟨hf, hmp, hnone⟩)
      have hreported : Files (fun mp => connectFailed p err = true ∧
          mp ∈ (w.objs (w.clients c).owner).mappings.values ∧ w.currentValues.get? mp.id = none)
          (w.clients c).owner w (reported p w c err) :=
        .of_same (by rw [reported_objs]) (by rw [reported_objs]) (reported_currentValues w c err)
      rw [hstep] at hacts ⊢
      exact hall.files hacts (hreported.trans hfiles) fun mp hmp => hok _ ha hmp.1 mp hmp.2.1 hmp.2.2
  | readReport r result =>
      obtain ⟨read, hr, rfl⟩ := Option.map_eq_some_iff.mp ha
      obtain ⟨hanswered, hstep⟩ := h.ok_answered hr result
      have hfiles := files_onRead (hanswered.wf.obj read.obj) result
      have hreported : Files (Concerns w read result) read.obj w
          ((w.takeRead r).report (valueReports w read result)) := .of_same rfl rfl rfl
      rw [hstep] at hacts ⊢
      exact hall.files hacts (hreported.trans hfiles) fun mp hmp => hok read hr mp hmp
  | pollTick t =>
      obtain ⟨ms, ht⟩ := actor_tick ha
      have hstep : step p w (.pollTick t) = poll p w m := by
        simp only [Connector.step, onPollTick, ht]
      rw [hstep] at hacts ⊢
      exact hall.files (K := fun _ => False) hacts (files_poll (h.obj m)) fun mp hmp => hmp.elim
  | reconnectTick t => exact hall.calm (calm_reconnectTick h ha) hacts.acts.connections
  | _ => cases ha

theorem allLive_step (h : WF p w) (hall : AllLive w) {e : Event} (hok : KeepsLive p w e) :
    AllLive (step p w e) := by
  have hsingle : e.isSingle = true → AllLive (step p w e) := fun he => by
    cases ha : actor w e with
    | none =>
        rw [step_of_actor_none he ha]
        exact hall
    | some m => exact allLive_single h hall ha hok
  cases e with
  | addConnection config => exact allLive_addConnection h hall config
  | removeConnection id => exact allLive_removeConnection h hall hok
  | updateConnection config =>
      cases hm : w.connections.get? config.id with
      | none =>
          simp only [Connector.step, updateConnection, hm]
          exact allLive_addConnection h hall config
      | some m =>
          exact hall.calm (calm_updateConnection h hm) (h.ok_updateConnection hm).acts.connections
  | start => exact hall.calm (calm_start p w) h.start_connections
  | stop => exact hall.calm (calm_stop w) h.stop_connections
  | elapse n => exact hall
  | _ => exact hsingle rfl

/-- **Live values.** In every state of a run whose steps keep the entries live, each entry is that of
a mapping that a tracked connection holds. -/
theorem reach_live (p : Protocol) (es : List Event)
    (hok : Machine.Guarded (step p) (KeepsLive p) World.initial es) :
    ∀ key v, (reach p es).currentValues.get? key = some v →
      ∃ m, (reach p es).Tracked m ∧ ∃ mp ∈ ((reach p es).objs m).mappings.values, mp.id = key ∧
        v.nodeId = mp.nodeId ∧ v.deviceAddress = mp.deviceAddress ∧
        v.connectionId = mp.connectionId := by
  have hinv : WF p (reach p es) ∧ AllLive (reach p es) :=
    Machine.run_invariant (I := fun w => WF p w ∧ AllLive w)
      (fun _ e hk h => ⟨h.1.step e, allLive_step h.1 h.2 hk⟩) hok
      ⟨wf_initial p, fun key v hv => by cases hv⟩
  intro key v hv
  obtain ⟨m, htr, mp, hget, hentry⟩ := hinv.2 key v hv
  exact ⟨m, htr, mp, JsMap.mem_values_of_get? hget, ((hinv.1.obj m).mapping key mp hget).1,
    hentry.nodeId, hentry.address, hentry.connection⟩

/-- A connection with one mapping, one value of which is read. -/
def valueRun : List Event :=
  [.addConnection (sampleConnection .s7), .addMapping (sampleMapping "m1" "DB1,INT0"), .start,
    .connectReport 0 none, .readReport 0 (.items [("DB1,INT0", .num 7)])]

theorem reach_live_valueRun :
    Machine.Guarded (step .s7) (KeepsLive .s7) World.initial valueRun ∧
    ∀ key v, (reach .s7 valueRun).currentValues.get? key = some v →
      ∃ m, (reach .s7 valueRun).Tracked m ∧ ∃ mp ∈ ((reach .s7 valueRun).objs m).mappings.values,
        mp.id = key ∧ v.nodeId = mp.nodeId ∧ v.deviceAddress = mp.deviceAddress ∧
        v.connectionId = mp.connectionId := by
  have hlive : Machine.Guarded (step .s7) (KeepsLive .s7) World.initial valueRun := by
    refine ⟨trivial, fun m v _ _ hv => ?_, trivial, fun m _ hf => ?_, fun read hr mp hmp => ?_, trivial⟩
    · cases hv
    · exact absurd hf (by decide)
    · have hobj : read.obj = 0 ∧ read.cont.mappings = [] := by
        obtain rfl := Option.some.inj hr
        exact ⟨rfl, rfl⟩
      rw [Concerns, hobj.1, hobj.2] at hmp
      rw [hobj.1]
      exact (reach_wf .s7 [.addConnection (sampleConnection .s7),
        .addMapping (sampleMapping "m1" "DB1,INT0"), .start, .connectReport 0 none]).liveFor (by decide)
        (hmp.resolve_right fun hread => List.not_mem_nil hread.1).1
  exact ⟨hlive, reach_live .s7 valueRun hlive⟩

/-- When the connection is removed its value stays. -/
theorem removed_value_stays :
    ¬ ∀ key v, (reach .s7 (valueRun ++ [.removeConnection "c1"])).currentValues.get? key = some v →
      ∃ m, (reach .s7 (valueRun ++ [.removeConnection "c1"])).Tracked m ∧
        ∃ mp ∈ ((reach .s7 (valueRun ++ [.removeConnection "c1"])).objs m).mappings.values,
          mp.id = key ∧ v.nodeId = mp.nodeId ∧ v.deviceAddress = mp.deviceAddress ∧
          v.connectionId = mp.connectionId := by
  intro h
  have hsome : ((reach .s7 (valueRun ++ [.removeConnection "c1"])).currentValues.get? "m1").isSome := by
    decide
  obtain ⟨v, hv⟩ := Option.isSome_iff_exists.mp hsome
  obtain ⟨m, htr, -⟩ := h "m1" v hv
  have hnone : (reach .s7 (valueRun ++ [.removeConnection "c1"])).connections.values = [] := by decide
  rw [Tracked, hnone] at htr
  cases htr

end OpcuaLight.Connector
