import OpcuaLight.Connector.Provenance
import OpcuaLight.Connector.Timestamps
import OpcuaLight.Connector.Throwing

/-!
# What a callback shows

The value update callback is called in the middle of a handler. Every handler that caches values does
so before it calls back, and what it does afterwards cannot be seen from outside, so the last thing
that it shows is what it leaves (`Tells`).

* `Mute w w'` : code that neither caches nor calls back; `Unseen w w'` : nor changes the status.
* `Tells K w w'` : code that caches for mappings in `K`, and calls back for those that have a node.
-/

namespace OpcuaLight.Connector

open World

variable {p : Protocol} {w w' w'' : World} {m : ObjId} {K : Mapping → Prop}

/-! ## Code that calls nobody back -/

structure Mute (w w' : World) : Prop where
  callbacks : w'.callbacks = w.callbacks
  currentValues : w'.currentValues = w.currentValues
  mappings : ∀ i, (w'.objs i).mappings = (w.objs i).mappings

theorem Mute.refl (w : World) : Mute w w := ⟨rfl, rfl, fun _ => rfl⟩

theorem Mute.trans (h : Mute w w') (h' : Mute w' w'') : Mute w w'' :=
  ⟨by rw [h'.callbacks, h.callbacks], by rw [h'.currentValues, h.currentValues],
    fun i => by rw [h'.mappings, h.mappings]⟩

theorem mute_update (w : World) (m : ObjId) (f : Managed → Managed)
    (hf : (f (w.objs m)).mappings = (w.objs m).mappings) : Mute w (w.update m f) := by
  refine ⟨rfl, rfl, fun i => ?_⟩
  by_cases hi : i = m
  · rw [hi, update_objs_self, hf]
  · rw [update_objs_of_ne w f hi]

/-- Code that changes nothing of what `getStatus` and `getCurrentValues` return. -/
structure Unseen (w w' : World) : Prop extends Mute w w' where
  connections : w'.connections = w.connections
  status : ∀ i, (w'.objs i).status = (w.objs i).status

namespace Unseen

theorem refl (w : World) : Unseen w w := ⟨.refl w, rfl, fun _ => rfl⟩

theorem trans (h : Unseen w w') (h' : Unseen w' w'') : Unseen w w'' :=
  ⟨h.toMute.trans h'.toMute, by rw [h'.connections, h.connections],
    fun i => by rw [h'.status, h.status]⟩

theorem of_objs (hc : w'.callbacks = w.callbacks) (hv : w'.currentValues = w.currentValues)
    (ht : w'.connections = w.connections) (ho : w'.objs = w.objs) : Unseen w w' :=
  ⟨⟨hc, hv, fun i => by rw [ho]⟩, ht, fun i => by rw [ho]⟩

theorem getStatus (h : Unseen w w') : w'.getStatus = w.getStatus := by
  simp only [World.getStatus, h.connections, h.status]

theorem snapshot (h : Unseen w w') : w'.snapshot = w.snapshot := by
  rw [World.snapshot, World.snapshot, h.getStatus, getCurrentValues, getCurrentValues,
    h.currentValues]

theorem foldl {f : World → ObjId → World} (hf : ∀ w m, Unseen w (f w m)) (l : List ObjId)
    (w : World) : Unseen w (l.foldl f w) :=
  Machine.run_related (refl w) trans fun w a _ _ => hf w a

end Unseen

theorem unseen_update (w : World) (m : ObjId) (f : Managed → Managed)
    (hmap : (f (w.objs m)).mappings = (w.objs m).mappings)
    (hstatus : (f (w.objs m)).status = (w.objs m).status) : Unseen w (w.update m f) := by
  refine ⟨mute_update w m f hmap, rfl, fun i => ?_⟩
  by_cases hi : i = m
  · rw [hi, update_objs_self, hstatus]
  · rw [update_objs_of_ne w f hi]

theorem unseen_setHandle (w : World) (m : ObjId) (k : TimerKind) (t : Option TimerId) :
    Unseen w (w.update m (·.setHandle k t)) := 
  unseen_update w m _ (Managed.setHandle_mappings _ k t) (by cases k <;> rfl)

theorem unseen_disarm (k : TimerKind) (w : World) (m : ObjId) : Unseen w (disarm k w m) := by
  unfold disarm
  split
  · exact .refl w
  · rename_i t _
    have h1 : Unseen w (w.clearTimer t) := .of_objs rfl rfl rfl rfl
    exact h1.trans (unseen_setHandle _ m k none)

theorem unseen_arm (k : TimerKind) (w : World) (m : ObjId) : Unseen w (arm k w m) := by
  have h1 : Unseen w (w.armTimer ⟨k, m, (w.objs m).intervalMs k⟩) := .of_objs rfl rfl rfl rfl
  have h2 := h1.trans (unseen_setHandle _ m k (some w.nextTimer))
  exact h2.trans (.of_objs rfl rfl rfl rfl)

theorem unseen_scheduleReconnect (w : World) (m : ObjId) : Unseen w (w.scheduleReconnect m) :=
  (unseen_disarm .reconnect w m).trans (unseen_arm .reconnect _ m)

theorem unseen_setPollInProgress (w : World) (m : ObjId) (b : Bool) :
    Unseen w (w.setPollInProgress m b) := unseen_update w m _ rfl rfl

theorem unseen_initiateConnection (p : Protocol) (w : World) (m : ObjId) :
    Unseen w (initiateConnection p w m) := by
  have h : ∀ args, Unseen w (connectWith args w m) := fun args => by
    unfold connectWith
    split_ifs
    · exact .refl w
    · have h1 : Unseen w (w.setConnecting m true) := unseen_update w m _ rfl rfl
      have h2 : Unseen (w.setConnecting m true)
          ((w.setConnecting m true).createClient m (args (w.objs m))) := .of_objs rfl rfl rfl rfl
      have h3 := (h1.trans h2).trans
        (unseen_update _ m ({ · with client := some w.nextClient }) rfl rfl)
      exact h3.trans (.of_objs rfl rfl rfl rfl)
  cases p <;> exact h _

/-- Starting does not show: a connection that is being made is still disconnected. -/
theorem unseen_start (p : Protocol) (w : World) : Unseen w (start p w) := by
  unfold start
  split_ifs
  · exact .refl w
  · have h1 : Unseen w { w with running := true } := .of_objs rfl rfl rfl rfl
    refine h1.trans (Unseen.foldl (fun w m => ?_) _ _)
    unfold startOne
    split_ifs
    · exact unseen_initiateConnection p w m
    · exact .refl w

/-- A poll of mappings whose addresses parse asks, and does no more. -/
theorem unseen_poll (h : Local p w m) : Unseen w (poll p w m) := by
  have hread : ∀ w read, Unseen w (w.issueRead read) := fun _ _ => .of_objs rfl rfl rfl rfl
  have hflag : ∀ read, Unseen w ((w.setPollInProgress m true).issueRead read) := fun read =>
    (unseen_setPollInProgress w m true).trans (hread _ read)
  cases p <;> simp only [poll, S7.poll, Modbus.poll, EthernetIp.poll, Pccc.poll, EthernetIp.pollTags,
    Pccc.pollAddresses]
  · split_ifs <;> first | exact .refl w | exact hread _ _
  · split_ifs <;> try exact .refl w
    have hparses := h.parses none
    cases hl : (w.objs m).mappings.after none with
    | nil => exact .refl w
    | cons s rest =>
        rw [hl] at hparses
        obtain ⟨a, ha⟩ := hparses s List.mem_cons_self
        simp only [Modbus.readNext, ha]
        exact hread _ _
  all_goals split_ifs <;> first | exact .refl w | exact hflag _

theorem unseen_startPolling (h : Local p w m) : Unseen w (startPollingWith (poll p) w m) := by
  unfold startPollingWith
  split_ifs
  · exact .refl w
  · exact (unseen_poll h).trans (unseen_arm .polling _ m)

/-! ## Code that caches -/

/-- Code that caches for mappings in `K` alone, and calls nobody back. -/
structure Caches (K : Mapping → Prop) (w w' : World) : Prop where
  callbacks : w'.callbacks = w.callbacks
  changed : ∀ key, w'.currentValues.get? key ≠ w.currentValues.get? key → ∃ mp, K mp ∧ mp.id = key

theorem Mute.caches (h : Mute w w') : Caches K w w' :=
  ⟨h.callbacks, fun key hkey => absurd (by rw [h.currentValues]) hkey⟩

theorem Caches.trans (h : Caches K w w') (h' : Caches K w' w'') : Caches K w w'' where
  callbacks := by rw [h'.callbacks, h.callbacks]
  changed := fun key hkey => by
    by_cases heq : w'.currentValues.get? key = w.currentValues.get? key
    · rw [← heq] at hkey
      exact h'.changed key hkey
    · exact h.changed key heq

theorem caches_foldl {α : Type*} {f : World → α → World} {l : List α}
    (hf : ∀ w a, a ∈ l → Caches K w (f w a)) (w : World) : Caches K w (l.foldl f w) :=
  Machine.run_related (Mute.refl w).caches Caches.trans fun w a ha _ => hf w a ha

theorem caches_cacheValue (w : World) (m : ObjId) {mp : Mapping} (hK : K mp) (v : CurrentValue) :
    Caches K w (w.cacheValue m mp.id v) := by
  refine ⟨rfl, fun key hkey => ⟨mp, hK, ?_⟩⟩
  by_contra hne
  exact hkey (JsMap.get?_set_of_ne w.currentValues v fun h => hne h.symm)

theorem caches_cacheQuality (w : World) (m : ObjId) (q : Quality) {mp : Mapping} (hK : K mp) :
    Caches K w (cacheQuality m q w mp) := by
  unfold cacheQuality
  split
  · exact caches_cacheValue w m hK _
  · split_ifs
    · exact caches_cacheValue w m hK _
    · exact (Mute.refl w).caches

/-! ## Handlers -/

/-- Code that caches for mappings in `K` and then calls back: for each entry that changes, and under
`C`, if its mapping has a node. What it shows last is what it leaves. -/
def Tells (K : Mapping → Prop) (C : Prop) (w w' : World) : Prop :=
  ∃ seen, w'.callbacks = w.callbacks ++ seen ∧ (seen = [] ∨ seen.getLast? = some w'.snapshot) ∧
    (C → seen ≠ []) ∧ ∀ key, w'.currentValues.get? key ≠ w.currentValues.get? key →
      ∃ mp, K mp ∧ mp.id = key ∧ (Js.truthyString mp.nodeId = true → seen ≠ [])

variable {K' : Mapping → Prop} {C : Prop}

theorem Mute.tells (h : Mute w w') (hC : ¬ C) : Tells K C w w' :=
  ⟨[], by rw [h.callbacks, List.append_nil], Or.inl rfl, fun hc => absurd hc hC,
    fun key hkey => absurd (by rw [h.currentValues]) hkey⟩

theorem Mute.trans_tells (h : Mute w w') (h' : Tells K C w' w'') : Tells K C w w'' := by
  obtain ⟨seen, hseen, hlast, hC, hchanged⟩ := h'
  rw [h.callbacks] at hseen
  rw [h.currentValues] at hchanged
  exact ⟨seen, hseen, hlast, hC, hchanged⟩

theorem Tells.unseen (h : Tells K C w w') (h' : Unseen w' w'') : Tells K C w w'' := by
  obtain ⟨seen, hseen, hlast, hC, hchanged⟩ := h
  rw [← h'.callbacks] at hseen
  rw [← h'.snapshot] at hlast
  rw [← h'.currentValues] at hchanged
  exact ⟨seen, hseen, hlast, hC, hchanged⟩

theorem Tells.mono (h : Tells K C w w') (hK : ∀ mp, K mp → K' mp) : Tells K' C w w' := by
  obtain ⟨seen, hseen, hlast, hC, hchanged⟩ := h
  refine ⟨seen, hseen, hlast, hC, fun key hkey => ?_⟩
  obtain ⟨mp, hmp, hid, hnode⟩ := hchanged key hkey
  exact ⟨mp, hK mp hmp, hid, hnode⟩

theorem Tells.imp (h : Tells K C w w') {C' : Prop} (hC : C' → C) : Tells K C' w w' := by
  obtain ⟨seen, hseen, hlast, hseenC, hchanged⟩ := h
  exact ⟨seen, hseen, hlast, fun hc => hseenC (hC hc), hchanged⟩

/-- Caching, and then a callback with updates for the mappings that have a node. -/
theorem Caches.tells (h : Caches K w w') (m : ObjId) {updates : List ValueUpdate}
    (hnode : ∀ mp, K mp → Js.truthyString mp.nodeId = true → updates ≠ [])
    (hC : C → updates ≠ []) : Tells K C w (w'.emitValueUpdates m updates) := by
  unfold emitValueUpdates
  split_ifs with hnil
  · refine ⟨[], by rw [h.callbacks, List.append_nil], Or.inl rfl, fun hc => absurd hnil (hC hc),
      fun key hkey => ?_⟩
    obtain ⟨mp, hmp, hid⟩ := h.changed key hkey
    exact ⟨mp, hmp, hid, fun htruthy => absurd hnil (hnode mp hmp htruthy)⟩
  · refine ⟨[w'.snapshot], ?_, Or.inr rfl, fun _ => List.cons_ne_nil _ _, fun key hkey => ?_⟩
    · rw [← h.callbacks]
      rfl
    · obtain ⟨mp, hmp, hid⟩ := h.changed key hkey
      exact ⟨mp, hmp, hid, fun _ => List.cons_ne_nil _ _⟩

theorem qualityUpdates_ne_nil {q : Quality} {now : Nat} {mappings : List Mapping} {mp : Mapping}
    (hmp : mp ∈ mappings) (hnode : Js.truthyString mp.nodeId = true) :
    qualityUpdates q now mappings ≠ [] := by
  rw [qualityUpdates, Ne, List.map_eq_nil_iff]
  exact List.ne_nil_of_mem (List.mem_filter.mpr ⟨hmp, hnode⟩)

theorem answerUpdates_ne_nil {now : Nat} {answers : List (Mapping × Answer)} {a : Mapping × Answer}
    (ha : a ∈ answers) (hnode : Js.truthyString a.1.nodeId = true) :
    answerUpdates now answers ≠ [] := by
  rw [answerUpdates, Ne, List.map_eq_nil_iff]
  exact List.ne_nil_of_mem (List.mem_filter.mpr ⟨ha, hnode⟩)

/-- A mapping that the object holds. -/
def HeldBy (w : World) (m : ObjId) (mp : Mapping) : Prop := mp ∈ (w.objs m).mappings.values

/-- A mapping that the object holds has a node. -/
def HoldsNode (w : World) (m : ObjId) : Prop :=
  ∃ mp, HeldBy w m mp ∧ Js.truthyString mp.nodeId = true

theorem Mute.tells_quality (h : Mute w w') (m : ObjId) (q : Quality) :
    Tells (HeldBy w m) (HoldsNode w m) w (w'.emitQualityUpdate m q) := by
  refine h.trans_tells ?_
  unfold HoldsNode HeldBy
  rw [← h.mappings]
  exact (caches_foldl (fun w _ hmp => caches_cacheQuality w m q hmp) w').tells m
    (fun _ hmp hnode => qualityUpdates_ne_nil hmp hnode)
    fun ⟨_, hmp, hnode⟩ => qualityUpdates_ne_nil hmp hnode

theorem tells_deliver (w : World) (m : ObjId) (answers : List (Mapping × Answer)) :
    Tells (fun mp => ∃ a ∈ answers, a.1 = mp) False w (w.deliver m answers) := by
  refine (caches_foldl (fun w a ha => ?_) w).tells m ?_ False.elim
  · exact caches_cacheValue w m (K := fun mp => ∃ a ∈ answers, a.1 = mp) ⟨a, ha, rfl⟩ _
  · rintro mp ⟨a, ha, rfl⟩ hnode
    exact answerUpdates_ne_nil ha hnode

theorem Mute.tells_error (h : Mute w w') (m : ObjId) (err : JsError) :
    Tells (HeldBy w m) (HoldsNode w m) w (w'.handleConnectionError m err) := by
  have h1 := (h.trans (mute_update w' m ({ · with state := stateAfterError (w'.objs m).state }) rfl)).trans
    (mute_update _ m ({ · with errorMessage := some (errorText err) }) rfl)
  have h2 := (h1.trans (unseen_disarm .polling _ m).toMute).tells_quality m .bad
  unfold handleConnectionError
  dsimp only
  split_ifs
  · exact h2.unseen (unseen_scheduleReconnect _ m)
  · exact h2

/-! ## Answers -/

/-- The poll goes on, with a read that has collected an update for each entry that has changed, and
under `C`, if its mapping has a node. -/
def Carries (K : Mapping → Prop) (C : Prop) (w w' : World) : Prop :=
  w.nextRead < w'.nextRead ∧ ∃ read, w'.reads w.nextRead = some read ∧
    (C → read.cont.updates ≠ []) ∧ ∀ key, w'.currentValues.get? key ≠ w.currentValues.get? key →
      ∃ mp, K mp ∧ mp.id = key ∧ (Js.truthyString mp.nodeId = true → read.cont.updates ≠ [])

theorem Carries.mono (h : Carries K C w w') (hK : ∀ mp, K mp → K' mp) : Carries K' C w w' := by
  obtain ⟨hlt, read, hread, hC, hchanged⟩ := h
  refine ⟨hlt, read, hread, hC, fun key hkey => ?_⟩
  obtain ⟨mp, hmp, hid, hnode⟩ := hchanged key hkey
  exact ⟨mp, hK mp hmp, hid, hnode⟩

theorem Carries.imp (h : Carries K C w w') {C' : Prop} (hC : C' → C) : Carries K C' w w' := by
  obtain ⟨hlt, read, hread, hcollected, hchanged⟩ := h
  exact ⟨hlt, read, hread, fun hc => hcollected (hC hc), hchanged⟩

/-- A Modbus poll that ends calls back with what it has collected. -/
theorem tells_readNext_nil (h : Caches K w w') (m : ObjId) {updates : List ValueUpdate}
    (hnode : ∀ mp, K mp → Js.truthyString mp.nodeId = true → updates ≠ []) :
    Tells K (updates ≠ []) w (Modbus.readNext w' m updates []) := by
  unfold Modbus.readNext
  split_ifs with hnil
  · have h1 := h.tells (C := updates ≠ []) m hnode id
    rw [emitValueUpdates, if_pos hnil] at h1
    exact h1
  · exact (h.trans (mute_update w' m _ rfl).caches).tells m hnode id

theorem carries_readNext_cons (h : Caches K w w') (hnext : w'.nextRead = w.nextRead)
    {updates : List ValueUpdate} {s : Nat × String × Mapping} {rest : List (Nat × String × Mapping)}
    (hparse : ∃ a, parseDeviceAddress s.2.2.deviceAddress = .ok a)
    (hnode : ∀ mp, K mp → Js.truthyString mp.nodeId = true → updates ≠ []) :
    Carries K (updates ≠ []) w (Modbus.readNext w' m updates (s :: rest)) := by
  obtain ⟨a, ha⟩ := hparse
  simp only [Modbus.readNext, ha]
  refine ⟨?_, ⟨m, (w'.objs m).client, .address s.1 s.2.2 a updates⟩, ?_, id, fun key hkey => ?_⟩
  · rw [← hnext]
    exact Nat.lt_succ_self _
  · rw [← hnext]
    exact Function.update_self _ _ _
  · obtain ⟨mp, hmp, hid⟩ := h.changed key hkey
    exact ⟨mp, hmp, hid, hnode mp hmp⟩

/-- The rest of a Modbus poll. -/
theorem readNext_told (h : Caches K w w') (hnext : w'.nextRead = w.nextRead)
    (hl : Local .modbusTcp w' m) (stamp : Nat) (updates : List ValueUpdate)
    (hnode : ∀ mp, K mp → Js.truthyString mp.nodeId = true → updates ≠ []) :
    (w'.objs m).mappings.after (some stamp) = [] ∧ Tells K (updates ≠ []) w
        (Modbus.readNext w' m updates ((w'.objs m).mappings.after (some stamp))) ∨
    (w'.objs m).mappings.after (some stamp) ≠ [] ∧ Carries K (updates ≠ []) w
        (Modbus.readNext w' m updates ((w'.objs m).mappings.after (some stamp))) := by
  have hparses := hl.parses (some stamp)
  cases hslots : (w'.objs m).mappings.after (some stamp) with
  | nil => exact Or.inl ⟨rfl, tells_readNext_nil h m hnode⟩
  | cons s rest =>
      rw [hslots] at hparses
      exact Or.inr ⟨List.cons_ne_nil s rest,
        carries_readNext_cons h hnext (hparses s List.mem_cons_self) hnode⟩

/-- The mappings that the handler of a read's answer may cache for. -/
def Read.Concerned (read : Read) (w : World) (mp : Mapping) : Prop :=
  HeldBy w read.obj mp ∨ mp ∈ read.cont.mappings

/-- A Modbus poll that has collected updates gets past the answer: it is none, or one that ends the
connection, in the other cases. -/
def PassesCollected (p : Protocol) (read : Read) (result : ReadResult) : Prop :=
  p = .modbusTcp ∧ read.cont.updates ≠ [] ∧ match read.cont, result with
    | .address .., .data _ => True
    | .address .., .failed e => read.client = none ∨ Modbus.isConnectionError e = false
    | _, _ => False

/-- An answer's handler tells what it has cached, or the poll carries it on. -/
theorem onRead_told {read : Read} (h : Local p w read.obj) (result : ReadResult) :
    Tells (read.Concerned w) (PassesCollected p read result) w (onRead p w read result) ∨
      Carries (read.Concerned w) (PassesCollected p read result) w (onRead p w read result) := by
  have hheld : ∀ mp, HeldBy w read.obj mp → read.Concerned w mp := fun _ => Or.inl
  have hpoll : Mute w (w.setLastPollAt read.obj) := mute_update w _ _ rfl
  have hclear : Mute w (w.setPollInProgress read.obj false) := mute_update w _ _ rfl
  -- the rest of a poll that has cached nothing in this step
  have hrest : ∀ stamp updates, p = .modbusTcp → ∀ C : Prop, (C → updates ≠ []) →
      Tells (read.Concerned w) C w
        (Modbus.readNext w read.obj updates ((w.objs read.obj).mappings.after (some stamp))) ∨
      Carries (read.Concerned w) C w
        (Modbus.readNext w read.obj updates ((w.objs read.obj).mappings.after (some stamp))) := by
    rintro stamp updates rfl C hC
    rcases readNext_told (K := fun _ => False) (Mute.refl w).caches rfl h stamp updates
      (fun _ hf => hf.elim) with ⟨-, htold⟩ | ⟨-, hgo⟩
    · exact Or.inl ((htold.mono fun _ hf => hf.elim).imp hC)
    · exact Or.inr ((hgo.mono fun _ hf => hf.elim).imp hC)
  have hhandling := handling_onRead p w read result
  generalize onRead p w read result = w' at hhandling ⊢
  cases hhandling with
  | items m client values =>
      refine Or.inl (((hpoll.trans_tells (tells_deliver _ m _)).mono ?_).imp fun hpass => ?_)
      · rintro mp ⟨a, ha, rfl⟩
        exact hheld _ (returned_s7 "" 0 0 ha).1
      · cases hpass.1
  | itemsLost m =>
      exact Or.inl ((((Mute.refl w).tells_error m _).mono hheld).imp fun hpass => by cases hpass.1)
  | unasked m stamp mapping parsed updates => exact hrest stamp updates rfl _ fun hpass => hpass.2.1
  | data m c stamp mapping parsed updates data =>
      have hans : Caches (· = mapping) w
          (cacheAnswer m w (mapping, ⟨Modbus.valueOf parsed data, .good⟩)) :=
        caches_cacheValue w m (K := (· = mapping)) (Eq.refl mapping) _
      have hlocal : Local .modbusTcp (cacheAnswer m w (mapping, ⟨Modbus.valueOf parsed data, .good⟩))
          m := ⟨h.client, h.armed, h.timer, h.mapping⟩
      have hmapping : ∀ mp, mp = mapping →
          Read.Concerned ⟨m, some c, .address stamp mapping parsed updates⟩ w mp :=
        fun mp hmp => Or.inr (List.mem_singleton.mpr hmp)
      have hcollected : ∀ {news : List ValueUpdate}, updates ≠ [] → updates ++ news ≠ [] :=
        fun hne hnil => hne (List.append_eq_nil_iff.mp hnil).1
      have hnode : ∀ mp, mp = mapping → Js.truthyString mp.nodeId = true → updates ++
          answerUpdates w.now [(mapping, ⟨Modbus.valueOf parsed data, .good⟩)] ≠ [] := by
        rintro mp rfl htruthy hnil
        exact answerUpdates_ne_nil (List.mem_singleton_self _) htruthy
          (List.append_eq_nil_iff.mp hnil).2
      rcases readNext_told hans rfl hlocal stamp _ hnode with ⟨-, htold⟩ | ⟨-, hgo⟩
      · exact Or.inl ((htold.mono hmapping).imp fun hpass => hcollected hpass.2.1)
      · exact Or.inr ((hgo.mono hmapping).imp fun hpass => hcollected hpass.2.1)
  | dataLost m c stamp mapping parsed updates e he =>
      refine Or.inl ((((Mute.refl w).tells_error m _).mono hheld).imp fun hpass => ?_)
      rcases hpass.2.2 with hnone | hno
      · cases hnone
      · rw [he] at hno
        cases hno
  | dataFailed m c stamp mapping parsed updates => exact hrest stamp updates rfl _ fun hpass => hpass.2.1
  | tags m client mappings values =>
      refine Or.inl ((((hpoll.trans_tells (tells_deliver _ m _)).unseen
        (unseen_setPollInProgress _ m false)).mono ?_).imp fun hpass => ?_)
      · rintro mp ⟨a, ha, rfl⟩
        exact Or.inr (returned_ethernetIp "" 0 0 ha).1
      · cases hpass.1
  | tagsLost m => exact Or.inl (((hclear.tells_error m _).mono hheld).imp fun hpass => by cases hpass.1)
  | tagsFailed m => exact Or.inl (((hclear.tells_quality m .bad).mono hheld).imp fun hpass => by cases hpass.1)
  | clientGone => exact Or.inl (hclear.tells fun hpass => by cases hpass.1)
  | allBad m => exact Or.inl (((hclear.tells_error m _).mono hheld).imp fun hpass => by cases hpass.1)
  | found m =>
      refine Or.inl ((((hclear.trans (mute_update _ m _ rfl)).trans_tells (tells_deliver _ m _)).mono ?_).imp
        fun hpass => by cases hpass.1)
      rintro mp ⟨a, ha, rfl⟩
      exact hheld _ (returned_pccc "" 0 0 ha).1
  | dropped p read result hdropped =>
      refine Or.inl ((Mute.refl w).tells ?_)
      rintro ⟨rfl, -, hpass⟩
      obtain ⟨m, client, cont⟩ := read
      split at hpass <;> first
        | exact hpass.elim
        | cases ‹cont = _›; cases hdropped

/-! ## Connects -/

theorem mute_registerMappings (p : Protocol) (w : World) (m : ObjId) (c : ClientId) :
    Mute w (registerMappings p w m c) := by
  cases p with
  | s7 =>
      simp only [registerMappings]
      split_ifs <;> exact ⟨rfl, rfl, fun _ => rfl⟩
  | _ => exact .refl w

/-- What a success does before it changes the quality. -/
theorem mute_registered (p : Protocol) (w : World) (m : ObjId) (c : ClientId) :
    Mute w (registerMappings p (((w.setConnecting m false).setState m .connected).setErrorMessage m none)
      m c) := by
  have h1 := ((mute_update w m ({ · with connecting := false }) rfl).trans
    (mute_update _ m ({ · with state := .connected }) rfl)).trans
    (mute_update _ m ({ · with errorMessage := none }) rfl)
  exact h1.trans (mute_registerMappings p _ m c)

theorem tells_onConnect (h : WF p w) (hm : m < w.nextObj) (err : Option JsError) :
    Tells (HeldBy w m) False w (onConnect p w m err) := by
  have h1 := h.ok_setConnecting hm false
  have hmute : Mute w (w.setConnecting m false) := mute_update w m _ rfl
  rcases onConnect_cases p w m err with ⟨-, -, e⟩ | ⟨-, -, er, e⟩ | ⟨-, c, hc, e⟩ <;> rw [e]
  · exact hmute.tells not_false
  · exact (hmute.tells_error m er).imp False.elim
  · have h4 := h1.wf.ok_told (h1.lt hm) ((setConnecting_client w m false).trans hc)
    have htold := (mute_registered p w m c).tells_quality m .good
    exact (htold.unseen (unseen_startPolling (h4.wf.obj m))).imp False.elim

/-! ## Steps -/

/-- Where no mapping has a node, a change of quality is not told. -/
theorem callbacks_emitQualityUpdate (h : ¬ HoldsNode w m) (q : Quality) :
    (w.emitQualityUpdate m q).callbacks = w.callbacks := by
  have hnil : qualityUpdates q w.now (w.objs m).mappings.values = [] := by
    rw [qualityUpdates, List.map_eq_nil_iff, List.filter_eq_nil_iff]
    exact fun mp hmp htruthy => h ⟨mp, hmp, htruthy⟩
  have hcache : Caches (HeldBy w m) w ((w.objs m).mappings.values.foldl (cacheQuality m q) w) :=
    caches_foldl (fun w _ hmp => caches_cacheQuality w m q hmp) w
  rw [emitQualityUpdate, hnil, emitValueUpdates, if_pos rfl, hcache.callbacks]

/-- Of two changes of quality the second is told if the first was. -/
theorem Tells.trans_error (h : Tells (HeldBy w m) (HoldsNode w m) w w')
    (hmap : (w'.objs m).mappings = (w.objs m).mappings)
    (hsilent : ¬ HoldsNode w m → w'.callbacks = w.callbacks) (err : JsError) :
    Tells (HeldBy w m) False w (w'.handleConnectionError m err) := by
  have h' := (Mute.refl w').tells_error m err
  unfold HoldsNode HeldBy at h'
  rw [hmap] at h'
  obtain ⟨seen, hseen, hlast, -, hchanged⟩ := h
  obtain ⟨seen', hseen', hlast', hnode', hchanged'⟩ := h'
  have hkeys : ∀ key, (w'.handleConnectionError m err).currentValues.get? key ≠
      w.currentValues.get? key → ∃ mp, HeldBy w m mp ∧ mp.id = key := fun key hkey => by
    by_cases heq : w'.currentValues.get? key = w.currentValues.get? key
    · rw [← heq] at hkey
      obtain ⟨mp, hmp, hid, -⟩ := hchanged' key hkey
      exact ⟨mp, hmp, hid⟩
    · obtain ⟨mp, hmp, hid, -⟩ := hchanged key heq
      exact ⟨mp, hmp, hid⟩
  refine ⟨seen ++ seen', by rw [hseen', hseen, List.append_assoc], ?_, False.elim, fun key hkey => ?_⟩
  · by_cases hnode : HoldsNode w m
    · rw [List.getLast?_append_of_ne_nil _ (hnode' hnode)]
      exact Or.inr (hlast'.resolve_left (hnode' hnode))
    · have hnil : seen = [] := List.append_right_eq_self.mp (hseen.symm.trans (hsilent hnode))
      rw [hnil, List.nil_append]
      exact hlast'
  · obtain ⟨mp, hmp, hid⟩ := hkeys key hkey
    exact ⟨mp, hmp, hid, fun htruthy => List.append_ne_nil_of_right_ne_nil _ (hnode' ⟨mp, hmp, htruthy⟩)⟩

theorem unseen_pollThrowing (h : Local p w m) : Unseen w (pollThrowing p w m).1 := by
  cases p with
  | modbusTcp => exact unseen_poll h
  | s7 => exact .refl w
  | _ =>
      simp only [pollThrowing]
      split_ifs
      · exact unseen_setPollInProgress w m true
      · exact .refl w

theorem unseen_startPollingThrowing (h : Local p w m) : Unseen w (startPollingThrowing p w m).1 := by
  unfold startPollingThrowing
  split_ifs
  · exact .refl w
  · exact unseen_pollThrowing h
  · exact (unseen_pollThrowing h).trans (unseen_arm .polling _ m)

theorem tells_onConnectThrowing (h : WF p w) (hm : m < w.nextObj) (thrown : JsError)
    (err : Option JsError) : Tells (HeldBy w m) False w (onConnectThrowing p thrown w m err) := by
  unfold onConnectThrowing
  split
  · rename_i c _ hc
    have h1 := h.ok_setConnecting hm false
    have h4 := h1.wf.ok_told (h1.lt hm) ((setConnecting_client w m false).trans hc)
    have hbase := mute_registered p w m c
    have hpoll := unseen_startPollingThrowing (h4.wf.obj m)
    have htold := (hbase.tells_quality m .good).unseen hpoll
    dsimp only
    split
    · have hclear := hpoll.trans (unseen_update _ m ({ · with connecting := false }) rfl rfl)
      refine ((hbase.tells_quality m .good).unseen hclear).trans_error ?_ (fun hnode => ?_) thrown
      · rw [hclear.mappings, emitQualityUpdate_objs, hbase.mappings]
      · rw [hclear.callbacks, callbacks_emitQualityUpdate, hbase.callbacks]
        unfold HoldsNode HeldBy
        rw [hbase.mappings]
        exact hnode
    · exact htold.imp False.elim
  · exact tells_onConnect h hm err

/-- What the connector is called back with: answers and timers. -/
def Event.isCallback : Event → Bool
  | .connectReport .. | .readReport .. | .pollTick _ | .reconnectTick _ => true
  | _ => false

def Turn.event : Turn → Event
  | .returns e => e
  | .throws e _ => e

/-- The mappings that the event's handler may cache for: those that its object holds, and those that
the read was made for. -/
def Event.Concerned (w : World) (e : Event) (mp : Mapping) : Prop :=
  (∃ m, actor w e = some m ∧ HeldBy w m mp) ∨
    ∃ r result read, e = .readReport r result ∧ w.reads r = some read ∧ mp ∈ read.cont.mappings

/-- The event is an answer that a Modbus poll gets past with updates that it has collected. -/
def Event.Passes (p : Protocol) (w : World) : Event → Prop
  | .readReport r result => ∃ read, w.reads r = some read ∧ PassesCollected p read result
  | _ => False

theorem Carries.of_mute (h : Mute w w') (hnext : w'.nextRead = w.nextRead) (h' : Carries K C w' w'') :
    Carries K C w w'' := by
  unfold Carries at *
  rw [hnext, h.currentValues] at h'
  exact h'

theorem mute_reported (p : Protocol) (w : World) (c : ClientId) (err : Option JsError) :
    Mute w (reported p w c err) := by
  unfold reported
  split_ifs <;> exact ⟨rfl, rfl, fun _ => rfl⟩

theorem mute_reconnect (h : WF p w) {t : TimerId} {ms : Int}
    (ht : w.timers t = some ⟨.reconnect, m, ms⟩) : Mute w (onReconnectTick p w t) := by
  have h1 := (unseen_disarm .reconnect w m).toMute
  have h2 : Mute (disarm .reconnect w m) ((disarm .reconnect w m).closeClient m) := by
    unfold closeClient
    split <;> exact ⟨rfl, rfl, fun _ => rfl⟩
  have h3 := ((h1.trans h2).trans (mute_update _ m ({ · with client := none }) rfl)).trans
    (mute_update _ m ({ · with state := .disconnected }) rfl)
  rw [onReconnectTick_eq h ht]
  split_ifs
  · exact h1
  · exact h3.trans (unseen_initiateConnection p _ m).toMute

theorem tells_of_actor_none {e : Event} (he : e.isCallback = true) (ha : actor w e = none) :
    Tells (e.Concerned w) (e.Passes p w) w (step p w e) := by
  have hsingle : e.isSingle = true := by
    cases e with
    | connectReport | readReport | pollTick | reconnectTick => rfl
    | _ => cases he
  rw [step_of_actor_none hsingle ha]
  refine (Mute.refl w).tells fun hpass => ?_
  cases e with
  | readReport r result =>
      obtain ⟨read, hr, -⟩ := hpass
      simp [actor, hr] at ha
  | _ => exact hpass

theorem step_told (h : WF p w) {e : Event} (he : e.isCallback = true) :
    Tells (e.Concerned w) (e.Passes p w) w (step p w e) ∨
      Carries (e.Concerned w) (e.Passes p w) w (step p w e) := by
  cases ha : actor w e with
  | none => exact Or.inl (tells_of_actor_none he ha)
  | some m =>
      cases e with
      | connectReport c err =>
          obtain ⟨hlt, -, rfl, hstep⟩ := actor_connectReport (p := p) ha
          have h1 := h.ok_reported hlt err
          have htold := (mute_reported p w c err).trans_tells
            (tells_onConnect h1.wf (h1.lt (h.owner c hlt)) err)
          rw [hstep]
          refine Or.inl ((htold.mono fun mp hmp => Or.inl ⟨_, ha, ?_⟩).imp id)
          rw [HeldBy, reported_objs] at hmp
          exact hmp
      | readReport r result =>
          obtain ⟨read, hr, rfl⟩ := Option.map_eq_some_iff.mp ha
          obtain ⟨hok, hstep⟩ := h.ok_answered hr result
          have hmute : Mute w ((w.takeRead r).report (valueReports w read result)) :=
            ⟨rfl, rfl, fun _ => rfl⟩
          have hK : ∀ mp, read.Concerned ((w.takeRead r).report (valueReports w read result)) mp →
              Event.Concerned w (.readReport r result) mp := fun mp hmp =>
            hmp.imp (fun hheld => ⟨_, ha, hheld⟩) fun hread => ⟨r, result, read, rfl, hr, hread⟩
          have hC : Event.Passes p w (.readReport r result) → PassesCollected p read result := by
            rintro ⟨read', hr', hpass⟩
            obtain rfl := Option.some.inj (hr.symm.trans hr')
            exact hpass
          rw [hstep]
          rcases onRead_told (hok.wf.obj read.obj) result with htold | hgo
          · exact Or.inl (((hmute.trans_tells htold).mono hK).imp hC)
          · exact Or.inr (((hgo.of_mute hmute rfl).mono hK).imp hC)
      | pollTick t =>
          obtain ⟨ms, ht⟩ := actor_tick ha
          simp only [Connector.step, onPollTick, ht]
          exact Or.inl ((unseen_poll (h.obj m)).toMute.tells not_false)
      | reconnectTick t =>
          obtain ⟨ms, ht⟩ := actor_tick ha
          exact Or.inl ((mute_reconnect h ht).tells not_false)
      | _ => cases he

/-- **Callbacks.** What a callback's handler has cached it tells, or the poll carries it on. -/
theorem turnStep_told (h : WF p w) (t : Turn) (ht : t.event.isCallback = true) :
    Tells (t.event.Concerned w) (t.event.Passes p w) w (Connector.turnStep p w t) ∨
      Carries (t.event.Concerned w) (t.event.Passes p w) w (Connector.turnStep p w t) := by
  cases t with
  | returns e => exact step_told h ht
  | throws e thrown =>
      cases ha : actor w e with
      | none =>
          rw [Connector.turnStep, throwStep_of_actor_none ha]
          exact step_told h ht
      | some m =>
          cases e with
          | connectReport c err =>
              obtain ⟨hlt, hpending, rfl, -⟩ := actor_connectReport (p := p) ha
              have h1 := h.ok_reported hlt err
              have htold := (mute_reported p w c err).trans_tells
                (tells_onConnectThrowing h1.wf (h1.lt (h.owner c hlt)) thrown err)
              simp only [Connector.turnStep, throwStep, if_pos (And.intro hlt hpending)]
              refine Or.inl ((htold.mono fun mp hmp => Or.inl ⟨_, ha, ?_⟩).imp id)
              rw [HeldBy, reported_objs] at hmp
              exact hmp
          | pollTick t =>
              obtain ⟨ms, ht'⟩ := actor_tick ha
              simp only [Connector.turnStep, throwStep, ht']
              exact Or.inl ((unseen_pollThrowing (h.obj m)).toMute.tells not_false)
          | _ => exact step_told h ht

end OpcuaLight.Connector
