import OpcuaLight.Connector.Control

/-!
# The order of updates

Every update is stamped when its value is read. S7, EtherNet/IP and PCCC emit it in the same step;
the Modbus poll collects the updates of its reads and emits them when the last one is answered, and
nothing keeps another poll of the connection, or a change of quality, from emitting in between.

* `EmitsNow w w'` : code that emits updates of the present alone, and whose reads have collected none.
* `EndsPoll w read result` : the answer is the last of its poll, which emits what it has collected.
-/

namespace OpcuaLight.Connector

open World

variable {p : Protocol} {w w' w'' : World} {m : ObjId}

/-! ## What is emitted -/

def Action.updates : Action → List ValueUpdate
  | .updatesEmitted updates => updates
  | _ => []

/-- The updates that were emitted, in their order. -/
def emitted (w : World) : List ValueUpdate := w.effects.flatMap (fun e => e.action.updates)

/-- The updates that the poll of a read has collected. -/
def Cont.updates : Cont → List ValueUpdate
  | .address _ _ _ updates => updates
  | _ => []

/-- Of two updates for a node the first is not the younger. -/
def InTime (u v : ValueUpdate) : Prop := u.nodeId = v.nodeId → u.timestamp ≤ v.timestamp

theorem emitted_act (w : World) (m : ObjId) (a : Action) :
    emitted (w.act m a) = emitted w ++ a.updates := by
  simp only [emitted, act, List.flatMap_append, List.flatMap_cons, List.flatMap_nil, List.append_nil]

theorem emitted_emitValueUpdates (w : World) (m : ObjId) (updates : List ValueUpdate) :
    emitted (w.emitValueUpdates m updates) = emitted w ++ updates := by
  unfold emitValueUpdates
  split_ifs with hnil
  · rw [hnil, List.append_nil]
  · exact emitted_act w m _

structure EmitsNow (w w' : World) : Prop where
  now : w'.now = w.now
  updates : ∃ us, emitted w' = emitted w ++ us ∧ ∀ u ∈ us, u.timestamp = w.now
  collected : ∀ r read, w'.reads r = some read → w.reads r = some read ∨ read.cont.updates = []

namespace EmitsNow

theorem of_same (hnow : w'.now = w.now) (he : w'.effects = w.effects) (hr : w'.reads = w.reads) :
    EmitsNow w w' where
  now := hnow
  updates := ⟨[], by simp only [emitted, he, List.append_nil], by simp⟩
  collected := fun r read h => Or.inl (by rw [← hr, h])

theorem refl (w : World) : EmitsNow w w := of_same rfl rfl rfl

theorem trans (h : EmitsNow w w') (h' : EmitsNow w' w'') : EmitsNow w w'' where
  now := h'.now.trans h.now
  updates := by
    have hnext := h'.updates
    rw [h.now] at hnext
    exact appended_trans h.updates hnext
  collected := fun r read hr => by
    rcases h'.collected r read hr with hr | hnil
    · exact h.collected r read hr
    · exact Or.inr hnil

theorem foldl {α : Type*} {f : World → α → World} (hf : ∀ w a, EmitsNow w (f w a)) (l : List α)
    (w : World) : EmitsNow w (l.foldl f w) :=
  Machine.run_related (refl w) trans fun w a _ _ => hf w a

end EmitsNow

theorem emitsNow_act (w : World) (m : ObjId) {a : Action} (ha : a.updates = []) :
    EmitsNow w (w.act m a) :=
  ⟨rfl, ⟨[], by rw [emitted_act, ha], by simp⟩, fun _ _ h => Or.inl h⟩

theorem emitsNow_emitValueUpdates (m : ObjId) {updates : List ValueUpdate}
    (h : ∀ u ∈ updates, u.timestamp = w.now) : EmitsNow w (w.emitValueUpdates m updates) := by
  refine ⟨?_, ⟨updates, emitted_emitValueUpdates w m updates, h⟩, fun r read hr => Or.inl ?_⟩
  all_goals
    unfold emitValueUpdates at *
    split_ifs at * <;> first | rfl | exact hr

theorem emitsNow_update (w : World) (m : ObjId) (f : Managed → Managed) :
    EmitsNow w (w.update m f) := .of_same rfl rfl rfl

theorem emitsNow_disarm (k : TimerKind) (w : World) (m : ObjId) : EmitsNow w (disarm k w m) := by
  unfold disarm
  split <;> exact .of_same rfl rfl rfl

theorem emitsNow_arm (k : TimerKind) (w : World) (m : ObjId) : EmitsNow w (arm k w m) := by
  have h1 : EmitsNow w ((w.armTimer ⟨k, m, (w.objs m).intervalMs k⟩).update m
      (·.setHandle k (some w.nextTimer))) := .of_same rfl rfl rfl
  exact h1.trans (emitsNow_act _ m rfl)

theorem emitsNow_dropClient (w : World) (m : ObjId) : EmitsNow w (w.dropClient m) := by
  unfold dropClient closeClient
  split <;> exact .of_same rfl rfl rfl

theorem emitsNow_disconnectAndCleanup (w : World) (m : ObjId) :
    EmitsNow w (w.disconnectAndCleanup m) := by
  have h1 := ((emitsNow_disarm .polling w m).trans (emitsNow_disarm .reconnect _ m)).trans
    (emitsNow_dropClient _ m)
  exact h1.trans (.of_same rfl rfl rfl)

theorem emitsNow_initiateConnection (p : Protocol) (w : World) (m : ObjId) :
    EmitsNow w (initiateConnection p w m) := by
  have h : ∀ args, EmitsNow w (connectWith args w m) := fun args => by
    unfold connectWith
    split_ifs
    · exact .refl w
    · have h1 : EmitsNow w (((w.setConnecting m true).createClient m (args (w.objs m))).setClient m
          (some w.nextClient)) := .of_same rfl rfl rfl
      exact h1.trans (emitsNow_act _ m rfl)
  cases p <;> exact h _

theorem emitsNow_cacheValue (w : World) (m : ObjId) (id : String) (v : CurrentValue) :
    EmitsNow w (w.cacheValue m id v) := by
  have h1 : EmitsNow w { w with currentValues := w.currentValues.set id v } := .of_same rfl rfl rfl
  exact h1.trans (emitsNow_act _ m rfl)

/-- A change of quality is stamped when it is emitted. -/
theorem emitsNow_emitQualityUpdate (w : World) (m : ObjId) (q : Quality) :
    EmitsNow w (w.emitQualityUpdate m q) := by
  have hcache : EmitsNow w ((w.objs m).mappings.values.foldl (cacheQuality m q) w) := by
    refine .foldl (fun w mp => ?_) _ w
    unfold cacheQuality
    split
    · exact emitsNow_cacheValue w m _ _
    · split_ifs
      · exact emitsNow_cacheValue w m _ _
      · exact .refl w
  refine hcache.trans (emitsNow_emitValueUpdates m fun u hu => ?_)
  obtain ⟨mp, -, rfl⟩ := List.mem_map.mp hu
  exact hcache.now.symm

/-- So are the values of a read that is answered all at once. -/
theorem emitsNow_deliver (w : World) (m : ObjId) (answers : List (Mapping × Answer)) :
    EmitsNow w (w.deliver m answers) := by
  have hcache : EmitsNow w (answers.foldl (cacheAnswer m) w) :=
    .foldl (fun w _ => emitsNow_cacheValue w m _ _) answers w
  refine hcache.trans (emitsNow_emitValueUpdates m fun u hu => ?_)
  obtain ⟨a, -, rfl⟩ := List.mem_map.mp hu
  exact hcache.now.symm

theorem emitsNow_handleConnectionError (w : World) (m : ObjId) (e : JsError) :
    EmitsNow w (w.handleConnectionError m e) := by
  have h1 : EmitsNow w ((w.setState m (stateAfterError (w.objs m).state)).setErrorMessage m
      (some (errorText e))) := .of_same rfl rfl rfl
  have h2 := (h1.trans (emitsNow_disarm .polling _ m)).trans (emitsNow_emitQualityUpdate _ m .bad)
  unfold handleConnectionError
  dsimp only
  split_ifs
  · exact (h2.trans (emitsNow_disarm .reconnect _ m)).trans (emitsNow_arm .reconnect _ m)
  · exact h2

/-! ## Polls and connects -/

theorem emitsNow_issueRead (w : World) {read : Read} (h : read.cont.updates = []) :
    EmitsNow w (w.issueRead read) := by
  refine ⟨rfl, ⟨[], by rw [List.append_nil]; rfl, by simp⟩, fun r x hx => ?_⟩
  rcases issueRead_reads hx with rfl | hx
  · exact Or.inr h
  · exact Or.inl hx

/-- A poll that starts has collected nothing. -/
theorem emitsNow_poll (h : Local p w m) : EmitsNow w (poll p w m) := by
  have hflag := emitsNow_update w m ({ · with pollInProgress := true })
  cases p with
  | s7 =>
      simp only [poll, S7.poll]
      split_ifs
      · exact .refl w
      · exact .refl w
      · exact emitsNow_issueRead w rfl
  | modbusTcp =>
      simp only [poll, Modbus.poll]
      split_ifs
      · exact .refl w
      · exact .refl w
      · cases hl : (w.objs m).mappings.after none with
        | nil =>
            simp only [Modbus.readNext, if_true]
            exact .refl w
        | cons s rest =>
            obtain ⟨a, ha⟩ := h.parses none s (by rw [hl]; exact List.mem_cons_self)
            simp only [Modbus.readNext, ha]
            exact emitsNow_issueRead w rfl
  | ethernetIp =>
      simp only [poll, EthernetIp.poll, EthernetIp.pollTags]
      split_ifs
      any_goals exact .refl w
      exact hflag.trans (emitsNow_issueRead _ rfl)
  | pccc =>
      simp only [poll, Pccc.poll, Pccc.pollAddresses]
      split_ifs
      any_goals exact .refl w
      exact hflag.trans (emitsNow_issueRead _ rfl)

theorem emitsNow_registerMappings (p : Protocol) (w : World) (m : ObjId) (c : ClientId) :
    EmitsNow w (registerMappings p w m c) := by
  cases p with
  | s7 =>
      simp only [registerMappings]
      split_ifs <;> exact .of_same rfl rfl rfl
  | _ => exact .refl w

theorem emitsNow_onConnect (h : WF p w) (hm : m < w.nextObj) (err : Option JsError) :
    EmitsNow w (onConnect p w m err) := by
  have h1 := h.ok_setConnecting hm false
  have e1 : EmitsNow w (w.setConnecting m false) := emitsNow_update w m _
  rcases onConnect_cases p w m err with ⟨-, -, e⟩ | ⟨-, -, er, e⟩ | ⟨-, c, hc, e⟩ <;> rw [e]
  · exact e1
  · exact e1.trans (emitsNow_handleConnectionError _ m er)
  · have h4 := h1.wf.ok_told (h1.lt hm) ((setConnecting_client w m false).trans hc)
    have e2 : EmitsNow w (((w.setConnecting m false).setState m .connected).setErrorMessage m none) :=
      .of_same rfl rfl rfl
    have e3 := (e2.trans (emitsNow_registerMappings p _ m c)).trans
      (emitsNow_emitQualityUpdate _ m .good)
    unfold onConnected startPollingWith
    dsimp only
    split_ifs
    · exact e3
    · exact (e3.trans (emitsNow_poll (h4.wf.obj m))).trans (emitsNow_arm .polling _ m)

/-! ## Answers -/

/-- The answer is the last of its Modbus poll: no mapping is left to read, and the error, if it is one,
does not end the connection. -/
def EndsPoll (w : World) (read : Read) (result : ReadResult) : Prop :=
  match read.cont, result with
  | .address stamp _ _ _, .data _ => (w.objs read.obj).mappings.after (some stamp) = []
  | .address stamp _ _ _, .failed e => (w.objs read.obj).mappings.after (some stamp) = [] ∧
      (read.client = none ∨ Modbus.isConnectionError e = false)
  | _, _ => False

/-- Code that emits updates of the present, and whose reads go on with what `collected` has and updates
of the present. -/
structure GoesOn (collected : List ValueUpdate) (w w' : World) : Prop where
  now : w'.now = w.now
  updates : ∃ us, emitted w' = emitted w ++ us ∧ ∀ u ∈ us, u.timestamp = w.now
  reads : ∀ r read, w'.reads r = some read → w.reads r = some read ∨ read.cont.updates = [] ∨
    ∃ news, read.cont.updates = collected ++ news ∧ ∀ u ∈ news, u.timestamp = w.now

theorem EmitsNow.goesOn (h : EmitsNow w w') (collected : List ValueUpdate) :
    GoesOn collected w w' :=
  ⟨h.now, h.updates, fun r read hr => (h.collected r read hr).imp_right Or.inl⟩

/-- What the end of a poll emits: the updates it has collected, and those of the present. -/
structure Flushes (collected : List ValueUpdate) (w w' : World) : Prop where
  now : w'.now = w.now
  updates : ∃ news, emitted w' = emitted w ++ (collected ++ news) ∧ ∀ u ∈ news, u.timestamp = w.now
  reads : w'.reads = w.reads

theorem flushes_readNext_nil {collected news : List ValueUpdate}
    (hnews : ∀ u ∈ news, u.timestamp = w.now) :
    Flushes collected w (Modbus.readNext w m (collected ++ news) []) := by
  unfold Modbus.readNext
  split_ifs with hnil
  · exact ⟨rfl, ⟨news, by rw [hnil, List.append_nil], hnews⟩, rfl⟩
  · have he := emitted_emitValueUpdates (w.setLastPollAt m) m (collected ++ news)
    refine ⟨?_, ⟨news, he, hnews⟩, ?_⟩
    all_goals
      unfold emitValueUpdates
      split_ifs
      all_goals rfl

theorem goesOn_readNext_cons {collected news : List ValueUpdate} {s : Nat × String × Mapping}
    {rest : List (Nat × String × Mapping)} (hparse : ∃ a, parseDeviceAddress s.2.2.deviceAddress = .ok a)
    (hnews : ∀ u ∈ news, u.timestamp = w.now) :
    GoesOn collected w (Modbus.readNext w m (collected ++ news) (s :: rest)) := by
  obtain ⟨a, ha⟩ := hparse
  simp only [Modbus.readNext, ha]
  refine ⟨rfl, ⟨[], by rw [List.append_nil]; rfl, by simp⟩, fun r x hx => ?_⟩
  rcases issueRead_reads hx with rfl | hx
  · exact Or.inr (Or.inr ⟨news, rfl, hnews⟩)
  · exact Or.inl hx

/-- The rest of a Modbus poll, after an answer that has added `news`. -/
theorem readNext_cases (h : Local .modbusTcp w m) (stamp : Nat) (collected : List ValueUpdate)
    {news : List ValueUpdate} (hnews : ∀ u ∈ news, u.timestamp = w.now) :
    (w.objs m).mappings.after (some stamp) = [] ∧ Flushes collected w (Modbus.readNext w m
        (collected ++ news) ((w.objs m).mappings.after (some stamp))) ∨
    (w.objs m).mappings.after (some stamp) ≠ [] ∧ GoesOn collected w (Modbus.readNext w m
        (collected ++ news) ((w.objs m).mappings.after (some stamp))) := by
  have hparses := h.parses (some stamp)
  cases hl : (w.objs m).mappings.after (some stamp) with
  | nil => exact Or.inl ⟨rfl, flushes_readNext_nil hnews⟩
  | cons s rest =>
      rw [hl] at hparses
      exact Or.inr ⟨List.cons_ne_nil s rest,
        goesOn_readNext_cons (hparses s List.mem_cons_self) hnews⟩

theorem EmitsNow.flushes {collected : List ValueUpdate} (h : EmitsNow w w')
    (hnone : emitted w' = emitted w) (hreads : w'.reads = w.reads) (h' : Flushes collected w' w'') :
    Flushes collected w w'' := by
  obtain ⟨news, he, hnews⟩ := h'.updates
  exact ⟨by rw [h'.now, h.now], ⟨news, by rw [he, hnone], by rw [← h.now]; exact hnews⟩,
    by rw [h'.reads, hreads]⟩

theorem EmitsNow.goesOn_trans {collected : List ValueUpdate} (h : EmitsNow w w')
    (h' : GoesOn collected w' w'') : GoesOn collected w w'' where
  now := by rw [h'.now, h.now]
  updates := by
    have hnext := h'.updates
    rw [h.now] at hnext
    exact appended_trans h.updates hnext
  reads := fun r read hr => by
    rcases h'.reads r read hr with hr | hr
    · exact (h.collected r read hr).imp_right Or.inl
    · rw [← h.now]
      exact Or.inr hr

/-- For a read that was asked of no client, the poll ends with the last mapping. -/
theorem endsPoll_unasked {stamp : Nat} {mapping : Mapping} {parsed : ParsedAddress} {updates : List ValueUpdate}
    {result : ReadResult} (h : answersRead .modbusTcp (.address stamp mapping parsed updates) result = true) :
    EndsPoll w ⟨m, none, .address stamp mapping parsed updates⟩ result ↔
      (w.objs m).mappings.after (some stamp) = [] := by
  cases result with
  | data data => exact Iff.rfl
  | failed e => exact and_iff_left (Or.inl rfl)
  | _ => cases h

/-- An answer ends its poll, which emits what it has collected, or goes on. -/
theorem onRead_cases_updates {read : Read} (h : Local p w read.obj) (result : ReadResult) :
    (p = .modbusTcp ∧ EndsPoll w read result) ∧
      Flushes read.cont.updates w (onRead p w read result) ∨
    ¬ (p = .modbusTcp ∧ EndsPoll w read result) ∧
      GoesOn read.cont.updates w (onRead p w read result) := by
  have hpoll : EmitsNow w (w.setLastPollAt read.obj) := emitsNow_update w _ _
  have hclear : EmitsNow w (w.setPollInProgress read.obj false) := emitsNow_update w _ _
  have hhandling := handling_onRead p w read result
  generalize onRead p w read result = w' at hhandling ⊢
  cases hhandling with
  | items m => exact Or.inr ⟨by simp, (hpoll.trans (emitsNow_deliver _ m _)).goesOn _⟩
  | itemsLost m => exact Or.inr ⟨by simp, (emitsNow_handleConnectionError w m _).goesOn _⟩
  | unasked m stamp mapping parsed updates result hresult =>
      have hrest := readNext_cases h stamp updates (List.forall_mem_nil _)
      have hends := @endsPoll_unasked w m stamp mapping parsed updates result hresult
      rw [List.append_nil] at hrest
      rcases hrest with ⟨hnil, hflush⟩ | ⟨hne, hgo⟩
      · exact Or.inl ⟨⟨rfl, hends.mpr hnil⟩, hflush⟩
      · exact Or.inr ⟨fun hend => hne (hends.mp hend.2), hgo⟩
  | data m c stamp mapping parsed updates data =>
      have hans : EmitsNow w (cacheAnswer m w (mapping, ⟨Modbus.valueOf parsed data, .good⟩)) :=
        emitsNow_cacheValue w m _ _
      have hlocal : Local .modbusTcp (cacheAnswer m w (mapping, ⟨Modbus.valueOf parsed data, .good⟩)) m :=
        ⟨h.client, h.armed, h.timer, h.mapping⟩
      have hnews : ∀ u ∈ answerUpdates w.now [(mapping, ⟨Modbus.valueOf parsed data, .good⟩)],
          u.timestamp = w.now := fun u hu => by
        obtain ⟨a, -, rfl⟩ := List.mem_map.mp hu
        rfl
      rcases readNext_cases hlocal stamp updates hnews with ⟨hnil, hflush⟩ | ⟨hne, hgo⟩
      · refine Or.inl ⟨⟨rfl, hnil⟩, hans.flushes ?_ rfl hflush⟩
        exact (emitted_act _ m _).trans (List.append_nil _)
      · exact Or.inr ⟨fun hends => hne hends.2, hans.goesOn_trans hgo⟩
  | dataLost m c stamp mapping parsed updates e he =>
      refine Or.inr ⟨fun hends => ?_, (emitsNow_handleConnectionError w m _).goesOn _⟩
      rcases hends.2.2 with hnone | hno
      · cases hnone
      · rw [he] at hno
        cases hno
  | dataFailed m c stamp mapping parsed updates e he =>
      have hrest := readNext_cases h stamp updates (List.forall_mem_nil _)
      rw [List.append_nil] at hrest
      rcases hrest with ⟨hnil, hflush⟩ | ⟨hne, hgo⟩
      · exact Or.inl ⟨⟨rfl, hnil, Or.inr he⟩, hflush⟩
      · exact Or.inr ⟨fun hends => hne hends.2.1, hgo⟩
  | tags m => exact Or.inr ⟨by simp, ((hpoll.trans (emitsNow_deliver _ m _)).trans
      (emitsNow_update _ m ({ · with pollInProgress := false }))).goesOn _⟩
  | tagsLost m => exact Or.inr ⟨by simp, (hclear.trans (emitsNow_handleConnectionError _ m _)).goesOn _⟩
  | tagsFailed m => exact Or.inr ⟨by simp, (hclear.trans (emitsNow_emitQualityUpdate _ m .bad)).goesOn _⟩
  | clientGone => exact Or.inr ⟨by simp, hclear.goesOn _⟩
  | allBad m => exact Or.inr ⟨by simp, (hclear.trans (emitsNow_handleConnectionError _ m _)).goesOn _⟩
  | found m =>
      exact Or.inr ⟨by simp, ((hclear.trans (emitsNow_update _ m _)).trans (emitsNow_deliver _ m _)).goesOn _⟩
  | dropped p read result hdropped =>
      refine Or.inr ⟨?_, (EmitsNow.refl w).goesOn _⟩
      rintro ⟨rfl, hends⟩
      obtain ⟨m, client, cont⟩ := read
      unfold EndsPoll at hends
      split at hends <;> first
        | exact hends.elim
        | cases ‹cont = _›; cases hdropped

/-! ## Steps -/

/-- What has been emitted or collected is not from the future, and a poll collects in order. -/
structure Stamped (w : World) : Prop where
  updates : ∀ u ∈ emitted w, u.timestamp ≤ w.now
  collected : ∀ r read, w.reads r = some read →
    read.cont.updates.Pairwise (fun u v => u.timestamp ≤ v.timestamp) ∧
      ∀ u ∈ read.cont.updates, u.timestamp ≤ w.now

theorem pairwise_append_now {us news : List ValueUpdate} {now : Nat}
    (hus : us.Pairwise (fun u v => u.timestamp ≤ v.timestamp)) (hle : ∀ u ∈ us, u.timestamp ≤ now)
    (hnews : ∀ u ∈ news, u.timestamp = now) :
    (us ++ news).Pairwise (fun u v => u.timestamp ≤ v.timestamp) := by
  refine List.pairwise_append.mpr ⟨hus, ?_, fun u hu v hv => ?_⟩
  · exact List.pairwise_of_forall_mem_list fun u hu v hv => by rw [hnews u hu, hnews v hv]
  · rw [hnews v hv]
    exact hle u hu

theorem GoesOn.stamped {collected : List ValueUpdate} (h : GoesOn collected w w') (hw : Stamped w)
    (hcol : collected.Pairwise (fun u v => u.timestamp ≤ v.timestamp) ∧
      ∀ u ∈ collected, u.timestamp ≤ w.now) : Stamped w' where
  updates := by
    obtain ⟨us, he, hus⟩ := h.updates
    intro u hu
    rw [he] at hu
    rw [h.now]
    rcases List.mem_append.mp hu with hu | hu
    · exact hw.updates u hu
    · exact (hus u hu).le
  collected := fun r read hr => by
    rw [h.now]
    rcases h.reads r read hr with hr | hnil | ⟨news, he, hnews⟩
    · exact hw.collected r read hr
    · rw [hnil]
      exact ⟨List.Pairwise.nil, by simp⟩
    · rw [he]
      refine ⟨pairwise_append_now hcol.1 hcol.2 hnews, fun u hu => ?_⟩
      rcases List.mem_append.mp hu with hu | hu
      · exact hcol.2 u hu
      · exact (hnews u hu).le

theorem EmitsNow.stamped (h : EmitsNow w w') (hw : Stamped w) : Stamped w' :=
  (h.goesOn []).stamped hw ⟨List.Pairwise.nil, by simp⟩

/-- Updates of the present never come too early. -/
theorem GoesOn.inTime {collected : List ValueUpdate} (h : GoesOn collected w w') (hw : Stamped w)
    (horder : (emitted w).Pairwise InTime) : (emitted w').Pairwise InTime := by
  obtain ⟨us, he, hus⟩ := h.updates
  rw [he]
  refine List.pairwise_append.mpr ⟨horder, ?_, fun u hu v hv _ => ?_⟩
  · exact List.pairwise_of_forall_mem_list fun u hu v hv _ => by rw [hus u hu, hus v hv]
  · rw [hus v hv]
    exact hw.updates u hu

theorem Flushes.stamped {collected : List ValueUpdate} (h : Flushes collected w w') (hw : Stamped w)
    (hcol : ∀ u ∈ collected, u.timestamp ≤ w.now) : Stamped w' where
  updates := by
    obtain ⟨news, he, hnews⟩ := h.updates
    intro u hu
    rw [he] at hu
    rw [h.now]
    rcases List.mem_append.mp hu with hu | hu
    · exact hw.updates u hu
    · rcases List.mem_append.mp hu with hu | hu
      · exact hcol u hu
      · exact (hnews u hu).le
  collected := by
    rw [h.reads, h.now]
    exact hw.collected

/-- A poll's end is in time exactly if no younger update was emitted for what it has collected. -/
theorem Flushes.inTime_iff {collected : List ValueUpdate} (h : Flushes collected w w')
    (hw : Stamped w) (horder : (emitted w).Pairwise InTime)
    (hcol : collected.Pairwise (fun u v => u.timestamp ≤ v.timestamp) ∧
      ∀ u ∈ collected, u.timestamp ≤ w.now) :
    (emitted w').Pairwise InTime ↔ ∀ u ∈ emitted w, ∀ v ∈ collected, InTime u v := by
  obtain ⟨news, he, hnews⟩ := h.updates
  rw [he, List.pairwise_append]
  constructor
  · rintro ⟨-, -, hcross⟩ u hu v hv
    exact hcross u hu v (List.mem_append_left news hv)
  · intro hcross
    have hsorted := pairwise_append_now hcol.1 hcol.2 hnews
    refine ⟨horder, hsorted.imp (S := InTime) fun hle _ => hle, fun u hu v hv => ?_⟩
    rcases List.mem_append.mp hv with hv | hv
    · exact hcross u hu v hv
    · intro _
      rw [hnews v hv]
      exact hw.updates u hu

theorem emitsNow_addConnection (p : Protocol) (w : World) (config : ConnectionConfig) :
    EmitsNow w (addConnection p w config).1 := by
  unfold addConnection
  split
  · exact .refl w
  · split
    · exact .refl w
    · rename_i params _
      have h1 : EmitsNow w (w.track (createManagedConnection config params)) := .of_same rfl rfl rfl
      dsimp only
      split_ifs
      · exact h1.trans (emitsNow_initiateConnection p _ _)
      · exact h1

theorem emitsNow_updateConnection (p : Protocol) (w : World) (config : ConnectionConfig) :
    EmitsNow w (updateConnection p w config).1 := by
  unfold updateConnection
  split
  · exact emitsNow_addConnection p w config
  · rename_i m _
    have h1 := emitsNow_disconnectAndCleanup w m
    dsimp only
    split
    · exact h1
    · have h2 := h1.trans (emitsNow_update _ m
        (fun o => { o with config := config, params := ‹List (String × Json)› }))
      split_ifs
      · exact h2.trans (emitsNow_initiateConnection p _ m)
      · exact h2

theorem emitsNow_removeConnection (w : World) (id : String) :
    EmitsNow w (removeConnection w id).1 := by
  unfold removeConnection
  split
  · exact .refl w
  · exact (emitsNow_disconnectAndCleanup w _).trans (.of_same rfl rfl rfl)

theorem emitsNow_start (p : Protocol) (w : World) : EmitsNow w (start p w) := by
  unfold start
  split_ifs
  · exact .refl w
  · have h1 : EmitsNow w { w with running := true } := .of_same rfl rfl rfl
    refine h1.trans (.foldl (fun w m => ?_) _ _)
    unfold startOne
    split_ifs
    · exact emitsNow_initiateConnection p w m
    · exact .refl w

theorem emitsNow_stop (w : World) : EmitsNow w (stop w) := by
  unfold stop
  split_ifs
  · exact .refl w
  · have h1 : EmitsNow w { w with running := false } := .of_same rfl rfl rfl
    exact h1.trans (.foldl emitsNow_disconnectAndCleanup _ _)

theorem emitsNow_reported (p : Protocol) (w : World) (c : ClientId) (err : Option JsError) :
    EmitsNow w (reported p w c err) := by
  unfold reported
  split_ifs <;> exact .of_same rfl rfl rfl

/-- Whatever is no answer to a read, and is done while no time passes, emits updates of the present
alone. -/
theorem emitsNow_step (h : WF p w) {e : Event} (hread : ∀ r result, e ≠ .readReport r result)
    (helapse : ∀ ms, e ≠ .elapse ms) : EmitsNow w (step p w e) := by
  have hsingle : e.isSingle = true → actor w e = none → EmitsNow w (step p w e) := fun he ha => by
    rw [step_of_actor_none he ha]
    exact .refl w
  cases e with
  | addConnection config => exact emitsNow_addConnection p w config
  | removeConnection id => exact emitsNow_removeConnection w id
  | updateConnection config => exact emitsNow_updateConnection p w config
  | addMapping mapping =>
      rcases addMapping_cases p w mapping with ⟨e, he⟩ | ⟨m, -, -, he⟩ <;> rw [Connector.step, he]
      · exact .refl w
      · unfold pushItem
        split <;> exact .of_same rfl rfl rfl
  | removeMapping id =>
      rcases removeMapping_cases p w id with ⟨-, e, he⟩ | ⟨m, mp, -, -, -, he⟩ <;>
        rw [Connector.step, he]
      · exact .refl w
      · unfold dropItem
        split <;> exact .of_same rfl rfl rfl
  | start => exact emitsNow_start p w
  | stop => exact emitsNow_stop w
  | connectReport c err =>
      cases ha : actor w (.connectReport c err) with
      | none => exact hsingle rfl ha
      | some m =>
          obtain ⟨hlt, hpending, rfl, hstep⟩ := actor_connectReport (p := p) ha
          have h1 := h.ok_reported hlt err
          rw [hstep]
          exact (emitsNow_reported p w c err).trans
            (emitsNow_onConnect h1.wf (h1.lt (h.owner c hlt)) err)
  | readReport r result => exact absurd rfl (hread r result)
  | pollTick t =>
      cases ha : actor w (.pollTick t) with
      | none => exact hsingle rfl ha
      | some m =>
          obtain ⟨ms, ht⟩ := actor_tick ha
          simp only [Connector.step, onPollTick, ht]
          exact emitsNow_poll (h.obj m)
  | reconnectTick t =>
      cases ha : actor w (.reconnectTick t) with
      | none => exact hsingle rfl ha
      | some m =>
          obtain ⟨ms, ht⟩ := actor_tick ha
          have h1 := emitsNow_disarm .reconnect w m
          rw [Connector.step, onReconnectTick_eq h ht]
          split_ifs
          · exact h1
          · have h2 : EmitsNow w (((disarm .reconnect w m).dropClient m).setState m .disconnected) :=
              (h1.trans (emitsNow_dropClient _ m)).trans (emitsNow_update _ m _)
            exact h2.trans (emitsNow_initiateConnection p _ m)
  | elapse ms => exact absurd rfl (helapse ms)

/-- When a Modbus poll ends, no younger update was emitted for a node it has collected one for. -/
def InOrder (p : Protocol) (w : World) : Event → Prop
  | .readReport r result => ∀ read, w.reads r = some read → p = .modbusTcp →
      EndsPoll w read result → ∀ u ∈ emitted w, ∀ v ∈ read.cont.updates, InTime u v
  | _ => True

theorem inTime_step (h : WF p w) (hw : Stamped w) (e : Event) :
    Stamped (step p w e) ∧ ((emitted w).Pairwise InTime →
      ((emitted (step p w e)).Pairwise InTime ↔ InOrder p w e)) := by
  have hnow : EmitsNow w (step p w e) → InOrder p w e →
      Stamped (step p w e) ∧ ((emitted w).Pairwise InTime →
        ((emitted (step p w e)).Pairwise InTime ↔ InOrder p w e)) := fun he ho =>
    ⟨he.stamped hw, fun horder =>
      ⟨fun _ => ho, fun _ => (he.goesOn []).inTime hw horder⟩⟩
  by_cases hread : ∃ r result, e = .readReport r result
  · obtain ⟨r, result, rfl⟩ := hread
    cases hr : w.reads r with
    | none =>
        refine hnow ?_ fun read hsome => ?_
        · simp only [Connector.step, onReadReport, hr]
          exact .refl w
        · rw [hr] at hsome
          cases hsome
    | some read =>
        obtain ⟨hok, hstep⟩ := h.ok_answered hr result
        have hw0 : Stamped ((w.takeRead r).report (valueReports w read result)) :=
          ⟨hw.updates, fun r' x hx => hw.collected r' x (takeRead_reads hx).2⟩
        have hcol := hw.collected r read hr
        rw [hstep]
        rcases onRead_cases_updates (hok.wf.obj read.obj) result with ⟨hends, hflush⟩ | ⟨hnot, hgo⟩
        · refine ⟨hflush.stamped hw0 hcol.2, fun horder => (hflush.inTime_iff hw0 horder hcol).trans ?_⟩
          constructor
          · intro hcross read' hr' _ _
            obtain rfl := Option.some.inj (hr.symm.trans hr')
            exact hcross
          · exact fun ho => ho read hr hends.1 hends.2
        · refine ⟨hgo.stamped hw0 hcol, fun horder => ⟨fun _ read' hr' hp hends => ?_,
            fun _ => hgo.inTime hw0 horder⟩⟩
          obtain rfl := Option.some.inj (hr.symm.trans hr')
          exact absurd ⟨hp, hends⟩ hnot
  · by_cases helapse : ∃ ms, e = .elapse ms
    · obtain ⟨ms, rfl⟩ := helapse
      refine ⟨⟨fun u hu => ?_, fun r read hr => ?_⟩, fun horder => ⟨fun _ => trivial, fun _ => horder⟩⟩
      · exact (hw.updates u hu).trans (Nat.le_add_right _ _)
      · obtain ⟨hsorted, hle⟩ := hw.collected r read hr
        exact ⟨hsorted, fun u hu => (hle u hu).trans (Nat.le_add_right _ _)⟩
    · refine hnow (emitsNow_step h (fun r result he => hread ⟨r, result, he⟩)
        fun ms he => helapse ⟨ms, he⟩) ?_
      cases e with
      | readReport r result => exact absurd ⟨r, result, rfl⟩ hread
      | _ => trivial

/-- **The order of updates.** Along a run the updates emitted for one node carry non-decreasing
timestamps exactly if no Modbus poll of the run ends with updates that are older than some that were
emitted for their nodes meanwhile. -/
theorem updates_in_order_iff (p : Protocol) (es : List Event) :
    (∀ fs, fs <+: es → (emitted (reach p fs)).Pairwise
      (fun u v => u.nodeId = v.nodeId → u.timestamp ≤ v.timestamp)) ↔
      Machine.Guarded (step p) (InOrder p) World.initial es :=
  Machine.always_iff_guarded (I := fun w => (emitted w).Pairwise InTime)
    (J := fun w => WF p w ∧ Stamped w)
    (fun _ e _ h => ⟨h.1.step e, (inTime_step h.1 h.2 e).1⟩)
    (fun _ e _ h horder => (inTime_step h.1 h.2 e).2 horder) (Machine.guarded_true _ es)
    ⟨wf_initial p, ⟨fun u hu => (by cases hu), fun r read hr => (by cases hr)⟩⟩ List.Pairwise.nil

/-- Of a Modbus connection with two mappings, one poll reads the first and waits for the second while
another one reads both. -/
def overlappingPolls : List Event :=
  [.addConnection (sampleConnection .modbusTcp), .addMapping (sampleMapping "m1" "HR:0"),
    .addMapping (sampleMapping "m2" "HR:1"), .start, .connectReport 0 none,
    .elapse 1, .readReport 0 (.data [.num 1]), .pollTick 0,
    .elapse 1, .readReport 2 (.data [.num 2]), .readReport 3 (.data [.num 0]),
    .readReport 1 (.data [.num 0])]

/-- The older value of the first mapping comes after the younger one. -/
theorem overlappingPolls_not_in_order :
    ¬ (emitted (reach .modbusTcp overlappingPolls)).Pairwise
      (fun u v => u.nodeId = v.nodeId → u.timestamp ≤ v.timestamp) := by
  decide +kernel

end OpcuaLight.Connector
