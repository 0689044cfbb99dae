import OpcuaLight.Connector.Provenance

/-!
# Good quality

A connect marks every cached value of its connection as good again, before any read over the new
client, and neither `stop` nor an update of the connection marks them as bad. What a good value tells
is where it comes from, and that its connection has not been lost since (`good_quality`): handling an
error marks all values of the connection as bad. A read that answers after the error would undo this;
only PCCC's handler looks for a client first.
-/

namespace OpcuaLight.Connector

open World

variable {p : Protocol} {w w' : World} {m : ObjId} {ms : List Mapping}

/-- An error is on record while the state is `error`, and none while it is `connected`. -/
def Settled (w : World) (m : ObjId) : Prop :=
  ((w.objs m).state = .connected → (w.objs m).errorMessage = none) ∧
    ((w.objs m).state = .error → (w.objs m).errorMessage ≠ none)

/-- While an error is on record no value of the object's mappings is good. -/
def Clean (w : World) (m : ObjId) : Prop :=
  (w.objs m).errorMessage ≠ none → ∀ mp ∈ (w.objs m).mappings.values,
    ∀ v, w.currentValues.get? mp.id = some v → v.quality = .bad

structure Sound (p : Protocol) (ms : List Mapping) (w : World) : Prop where
  wf : WF p w
  sourced : Sourced p ms w
  settled : ∀ m, Settled w m
  clean : ∀ m, w.Tracked m → Clean w m

/-- The answer has values, or may have. -/
def ReadResult.isAnswer : ReadResult → Bool
  | .failed _ => false
  | _ => true

/-- A read of a tracked connection is answered in state `connected`, or PCCC's handler finds no
client. -/
def Timely (p : Protocol) (w : World) : Event → Prop
  | .readReport r result => ∀ read, w.reads r = some read → w.Tracked read.obj →
      result.isAnswer = true → (p = .pccc → (w.objs read.obj).client ≠ none) →
        (w.objs read.obj).state = .connected
  | _ => True

/-- The mappings that a list of events adds. -/
def addedMappings (es : List Event) : List Mapping :=
  es.filterMap fun e => match e with
    | .addMapping mapping => some mapping
    | _ => none

/-! ## Marking values as bad -/

/-- What is cached under the id is bad. -/
def BadAt (w : World) (id : String) : Prop :=
  ∀ v, w.currentValues.get? id = some v → v.quality = .bad

theorem badAt_cacheValue {id id' : String} {v : CurrentValue} (hv : v.quality = .bad)
    (h : id = id' ∨ BadAt w id) : BadAt (w.cacheValue m id' v) id := by
  intro v' hv'
  change (w.currentValues.set id' v).get? id = some v' at hv'
  rw [JsMap.get?_set] at hv'
  split_ifs at hv' with hid
  · rw [← Option.some.inj hv', hv]
  · exact h.resolve_left hid v' hv'

theorem badAt_cacheQuality {id : String} {mp : Mapping} (h : id = mp.id ∨ BadAt w id) :
    BadAt (cacheQuality m .bad w mp) id := by
  unfold cacheQuality
  split
  · exact badAt_cacheValue rfl h
  · rw [if_pos rfl]
    exact badAt_cacheValue rfl h

theorem badAt_foldl {id : String} (l : List Mapping) (h : (∃ mp ∈ l, mp.id = id) ∨ BadAt w id) :
    BadAt (l.foldl (cacheQuality m .bad) w) id := by
  induction l generalizing w with
  | nil => exact h.resolve_left (by simp)
  | cons a l ih =>
      apply ih
      rcases h with ⟨mp, hmem, hid⟩ | h
      · rcases List.mem_cons.mp hmem with rfl | hmem
        · exact Or.inr (badAt_cacheQuality (Or.inl hid.symm))
        · exact Or.inl ⟨mp, hmem, hid⟩
      · exact Or.inr (badAt_cacheQuality (Or.inr h))

theorem emitValueUpdates_currentValues (w : World) (m : ObjId) (us : List ValueUpdate) :
    (w.emitValueUpdates m us).currentValues = w.currentValues := by
  unfold emitValueUpdates
  split_ifs <;> rfl

theorem emitQualityUpdate_bad {mp : Mapping} (hmp : mp ∈ (w.objs m).mappings.values) :
    BadAt (w.emitQualityUpdate m .bad) mp.id := by
  intro v hv
  rw [emitQualityUpdate, emitValueUpdates_currentValues] at hv
  exact badAt_foldl _ (Or.inl ⟨mp, hmp, rfl⟩) v hv

/-- Handling an error leaves no good value. -/
theorem handleConnectionError_bad {mp : Mapping} (hmp : mp ∈ (w.objs m).mappings.values)
    (e : JsError) : BadAt (w.handleConnectionError m e) mp.id := by
  have hstop := calm_disarm .polling ((w.setState m (stateAfterError (w.objs m).state)).setErrorMessage
    m (some (errorText e))) m
  have hmap : mp ∈ ((((w.setState m (stateAfterError (w.objs m).state)).setErrorMessage m
      (some (errorText e))).stopPolling m).objs m).mappings.values := by
    rw [stopPolling, hstop.mappings, setErrorMessage, update_objs_self, setState, update_objs_self]
    exact hmp
  have hbad := emitQualityUpdate_bad hmap
  unfold handleConnectionError
  dsimp only
  split_ifs
  · intro v hv
    rw [(calm_scheduleReconnect _ m).currentValues] at hv
    exact hbad v hv
  · exact hbad

theorem clean_handleConnectionError (w : World) (m : ObjId) (e : JsError) :
    Clean (w.handleConnectionError m e) m := by
  intro _ mp hmp
  rw [handleConnectionError_self] at hmp
  exact handleConnectionError_bad hmp e

/-! ## Answers that come too late -/

theorem readNext_currentValues {l : List (Nat × String × Mapping)}
    (hl : ∀ s ∈ l, ∃ a, parseDeviceAddress s.2.2.deviceAddress = .ok a) (us : List ValueUpdate) :
    (Modbus.readNext w m us l).currentValues = w.currentValues := by
  cases l with
  | nil =>
      unfold Modbus.readNext
      split_ifs
      · rfl
      · rw [emitValueUpdates_currentValues]
        rfl
  | cons s rest =>
      obtain ⟨a, ha⟩ := hl s List.mem_cons_self
      simp only [Modbus.readNext, ha]
      rfl

/-- A failure, or an answer for PCCC without a client, makes no value good. -/
theorem badAt_onRead {r : Read} (hl : Local p w r.obj) {result : ReadResult}
    (h : result.isAnswer = false ∨ p = .pccc ∧ (w.objs r.obj).client = none) {mp : Mapping}
    (hmp : mp ∈ (w.objs r.obj).mappings.values) (hbad : BadAt w mp.id) :
    BadAt (onRead p w r result) mp.id := by
  have hmap : mp ∈ ((w.setPollInProgress r.obj false).objs r.obj).mappings.values := by
    rw [setPollInProgress, update_objs_self]
    exact hmp
  have hhandling := handling_onRead p w r result
  generalize onRead p w r result = w' at hhandling ⊢
  cases hhandling with
  | items | data | tags => exact absurd h (by simp [ReadResult.isAnswer])
  | itemsLost | dataLost => exact handleConnectionError_bad hmp _
  | unasked | dataFailed =>
      intro v hv
      rw [readNext_currentValues (hl.parses _)] at hv
      exact hbad v hv
  | tagsLost => exact handleConnectionError_bad hmap _
  | tagsFailed => exact emitQualityUpdate_bad hmap
  | allBad m client anythingBad found c hc | found m client anythingBad found c hc =>
      rw [(h.resolve_left (by simp [ReadResult.isAnswer])).2] at hc
      cases hc
  | clientGone | dropped => exact hbad

/-- A poll asks for something in state `connected` only. -/
theorem poll_of_state (h : (w.objs m).state ≠ .connected) : poll p w m = w := by
  cases p <;> simp [poll, S7.poll, Modbus.poll, EthernetIp.poll, Pccc.poll, h]

/-! ## The invariant of runs -/

/-- Neither reading nor caching keeps the invariant. -/
theorem Sound.calm (h : Sound p ms w) (hc : Calm w w') (hwf : WF p w') : Sound p ms w' where
  wf := hwf
  sourced := h.sourced.calm hc
  settled := fun m => by
    rcases hc.status m with ⟨hn, hs⟩ | ⟨hn, hs⟩
    · exact ⟨fun _ => hn, fun he => by rw [hs] at he; cases he⟩
    · unfold Settled
      rw [hn]
      rcases hs with hs | hs <;> rw [hs]
      · exact h.settled m
      · exact ⟨nofun, nofun⟩
  clean := fun m hm he => by
    rcases hc.status m with ⟨hn, -⟩ | ⟨hn, -⟩
    · exact absurd hn he
    · rw [hn] at he
      rw [hc.mappings, hc.currentValues]
      obtain ⟨id, hid⟩ := JsMap.mem_values_iff.mp hm
      exact h.clean m (JsMap.mem_values_of_get? (hc.tracked id m hid)) he

/-- Code of one object keeps the invariant if it keeps what is said of that object. -/
theorem Sound.own (h : Sound p ms w) (hok : Ok p m w w') (ht : Traces p (Knows w m) m w w')
    (hset : Settled w' m) (hclean : w.Tracked m → Clean w' m) : Sound p ms w' where
  wf := hok.wf
  sourced := h.sourced.traces ht hok.acts.objs
  settled := fun i => by
    by_cases hi : i = m
    · rw [hi]
      exact hset
    · rw [Settled, hok.acts.objs i hi]
      exact h.settled i
  clean := fun i hi => by
    rw [Tracked, hok.acts.connections] at hi
    by_cases him : i = m
    · rw [him] at hi ⊢
      exact hclean hi
    · -- what the code writes is for its own mappings, and `i` has others
      rw [Clean, hok.acts.objs i him]
      intro he mp hmp v hv
      rcases ht.cache mp.id v hv with hv | ⟨mp', hK, hid, -⟩
      · exact h.clean i hi he mp hmp v hv
      · exact absurd (h.sourced.owner m i mp' mp hK (Or.inl hmp) hid).symm him

theorem reported_currentValues (w : World) (c : ClientId) (err : Option JsError) :
    (reported p w c err).currentValues = w.currentValues := by
  unfold reported
  split_ifs <;> rfl

theorem traces_reported {K : Mapping → Prop} (w : World) (c : ClientId) (err : Option JsError) :
    Traces p K m w (reported p w c err) := by
  refine .of_same (by rw [reported_objs]) (by rw [reported_objs]) (reported_currentValues w c err)
    ?_ (fun r hr => ?_)
  all_goals
    unfold reported
    split_ifs
  any_goals rfl
  · exact hr
  · exact List.mem_append_left _ hr

theorem Settled.same (h : Settled w m) (hs : SameControl m w w') : Settled w' m := by
  rw [Settled, hs.state, hs.errorMessage]
  exact h

theorem settled_handleConnectionError (w : World) (m : ObjId) (e : JsError) :
    Settled (w.handleConnectionError m e) m := by
  refine ⟨fun hs => absurd hs not_connected_of_error, fun _ => ?_⟩
  rw [handleConnectionError_self]
  simp

theorem Sound.pollTick (h : Sound p ms w) {t : TimerId} (ha : actor w (.pollTick t) = some m) :
    Sound p ms (step p w (.pollTick t)) := by
  have hs := sameControl_pollTick h.wf ha
  have hok := h.wf.ok_step ha
  obtain ⟨ms', ht⟩ := actor_tick ha
  have hstep : step p w (.pollTick t) = poll p w m := by simp only [step, onPollTick, ht]
  rw [hstep] at hs hok ⊢
  refine h.own hok (traces_poll (h.wf.obj m) fun mp hmp => Or.inl hmp) ((h.settled m).same hs) ?_
  intro htr he
  rw [hs.errorMessage] at he
  rw [poll_of_state fun hst => he ((h.settled m).1 hst)]
  exact h.clean m htr he

theorem Sound.connectReport (h : Sound p ms w) {c : ClientId} {err : Option JsError}
    (ha : actor w (.connectReport c err) = some m) :
    Sound p ms (step p w (.connectReport c err)) := by
  have hok := h.wf.ok_step ha
  obtain ⟨hlt, -, hown, hstep⟩ := actor_connectReport (p := p) ha
  have h1 := h.wf.ok_reported hlt err
  rw [hown] at h1
  have hm := h1.lt (by rw [← hown]; exact h.wf.owner c hlt)
  have ht : Traces p (Knows w m) m w (step p w (.connectReport c err)) := by
    rw [hstep]
    refine (traces_reported w c err).trans (traces_onConnect h1.wf hm (fun mp hmp => ?_) err)
    rw [reported_objs] at hmp
    exact Or.inl hmp
  have hobj : ((reported p w c err).setConnecting m false).objs m =
      { w.objs m with connecting := false } := by
    rw [setConnecting, update_objs_self, reported_objs]
  rcases onConnect_cases p (reported p w c err) m err with
    ⟨-, -, he⟩ | ⟨-, -, e, he⟩ | ⟨-, c', hc', he⟩ <;> rw [← hstep] at he <;> rw [he] at hok ht ⊢
  · -- without a client nothing happens but that `connecting` is cleared
    refine h.own hok ht (by rw [Settled, hobj]; exact h.settled m) (fun htr => ?_)
    have hcache : ((reported p w c err).setConnecting m false).currentValues = w.currentValues :=
      reported_currentValues w c err
    rw [Clean, hobj, hcache]
    exact h.clean m htr
  · exact h.own hok ht (settled_handleConnectionError _ m e)
      (fun _ => clean_handleConnectionError _ m e)
  · have h2 := h1.wf.ok_setConnecting hm false
    rw [reported_objs] at hc'
    obtain ⟨l, b, t, ho⟩ := onConnected_self h2.wf (h2.lt hm) (c := c') (by rw [hobj]; exact hc')
    refine h.own hok ht ?_ (fun _ herr => ?_)
    · rw [Settled, ho]
      exact ⟨fun _ => rfl, fun hstate => by cases hstate⟩
    · rw [ho] at herr
      exact absurd rfl herr

theorem Sound.readReport (h : Sound p ms w) {r : ReadId} {result : ReadResult}
    (ha : actor w (.readReport r result) = some m) (htimely : Timely p w (.readReport r result)) :
    Sound p ms (step p w (.readReport r result)) := by
  have hok := h.wf.ok_step ha
  obtain ⟨read, hr, rfl⟩ := Option.map_eq_some_iff.mp ha
  have hlt := (h.wf.read r read hr).1
  have hcases := readReport_cases h.wf ha
  have hstep : step p w (.readReport r result) = onRead p (answered w r read result) read result := by
    simp only [step, onReadReport, hr, answered]
  have hlocal : Local p (answered w r read result) read.obj := by
    have h1 := h.wf.ok_takeRead hlt r
    exact (h1.wf.ok_report (h1.lt hlt) _).wf.obj read.obj
  have ht : Traces p (Knows w read.obj) read.obj w (step p w (.readReport r result)) := by
    rw [hstep]
    exact traces_onRead (h.wf.obj read.obj) (fun mp hmp => Or.inl hmp)
      (fun mp hmp => Or.inr ⟨r, read, hr, rfl, hmp⟩) (h.sourced.asked r read hr) result
  rcases hcases with hs | ⟨w₁, e, -, -, he⟩
  · refine h.own hok ht ((h.settled _).same hs) (fun htr herr mp hmp => ?_)
    rw [hs.errorMessage] at herr
    have hmap : mp ∈ (w.objs read.obj).mappings.values := by
      rw [← readReport_mappings h.wf ha]
      exact hmp
    rw [hstep]
    refine badAt_onRead hlocal ?_ hmap (h.clean _ htr herr mp hmap)
    -- an answer would have found the connection connected, with no error on record
    by_contra hnot
    rw [not_or, Bool.not_eq_false, not_and] at hnot
    exact herr ((h.settled _).1 (htimely read hr htr hnot.1 hnot.2))
  · rw [he] at hok ht ⊢
    exact h.own hok ht (settled_handleConnectionError w₁ _ e)
      (fun _ => clean_handleConnectionError w₁ _ e)

/-- A change of the mappings that adds none with a cached value. -/
theorem Sound.remap {ms' : List Mapping} (h : Sound p ms w) (hok : Ok p m w w')
    (hs : SameControl m w w') (hsourced : Sourced p ms' w')
    (hcache : ∀ id v, w'.currentValues.get? id = some v → w.currentValues.get? id = some v)
    (hmap : ∀ mp ∈ (w'.objs m).mappings.values, mp ∈ (w.objs m).mappings.values ∨
      w.currentValues.get? mp.id = none) : Sound p ms' w' where
  wf := hok.wf
  sourced := hsourced
  settled := fun i => by
    by_cases hi : i = m
    · rw [hi]
      exact (h.settled m).same hs
    · rw [Settled, hok.acts.objs i hi]
      exact h.settled i
  clean := fun i hi => by
    rw [Tracked, hok.acts.connections] at hi
    intro he mp hmp v hv
    have hv' := hcache mp.id v hv
    by_cases him : i = m
    · rw [him, hs.errorMessage] at he
      rw [him] at hmp hi
      rcases hmap mp hmp with hmp | hnone
      · exact h.clean m hi he mp hmp v hv'
      · rw [hnone] at hv'
        cases hv'
    · rw [hok.acts.objs i him] at he hmp
      exact h.clean i hi he mp hmp v hv'

theorem Sourced.weaken (h : Sourced p ms w) (mapping : Mapping) : Sourced p (ms ++ [mapping]) w where
  known := fun m mp hk => ⟨List.mem_append_left _ (h.known m mp hk).1, (h.known m mp hk).2⟩
  owner := h.owner
  asked := h.asked
  cached := fun id v hv => by
    obtain ⟨mp, hmem, he⟩ := h.cached id v hv
    exact ⟨mp, List.mem_append_left _ hmem, he⟩

theorem Sound.weaken (h : Sound p ms w) (mapping : Mapping) : Sound p (ms ++ [mapping]) w :=
  ⟨h.wf, h.sourced.weaken mapping, h.settled, h.clean⟩

theorem Sound.addMapping (h : Sound p ms w) {mapping : Mapping}
    (hnew : mapping.id ∉ ms.map Mapping.id) :
    Sound p (ms ++ [mapping]) (step p w (.addMapping mapping)) := by
  rcases addMapping_cases p w mapping with ⟨e, he⟩ | ⟨m, hm, -, he⟩
  · rw [step, he]
    exact h.weaken mapping
  · have hok := h.wf.ok_step (p := p) (e := .addMapping mapping) hm
    have hs : SameControl m w (step p w (.addMapping mapping)) := sameControl_addMapping hm
    rw [step, he] at hok hs ⊢
    have hpush : Calm (w.setMappings m (·.set mapping.id mapping))
        (pushItem p (w.setMappings m (·.set mapping.id mapping)) m mapping.deviceAddress) := by
      unfold pushItem
      split
      · exact calm_of_objs (fun _ _ h => h) rfl rfl rfl rfl
      · exact Calm.refl _
    refine h.remap hok hs ((h.sourced.set hnew (h.wf.tracked _ m hm).2.symm).calm hpush)
      (fun id v hv => ?_) (fun mp hmp => ?_)
    · rw [hpush.currentValues] at hv
      exact hv
    · rw [hpush.mappings, setMappings, update_objs_self] at hmp
      rcases JsMap.mem_values_set_iff.mp hmp with rfl | ⟨k, -, hk⟩
      · refine Or.inr (Option.eq_none_iff_forall_ne_some.mpr fun v hv => hnew ?_)
        obtain ⟨mp', hmem, hid, -⟩ := h.sourced.cached _ v hv
        rw [← hid]
        exact List.mem_map_of_mem hmem
      · exact Or.inl (JsMap.mem_values_of_get? hk)

theorem Sound.removeMapping (h : Sound p ms w) (id : String) :
    Sound p ms (step p w (.removeMapping id)) := by
  rcases removeMapping_cases p w id with ⟨-, e, he⟩ | ⟨m, mp, hm, -, -, he⟩
  · rw [step, he]
    exact h
  · have hok := h.wf.ok_step (p := p) (e := .removeMapping id) hm
    have hs : SameControl m w (step p w (.removeMapping id)) := sameControl_removeMapping hm
    rw [step, he] at hok hs ⊢
    have hdrop : Calm ((w.setMappings m (·.delete id)).forgetValue id)
        ((dropItem p (w.setMappings m (·.delete id)) m mp.deviceAddress).forgetValue id) := by
      unfold dropItem
      split
      · exact calm_of_objs (fun _ _ h => h) rfl rfl rfl rfl
      · exact Calm.refl _
    refine h.remap hok hs ((h.sourced.delete id).calm hdrop) (fun k v hv => ?_) (fun mp' hmp => ?_)
    · rw [hdrop.currentValues] at hv
      change (w.currentValues.delete id).get? k = some v at hv
      rw [JsMap.get?_delete] at hv
      split_ifs at hv
      exact hv
    · rw [hdrop.mappings] at hmp
      change mp' ∈ ((w.setMappings m (·.delete id)).objs m).mappings.values at hmp
      rw [setMappings, update_objs_self] at hmp
      obtain ⟨k, -, hk⟩ := JsMap.mem_values_delete_iff.mp hmp
      exact Or.inl (JsMap.mem_values_of_get? hk)

theorem Sound.addConnection (h : Sound p ms w) (config : ConnectionConfig) :
    Sound p ms (Connector.addConnection p w config).1 := by
  have hwf := h.wf.addConnection config
  unfold Connector.addConnection at hwf ⊢
  split
  · exact h
  · rename_i hnone
    split
    · exact h
    · rename_i params _
      have hnew := track_objs_self w (createManagedConnection config params)
      have h1 : Sound p ms (w.track (createManagedConnection config params)) := by
        refine ⟨h.wf.track config params, h.sourced.track h.wf config params, fun i => ?_,
          fun i hi => ?_⟩
        · by_cases him : i = w.nextObj
          · rw [Settled, him, hnew]
            exact ⟨nofun, nofun⟩
          · rw [Settled, track_objs_of_ne w _ him]
            exact h.settled i
        · by_cases him : i = w.nextObj
          · rw [Clean, him, hnew]
            exact fun he => absurd rfl he
          · rw [Clean, track_objs_of_ne w _ him]
            exact h.clean i (((tracked_track hnone i).mp hi).resolve_left him)
      dsimp only
      split_ifs
      · exact h1.calm (calm_initiateConnection p _ _)
          (h1.wf.ok_initiateConnection (Nat.lt_succ_self _)).wf
      · exact h1

/-- **Step lemma.** -/
theorem Sound.step (h : Sound p ms w) {e : Event} (htimely : Timely p w e)
    (hnew : ∀ mapping ∈ addedMappings [e], mapping.id ∉ ms.map Mapping.id) :
    Sound p (ms ++ addedMappings [e]) (Connector.step p w e) := by
  have hwf := h.wf.step e
  have hactor : ∀ e, e.isSingle = true →
      (∀ m, actor w e = some m → Sound p ms (Connector.step p w e)) →
      Sound p ms (Connector.step p w e) := by
    intro e he hsome
    cases ha : actor w e with
    | none =>
        rw [step_of_actor_none he ha]
        exact h
    | some m => exact hsome m ha
  have hsame : addedMappings [e] = [] → Sound p ms (Connector.step p w e) →
      Sound p (ms ++ addedMappings [e]) (Connector.step p w e) := by
    intro hnil hs
    rw [hnil, List.append_nil]
    exact hs
  cases e with
  | addMapping mapping => exact h.addMapping (hnew mapping (List.mem_singleton.mpr rfl))
  | removeMapping id => exact hsame rfl (h.removeMapping id)
  | addConnection config => exact hsame rfl (h.addConnection config)
  | removeConnection id => exact hsame rfl (h.calm (calm_removeConnection w id) hwf)
  | updateConnection config =>
      refine hsame rfl ?_
      cases hm : w.connections.get? config.id with
      | none =>
          have hadd := h.addConnection config
          rw [Connector.step, updateConnection, hm]
          exact hadd
      | some m => exact h.calm (calm_updateConnection h.wf hm) hwf
  | start => exact hsame rfl (h.calm (calm_start p w) hwf)
  | stop => exact hsame rfl (h.calm (calm_stop w) hwf)
  | elapse ms' => exact hsame rfl (h.calm (calm_of_objs (fun _ _ h => h) rfl rfl rfl rfl) hwf)
  | connectReport c err => exact hsame rfl (hactor _ rfl fun m ha => h.connectReport ha)
  | readReport r result => exact hsame rfl (hactor _ rfl fun m ha => h.readReport ha htimely)
  | pollTick t => exact hsame rfl (hactor _ rfl fun m ha => h.pollTick ha)
  | reconnectTick t =>
      exact hsame rfl (hactor _ rfl fun m ha => h.calm (calm_reconnectTick h.wf ha) hwf)

theorem sound_initial (p : Protocol) : Sound p [] World.initial where
  wf := wf_initial p
  sourced := by
    refine ⟨fun m mp hk => ?_, fun m m' mp mp' hk => ?_, fun r read hr => ?_, fun r read hr => ?_⟩
    · rcases hk with hk | ⟨r, read, hr, -⟩
      · cases hk
      · cases hr
    · rcases hk with hk | ⟨r, read, hr, -⟩
      · cases hk
      · cases hr
    · cases hr
    · cases hr
  settled := fun m => ⟨fun _ => rfl, nofun⟩
  clean := fun m hm => by cases hm

/-- **Run lemma.** -/
theorem Sound.run (h : Sound p ms w) {es : List Event}
    (htimely : Machine.Guarded (Connector.step p) (Timely p) w es)
    (hnodup : ((ms ++ addedMappings es).map Mapping.id).Nodup) :
    Sound p (ms ++ addedMappings es) (Machine.run (Connector.step p) w es) := by
  induction es generalizing ms w with
  | nil =>
      rw [show addedMappings [] = [] from rfl, List.append_nil]
      exact h
  | cons e es ih =>
      have happ : addedMappings (e :: es) = addedMappings [e] ++ addedMappings es :=
        List.filterMap_append (l := [e])
      rw [happ, ← List.append_assoc] at hnodup ⊢
      refine ih (h.step htimely.1 fun mapping hmem hid => ?_) htimely.2 hnodup
      rw [List.map_append, List.map_append] at hnodup
      have hdisj := (List.nodup_append'.mp (List.nodup_append'.mp hnodup).1).2.2
      exact hdisj hid (List.mem_map_of_mem hmem)

theorem reach_sound {es : List Event} (hnodup : ((addedMappings es).map Mapping.id).Nodup)
    (htimely : Machine.Guarded (step p) (Timely p) World.initial es) :
    Sound p (addedMappings es) (reach p es) := (sound_initial p).run htimely hnodup

/-- In every run that adds no mapping id twice and whose reads are answered in time, a good entry is
for the address and the connection of the mapping that was added under its id, its value was returned
by a read of that address, and a tracked connection that holds the mapping is connected, or is
disconnected and has met no error since it was connected. -/
theorem good_quality (p : Protocol) (es : List Event)
    (hnodup : ((addedMappings es).map Mapping.id).Nodup)
    (htimely : Machine.Guarded (step p) (Timely p) World.initial es) :
    ∀ id v, (reach p es).currentValues.get? id = some v → v.quality = .good →
      (∃ mapping ∈ addedMappings es, mapping.id = id ∧ v.deviceAddress = mapping.deviceAddress ∧
        v.connectionId = mapping.connectionId) ∧
      Returned p (reach p es) v ∧
      ∀ m, (reach p es).Tracked m → ((reach p es).objs m).mappings.has id = true →
        ((reach p es).objs m).state = .connected ∨
        ((reach p es).objs m).state = .disconnected ∧ ((reach p es).objs m).errorMessage = none := by
  intro id v hv hgood
  have hsound := reach_sound hnodup htimely
  obtain ⟨mapping, hmem, hid, haddr, hconn, hret⟩ := hsound.sourced.cached id v hv
  refine ⟨⟨mapping, hmem, hid, haddr, hconn⟩, hret, fun m htr hhas => ?_⟩
  obtain ⟨mp, hmp⟩ := JsMap.has_eq_true_iff.mp hhas
  have hmpid := ((hsound.wf.obj m).mapping id mp hmp).1
  have hnone : ((reach p es).objs m).errorMessage = none := by
    by_contra herr
    have hbad := hsound.clean m htr herr mp (JsMap.mem_values_of_get? hmp) v (by rw [hmpid, hv])
    rw [hgood] at hbad
    cases hbad
  cases hst : ((reach p es).objs m).state with
  | connected => exact Or.inl rfl
  | disconnected => exact Or.inr ⟨rfl, hnone⟩
  | error => exact absurd hnone ((hsound.settled m).2 hst)

/-- One mapping of an S7 connection, read once. -/
def readRun : List Event :=
  [.addConnection (sampleConnection .s7), .addMapping (sampleMapping "m1" "DB1,INT0"), .start,
    .connectReport 0 none, .readReport 0 (.items [("DB1,INT0", .num 5)])]

theorem good_quality_readRun :
    ((addedMappings readRun).map Mapping.id).Nodup ∧
    Machine.Guarded (step .s7) (Timely .s7) World.initial readRun ∧
    (reach .s7 readRun).currentValues.has "m1" = true ∧
    ∀ v, (reach .s7 readRun).currentValues.get? "m1" = some v → v.quality = .good →
      Returned .s7 (reach .s7 readRun) v := by
  have hnodup : ((addedMappings readRun).map Mapping.id).Nodup := by decide
  have htimely : Machine.Guarded (step .s7) (Timely .s7) World.initial readRun := by
    refine ⟨trivial, trivial, trivial, trivial, fun read hread _ _ _ => ?_, trivial⟩
    have hobj : read.obj = 0 := by
      have h0 : ((reach .s7 (readRun.take 4)).reads 0).map Read.obj = some 0 := by decide
      rw [show (reach .s7 (readRun.take 4)).reads 0 = some read from hread] at h0
      exact Option.some.inj h0
    rw [hobj]
    decide
  exact ⟨hnodup, htimely, by decide,
    fun v hv hgood => (good_quality .s7 readRun hnodup htimely "m1" v hv hgood).2.1⟩

/-- A good entry belongs to a connected connection and has a value that was read over its client. -/
def Truthful (w : World) : Prop :=
  ∀ id v, w.currentValues.get? id = some v → v.quality = .good →
    ∃ m, w.Tracked m ∧ (w.objs m).config.id = v.connectionId ∧ (w.objs m).state = .connected ∧
      ∃ c x t, (w.objs m).client = some c ∧ v.value = some x ∧
        Report.value v.connectionId c v.deviceAddress x true t ∈ w.reports

/-- The next read fails, and the connection comes back: the value of client 0 is good with client 1. -/
def reconnectRun : List Event :=
  readRun ++ [.pollTick 0, .readReport 1 (.failed (.error .other "timeout")), .reconnectTick 1,
    .connectReport 1 none]

theorem reconnect_not_truthful : ¬ Truthful (reach .s7 reconnectRun) := by
  intro h
  have hv : ((reach .s7 reconnectRun).currentValues.get? "m1").map CurrentValue.quality =
      some .good := by decide
  obtain ⟨v, hv, hgood⟩ := Option.map_eq_some_iff.mp hv
  obtain ⟨m, htr, -, -, c, x, t, hc, -, hmem⟩ := h "m1" v hv hgood
  have hm : m = 0 := by
    have h0 : ∀ m ∈ (reach .s7 reconnectRun).connections.values, m = 0 := by decide
    exact h0 m htr
  have hc1 : c = 1 := by
    have h1 : ((reach .s7 reconnectRun).objs 0).client = some 1 := by decide
    rw [hm, h1] at hc
    exact (Option.some.inj hc).symm
  have hreports : (reach .s7 reconnectRun).reports = [.connected "c1" 0 0,
      .value "c1" 0 "DB1,INT0" (.num 5) true 0, .connected "c1" 1 0] := by decide
  rw [hc1, hreports] at hmem
  simp at hmem

end OpcuaLight.Connector
