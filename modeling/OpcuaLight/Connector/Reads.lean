import OpcuaLight.Connector.Throwing

/-!
# Outstanding reads

What code does to the reads in flight and to the `pollInProgress` flags.

* `SameReads w w'` : code that neither asks nor answers; `Still w w'` : that leaves the flags alone
  too.
* `Polled p m w w'` : one poll of `m` at most, for the two protocols that have the flag.
-/

namespace OpcuaLight.Connector

open World

variable {p : Protocol} {w w' w'' : World} {m : ObjId}

/-! ## Code that neither reads nor answers -/

structure SameReads (w w' : World) : Prop where
  reads : w'.reads = w.reads
  nextRead : w'.nextRead = w.nextRead

theorem SameReads.refl (w : World) : SameReads w w := ⟨rfl, rfl⟩

theorem SameReads.trans (h : SameReads w w') (h' : SameReads w' w'') : SameReads w w'' :=
  ⟨by rw [h'.reads, h.reads], by rw [h'.nextRead, h.nextRead]⟩

theorem sameReads_foldl {α : Type*} {f : World → α → World} (hf : ∀ w a, SameReads w (f w a))
    (l : List α) (w : World) : SameReads w (l.foldl f w) :=
  Machine.run_related (SameReads.refl w) SameReads.trans fun w a _ _ => hf w a

theorem sameReads_update (w : World) (m : ObjId) (f : Managed → Managed) :
    SameReads w (w.update m f) := ⟨rfl, rfl⟩

/-- Code that leaves the flags alone too. -/
structure Still (w w' : World) : Prop extends SameReads w w' where
  flag : ∀ i, (w'.objs i).pollInProgress = (w.objs i).pollInProgress

theorem Still.refl (w : World) : Still w w := ⟨SameReads.refl w, fun _ => rfl⟩

theorem Still.trans (h : Still w w') (h' : Still w' w'') : Still w w'' :=
  ⟨h.toSameReads.trans h'.toSameReads, fun i => by rw [h'.flag, h.flag]⟩

/-- What concerns neither objects nor reads. -/
theorem still_of_eq (hr : w'.reads = w.reads) (hn : w'.nextRead = w.nextRead)
    (ho : w'.objs = w.objs) : Still w w' := ⟨⟨hr, hn⟩, fun i => by rw [ho]⟩

theorem still_update (w : World) (m : ObjId) {f : Managed → Managed}
    (hf : ∀ o, (f o).pollInProgress = o.pollInProgress) : Still w (w.update m f) := by
  refine ⟨sameReads_update w m f, fun i => ?_⟩
  by_cases hi : i = m
  · rw [hi, update_objs_self, hf]
  · rw [update_objs_of_ne w f hi]

theorem still_setHandle (w : World) (m : ObjId) (k : TimerKind) (t : Option TimerId) :
    Still w (w.update m (·.setHandle k t)) := still_update w m fun o => by cases k <;> rfl

theorem still_disarm (k : TimerKind) (w : World) (m : ObjId) : Still w (disarm k w m) := by
  unfold disarm
  split
  · exact Still.refl w
  · rename_i t _
    have h1 : Still w (w.clearTimer t) := still_of_eq rfl rfl rfl
    exact h1.trans (still_setHandle _ m k none)

theorem still_dropClient (w : World) (m : ObjId) : Still w (w.dropClient m) := by
  have h1 : Still w (w.closeClient m) := by
    unfold closeClient
    split <;> exact still_of_eq rfl rfl rfl
  exact h1.trans (still_update _ m (f := ({ · with client := none })) fun _ => rfl)

theorem still_disconnectAndCleanup (w : World) (m : ObjId) : Still w (w.disconnectAndCleanup m) := by
  have h1 := ((still_disarm .polling w m).trans (still_disarm .reconnect _ m)).trans
    (still_dropClient _ m)
  have h2 := h1.trans (still_update _ m (f := ({ · with state := .disconnected })) fun _ => rfl)
  have h3 := h2.trans (still_update _ m (f := ({ · with connecting := false })) fun _ => rfl)
  exact h3.trans (still_update _ m (f := ({ · with errorMessage := none })) fun _ => rfl)

theorem still_initiateConnection (p : Protocol) (w : World) (m : ObjId) :
    Still w (initiateConnection p w m) := by
  have h : ∀ args, Still w (connectWith args w m) := fun args => by
    unfold connectWith
    split_ifs
    · exact Still.refl w
    · have h1 : Still w (w.setConnecting m true) := still_update w m fun _ => rfl
      have h2 : Still (w.setConnecting m true)
          ((w.setConnecting m true).createClient m (args (w.objs m))) := still_of_eq rfl rfl rfl
      have h3 := (h1.trans h2).trans
        (still_update _ m (f := ({ · with client := some w.nextClient })) fun _ => rfl)
      exact h3.trans (still_of_eq rfl rfl rfl)
  cases p <;> exact h _

theorem still_foldl {f : World → ObjId → World} (hf : ∀ w m, Still w (f w m)) (l : List ObjId)
    (w : World) : Still w (l.foldl f w) :=
  Machine.run_related (Still.refl w) Still.trans fun w m _ _ => hf w m

theorem still_start (p : Protocol) (w : World) : Still w (start p w) := by
  unfold start
  split_ifs
  · exact Still.refl w
  · have h1 : Still w { w with running := true } := still_of_eq rfl rfl rfl
    refine h1.trans (still_foldl (fun w m => ?_) _ _)
    unfold startOne
    split_ifs
    · exact still_initiateConnection p w m
    · exact Still.refl w

theorem still_stop (w : World) : Still w (stop w) := by
  unfold stop
  split_ifs
  · exact Still.refl w
  · have h1 : Still w { w with running := false } := still_of_eq rfl rfl rfl
    exact h1.trans (still_foldl still_disconnectAndCleanup _ _)

theorem still_removeConnection (w : World) (id : String) : Still w (removeConnection w id).1 := by
  unfold removeConnection
  split
  · exact Still.refl w
  · exact (still_disconnectAndCleanup w _).trans (still_of_eq rfl rfl rfl)

/-- The update of a connection there is. -/
theorem still_updateConnection {config : ConnectionConfig}
    (hm : w.connections.get? config.id = some m) : Still w (updateConnection p w config).1 := by
  have h1 := still_disconnectAndCleanup w m
  unfold updateConnection
  rw [hm]
  dsimp only
  split
  · exact h1
  · have h2 := h1.trans (still_update _ m
      (f := fun o => { o with config := config, params := ‹List (String × Json)› }) fun _ => rfl)
    split_ifs
    · exact h2.trans (still_initiateConnection p _ m)
    · exact h2

theorem still_reconnectTick (h : WF p w) {t : TimerId}
    (ha : actor w (.reconnectTick t) = some m) : Still w (step p w (.reconnectTick t)) := by
  obtain ⟨ms, ht⟩ := actor_tick ha
  have h1 := still_disarm .reconnect w m
  rw [step, onReconnectTick_eq h ht]
  split_ifs
  · exact h1
  · have h2 := (h1.trans (still_dropClient _ m)).trans
      (still_update _ m (f := ({ · with state := .disconnected })) fun _ => rfl)
    exact h2.trans (still_initiateConnection p _ m)

theorem still_addMapping (p : Protocol) (w : World) (mapping : Mapping) :
    Still w (step p w (.addMapping mapping)) := by
  rcases addMapping_cases p w mapping with ⟨e, he⟩ | ⟨m, -, -, he⟩ <;> rw [step, he]
  · exact Still.refl w
  · have h1 : Still w (w.setMappings m (·.set mapping.id mapping)) := still_update w m fun _ => rfl
    refine h1.trans ?_
    unfold pushItem
    split <;> exact still_of_eq rfl rfl rfl

theorem still_removeMapping (p : Protocol) (w : World) (id : String) :
    Still w (step p w (.removeMapping id)) := by
  rcases removeMapping_cases p w id with ⟨-, e, he⟩ | ⟨m, mp, -, -, -, he⟩ <;> rw [step, he]
  · exact Still.refl w
  · have h1 : Still w (w.setMappings m (·.delete id)) := still_update w m fun _ => rfl
    refine h1.trans ?_
    unfold dropItem
    split <;> exact still_of_eq rfl rfl rfl

theorem sameReads_emitValueUpdates (w : World) (m : ObjId) (us : List ValueUpdate) :
    SameReads w (w.emitValueUpdates m us) := by
  unfold emitValueUpdates
  split_ifs <;> exact ⟨rfl, rfl⟩

theorem sameReads_emitQualityUpdate (w : World) (m : ObjId) (q : Quality) :
    SameReads w (w.emitQualityUpdate m q) := by
  have hcache : ∀ w mp, SameReads w (cacheQuality m q w mp) := fun w mp => by
    unfold cacheQuality
    split
    · exact ⟨rfl, rfl⟩
    · split_ifs <;> exact ⟨rfl, rfl⟩
  exact (sameReads_foldl hcache _ w).trans (sameReads_emitValueUpdates _ m _)

theorem sameReads_deliver (w : World) (m : ObjId) (answers : List (Mapping × Answer)) :
    SameReads w (w.deliver m answers) :=
  (sameReads_foldl (f := cacheAnswer m) (fun _ _ => ⟨rfl, rfl⟩) answers w).trans
    (sameReads_emitValueUpdates _ m _)

theorem sameReads_scheduleReconnect (w : World) (m : ObjId) : SameReads w (w.scheduleReconnect m) :=
  (still_disarm .reconnect w m).toSameReads.trans ⟨rfl, rfl⟩

theorem sameReads_handleConnectionError (w : World) (m : ObjId) (e : JsError) :
    SameReads w (w.handleConnectionError m e) := by
  have h1 : SameReads w ((w.setState m (stateAfterError (w.objs m).state)).setErrorMessage m
    (some (errorText e))) := ⟨rfl, rfl⟩
  have h2 := (h1.trans (still_disarm .polling _ m).toSameReads).trans (sameReads_emitQualityUpdate _ m .bad)
  unfold handleConnectionError
  dsimp only
  split_ifs
  · exact h2.trans (sameReads_scheduleReconnect _ m)
  · exact h2

theorem sameReads_registerMappings (p : Protocol) (w : World) (m : ObjId) (c : ClientId) :
    SameReads w (registerMappings p w m c) := by
  cases p with
  | s7 =>
      simp only [registerMappings]
      split_ifs <;> exact ⟨rfl, rfl⟩
  | _ => exact SameReads.refl w

/-! ## Polls -/

/-- The continuations of a protocol's reads. -/
def Cont.isOf (p : Protocol) : Cont → Bool
  | .items => p = .s7 || p = .pccc
  | .tags _ => p = .ethernetIp
  | .address _ _ _ _ => p = .modbusTcp

/-- Reads are numbered in the order in which they are asked, and are of the protocol. -/
def ReadsOf (p : Protocol) (w : World) : Prop :=
  ∀ r read, w.reads r = some read → r < w.nextRead ∧ read.cont.isOf p = true

theorem SameReads.readsOf (h : SameReads w w') (hw : ReadsOf p w) : ReadsOf p w' := by
  unfold ReadsOf
  rw [h.reads, h.nextRead]
  exact hw

/-- A poll of `m`, or none: one more read over the client that `m` holds, and the flag. -/
def Polled (p : Protocol) (m : ObjId) (w w' : World) : Prop :=
  SameReads w w' ∧ (w'.objs m).pollInProgress = (w.objs m).pollInProgress ∨
  ∃ c k, (w.objs m).client = some c ∧ k.isOf p = true ∧ (w'.objs m).pollInProgress = true ∧
    w'.reads = Function.update w.reads w.nextRead (some ⟨m, some c, k⟩) ∧
    w'.nextRead = w.nextRead + 1

theorem polled_poll (hp : p = .ethernetIp ∨ p = .pccc) (w : World) (m : ObjId) :
    Polled p m w (poll p w m) := by
  have hsame : Polled p m w w := Or.inl ⟨SameReads.refl w, rfl⟩
  have hask : ∀ c k, (w.objs m).client = some c → k.isOf p = true →
      Polled p m w ((w.setPollInProgress m true).issueRead ⟨m, some c, k⟩) := fun c k hc hk =>
    Or.inr ⟨c, k, hc, hk, by
      change ((w.setPollInProgress m true).objs m).pollInProgress = true
      rw [setPollInProgress, update_objs_self], rfl, rfl⟩
  rcases hp with rfl | rfl
  · simp only [poll, EthernetIp.poll, EthernetIp.pollTags]
    cases hc : (w.objs m).client with
    | none =>
        simp only [Option.isNone_none, Bool.or_true, if_true]
        exact hsame
    | some c =>
        split_ifs
        any_goals exact hsame
        exact hask c _ hc rfl
  · simp only [poll, Pccc.poll, Pccc.pollAddresses]
    cases hc : (w.objs m).client with
    | none =>
        simp only [Option.isNone_none, Bool.or_true, if_true]
        exact hsame
    | some c =>
        split_ifs
        any_goals exact hsame
        exact hask c _ hc rfl

theorem Polled.before (h : SameReads w w') (ho : (w'.objs m).pollInProgress =
    (w.objs m).pollInProgress) (hc : (w'.objs m).client = (w.objs m).client)
    (h' : Polled p m w' w'') : Polled p m w w'' := by
  rcases h' with ⟨hs, hf⟩ | ⟨c, k, hcl, hk, hf, hr, hn⟩
  · exact Or.inl ⟨h.trans hs, hf.trans ho⟩
  · exact Or.inr ⟨c, k, by rw [← hc, hcl], hk, hf, by rw [hr, h.reads, h.nextRead],
      by rw [hn, h.nextRead]⟩

theorem Polled.after (h : Polled p m w w') (h' : SameReads w' w'') (ho :
    (w''.objs m).pollInProgress = (w'.objs m).pollInProgress) : Polled p m w w'' := by
  rcases h with ⟨hs, hf⟩ | ⟨c, k, hcl, hk, hf, hr, hn⟩
  · exact Or.inl ⟨hs.trans h', ho.trans hf⟩
  · exact Or.inr ⟨c, k, hcl, hk, ho.trans hf, by rw [h'.reads, hr], by rw [h'.nextRead, hn]⟩

theorem Polled.keeps (h : Polled p m w w') (hw : ReadsOf p w) {r : ReadId} {read : Read}
    (hr : w.reads r = some read) : w'.reads r = some read := by
  rcases h with ⟨hs, -⟩ | ⟨c, k, -, -, -, hreads, -⟩
  · rw [hs.reads, hr]
  · rw [hreads, Function.update_of_ne (Nat.ne_of_lt (hw r read hr).1), hr]

theorem Polled.readsOf (h : Polled p m w w') (hw : ReadsOf p w) : ReadsOf p w' := by
  rcases h with ⟨hs, -⟩ | ⟨c, k, -, hk, -, hreads, hnext⟩
  · exact hs.readsOf hw
  · intro r read hr
    rw [hreads] at hr
    rw [hnext]
    by_cases hrn : r = w.nextRead
    · rw [hrn, Function.update_self] at hr
      obtain rfl := Option.some.inj hr
      exact ⟨by rw [hrn]; exact Nat.lt_succ_self _, hk⟩
    · rw [Function.update_of_ne hrn] at hr
      obtain ⟨hlt, hof⟩ := hw r read hr
      exact ⟨Nat.lt_succ_of_lt hlt, hof⟩

theorem polled_onConnected (hp : p = .ethernetIp ∨ p = .pccc) (w : World) (m : ObjId)
    (c : ClientId) : Polled p m w (onConnected p w m c) := by
  have h1 : SameReads w ((w.setState m .connected).setErrorMessage m none) :=
    (sameReads_update w m _).trans (sameReads_update _ m _)
  have h2 := (h1.trans (sameReads_registerMappings p _ m c)).trans
    (sameReads_emitQualityUpdate _ m .good)
  have hobj : (((registerMappings p ((w.setState m .connected).setErrorMessage m none) m c
      ).emitQualityUpdate m .good).objs m) =
      { w.objs m with state := .connected, errorMessage := none } := by
    rw [emitQualityUpdate_objs, registerMappings_objs]
    simp only [setErrorMessage, setState, update_objs_self]
  unfold onConnected startPollingWith
  dsimp only
  split_ifs
  · exact Or.inl ⟨h2, by rw [hobj]⟩
  · refine ((polled_poll hp _ m).before h2 (by rw [hobj]) (by rw [hobj])).after ⟨rfl, rfl⟩ ?_
    rw [arm_objs_self]
    rfl

theorem sameReads_reported (p : Protocol) (w : World) (c : ClientId) (err : Option JsError) :
    SameReads w (reported p w c err) := by
  unfold reported
  split_ifs <;> exact ⟨rfl, rfl⟩

/-- A connect's report starts one poll at most, and leaves the object its client. -/
theorem polled_connectReport (hp : p = .ethernetIp ∨ p = .pccc) (h : WF p w) {c : ClientId}
    {err : Option JsError} (ha : actor w (.connectReport c err) = some m) :
    Polled p m w (step p w (.connectReport c err)) ∧
      ((step p w (.connectReport c err)).objs m).client = (w.objs m).client := by
  obtain ⟨hlt, hpending, rfl, hstep⟩ := actor_connectReport (p := p) ha
  have h1 := h.ok_reported hlt err
  have hm := h1.lt (h.owner c hlt)
  have h2 := h1.wf.ok_setConnecting hm false
  have hs : SameReads w ((reported p w c err).setConnecting (w.clients c).owner false) :=
    (sameReads_reported p w c err).trans ⟨rfl, rfl⟩
  have hobj : ((reported p w c err).setConnecting (w.clients c).owner false).objs (w.clients c).owner =
      { w.objs (w.clients c).owner with connecting := false } := by
    rw [setConnecting, update_objs_self, reported_objs]
  rw [hstep]
  rcases onConnect_cases p (reported p w c err) (w.clients c).owner err with
    ⟨-, -, e⟩ | ⟨-, -, er, e⟩ | ⟨-, c', hc', e⟩ <;> rw [e]
  · exact ⟨Or.inl ⟨hs, by rw [hobj]⟩, by rw [hobj]⟩
  · have hself := handleConnectionError_self
      ((reported p w c err).setConnecting (w.clients c).owner false) (w.clients c).owner er
    refine ⟨Or.inl ⟨hs.trans (sameReads_handleConnectionError _ _ er), ?_⟩, ?_⟩ <;>
      rw [hself, hobj]
  · refine ⟨(polled_onConnected hp _ _ c').before hs (by rw [hobj]) (by rw [hobj]), ?_⟩
    obtain ⟨l, b, t, ho⟩ := onConnected_self h2.wf (h2.lt hm)
      ((setConnecting_client _ _ false).trans hc')
    rw [ho, hobj]

/-! ## Answers -/

/-- The answers that a protocol's library gives. -/
def ReadResult.isOf (p : Protocol) : ReadResult → Bool
  | .items _ => p = .s7
  | .data _ => p = .modbusTcp
  | .tags _ => p = .ethernetIp
  | .found _ _ => p = .pccc
  | .failed _ => p ≠ .pccc

theorem setPollInProgress_self (w : World) (m : ObjId) (b : Bool) :
    ((w.setPollInProgress m b).objs m).pollInProgress = b := by
  rw [setPollInProgress, update_objs_self]

theorem deliver_objs (w : World) (m : ObjId) (answers : List (Mapping × Answer)) :
    (w.deliver m answers).objs = w.objs := by
  rw [deliver, emitValueUpdates_objs, foldl_objs (f := cacheAnswer m) (fun _ _ => rfl)]

theorem answersRead_of_isOf {cont : Cont} {result : ReadResult} (hof : cont.isOf p = true)
    (hresult : result.isOf p = true) : answersRead p cont result = true := by
  cases p <;> cases cont <;> cases result <;> first | rfl | (cases hof; done) | cases hresult

/-- The handler of a read asks for no other, and clears the flag. -/
theorem sameReads_onRead (hp : p = .ethernetIp ∨ p = .pccc) (w : World) {read : Read}
    {result : ReadResult} (hof : read.cont.isOf p = true) (hresult : result.isOf p = true) :
    SameReads w (onRead p w read result) ∧
      ((onRead p w read result).objs read.obj).pollInProgress = false := by
  have hclear : SameReads w (w.setPollInProgress read.obj false) := sameReads_update w _ _
  have hpolled : SameReads w (w.setLastPollAt read.obj) := sameReads_update w _ _
  have h := handling_onRead p w read result
  generalize onRead p w read result = w' at h ⊢
  cases h with
  | tags m client mappings values =>
      refine ⟨?_, setPollInProgress_self _ m false⟩
      exact (hpolled.trans (sameReads_deliver _ m (EthernetIp.answers mappings values))).trans
        (sameReads_update _ m ({ · with pollInProgress := false }))
  | tagsLost m client mappings e =>
      refine ⟨hclear.trans (sameReads_handleConnectionError _ m e), ?_⟩
      rw [handleConnectionError_self]
      exact setPollInProgress_self w m false
  | tagsFailed m client mappings e =>
      refine ⟨hclear.trans (sameReads_emitQualityUpdate _ m .bad), ?_⟩
      rw [emitQualityUpdate_objs]
      exact setPollInProgress_self w m false
  | clientGone m => exact ⟨hclear, setPollInProgress_self w m false⟩
  | allBad m =>
      refine ⟨hclear.trans (sameReads_handleConnectionError _ m _), ?_⟩
      rw [handleConnectionError_self]
      exact setPollInProgress_self w m false
  | found m client anythingBad found =>
      refine ⟨(hclear.trans (sameReads_update _ m _)).trans
        (sameReads_deliver _ m (Pccc.answers _ found)), ?_⟩
      rw [deliver_objs, setLastPollAt, update_objs_self]
      exact setPollInProgress_self w m false
  | dropped _ _ _ hdropped =>
      rw [answersRead_of_isOf hof hresult] at hdropped
      cases hdropped
  | _ => rcases hp with hp | hp <;> cases hp

/-- An answer clears the flag, and no other read is answered by it. -/
theorem readReport_answered (hp : p = .ethernetIp ∨ p = .pccc) (hw : ReadsOf p w) {r : ReadId}
    {result : ReadResult} (hresult : result.isOf p = true) {read : Read}
    (hr : w.reads r = some read) :
    ((step p w (.readReport r result)).objs read.obj).pollInProgress = false ∧
      (step p w (.readReport r result)).reads = Function.update w.reads r none ∧
      (step p w (.readReport r result)).nextRead = w.nextRead := by
  obtain ⟨hs, hflag⟩ := sameReads_onRead hp ((w.takeRead r).report (valueReports w read result))
    (hw r read hr).2 hresult
  simp only [Connector.step, onReadReport, hr]
  exact ⟨hflag, hs.reads, hs.nextRead⟩

end OpcuaLight.Connector
