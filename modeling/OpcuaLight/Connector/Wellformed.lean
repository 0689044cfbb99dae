import OpcuaLight.Connector.Frame

/-!
# Well-formed states

The invariant that every reachable state has: an object's client is its own and not closed, its two
handles are exactly its armed timers, its mappings are filed under their ids (and parse, for
Modbus), and every tracked object stands under its connection id (`WF`). `Ok m w w'` says of a piece
of code that it acts for `m` and keeps this; one lemma for each method.
-/

namespace OpcuaLight.Connector

open World

/-- What holds of one object. -/
structure Local (p : Protocol) (w : World) (m : ObjId) : Prop where
  client : ∀ c, (w.objs m).client = some c →
    c < w.nextClient ∧ (w.clients c).owner = m ∧ (w.clients c).closed = false
  armed : ∀ k t, (w.objs m).handle k = some t →
    t < w.nextTimer ∧ ∃ ms, w.timers t = some ⟨k, m, ms⟩
  timer : ∀ t x, w.timers t = some x → x.obj = m → (w.objs m).handle x.kind = some t
  mapping : ∀ id mp, (w.objs m).mappings.get? id = some mp →
    mp.id = id ∧ mp.connectionId = (w.objs m).config.id ∧
      (p = .modbusTcp → ∃ a, parseDeviceAddress mp.deviceAddress = .ok a)

structure WF (p : Protocol) (w : World) : Prop where
  tracked : ∀ id m, w.connections.get? id = some m → m < w.nextObj ∧ (w.objs m).config.id = id
  obj : ∀ m, Local p w m
  owner : ∀ c < w.nextClient, (w.clients c).owner < w.nextObj
  timer : ∀ t x, w.timers t = some x → t < w.nextTimer ∧ x.obj < w.nextObj
  read : ∀ r x, w.reads r = some x → x.obj < w.nextObj ∧
    ∀ c, x.client = some c → c < w.nextClient ∧ (w.clients c).owner = x.obj

variable {p : Protocol} {w w' w'' : World} {m : ObjId}

theorem WF.lt_of_tracked (h : WF p w) (hm : w.Tracked m) : m < w.nextObj := by
  obtain ⟨id, hid⟩ := JsMap.mem_values_iff.mp hm
  exact (h.tracked id m hid).1

/-- Two tracked objects of one connection id are one. -/
theorem WF.get?_config (h : WF p w) (hm : w.Tracked m) :
    w.connections.get? (w.objs m).config.id = some m := by
  obtain ⟨id, hid⟩ := JsMap.mem_values_iff.mp hm
  rw [(h.tracked id m hid).2, hid]

/-- Code that acts for `m` keeps the invariant if it keeps it of `m`. -/
theorem WF.of_acts (h : WF p w) (hm : m < w.nextObj) (ha : Acts m w w') (hl : Local p w' m) :
    WF p w' where
  tracked := fun id i hi => by
    rw [ha.connections] at hi
    obtain ⟨hlt, hid⟩ := h.tracked id i hi
    refine ⟨by rw [ha.nextObj]; exact hlt, ?_⟩
    by_cases him : i = m
    · rw [him] at hid ⊢
      rw [ha.configId, hid]
    · rw [ha.objs i him, hid]
  obj := fun i => by
    by_cases him : i = m
    · rw [him]
      exact hl
    · have hi := h.obj i
      constructor
      · intro c hc
        rw [ha.objs i him] at hc
        obtain ⟨hlt, hown, hcl⟩ := hi.client c hc
        have hsame := ha.clients c hlt (by rw [hown]; exact him)
        exact ⟨lt_of_lt_of_le hlt ha.nextClient, by rw [hsame]; exact ⟨hown, hcl⟩⟩
      · intro k t ht
        rw [ha.objs i him] at ht
        obtain ⟨hlt, ms, hms⟩ := hi.armed k t ht
        exact ⟨lt_of_lt_of_le hlt ha.nextTimer, ms, (ha.timers t _ him).mpr hms⟩
      · intro t x hx hxi
        rw [ha.objs i him]
        exact hi.timer t x ((ha.timers t x (by rw [hxi]; exact him)).mp hx) hxi
      · rw [ha.objs i him]
        exact hi.mapping
  owner := fun c hc => by
    rw [ha.nextObj]
    by_cases hold : c < w.nextClient
    · rw [ha.owner c hold]
      exact h.owner c hold
    · rw [ha.newClients c (not_lt.mp hold) hc]
      exact hm
  timer := fun t x hx => by
    rw [ha.nextObj]
    by_cases hxm : x.obj = m
    · exact ⟨(hl.armed _ _ (hl.timer t x hx hxm)).1, by rw [hxm]; exact hm⟩
    · obtain ⟨ht, hobj⟩ := h.timer t x ((ha.timers t x hxm).mp hx)
      exact ⟨lt_of_lt_of_le ht ha.nextTimer, hobj⟩
  read := fun r x hx => by
    rw [ha.nextObj]
    rcases ha.reads r x hx with hx | ⟨ho, hc⟩
    · obtain ⟨hobj, hcl⟩ := h.read r x hx
      refine ⟨hobj, fun c hc => ?_⟩
      obtain ⟨hlt, hown⟩ := hcl c hc
      exact ⟨lt_of_lt_of_le hlt ha.nextClient, by rw [ha.owner c hlt, hown]⟩
    · exact ⟨by rw [ho]; exact hm, by rw [ho]; exact hc⟩

/-! ## Code that acts for an object and keeps the invariant -/

structure Ok (p : Protocol) (m : ObjId) (w w' : World) : Prop where
  acts : Acts m w w'
  wf : WF p w'

theorem Ok.trans (h : Ok p m w w') (h' : Ok p m w' w'') : Ok p m w w'' :=
  ⟨h.acts.trans h'.acts, h'.wf⟩

theorem Ok.lt (h : Ok p m w w') (hm : m < w.nextObj) : m < w'.nextObj := by
  rw [h.acts.nextObj]
  exact hm

theorem WF.ok_refl (h : WF p w) (m : ObjId) : Ok p m w w := ⟨Acts.refl m w, h⟩

theorem WF.ok_passive (h : WF p w) (hm : m < w.nextObj) (hp : Passive m w w') : Ok p m w w' := by
  have hl := h.obj m
  have ha := hp.acts (fun c hc => ⟨(hl.client c hc).1, (hl.client c hc).2.1⟩)
  refine ⟨ha, h.of_acts hm ha ⟨?_, ?_, ?_, ?_⟩⟩
  · rw [hp.client, hp.nextClient, hp.clients]
    exact hl.client
  · intro k t ht
    rw [hp.handle] at ht
    rw [hp.nextTimer, hp.timers]
    exact hl.armed k t ht
  · intro t x hx hxm
    rw [hp.timers] at hx
    rw [hp.handle]
    exact hl.timer t x hx hxm
  · rw [hp.mappings, hp.config]
    exact hl.mapping

/-- An assignment to fields that the invariant does not speak of. -/
theorem WF.ok_update (h : WF p w) (hm : m < w.nextObj) (f : Managed → Managed)
    (hclient : (f (w.objs m)).client = (w.objs m).client)
    (hhandle : ∀ k, (f (w.objs m)).handle k = (w.objs m).handle k)
    (hmappings : (f (w.objs m)).mappings = (w.objs m).mappings)
    (hid : (f (w.objs m)).config.id = (w.objs m).config.id) : Ok p m w (w.update m f) := by
  have hl := h.obj m
  have ha := acts_update w m f hid
  refine ⟨ha, h.of_acts hm ha ⟨?_, ?_, ?_, ?_⟩⟩
  · rw [update_objs_self, hclient]
    exact hl.client
  · intro k t ht
    rw [update_objs_self, hhandle] at ht
    exact hl.armed k t ht
  · intro t x hx hxm
    rw [update_objs_self, hhandle]
    exact hl.timer t x hx hxm
  · rw [update_objs_self, hmappings, hid]
    exact hl.mapping

theorem WF.ok_setState (h : WF p w) (hm : m < w.nextObj) (s : ConnectionState) :
    Ok p m w (w.setState m s) := h.ok_update hm _ rfl (fun k => by cases k <;> rfl) rfl rfl

theorem WF.ok_setErrorMessage (h : WF p w) (hm : m < w.nextObj) (e : Option String) :
    Ok p m w (w.setErrorMessage m e) := h.ok_update hm _ rfl (fun k => by cases k <;> rfl) rfl rfl

theorem WF.ok_setConnecting (h : WF p w) (hm : m < w.nextObj) (b : Bool) :
    Ok p m w (w.setConnecting m b) := h.ok_update hm _ rfl (fun k => by cases k <;> rfl) rfl rfl

theorem WF.ok_setMappings (h : WF p w) (hm : m < w.nextObj)
    (f : JsMap String Mapping → JsMap String Mapping)
    (hf : ∀ id mp, (f (w.objs m).mappings).get? id = some mp →
      mp.id = id ∧ mp.connectionId = (w.objs m).config.id ∧
        (p = .modbusTcp → ∃ a, parseDeviceAddress mp.deviceAddress = .ok a)) :
    Ok p m w (w.setMappings m f) := by
  have hl := h.obj m
  have ha : Acts m w (w.setMappings m f) := acts_update w m _ rfl
  refine ⟨ha, h.of_acts hm ha ⟨?_, ?_, ?_, ?_⟩⟩
  · rw [setMappings, update_objs_self]
    exact hl.client
  · intro k t ht
    rw [setMappings, update_objs_self] at ht
    exact hl.armed k t (by rw [← ht]; cases k <;> rfl)
  · intro t x hx hxm
    rw [setMappings, update_objs_self]
    rw [← hl.timer t x hx hxm]
    cases x.kind <;> rfl
  · rw [setMappings, update_objs_self]
    exact hf

/-! ## Clients -/

theorem WF.ok_dropClient (h : WF p w) (hm : m < w.nextObj) : Ok p m w (w.dropClient m) := by
  have hl := h.obj m
  have hclose : Acts m w (w.closeClient m) := by
    unfold closeClient
    split
    · exact Acts.refl m w
    · rename_i c hc
      exact acts_updateClient w (hl.client c hc).2.1 _ rfl
  have ha : Acts m w (w.dropClient m) := 
    hclose.trans (acts_update _ m ({ · with client := none }) rfl)
  have hobj : (w.dropClient m).objs m = { w.objs m with client := none } := by
    unfold dropClient closeClient
    split <;> exact update_objs_self _ _ _
  have htimers : (w.dropClient m).timers = w.timers ∧ (w.dropClient m).nextTimer = w.nextTimer := by
    unfold dropClient closeClient
    split <;> exact ⟨rfl, rfl⟩
  refine ⟨ha, h.of_acts hm ha ⟨?_, ?_, ?_, ?_⟩⟩
  · intro c hc
    rw [hobj] at hc
    cases hc
  · intro k t ht
    rw [hobj] at ht
    rw [htimers.1, htimers.2]
    exact hl.armed k t (by rw [← ht]; cases k <;> rfl)
  · intro t x hx hxm
    rw [htimers.1] at hx
    rw [hobj, ← hl.timer t x hx hxm]
    cases x.kind <;> rfl
  · rw [hobj]
    exact hl.mapping

/-- A change of a client that neither hands it on nor closes it. -/
theorem WF.ok_updateClient (h : WF p w) (hm : m < w.nextObj) {c : ClientId}
    (hc : (w.clients c).owner = m) (f : Client → Client)
    (howner : (f (w.clients c)).owner = (w.clients c).owner)
    (hclosed : (f (w.clients c)).closed = (w.clients c).closed) :
    Ok p m w (w.updateClient c f) := by
  have hl := h.obj m
  have ha := acts_updateClient w hc f howner
  refine ⟨ha, h.of_acts hm ha ⟨fun c' hc' => ?_, hl.armed, hl.timer, hl.mapping⟩⟩
  obtain ⟨hlt, hown, hcl⟩ := hl.client c' hc'
  by_cases hcc : c' = c
  · rw [hcc] at hlt hown hcl ⊢
    rw [updateClient_self, howner, hclosed]
    exact ⟨hlt, hown, hcl⟩
  · rw [updateClient_of_ne w f hcc]
    exact ⟨hlt, hown, hcl⟩

theorem WF.ok_addItems (h : WF p w) (hm : m < w.nextObj) {c : ClientId}
    (hc : (w.objs m).client = some c) (as : List String) : Ok p m w (w.addItems c as) :=
  h.ok_updateClient hm ((h.obj m).client c hc).2.1 _ rfl rfl

theorem WF.ok_removeItems (h : WF p w) (hm : m < w.nextObj) {c : ClientId}
    (hc : (w.objs m).client = some c) (a : String) : Ok p m w (w.removeItems c a) :=
  h.ok_updateClient hm ((h.obj m).client c hc).2.1 _ rfl rfl

theorem WF.ok_setHandshake (h : WF p w) (hm : m < w.nextObj) {c : ClientId}
    (hc : (w.clients c).owner = m) (s : Handshake) :
    Ok p m w (w.updateClient c ({ · with handshake := s })) := h.ok_updateClient hm hc _ rfl rfl

/-- What the invariant does not speak of may change. -/
theorem WF.ok_of_same (h : WF p w) (hm : m < w.nextObj) (ha : Acts m w w')
    (hobjs : w'.objs m = w.objs m) (hclients : w'.clients = w.clients)
    (hnextClient : w'.nextClient = w.nextClient) (htimers : w'.timers = w.timers)
    (hnextTimer : w'.nextTimer = w.nextTimer) : Ok p m w w' := by
  obtain ⟨hc, har, ht, hmp⟩ := h.obj m
  refine ⟨ha, h.of_acts hm ha ⟨?_, ?_, ?_, ?_⟩⟩
  · rw [hobjs, hclients, hnextClient]
    exact hc
  · rw [hobjs, htimers, hnextTimer]
    exact har
  · rw [hobjs, htimers]
    exact ht
  · rw [hobjs]
    exact hmp

theorem WF.ok_report (h : WF p w) (hm : m < w.nextObj) (rs : List Report) : Ok p m w (w.report rs) :=
  h.ok_of_same hm (acts_report w m rs) rfl rfl rfl rfl rfl

theorem WF.ok_takeRead (h : WF p w) (hm : m < w.nextObj) (r : ReadId) : Ok p m w (w.takeRead r) :=
  h.ok_of_same hm (acts_takeRead w m r) rfl rfl rfl rfl rfl

theorem WF.ok_forgetValue (h : WF p w) (hm : m < w.nextObj) (id : String) :
    Ok p m w (w.forgetValue id) :=
  h.ok_of_same hm (acts_forgetValue w m id) rfl rfl rfl rfl rfl

theorem WF.ok_connectWith (h : WF p w) (hm : m < w.nextObj) (args : Managed → List Json) :
    Ok p m w (connectWith args w m) := by
  unfold connectWith
  split_ifs
  · exact h.ok_refl m
  · have hl := h.obj m
    have ha : Acts m w _ := (((acts_update w m ({ · with connecting := true }) rfl).trans
      (acts_createClient _ m (args (w.objs m)))).trans
      (acts_update _ m ({ · with client := some w.nextClient }) rfl)).trans
      (acts_act _ m (.clientCreated w.nextClient (args (w.objs m))))
    refine ⟨ha, h.of_acts hm ha ⟨?_, ?_, ?_, ?_⟩⟩
    all_goals
      simp only [act, setClient, setConnecting, update_objs_self]
    · intro c hc
      obtain rfl := Option.some.inj hc
      refine ⟨Nat.lt_succ_self _, ?_⟩
      exact ⟨congrArg Client.owner (createClient_new (w.setConnecting m true) m _),
        congrArg Client.closed (createClient_new (w.setConnecting m true) m _)⟩
    · intro k t ht
      refine hl.armed k t ?_
      rw [← ht]
      cases k <;> simp [Managed.handle, createClient]
    · intro t x hx hxm
      rw [← hl.timer t x hx hxm]
      cases x.kind <;> simp [Managed.handle, createClient]
    · intro id mp hmp
      have := hl.mapping id mp (by simpa [createClient] using hmp)
      simpa [createClient] using this

/-! ## Timers -/

theorem WF.acts_disarm (h : WF p w) (m : ObjId) (k : TimerKind) : Acts m w (disarm k w m) := by
  unfold disarm
  split
  · exact Acts.refl m w
  · rename_i t ht
    obtain ⟨-, ms, hms⟩ := (h.obj m).armed k t ht
    have hclear : Acts m w (w.clearTimer t) := by
      refine { Acts.refl m w with timers := fun t' x hx => ?_, reads := fun r x hx => Or.inl hx }
      change Function.update w.timers t none t' = some x ↔ _
      by_cases htt : t' = t
      · rw [htt, Function.update_self, hms]
        constructor
        · intro hn
          cases hn
        · intro hs
          obtain rfl := Option.some.inj hs
          exact absurd rfl hx
      · rw [Function.update_of_ne htt]
    exact hclear.trans (acts_update _ m (·.setHandle k none) (by rw [Managed.setHandle_config]))

theorem disarm_objs_self (k : TimerKind) (w : World) (m : ObjId) :
    (disarm k w m).objs m = (w.objs m).setHandle k none := by
  unfold disarm
  split
  · rename_i hn
    cases k <;> simp only [Managed.handle] at hn <;> simp only [Managed.setHandle, ← hn]
  · exact update_objs_self _ _ _

theorem disarm_timers {k : TimerKind} {w : World} {m : ObjId} {t : TimerId} {x : Timer}
    (h : (disarm k w m).timers t = some x) :
    w.timers t = some x ∧ (w.objs m).handle k ≠ some t := by
  unfold disarm at h
  split at h
  · rename_i hn
    exact ⟨h, by rw [hn]; simp⟩
  · rename_i t' ht
    change Function.update w.timers t' none t = some x at h
    by_cases htt : t = t'
    · rw [htt, Function.update_self] at h
      cases h
    · rw [Function.update_of_ne htt] at h
      exact ⟨h, fun he => htt (Option.some.inj (he.symm.trans ht))⟩

theorem disarm_timers_of_ne {k : TimerKind} {w : World} {m : ObjId} {t : TimerId}
    (h : (w.objs m).handle k ≠ some t) : (disarm k w m).timers t = w.timers t := by
  unfold disarm
  split
  · rfl
  · rename_i t' ht
    exact Function.update_of_ne (fun he => h (by rw [ht, he])) _ _

theorem disarm_rest (k : TimerKind) (w : World) (m : ObjId) :
    (disarm k w m).nextTimer = w.nextTimer ∧ (disarm k w m).clients = w.clients ∧
      (disarm k w m).nextClient = w.nextClient := by
  unfold disarm
  split <;> exact ⟨rfl, rfl, rfl⟩

theorem WF.ok_disarm (h : WF p w) (hm : m < w.nextObj) (k : TimerKind) :
    Ok p m w (disarm k w m) := by
  have hl := h.obj m
  have ha := h.acts_disarm m k
  obtain ⟨hnext, hclients, hnextClient⟩ := disarm_rest k w m
  refine ⟨ha, h.of_acts hm ha ⟨?_, ?_, ?_, ?_⟩⟩
  · rw [disarm_objs_self, Managed.setHandle_client, hclients, hnextClient]
    exact hl.client
  · intro k' t ht
    rw [disarm_objs_self, Managed.handle_setHandle] at ht
    split_ifs at ht with hk
    obtain ⟨hlt, ms, hms⟩ := hl.armed k' t ht
    refine ⟨by rw [hnext]; exact hlt, ms, ?_⟩
    rw [disarm_timers_of_ne, hms]
    intro he
    obtain ⟨-, ms', hms'⟩ := hl.armed k t he
    have := congrArg Timer.kind (Option.some.inj (hms.symm.trans hms'))
    exact hk this
  · intro t x hx hxm
    obtain ⟨hx', hne⟩ := disarm_timers hx
    have hh := hl.timer t x hx' hxm
    rw [disarm_objs_self, Managed.handle_setHandle, if_neg, hh]
    intro hk
    rw [hk] at hh
    exact hne hh
  · rw [disarm_objs_self, Managed.setHandle_mappings, Managed.setHandle_config]
    exact hl.mapping

theorem arm_objs_self (k : TimerKind) (w : World) (m : ObjId) :
    (arm k w m).objs m = (w.objs m).setHandle k (some w.nextTimer) := by
  simp only [arm, act, update_objs_self]
  rfl

/-- A timer is armed only where none of its kind is. -/
theorem WF.ok_arm (h : WF p w) (hm : m < w.nextObj) {k : TimerKind}
    (hk : (w.objs m).handle k = none) : Ok p m w (arm k w m) := by
  have hl := h.obj m
  have hnew : ∀ t, (arm k w m).timers t =
      Function.update w.timers w.nextTimer (some ⟨k, m, (w.objs m).intervalMs k⟩) t := fun _ => rfl
  have harm : Acts m w (w.armTimer ⟨k, m, (w.objs m).intervalMs k⟩) := by
    refine { Acts.refl m w with
      nextTimer := Nat.le_succ _
      timers := fun t x hx => ?_
      reads := fun r x hx => Or.inl hx }
    change Function.update w.timers _ _ t = some x ↔ _
    by_cases ht : t = w.nextTimer
    · rw [ht, Function.update_self]
      constructor
      · intro he
        obtain rfl := Option.some.inj he
        exact absurd rfl hx
      · intro he
        exact absurd (h.timer _ _ he).1 (lt_irrefl _)
    · rw [Function.update_of_ne ht]
  have ha : Acts m w (arm k w m) :=
    (harm.trans (acts_update _ m (·.setHandle k (some w.nextTimer))
      (by rw [Managed.setHandle_config]))).trans (acts_act _ m _)
  refine ⟨ha, h.of_acts hm ha ⟨?_, ?_, ?_, ?_⟩⟩
  · rw [arm_objs_self, Managed.setHandle_client]
    exact hl.client
  · intro k' t ht
    rw [arm_objs_self, Managed.handle_setHandle] at ht
    split_ifs at ht with hkk
    · obtain rfl := Option.some.inj ht
      exact ⟨Nat.lt_succ_self _, _, by rw [hnew, Function.update_self, hkk]⟩
    · obtain ⟨hlt, ms, hms⟩ := hl.armed k' t ht
      exact ⟨Nat.lt_succ_of_lt hlt, ms, by
        rw [hnew, Function.update_of_ne (Nat.ne_of_lt hlt), hms]⟩
  · intro t x hx hxm
    rw [arm_objs_self, Managed.handle_setHandle]
    rw [hnew] at hx
    by_cases ht : t = w.nextTimer
    · rw [ht, Function.update_self] at hx
      obtain rfl := Option.some.inj hx
      rw [if_pos rfl, ht]
    · rw [Function.update_of_ne ht] at hx
      have hh := hl.timer t x hx hxm
      rw [if_neg, hh]
      intro he
      rw [he, hk] at hh
      cases hh
  · rw [arm_objs_self, Managed.setHandle_mappings, Managed.setHandle_config]
    exact hl.mapping

/-! ## The methods of the base connector -/

theorem WF.ok_scheduleReconnect (h : WF p w) (hm : m < w.nextObj) :
    Ok p m w (w.scheduleReconnect m) := by
  have h1 := h.ok_disarm hm .reconnect
  refine h1.trans (h1.wf.ok_arm (h1.lt hm) ?_)
  rw [disarm_objs_self, Managed.handle_setHandle, if_pos rfl]

theorem WF.ok_handleConnectionError (h : WF p w) (hm : m < w.nextObj) (e : JsError) :
    Ok p m w (w.handleConnectionError m e) := by
  have h1 := h.ok_setState hm (stateAfterError (w.objs m).state)
  have h2 := h1.trans (h1.wf.ok_setErrorMessage (h1.lt hm) (some (errorText e)))
  have h3 := h2.trans (h2.wf.ok_disarm (h2.lt hm) .polling)
  have h4 := h3.trans (h3.wf.ok_passive (h3.lt hm) (passive_emitQualityUpdate _ m .bad))
  unfold handleConnectionError
  dsimp only
  split_ifs
  · exact h4.trans (h4.wf.ok_scheduleReconnect (h4.lt hm))
  · exact h4

theorem WF.ok_disconnectAndCleanup (h : WF p w) (hm : m < w.nextObj) :
    Ok p m w (w.disconnectAndCleanup m) := by
  have h1 := h.ok_disarm hm .polling
  have h2 := h1.trans (h1.wf.ok_disarm (h1.lt hm) .reconnect)
  have h3 := h2.trans (h2.wf.ok_dropClient (h2.lt hm))
  have h4 := h3.trans (h3.wf.ok_setState (h3.lt hm) .disconnected)
  have h5 := h4.trans (h4.wf.ok_setConnecting (h4.lt hm) false)
  exact h5.trans (h5.wf.ok_setErrorMessage (h5.lt hm) none)

theorem WF.ok_startPollingWith (h : WF p w) (hm : m < w.nextObj) (poll : World → ObjId → World)
    (hpoll : Passive m w (poll w m)) : Ok p m w (startPollingWith poll w m) := by
  unfold startPollingWith
  split_ifs with ht
  · exact h.ok_refl m
  · have h1 := h.ok_passive hm hpoll
    refine h1.trans (h1.wf.ok_arm (h1.lt hm) ?_)
    rw [hpoll.handle]
    exact Option.not_isSome_iff_eq_none.mp ht

end OpcuaLight.Connector
