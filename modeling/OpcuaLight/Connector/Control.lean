import OpcuaLight.Connector.Reach

/-!
# The control state

The fields of an object that steer its connection (client, state, timers, `connecting`, the error),
after each method that runs for it. A property of objects that code for other objects does not touch
is `Framed`; `foldl_each` carries one through `start` and `stop`. The first such property is `Idle`:
while the connector is not running, no tracked object has a client, a timer or an attempt under way.
-/

namespace OpcuaLight.Connector

open World

variable {p : Protocol} {w w' : World} {m : ObjId}

/-! ## The object after each method -/

theorem emitValueUpdates_objs (w : World) (m : ObjId) (us : List ValueUpdate) :
    (w.emitValueUpdates m us).objs = w.objs := by
  unfold emitValueUpdates
  split_ifs <;> rfl

theorem cacheQuality_objs (m : ObjId) (q : Quality) (w : World) (mp : Mapping) :
    (cacheQuality m q w mp).objs = w.objs := by
  unfold cacheQuality
  split
  · rfl
  · split_ifs <;> rfl

theorem foldl_objs {α : Type*} {f : World → α → World} (hf : ∀ w a, (f w a).objs = w.objs)
    (l : List α) (w : World) : (l.foldl f w).objs = w.objs := by
  induction l generalizing w with
  | nil => rfl
  | cons a l ih => rw [List.foldl_cons, ih, hf]

theorem emitQualityUpdate_objs (w : World) (m : ObjId) (q : Quality) :
    (w.emitQualityUpdate m q).objs = w.objs := by
  rw [emitQualityUpdate, emitValueUpdates_objs, foldl_objs (cacheQuality_objs m q)]

theorem scheduleReconnect_self (w : World) (m : ObjId) :
    (w.scheduleReconnect m).objs m = { w.objs m with reconnectTimer := some w.nextTimer } := by
  rw [scheduleReconnect, arm_objs_self, disarm_objs_self, (disarm_rest _ w m).1]
  rfl

theorem handleConnectionError_self (w : World) (m : ObjId) (e : JsError) :
    (w.handleConnectionError m e).objs m = { w.objs m with
      state := stateAfterError (w.objs m).state
      errorMessage := some (errorText e)
      pollingTimer := none
      reconnectTimer := if w.running then some w.nextTimer else (w.objs m).reconnectTimer } := by
  have hp := passive_emitQualityUpdate
    ((((w.setState m (stateAfterError (w.objs m).state)).setErrorMessage m
      (some (errorText e)))).stopPolling m) m .bad
  have hrest := disarm_rest .polling ((w.setState m (stateAfterError (w.objs m).state)).setErrorMessage
    m (some (errorText e))) m
  have hrun : (((w.setState m (stateAfterError (w.objs m).state)).setErrorMessage m
      (some (errorText e))).stopPolling m).running = w.running := by
    unfold stopPolling disarm
    split <;> rfl
  unfold handleConnectionError
  dsimp only
  rw [hp.running, hrun]
  split_ifs
  · rw [scheduleReconnect_self, emitQualityUpdate_objs, hp.nextTimer, stopPolling, disarm_objs_self,
      hrest.1]
    simp only [setErrorMessage, setState, update_objs_self]
    rfl
  · rw [emitQualityUpdate_objs, stopPolling, disarm_objs_self]
    simp only [setErrorMessage, setState, update_objs_self]
    rfl

theorem dropClient_self (w : World) (m : ObjId) :
    (w.dropClient m).objs m = { w.objs m with client := none } := by
  unfold dropClient closeClient
  split <;> exact update_objs_self _ _ _

theorem disconnectAndCleanup_self (w : World) (m : ObjId) :
    (w.disconnectAndCleanup m).objs m = { w.objs m with
      client := none
      state := .disconnected
      errorMessage := none
      pollingTimer := none
      reconnectTimer := none
      connecting := false } := by
  simp only [disconnectAndCleanup, setErrorMessage, setConnecting, setState, update_objs_self,
    dropClient_self, disarm_objs_self, stopPolling]
  rfl

theorem connectWith_of_connecting {args : Managed → List Json} (h : (w.objs m).connecting = true) :
    connectWith args w m = w := by
  rw [connectWith, if_pos h]

theorem connectWith_self {args : Managed → List Json} (h : (w.objs m).connecting = false) :
    (connectWith args w m).objs m =
      { w.objs m with connecting := true, client := some w.nextClient } ∧
    (connectWith args w m).clients w.nextClient = ⟨m, args (w.objs m), .pending, false, []⟩ := by
  rw [connectWith, if_neg (by rw [h]; exact Bool.false_ne_true)]
  refine ⟨?_, createClient_new (w.setConnecting m true) m _⟩
  simp only [act, setClient, setConnecting, update_objs_self]
  simp [createClient]

theorem initiateConnection_of_connecting (p : Protocol) (h : (w.objs m).connecting = true) :
    initiateConnection p w m = w := by
  cases p <;> exact connectWith_of_connecting h

theorem initiateConnection_self (p : Protocol) (h : (w.objs m).connecting = false) :
    (initiateConnection p w m).objs m =
      { w.objs m with connecting := true, client := some w.nextClient } ∧
    ((initiateConnection p w m).clients w.nextClient).handshake = .pending ∧
    ((initiateConnection p w m).clients w.nextClient).items = [] := by
  cases p
  all_goals
    obtain ⟨hobj, hc⟩ := connectWith_self h
    refine ⟨hobj, ?_, ?_⟩
    · exact congrArg Client.handshake hc
    · exact congrArg Client.items hc

theorem onConnected_self (h : WF p w) (hm : m < w.nextObj) {c : ClientId}
    (hc : (w.objs m).client = some c) :
    ∃ l b t, (onConnected p w m c).objs m = { w.objs m with
      state := .connected
      errorMessage := none
      lastPollAt := l
      pollInProgress := b
      pollingTimer := some t } := by
  have h1 := h.ok_setState hm .connected
  have h2 := h1.trans (h1.wf.ok_setErrorMessage (h1.lt hm) none)
  have hobj2 : (((w.setState m .connected).setErrorMessage m none).objs m) =
      { w.objs m with state := .connected, errorMessage := none } := by
    simp only [setErrorMessage, setState, update_objs_self]
  have h3 := h2.trans (h2.wf.ok_registerMappings (h2.lt hm) (by rw [hobj2]; exact hc))
  have h4 := h3.trans (h3.wf.ok_passive (h3.lt hm) (passive_emitQualityUpdate _ m .good))
  have hpoll := passive_poll (h4.wf.obj m)
  have hobj4 : (((registerMappings p ((w.setState m .connected).setErrorMessage m none) m c
      ).emitQualityUpdate m .good).objs m) =
      { w.objs m with state := .connected, errorMessage := none } := by
    rw [emitQualityUpdate_objs, registerMappings_objs, hobj2]
  unfold onConnected startPollingWith
  dsimp only
  split_ifs with ht
  · rw [hobj4] at ht ⊢
    obtain ⟨t, ht⟩ := Option.isSome_iff_exists.mp ht
    exact ⟨_, _, t, by rw [← ht]⟩
  · obtain ⟨l, b, hself⟩ := hpoll.self
    rw [arm_objs_self, hself, hobj4]
    exact ⟨l, b, _, rfl⟩

/-! ## Properties of single objects -/

/-- Code for another object leaves the property alone. -/
def Framed (p : Protocol) (P : World → ObjId → Prop) : Prop :=
  ∀ w w' m i, WF p w → Ok p m w w' → i ≠ m → P w i → P w' i

theorem WF.tracked_nodup (h : WF p w) : w.connections.values.Nodup :=
  JsMap.values_nodup fun id id' m hm hm' => by
    rw [← (h.tracked id m hm).2, (h.tracked id' m hm').2]

/-- Code for other objects, one after the other, leaves the property alone. -/
theorem Framed.foldl {P : World → ObjId → Prop} {f : World → ObjId → World} (hP : Framed p P)
    (hok : ∀ w m, WF p w → m < w.nextObj → Ok p m w (f w m)) (l : List ObjId) (h : WF p w)
    (hlt : ∀ i ∈ l, i < w.nextObj) (hm : m ∉ l) (hPm : P w m) : P (l.foldl f w) m := by
  induction l generalizing w with
  | nil => exact hPm
  | cons a l ih =>
      obtain ⟨hma, hml⟩ := List.ne_and_not_mem_of_not_mem_cons hm
      have h1 := hok w a h (hlt a List.mem_cons_self)
      refine ih h1.wf (fun i hi => ?_) hml (hP w _ a m h h1 hma hPm)
      rw [h1.acts.nextObj]
      exact hlt i (List.mem_cons_of_mem _ hi)

/-- A fold of code for one object after the other: each object has `Post` in the end if its own turn
takes `Pre` to `Post`. -/
theorem foldl_each {Pre Post : World → ObjId → Prop} {f : World → ObjId → World}
    (hpre : Framed p Pre) (hpost : Framed p Post)
    (hok : ∀ w m, WF p w → m < w.nextObj → Ok p m w (f w m))
    (hf : ∀ w m, WF p w → m < w.nextObj → Pre w m → Post (f w m) m) (l : List ObjId)
    (h : WF p w) (hnodup : l.Nodup) (hlt : ∀ m ∈ l, m < w.nextObj) (hl : ∀ m ∈ l, Pre w m) :
    ∀ m ∈ l, Post (l.foldl f w) m := by
  induction l generalizing w with
  | nil => simp
  | cons a l ih =>
      obtain ⟨ha, hnd⟩ := List.nodup_cons.mp hnodup
      have halt := hlt a List.mem_cons_self
      have h1 := hok w a h halt
      have hlt1 : ∀ m ∈ l, m < (f w a).nextObj := fun m hm => by
        rw [h1.acts.nextObj]
        exact hlt m (List.mem_cons_of_mem _ hm)
      intro m hm
      rcases List.mem_cons.mp hm with rfl | hm
      · exact hpost.foldl hok l h1.wf hlt1 ha (hf w m h halt (hl m List.mem_cons_self))
      · refine ih h1.wf hnd hlt1 (fun i hi => ?_) m hm
        exact hpre w _ a i h h1 (fun he => ha (he ▸ hi)) (hl i (List.mem_cons_of_mem _ hi))

/-! ## The rule for properties of tracked objects -/

/-- No client, no timer, no attempt under way. -/
structure Managed.Quiet (o : Managed) : Prop where
  client : o.client = none
  handle : ∀ k, o.handle k = none
  connecting : o.connecting = false
  state : o.state ≠ .connected

theorem quiet_created (config : ConnectionConfig) (params : List (String × Json)) :
    (createManagedConnection config params).Quiet :=
  ⟨rfl, fun k => by cases k <;> rfl, rfl, by simp [createManagedConnection]⟩

theorem quiet_disconnectAndCleanup (w : World) (m : ObjId) :
    ((w.disconnectAndCleanup m).objs m).Quiet := by
  rw [disconnectAndCleanup_self]
  exact ⟨rfl, fun k => by cases k <;> rfl, rfl, by simp⟩

/-- What a quiet object is started with: an attempt to connect, if it is to be. -/
def turn (p : Protocol) (w : World) (m : ObjId) : World :=
  if w.running && (w.objs m).config.enabled then initiateConnection p w m else w

theorem WF.ok_turn (h : WF p w) (hm : m < w.nextObj) : Ok p m w (turn p w m) := by
  unfold turn
  split_ifs
  · exact h.ok_initiateConnection hm
  · exact h.ok_refl m

theorem turn_of_not_running (p : Protocol) (h : w.running = false) : turn p w m = w := by
  rw [turn, h, Bool.false_and, if_neg Bool.false_ne_true]

/-- The property is one of the object, its clients and whether the connector is running. -/
def Congruent (P : World → ObjId → Prop) : Prop :=
  ∀ w w' i, w'.objs i = w.objs i → w'.clients = w.clients → w'.running = w.running → P w i → P w' i

/-- The tracked objects all have the property. -/
def All (P : World → ObjId → Prop) (w : World) : Prop := ∀ m, w.Tracked m → P w m

theorem all_initial (P : World → ObjId → Prop) : All P World.initial := fun _ hm => by cases hm

/-- While the connector is not running its tracked objects are quiet. -/
def Idle (w : World) (m : ObjId) : Prop := w.running = false → (w.objs m).Quiet

section Rule
variable {P : World → ObjId → Prop} (Pre : Managed → Prop) (D : JsMap String Mapping → Prop)
  (hframe : Framed p P) (hcongr : Congruent P)
  (hturn : ∀ w m, WF p w → m < w.nextObj → (w.objs m).Quiet → D (w.objs m).mappings →
    (w.running = true → (w.objs m).config.enabled = true → Pre (w.objs m)) → P (turn p w m) m)
  (hnew : ∀ config params, Pre (createManagedConnection config params))
  (hempty : D ∅) (hkeeps : ∀ w m, P w m → D (w.objs m).mappings)
include hframe hcongr hturn hnew hempty hkeeps

omit hkeeps in
theorem all_addConnection (h : WF p w) (hall : All P w) (config : ConnectionConfig) :
    All P (addConnection p w config).1 := by
  unfold Connector.addConnection
  split
  · exact hall
  · rename_i hnone
    split
    · exact hall
    · rename_i params _
      have h1 := h.track config params
      have hlt : w.nextObj < (w.track (createManagedConnection config params)).nextObj :=
        Nat.lt_succ_self _
      have h2 := h1.ok_turn hlt
      have hself := track_objs_self w (createManagedConnection config params)
      have henabled : ((w.track (createManagedConnection config params)).objs w.nextObj).config.enabled =
          config.enabled := by rw [hself]; rfl
      dsimp only
      rw [← henabled, ← turn]
      intro i hi
      by_cases him : i = w.nextObj
      · rw [him]
        refine hturn _ _ h1 hlt ?_ ?_ (fun _ _ => ?_) <;> rw [hself]
        · exact quiet_created config params
        · exact hempty
        · exact hnew config params
      · refine hframe _ _ _ i h1 h2 him ?_
        refine hcongr w _ i (track_objs_of_ne w _ him) rfl rfl (hall i ?_)
        rw [Tracked, h2.acts.connections] at hi
        exact ((tracked_track hnone i).mp hi).resolve_left him

theorem all_updateConnection (h : WF p w) (hall : All P w) (config : ConnectionConfig)
    (hpre : ∀ m params, w.connections.get? config.id = some m → w.running = true →
      config.enabled = true → Pre (((w.disconnectAndCleanup m).applyParams m config params).objs m))
    (hreject : ∀ m e, w.connections.get? config.id = some m → extractParams p config = .error e →
      P (w.disconnectAndCleanup m) m) : All P (updateConnection p w config).1 := by
  unfold Connector.updateConnection
  split
  · exact all_addConnection Pre D hframe hcongr hturn hnew hempty h hall config
  · rename_i m hm
    have hlt := (h.tracked _ m hm).1
    have h1 := h.ok_disconnectAndCleanup hlt
    have hall1 : ∀ i, i ≠ m → w.Tracked i → P (w.disconnectAndCleanup m) i :=
      fun i hi ht => hframe _ _ m i h h1 hi (hall i ht)
    dsimp only
    split
    · rename_i e he
      intro i hi
      by_cases him : i = m
      · rw [him]
        exact hreject m e hm he
      · exact hall1 i him (by rw [Tracked, ← h1.acts.connections]; exact hi)
    · rename_i params _
      have h2 := h1.wf.ok_applyParams (by rw [h1.acts.connections]; exact hm) params
      have hself : ((w.disconnectAndCleanup m).applyParams m config params).objs m =
          { (w.disconnectAndCleanup m).objs m with config := config, params := params } :=
        update_objs_self _ _ _
      have hq : (((w.disconnectAndCleanup m).applyParams m config params).objs m).Quiet := by
        obtain ⟨hc, hh, hg, hs⟩ := quiet_disconnectAndCleanup w m
        rw [hself]
        exact ⟨hc, fun k => by rw [← hh k]; cases k <;> rfl, hg, hs⟩
      have hlt2 := h2.lt (h1.lt hlt)
      have h3 := h2.wf.ok_turn hlt2
      have henabled : (((w.disconnectAndCleanup m).applyParams m config params).objs m).config.enabled =
          config.enabled := by rw [hself]
      rw [← henabled, ← turn]
      intro i hi
      by_cases him : i = m
      · rw [him]
        refine hturn _ _ h2.wf hlt2 hq ?_ (fun hrun hen => hpre m params hm ?_ ?_)
        · rw [hself, disconnectAndCleanup_self]
          exact hkeeps w m (hall m (JsMap.mem_values_of_get? hm))
        · rw [← hrun, (h1.trans h2).acts.running]
        · rw [henabled] at hen
          exact hen
      · refine hframe _ _ m i h2.wf h3 him (hframe _ _ m i h1.wf h2 him (hall1 i him ?_))
        rw [Tracked, ← (h1.trans (h2.trans h3)).acts.connections]
        exact hi

omit hcongr hnew hempty in
theorem all_start (h : WF p w) (hall : All P w) (hidle : All Idle w)
    (hpre : w.running = false → ∀ m, w.Tracked m → (w.objs m).config.enabled = true →
      Pre (w.objs m)) : All P (start p w) := by
  unfold Connector.start
  split_ifs with hrun
  · exact hall
  · have h1 := h.setRunning true
    have hlt : ∀ m ∈ w.connections.values, m < w.nextObj := fun m hm => h.lt_of_tracked hm
    have hready : Framed p (fun w m => w.running = true ∧ (w.objs m).Quiet ∧
        D (w.objs m).mappings ∧ ((w.objs m).config.enabled = true → Pre (w.objs m))) := by
      intro w w' m i _ hok hi hq
      rw [hok.acts.running, hok.acts.objs i hi]
      exact hq
    have hself : ∀ w m, WF p w → m < w.nextObj → (w.running = true ∧ (w.objs m).Quiet ∧
        D (w.objs m).mappings ∧ ((w.objs m).config.enabled = true → Pre (w.objs m))) →
        P (startOne p w m) m := by
      intro w m hw hm hq
      have hP := hturn w m hw hm hq.2.1 hq.2.2.1 (fun _ => hq.2.2.2)
      rw [turn, hq.1, Bool.true_and] at hP
      exact hP
    obtain ⟨-, hconn, -, -⟩ := h1.foldl (fun _ _ h hm => h.ok_startOne hm) w.connections.values hlt
    intro i hi
    rw [Tracked, hconn] at hi
    rw [Bool.not_eq_true] at hrun
    exact foldl_each hready hframe (fun _ _ h hm => h.ok_startOne hm) hself _ h1 h1.tracked_nodup hlt
      (fun m hm => ⟨rfl, hidle m hm hrun, hkeeps w m (hall m hm), hpre hrun m hm⟩) i hi

omit hcongr hnew hempty in
theorem all_stop (h : WF p w) (hall : All P w) : All P (stop w) := by
  unfold Connector.stop
  split_ifs with hrun
  · exact hall
  · have h1 := h.setRunning false
    have hlt : ∀ m ∈ w.connections.values, m < w.nextObj := fun m hm => h.lt_of_tracked hm
    have hstopped : Framed p (fun w m => w.running = false ∧ D (w.objs m).mappings) := by
      intro w w' m i _ hok hi hq
      rw [hok.acts.running, hok.acts.objs i hi]
      exact hq
    have hself : ∀ w m, WF p w → m < w.nextObj → (w.running = false ∧ D (w.objs m).mappings) →
        P (w.disconnectAndCleanup m) m := by
      rintro w m hw hm ⟨hr, hD⟩
      have h2 := hw.ok_disconnectAndCleanup hm
      have hr2 : (w.disconnectAndCleanup m).running = false := by rw [h2.acts.running, hr]
      have hP := hturn _ m h2.wf (h2.lt hm) (quiet_disconnectAndCleanup w m)
        (by rw [disconnectAndCleanup_self]; exact hD) (fun hrun => by rw [hr2] at hrun; cases hrun)
      rw [turn_of_not_running p hr2] at hP
      exact hP
    obtain ⟨-, hconn, -, -⟩ := h1.foldl (fun _ _ h hm => h.ok_disconnectAndCleanup hm)
      w.connections.values hlt
    intro i hi
    rw [Tracked, hconn] at hi
    exact foldl_each hstopped hframe (fun _ _ h hm => h.ok_disconnectAndCleanup hm) hself _ h1
      h1.tracked_nodup hlt (fun m hm => ⟨rfl, hkeeps w m (hall m hm)⟩) i hi

omit hturn hnew hempty hkeeps in
theorem all_removeConnection (h : WF p w) (hall : All P w) (id : String) :
    All P (removeConnection w id).1 := by
  unfold Connector.removeConnection
  split
  · exact hall
  · rename_i m hm
    have h1 := h.ok_disconnectAndCleanup (h.tracked _ m hm).1
    intro i hi
    obtain ⟨id', hid'⟩ := JsMap.mem_values_iff.mp hi
    change ((w.disconnectAndCleanup m).connections.delete id).get? id' = some i at hid'
    rw [h1.acts.connections, JsMap.get?_delete] at hid'
    split_ifs at hid' with hne
    have him : i ≠ m := by
      intro he
      rw [he] at hid'
      exact hne (by rw [← (h.tracked id' m hid').2, (h.tracked id m hm).2])
    exact hcongr (w.disconnectAndCleanup m) _ i rfl rfl rfl
      (hframe _ _ m i h h1 him (hall i (JsMap.mem_values_of_get? hid')))

/-- **Rule for tracked objects.** A property of the objects that code for other objects leaves alone
is kept by an event if quiet objects that meet `Pre`, and whose mappings meet `D`, have it after they
are started (or not), the event starts no others, an object whose new configuration is rejected has
it, and the event keeps it of its own object. -/
theorem all_step_of (h : WF p w) (hidle : All Idle w) (hall : All P w) (e : Event)
    (hstart : e = .start → w.running = false → ∀ m, w.Tracked m →
      (w.objs m).config.enabled = true → Pre (w.objs m))
    (hupdate : ∀ config m params, e = .updateConnection config →
      w.connections.get? config.id = some m → w.running = true → config.enabled = true →
      Pre (((w.disconnectAndCleanup m).applyParams m config params).objs m))
    (hreject : ∀ config m msg, e = .updateConnection config →
      w.connections.get? config.id = some m → extractParams p config = .error msg →
      P (w.disconnectAndCleanup m) m)
    (hown : ∀ m, actor w e = some m → w.Tracked m → P w m → P (step p w e) m) :
    All P (step p w e) := by
  have hsingle : e.isSingle = true → All P (step p w e) := by
    intro he
    cases ha : actor w e with
    | none =>
        rw [step_of_actor_none he ha]
        exact hall
    | some m =>
        have h1 := h.ok_step ha
        intro i hi
        rw [Tracked, h1.acts.connections] at hi
        by_cases him : i = m
        · rw [him] at hi ⊢
          exact hown m ha hi (hall m hi)
        · exact hframe _ _ m i h h1 him (hall i hi)
  cases e with
  | addConnection config => exact all_addConnection Pre D hframe hcongr hturn hnew hempty h hall config
  | removeConnection id => exact all_removeConnection hframe hcongr h hall id
  | updateConnection config =>
      exact all_updateConnection Pre D hframe hcongr hturn hnew hempty hkeeps h hall config
        (fun m params => hupdate config m params rfl) (fun m msg => hreject config m msg rfl)
  | start => exact all_start Pre D hframe hturn hkeeps h hall hidle (hstart rfl)
  | stop => exact all_stop Pre D hframe hturn hkeeps h hall
  | elapse n => exact fun i hi => hcongr w _ i rfl rfl rfl (hall i hi)
  | _ => exact hsingle rfl

end Rule

/-- The rule for a property that every quiet object has after it is started. -/
theorem all_step {P : World → ObjId → Prop} (hframe : Framed p P) (hcongr : Congruent P)
    (hturn : ∀ w m, WF p w → m < w.nextObj → (w.objs m).Quiet → P (turn p w m) m)
    (h : WF p w) (hidle : All Idle w) (hall : All P w) (e : Event)
    (hreject : ∀ config m msg, e = .updateConnection config →
      w.connections.get? config.id = some m → extractParams p config = .error msg →
      P (w.disconnectAndCleanup m) m)
    (hown : ∀ m, actor w e = some m → w.Tracked m → P w m → P (step p w e) m) :
    All P (step p w e) :=
  all_step_of (fun _ => True) (fun _ => True) hframe hcongr (fun w m hw hm hq _ _ => hturn w m hw hm hq)
    (fun _ _ => trivial) trivial (fun _ _ _ => trivial) h hidle hall e
    (fun _ _ _ _ _ => trivial) (fun _ _ _ _ _ _ _ => trivial)
    hreject hown

/-- A property that code for other objects leaves alone is kept if it is kept of the object that the
code runs for. -/
theorem Framed.all_of_ok {P : World → ObjId → Prop} (hP : Framed p P) (h : WF p w)
    (hok : Ok p m w w') (hall : All P w) (hown : w.Tracked m → P w m → P w' m) : All P w' := by
  intro i hi
  rw [Tracked, hok.acts.connections] at hi
  by_cases him : i = m
  · rw [him] at hi ⊢
    exact hown hi (hall m hi)
  · exact hP _ _ m i h hok him (hall i hi)

/-! ## The object after its own events -/

/-- The control state of `m` and all handshakes are the same. -/
structure SameControl (m : ObjId) (w w' : World) : Prop where
  running : w'.running = w.running
  client : (w'.objs m).client = (w.objs m).client
  state : (w'.objs m).state = (w.objs m).state
  errorMessage : (w'.objs m).errorMessage = (w.objs m).errorMessage
  handle : ∀ k, (w'.objs m).handle k = (w.objs m).handle k
  connecting : (w'.objs m).connecting = (w.objs m).connecting
  config : (w'.objs m).config = (w.objs m).config
  handshake : ∀ c, (w'.clients c).handshake = (w.clients c).handshake

theorem SameControl.trans {w'' : World} (h : SameControl m w w') (h' : SameControl m w' w'') :
    SameControl m w w'' where
  running := by rw [h'.running, h.running]
  client := by rw [h'.client, h.client]
  state := by rw [h'.state, h.state]
  errorMessage := by rw [h'.errorMessage, h.errorMessage]
  handle := fun k => by rw [h'.handle, h.handle]
  connecting := by rw [h'.connecting, h.connecting]
  config := by rw [h'.config, h.config]
  handshake := fun c => by rw [h'.handshake, h.handshake]

theorem SameControl.quiet (h : SameControl m w w') (hq : (w.objs m).Quiet) : (w'.objs m).Quiet :=
  ⟨by rw [h.client, hq.client], fun k => by rw [h.handle, hq.handle],
    by rw [h.connecting, hq.connecting], by rw [h.state]; exact hq.state⟩

theorem Passive.sameControl (h : Passive m w w') : SameControl m w w' where
  running := h.running
  client := h.client
  state := h.state
  errorMessage := h.errorMessage
  handle := h.handle
  connecting := h.connecting
  config := h.config
  handshake := fun c => by rw [h.clients]

theorem updateClient_handshake (w : World) (c : ClientId) {f : Client → Client}
    (hf : ∀ k, (f k).handshake = k.handshake) (i : ClientId) :
    ((w.updateClient c f).clients i).handshake = (w.clients i).handshake := by
  by_cases hi : i = c
  · rw [hi, updateClient_self, hf]
  · rw [updateClient_of_ne w f hi]

theorem pushItem_objs (p : Protocol) (w : World) (m : ObjId) (a : String) :
    (pushItem p w m a).objs = w.objs := by
  unfold pushItem
  split <;> rfl

theorem dropItem_objs (p : Protocol) (w : World) (m : ObjId) (a : String) :
    (dropItem p w m a).objs = w.objs := by
  unfold dropItem
  split <;> rfl

theorem sameControl_setMappings (w : World) (m : ObjId)
    (f : JsMap String Mapping → JsMap String Mapping) : SameControl m w (w.setMappings m f) := by
  have hobj : (w.setMappings m f).objs m = { w.objs m with mappings := f (w.objs m).mappings } :=
    update_objs_self _ _ _
  refine ⟨rfl, ?_, ?_, ?_, fun k => ?_, ?_, ?_, fun _ => rfl⟩ <;> rw [hobj]
  cases k <;> rfl

theorem sameControl_pushItem (p : Protocol) (w : World) (m : ObjId) (a : String) :
    SameControl m w (pushItem p w m a) := by
  unfold pushItem
  split
  · exact ⟨rfl, rfl, rfl, rfl, fun _ => rfl, rfl, rfl, updateClient_handshake w _ (fun _ => rfl)⟩
  · exact ⟨rfl, rfl, rfl, rfl, fun _ => rfl, rfl, rfl, fun _ => rfl⟩

theorem sameControl_dropItem (p : Protocol) (w : World) (m : ObjId) (a : String) :
    SameControl m w (dropItem p w m a) := by
  unfold dropItem
  split
  · exact ⟨rfl, rfl, rfl, rfl, fun _ => rfl, rfl, rfl, updateClient_handshake w _ (fun _ => rfl)⟩
  · exact ⟨rfl, rfl, rfl, rfl, fun _ => rfl, rfl, rfl, fun _ => rfl⟩

theorem sameControl_addMapping {mapping : Mapping}
    (ha : actor w (.addMapping mapping) = some m) :
    SameControl m w (step p w (.addMapping mapping)) := by
  rcases addMapping_cases p w mapping with ⟨e, he⟩ | ⟨m', hm, -, he⟩ <;> rw [Connector.step, he]
  · exact (Passive.refl m w).sameControl
  · obtain rfl := Option.some.inj (ha.symm.trans hm)
    exact (sameControl_setMappings w m _).trans (sameControl_pushItem p _ m _)

theorem sameControl_removeMapping {id : String} (ha : actor w (.removeMapping id) = some m) :
    SameControl m w (step p w (.removeMapping id)) := by
  rcases removeMapping_cases p w id with ⟨-, e, he⟩ | ⟨m', mp, hm, -, -, he⟩ <;>
    rw [Connector.step, he]
  · exact (Passive.refl m w).sameControl
  · obtain rfl := Option.some.inj (ha.symm.trans hm)
    obtain ⟨h1, h2, h3, h4, h5, h6, h7, h8⟩ :=
      (sameControl_setMappings w m (·.delete id)).trans (sameControl_dropItem p _ m mp.deviceAddress)
    exact ⟨h1, h2, h3, h4, h5, h6, h7, h8⟩

theorem sameControl_pollTick (h : WF p w) {t : TimerId} (ha : actor w (.pollTick t) = some m) :
    SameControl m w (step p w (.pollTick t)) := by
  obtain ⟨ms, ht⟩ := actor_tick ha
  simp only [Connector.step, onPollTick, ht]
  exact (passive_poll (h.obj m)).sameControl

/-- A read's answer leaves the control state alone, or its connection error is handled. -/
theorem readReport_cases (h : WF p w) {r : ReadId} {result : ReadResult}
    (ha : actor w (.readReport r result) = some m) :
    SameControl m w (step p w (.readReport r result)) ∨
    ∃ w₁ e, SameControl m w w₁ ∧ (p = .pccc → (w.objs m).client ≠ none) ∧
      step p w (.readReport r result) = w₁.handleConnectionError m e := by
  obtain ⟨read, hr, rfl⟩ := Option.map_eq_some_iff.mp ha
  obtain ⟨hok, hstep⟩ := h.ok_answered hr result
  have hsame : SameControl read.obj w ((w.takeRead r).report (valueReports w read result)) :=
    ⟨rfl, rfl, rfl, rfl, fun _ => rfl, rfl, rfl, fun _ => rfl⟩
  rw [hstep]
  rcases onRead_cases (hok.wf.obj read.obj) result with hp | ⟨w₁, e, hp, hpccc, he⟩
  · exact Or.inl (hsame.trans hp.sameControl)
  · exact Or.inr ⟨w₁, e, hsame.trans hp.sameControl, hpccc, he⟩

/-- The state in which a connect's handler runs. -/
def reported (p : Protocol) (w : World) (c : ClientId) (err : Option JsError) : World :=
  if connectFailed p err then w.updateClient c ({ · with handshake := .failed })
  else (w.updateClient c ({ · with handshake := .succeeded })).report
    [.connected (w.objs (w.clients c).owner).config.id c w.now]

theorem reported_objs (p : Protocol) (w : World) (c : ClientId) (err : Option JsError) :
    (reported p w c err).objs = w.objs := by
  unfold reported
  split_ifs <;> rfl

theorem reported_running (p : Protocol) (w : World) (c : ClientId) (err : Option JsError) :
    (reported p w c err).running = w.running := by
  unfold reported
  split_ifs <;> rfl

theorem WF.ok_reported (h : WF p w) {c : ClientId} (hc : c < w.nextClient) (err : Option JsError) :
    Ok p (w.clients c).owner w (reported p w c err) := by
  have hlt := h.owner c hc
  unfold reported
  split_ifs
  · exact h.ok_setHandshake hlt rfl .failed
  · have h1 := h.ok_setHandshake hlt rfl .succeeded
    exact h1.trans (h1.wf.ok_report (h1.lt hlt) _)

theorem actor_connectReport {c : ClientId} {err : Option JsError}
    (ha : actor w (.connectReport c err) = some m) :
    c < w.nextClient ∧ (w.clients c).handshake = .pending ∧ (w.clients c).owner = m ∧
      step p w (.connectReport c err) = onConnect p (reported p w c err) m err := by
  simp only [actor] at ha
  split_ifs at ha with hc
  obtain rfl := Option.some.inj ha
  refine ⟨hc.1, hc.2, rfl, ?_⟩
  simp only [Connector.step, onConnectReport, if_pos hc, reported]

/-- Of a client, the report of a connect changes the handshake alone. -/
theorem reported_client (p : Protocol) (w : World) (c : ClientId) (err : Option JsError)
    (i : ClientId) : ((reported p w c err).clients i).items = (w.clients i).items ∧
      ((reported p w c err).clients i).handshake = if i = c then
        (if connectFailed p err then .failed else .succeeded) else (w.clients i).handshake := by
  unfold reported
  split_ifs with hf hi hi
  · rw [hi, updateClient_self]
    exact ⟨rfl, rfl⟩
  · rw [updateClient_of_ne w _ hi]
    exact ⟨rfl, rfl⟩
  · rw [report_clients, hi, updateClient_self]
    exact ⟨rfl, rfl⟩
  · rw [report_clients, updateClient_of_ne w _ hi]
    exact ⟨rfl, rfl⟩

theorem registerMappings_handshake (p : Protocol) (w : World) (m : ObjId) (c i : ClientId) :
    ((registerMappings p w m c).clients i).handshake = (w.clients i).handshake := by
  cases p with
  | s7 =>
      simp only [registerMappings, addItems]
      split_ifs
      · rfl
      · rw [updateClient_handshake]
        exact fun _ => rfl
  | _ => rfl

theorem registerMappings_items (p : Protocol) (w : World) (m : ObjId) (c i : ClientId) :
    ((registerMappings p w m c).clients i).items = if p = .s7 ∧ i = c then
      (w.clients i).items ++ (w.objs m).mappings.values.map Mapping.deviceAddress
      else (w.clients i).items := by
  cases p with
  | s7 =>
      simp only [registerMappings, addItems, true_and]
      by_cases hi : i = c
      · rw [if_pos hi]
        split_ifs with hnil
        · rw [hnil, List.append_nil]
        · rw [hi, updateClient_self]
      · rw [if_neg hi]
        split_ifs
        · rfl
        · rw [updateClient_of_ne w _ hi]
  | _ => rfl

theorem onConnected_clients (h : WF p w) (hm : m < w.nextObj) {c : ClientId}
    (hc : (w.objs m).client = some c) : (onConnected p w m c).clients =
      (registerMappings p ((w.setState m .connected).setErrorMessage m none) m c).clients := by
  have hq := passive_emitQualityUpdate
    (registerMappings p ((w.setState m .connected).setErrorMessage m none) m c) m .good
  have hpoll := passive_poll ((h.ok_told hm hc).wf.obj m)
  unfold onConnected startPollingWith
  dsimp only
  split_ifs
  · exact hq.clients
  · exact hpoll.clients.trans hq.clients

/-- The object after the report of a connect. -/
theorem connectReport_cases (h : WF p w) {c : ClientId} {err : Option JsError}
    (ha : actor w (.connectReport c err) = some m) :
    ((w.objs m).client = none ∧ (connectFailed p err = false ∨ p = .pccc) ∧
      (step p w (.connectReport c err)).objs m = { w.objs m with connecting := false }) ∨
    (connectFailed p err = true ∧ (p = .pccc → (w.objs m).client ≠ none) ∧
      ∃ (w₁ : World) (e : JsError), w₁.running = w.running ∧
        w₁.objs m = { w.objs m with connecting := false } ∧
        w₁.clients = (reported p w c err).clients ∧
        step p w (.connectReport c err) = w₁.handleConnectionError m e) ∨
    (connectFailed p err = false ∧ ∃ c', (w.objs m).client = some c' ∧
      (∃ l b t, (step p w (.connectReport c err)).objs m = { w.objs m with
        connecting := false
        state := .connected
        errorMessage := none
        lastPollAt := l
        pollInProgress := b
        pollingTimer := some t }) ∧
      ∀ i, ((step p w (.connectReport c err)).clients i).handshake =
          (if i = c then .succeeded else (w.clients i).handshake) ∧
        ((step p w (.connectReport c err)).clients i).items = if p = .s7 ∧ i = c' then
          (w.clients i).items ++ (w.objs m).mappings.values.map Mapping.deviceAddress
          else (w.clients i).items) := by
  obtain ⟨hlt, hpending, rfl, hstep⟩ := actor_connectReport (p := p) ha
  have h1 := h.ok_reported hlt err
  have hm := h1.lt (h.owner c hlt)
  have h2 := h1.wf.ok_setConnecting hm false
  have hobj : ((reported p w c err).setConnecting (w.clients c).owner false).objs (w.clients c).owner =
      { w.objs (w.clients c).owner with connecting := false } := by
    rw [setConnecting, update_objs_self, reported_objs]
  have hrun : ((reported p w c err).setConnecting (w.clients c).owner false).running = w.running :=
    reported_running p w c err
  rw [hstep]
  rcases onConnect_cases p (reported p w c err) (w.clients c).owner err with
    ⟨hn, hp, e⟩ | ⟨hf, hp, er, e⟩ | ⟨hf, c', hc', e⟩ <;> rw [e]
  · rw [reported_objs] at hn
    exact Or.inl ⟨hn, hp, hobj⟩
  · rw [reported_objs] at hp
    exact Or.inr (Or.inl ⟨hf, hp, _, er, hrun, hobj, rfl, rfl⟩)
  · have hc2 := (setConnecting_client (reported p w c err) (w.clients c).owner false).trans hc'
    rw [reported_objs] at hc'
    refine Or.inr (Or.inr ⟨hf, c', hc', ?_, fun i => ?_⟩)
    · obtain ⟨l, b, t, ho⟩ := onConnected_self h2.wf (h2.lt hm) hc2
      exact ⟨l, b, t, by rw [ho, hobj]⟩
    · obtain ⟨hitems, hhand⟩ := reported_client p w c err i
      rw [hf] at hhand
      rw [onConnected_clients h2.wf (h2.lt hm) hc2, registerMappings_handshake,
        registerMappings_items]
      simp only [setErrorMessage, setState, setConnecting, update_objs_self, reported_objs]
      exact ⟨hhand, by rw [← hitems]; rfl⟩

/-- The object after the reconnect timer fires. -/
theorem reconnectTick_cases (h : WF p w) {t : TimerId} (ha : actor w (.reconnectTick t) = some m) :
    (w.running = false ∧ step p w (.reconnectTick t) = disarm .reconnect w m) ∨
    (w.running = true ∧ (w.objs m).connecting = true ∧
      (step p w (.reconnectTick t)).objs m =
        { w.objs m with reconnectTimer := none, client := none, state := .disconnected }) ∨
    (w.running = true ∧ (w.objs m).connecting = false ∧ ∃ c,
      (step p w (.reconnectTick t)).objs m =
        { w.objs m with reconnectTimer := none, client := some c, state := .disconnected,
                        connecting := true } ∧
      ((step p w (.reconnectTick t)).clients c).handshake = .pending ∧
      ((step p w (.reconnectTick t)).clients c).items = []) := by
  obtain ⟨ms, ht⟩ := actor_tick ha
  have hobj : (((disarm .reconnect w m).dropClient m).setState m .disconnected).objs m =
      { w.objs m with reconnectTimer := none, client := none, state := .disconnected } := by
    rw [setState, update_objs_self, dropClient_self, disarm_objs_self]
    rfl
  rw [Connector.step, onReconnectTick_eq h ht]
  cases hrun : w.running with
  | false =>
      exact Or.inl ⟨rfl, by rw [Bool.not_false, if_pos rfl]⟩
  | true =>
      rw [Bool.not_true, if_neg Bool.false_ne_true]
      cases hcon : (w.objs m).connecting with
      | true =>
          refine Or.inr (Or.inl ⟨rfl, rfl, ?_⟩)
          rw [initiateConnection_of_connecting p (by rw [hobj]; exact hcon), hobj]
      | false =>
          obtain ⟨ho, hh, hi⟩ := initiateConnection_self p
            (w := ((disarm .reconnect w m).dropClient m).setState m .disconnected) (m := m)
            (by rw [hobj]; exact hcon)
          exact Or.inr (Or.inr ⟨rfl, rfl, _, by rw [ho, hobj], hh, hi⟩)

theorem scheduleReconnect_clients (w : World) (m : ObjId) : (w.scheduleReconnect m).clients = w.clients :=
  (disarm_rest .reconnect w m).2.1

/-- Handling an error closes no client and touches no poll list. -/
theorem handleConnectionError_clients (w : World) (m : ObjId) (e : JsError) :
    (w.handleConnectionError m e).clients = w.clients := by
  have hstop := (disarm_rest .polling ((w.setState m (stateAfterError (w.objs m).state)).setErrorMessage
    m (some (errorText e))) m).2.1
  have hp := passive_emitQualityUpdate (((w.setState m (stateAfterError (w.objs m).state)
    ).setErrorMessage m (some (errorText e))).stopPolling m) m .bad
  unfold handleConnectionError
  dsimp only
  split_ifs
  · rw [scheduleReconnect_clients]
    exact hp.clients.trans hstop
  · exact hp.clients.trans hstop

theorem readReport_clients (h : WF p w) {r : ReadId} {result : ReadResult}
    (ha : actor w (.readReport r result) = some m) :
    (step p w (.readReport r result)).clients = w.clients := by
  obtain ⟨read, hr, rfl⟩ := Option.map_eq_some_iff.mp ha
  obtain ⟨hok, hstep⟩ := h.ok_answered hr result
  rw [hstep]
  rcases onRead_cases (hok.wf.obj read.obj) result with hp | ⟨w₁, e, hp, -, he⟩
  · exact hp.clients
  · rw [he, handleConnectionError_clients]
    exact hp.clients

theorem readReport_mappings (h : WF p w) {r : ReadId} {result : ReadResult}
    (ha : actor w (.readReport r result) = some m) :
    ((step p w (.readReport r result)).objs m).mappings = (w.objs m).mappings := by
  obtain ⟨read, hr, rfl⟩ := Option.map_eq_some_iff.mp ha
  obtain ⟨hok, hstep⟩ := h.ok_answered hr result
  rw [hstep]
  rcases onRead_cases (hok.wf.obj read.obj) result with hp | ⟨w₁, e, hp, -, he⟩
  · exact hp.mappings
  · rw [he, handleConnectionError_self]
    exact hp.mappings

theorem pollTick_mappings (h : WF p w) {t : TimerId} (ha : actor w (.pollTick t) = some m) :
    ((step p w (.pollTick t)).objs m).mappings = (w.objs m).mappings := by
  obtain ⟨ms, ht⟩ := actor_tick ha
  simp only [Connector.step, onPollTick, ht]
  exact (passive_poll (h.obj m)).mappings

theorem pollTick_clients (h : WF p w) {t : TimerId} (ha : actor w (.pollTick t) = some m) :
    (step p w (.pollTick t)).clients = w.clients := by
  obtain ⟨ms, ht⟩ := actor_tick ha
  simp only [Connector.step, onPollTick, ht]
  exact (passive_poll (h.obj m)).clients

/-- The same for a failure that is handled: the connection is not connected, and the error is kept. -/
theorem not_connected_of_error {w₁ : World} {e : JsError} :
    ((w₁.handleConnectionError m e).objs m).state ≠ .connected := by
  rw [handleConnectionError_self]
  cases (w₁.objs m).state <;> simp [stateAfterError]

/-! ## The connector that is not running -/

theorem framed_idle (p : Protocol) : Framed p Idle := by
  intro w w' m i _ hok hi hq hrun
  rw [hok.acts.objs i hi]
  exact hq (by rw [← hok.acts.running]; exact hrun)

theorem quiet_handleConnectionError (hq : (w.objs m).Quiet) (hrun : w.running = false) (e : JsError) :
    ((w.handleConnectionError m e).objs m).Quiet := by
  obtain ⟨hc, hh, hg, hs⟩ := hq
  rw [handleConnectionError_self, hrun]
  refine ⟨hc, fun k => ?_, hg, ?_⟩
  · cases k
    · rfl
    · exact hh .reconnect
  · cases hst : (w.objs m).state <;> simp [stateAfterError]

theorem quiet_setConnecting {o : Managed} (hq : o.Quiet) :
    Managed.Quiet { o with connecting := false } :=
  ⟨hq.client, fun k => by rw [← hq.handle k]; cases k <;> rfl, rfl, hq.state⟩

theorem WF.idle_step (h : WF p w) (hidle : All Idle w) (e : Event) :
    All Idle (Connector.step p w e) := by
  refine all_step (framed_idle p) (fun w w' i ho _ hr hq hrun => ?_) (fun w m hw hm hq hrun => ?_)
    h hidle hidle e (fun config m msg _ _ _ _ => quiet_disconnectAndCleanup w m) ?_
  · rw [ho]
    exact hq (by rw [← hr]; exact hrun)
  · rw [(hw.ok_turn hm).acts.running] at hrun
    rw [turn_of_not_running p hrun]
    exact hq
  · intro m ha _ hq hrun
    rw [(h.ok_step ha).acts.running] at hrun
    have hquiet := hq hrun
    cases e with
    | addMapping mapping => exact (sameControl_addMapping ha).quiet hquiet
    | removeMapping id => exact (sameControl_removeMapping ha).quiet hquiet
    | pollTick t => exact (sameControl_pollTick h ha).quiet hquiet
    | readReport r result =>
        rcases readReport_cases h ha with hs | ⟨w₁, e, hs, -, he⟩
        · exact hs.quiet hquiet
        · rw [he]
          exact quiet_handleConnectionError (hs.quiet hquiet) (by rw [hs.running, hrun]) e
    | connectReport c err =>
        rcases connectReport_cases h ha with ⟨-, -, ho⟩ | ⟨-, -, w₁, e, hr, ho, -, he⟩ | ⟨-, c', hc', -⟩
        · rw [ho]
          exact quiet_setConnecting hquiet
        · rw [he]
          refine quiet_handleConnectionError ?_ (by rw [hr, hrun]) e
          rw [ho]
          exact quiet_setConnecting hquiet
        · rw [hquiet.client] at hc'
          cases hc'
    | reconnectTick t =>
        rcases reconnectTick_cases h ha with ⟨-, ho⟩ | ⟨hr, -⟩ | ⟨hr, -⟩
        · rw [ho, disarm_objs_self]
          refine ⟨hquiet.client, fun k => ?_, hquiet.connecting, hquiet.state⟩
          cases k
          · exact hquiet.handle .polling
          · rfl
        · rw [hrun] at hr
          cases hr
        · rw [hrun] at hr
          cases hr
    | _ => cases ha

end OpcuaLight.Connector
