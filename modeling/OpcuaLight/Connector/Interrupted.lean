import OpcuaLight.Connector.Control

/-!
# A callback that throws

The value update callback reaches the bridge to the runtime, which reads the database and may throw. What follows the
call is then not run: after an error no reconnect attempt is scheduled, and after a connect of nodes7 or nodepccc no
poll is. The promises of ethernet-ip and modbus-serial have a `catch`, which handles what was thrown and calls the
callback again.

`interruptedStep` is the step of an event during which the first call of the callback throws, and the second may. A
run may take steps of both kinds (`CallbackTurn`); its states are still well-formed.
-/

namespace OpcuaLight.Connector

open World

/-! ## The code of an event, up to what a call throws -/

namespace World

/-- Whether a quality update is sent: some mapping has a node. -/
def notifies (w : World) (m : ObjId) : Bool := (w.objs m).mappings.values.any (fun mp => Js.truthyString mp.nodeId)

/-- `handleConnectionError` up to the call of the callback. -/
def reportError (w : World) (m : ObjId) (err : JsError) : World :=
  let w := w.setState m (stateAfterError (w.objs m).state)
  let w := w.setErrorMessage m (some (errorText err))
  (w.stopPolling m).emitQualityUpdate m .bad

/-- `handleConnectionError`, with what is thrown at it if it calls the callback. -/
def handleErrorThrowing (thrown : Option JsError) (w : World) (m : ObjId) (err : JsError) : World × Option JsError :=
  match thrown, w.notifies m with
  | some e, true => (w.reportError m err, some e)
  | _, _ => (w.handleConnectionError m err, none)

/-- The handlers of a `catch` around the code: what it throws is handled as a connection error. -/
def catching (again : Option JsError) (m : ObjId) (code : World × Option JsError) : World :=
  match code with
  | (w, some e) => (w.handleErrorThrowing again m e).1
  | (w, none) => w

end World

section Code
variable (p : Protocol) (thrown : JsError) (again : Option JsError)

/-- What a success does before the first poll. -/
def told (w : World) (m : ObjId) (c : ClientId) : World :=
  (registerMappings p ((w.setState m .connected).setErrorMessage m none) m c).emitQualityUpdate m .good

/-- Whether the library connects with a promise, which has a `catch`. -/
def hasCatch : Bool :=
  match p with
  | .s7 | .pccc => false
  | .modbusTcp | .ethernetIp => true

/-- The handlers of a connect. The callbacks of nodes7 and nodepccc have no `catch`. -/
def onConnectInterrupted (w : World) (m : ObjId) (err : Option JsError) : World :=
  match err.filter (fun e => connectFailed p (some e)), (w.objs m).client with
  | some e, client =>
      if p = .pccc ∧ client = none then w.setConnecting m false
      else ((w.setConnecting m false).handleErrorThrowing (some thrown) m e).1
  | none, none => w.setConnecting m false
  | none, some c =>
      let w := w.setConnecting m false
      if !w.notifies m then onConnected p w m c
      else if hasCatch p then (((told p w m c).setConnecting m false).handleErrorThrowing again m thrown).1
      else told p w m c

/-- `Modbus.readNext`, inside the `try` of the poll. -/
def readNextInterrupted (w : World) (m : ObjId) (updates : List ValueUpdate) :
    List (Nat × String × Mapping) → World × Option JsError
  | [] => if updates = [] then (w, none) else ((w.setLastPollAt m).emitValueUpdates m updates, some thrown)
  | (stamp, _, mapping) :: rest =>
      match parseDeviceAddress mapping.deviceAddress with
      | .ok parsed => (w.issueRead ⟨m, (w.objs m).client, .address stamp mapping parsed updates⟩, none)
      | .error msg =>
          if Modbus.isConnectionError (.error .other msg) then
            w.handleErrorThrowing (some thrown) m (.error .other msg)
          else readNextInterrupted w m updates rest

/-- The answer to a read of modbus-serial, inside that `try`. -/
def modbusReadInterrupted (w : World) (m : ObjId) (client : Option ClientId) (stamp : Nat) (mapping : Mapping)
    (parsed : ParsedAddress) (updates : List ValueUpdate) (result : Except JsError (List Json)) :
    World × Option JsError :=
  match client, result with
  | none, _ => readNextInterrupted thrown w m updates ((w.objs m).mappings.after (some stamp))
  | some _, .ok data =>
      let answer : Mapping × Answer := (mapping, ⟨Modbus.valueOf parsed data, .good⟩)
      let w := cacheAnswer m w answer
      readNextInterrupted thrown w m (updates ++ answerUpdates w.now [answer])
        ((w.objs m).mappings.after (some stamp))
  | some _, .error e =>
      if Modbus.isConnectionError e then w.handleErrorThrowing (some thrown) m e
      else readNextInterrupted thrown w m updates ((w.objs m).mappings.after (some stamp))

/-- The `catch` of `pollTags`. -/
def tagsRejected (thrown : Option JsError) (w : World) (m : ObjId) (e : JsError) : World :=
  let w := w.setPollInProgress m false
  if EthernetIp.endsConnection e then (w.handleErrorThrowing thrown m e).1 else w.emitQualityUpdate m .bad

/-- The handler of a read's answer. -/
def onReadInterrupted (w : World) (r : Read) (result : ReadResult) : World :=
  match p, r.cont, result with
  | .s7, .items, .failed e => (w.handleErrorThrowing (some thrown) r.obj e).1
  | .modbusTcp, .address stamp mapping parsed updates, .data data =>
      catching again r.obj (modbusReadInterrupted thrown w r.obj r.client stamp mapping parsed updates (.ok data))
  | .modbusTcp, .address stamp mapping parsed updates, .failed e =>
      catching again r.obj (modbusReadInterrupted thrown w r.obj r.client stamp mapping parsed updates (.error e))
  | .ethernetIp, .tags mappings, .tags values =>
      let answers := EthernetIp.answers mappings values
      if answerUpdates w.now answers = [] then onRead p w r result
      else tagsRejected again ((w.setLastPollAt r.obj).deliver r.obj answers) r.obj thrown
  | .ethernetIp, .tags _, .failed e => tagsRejected (some thrown) w r.obj e
  | .pccc, .items, .found anythingBad found =>
      if (w.objs r.obj).client.isSome && (anythingBad && !Pccc.someItemOk (w.objs r.obj).mappings.values found) then
        ((w.setPollInProgress r.obj false).handleErrorThrowing (some thrown) r.obj
          (.text "All items returned bad quality")).1
      else onRead p w r result
  | _, _, _ => onRead p w r result

/-- `poll`; that of modbus-serial is inside its `try`. -/
def pollInterrupted (w : World) (m : ObjId) : World :=
  match p with
  | .modbusTcp =>
      if (w.objs m).state ≠ .connected || (w.objs m).client.isNone || (w.objs m).mappings.size = 0 then w
      else catching again m (readNextInterrupted thrown w m [] ((w.objs m).mappings.after none))
  | _ => poll p w m

/-- The step of an event during which the callback throws. -/
def interruptedStep (w : World) : Event → World
  | .connectReport c err =>
      if c < w.nextClient ∧ (w.clients c).handshake = .pending then
        onConnectInterrupted p thrown again (reported p w c err) (w.clients c).owner err
      else w
  | .readReport r result =>
      match w.reads r with
      | none => w
      | some read =>
          onReadInterrupted p thrown again ((w.takeRead r).report (valueReports w read result)) read result
  | .pollTick t =>
      match w.timers t with
      | some ⟨.polling, m, _⟩ => pollInterrupted p thrown again w m
      | _ => w
  | e => step p w e

end Code

inductive CallbackTurn where
  | returns (e : Event)
  | throws (e : Event) (thrown : JsError) (again : Option JsError)

def CallbackTurn.event : CallbackTurn → Event
  | returns e | throws e _ _ => e

def callbackTurn (p : Protocol) (w : World) : CallbackTurn → World
  | .returns e => step p w e
  | .throws e thrown again => interruptedStep p thrown again w e

/-- The state after a list of turns, from a new connector. -/
def reachCallbacks (p : Protocol) (ts : List CallbackTurn) : World :=
  Machine.run (callbackTurn p) World.initial ts

variable {p : Protocol} {thrown : JsError} {again : Option JsError} {w w' : World} {m : ObjId}

/-! ## What is left of a handler -/

/-- The object after the part of the error handling that is run. -/
theorem reportError_self (w : World) (m : ObjId) (e : JsError) : (w.reportError m e).objs m = { w.objs m with
    state := stateAfterError (w.objs m).state
    errorMessage := some (errorText e)
    pollingTimer := none } := by
  rw [reportError, emitQualityUpdate_objs, stopPolling, disarm_objs_self]
  simp only [setErrorMessage, setState, update_objs_self]
  rfl

theorem reportError_clients (w : World) (m : ObjId) (e : JsError) : (w.reportError m e).clients = w.clients :=
  (passive_emitQualityUpdate _ m .bad).clients.trans
    (disarm_rest .polling ((w.setState m (stateAfterError (w.objs m).state)).setErrorMessage m
      (some (errorText e))) m).2.1

theorem reportError_running (w : World) (m : ObjId) (e : JsError) : (w.reportError m e).running = w.running := by
  refine (passive_emitQualityUpdate _ m .bad).running.trans ?_
  unfold stopPolling disarm
  split <;> rfl

theorem handleConnectionError_eq (w : World) (m : ObjId) (e : JsError) : w.handleConnectionError m e =
    if (w.reportError m e).running then (w.reportError m e).scheduleReconnect m else w.reportError m e := rfl

theorem scheduleReconnect_running (w : World) (m : ObjId) : (w.scheduleReconnect m).running = w.running := by
  unfold scheduleReconnect disarm
  split <;> rfl

theorem handleConnectionError_running (w : World) (m : ObjId) (e : JsError) :
    (w.handleConnectionError m e).running = w.running := by
  rw [handleConnectionError_eq]
  split_ifs
  · rw [scheduleReconnect_running, reportError_running]
  · exact reportError_running w m e

/-- Without a reconnect attempt nothing is left out. -/
theorem reportError_of_not_running (h : w.running = false) (e : JsError) :
    w.reportError m e = w.handleConnectionError m e := by
  rw [handleConnectionError_eq, reportError_running, h, if_neg Bool.false_ne_true]

theorem WF.ok_reportError (h : WF p w) (hm : m < w.nextObj) (e : JsError) : Ok p m w (w.reportError m e) := by
  have h1 := h.ok_setState hm (stateAfterError (w.objs m).state)
  have h2 := h1.trans (h1.wf.ok_setErrorMessage (h1.lt hm) (some (errorText e)))
  have h3 := h2.trans (h2.wf.ok_disarm (h2.lt hm) .polling)
  exact h3.trans (h3.wf.ok_passive (h3.lt hm) (passive_emitQualityUpdate _ m .bad))

/-- Code of a handler that is passive or handles an error; the flag says whether the last call of the callback has
left it by a throw, so that no reconnect attempt is scheduled. -/
inductive Handles (m : ObjId) (w : World) : World → Bool → Prop
  | passive {w' : World} (h : Passive m w w') : Handles m w w' false
  | error {w' : World} {cut : Bool} (h : Handles m w w' cut) (e : JsError) :
      Handles m w (w'.handleConnectionError m e) false
  | cut {w' : World} {cut : Bool} (h : Handles m w w' cut) (e : JsError) : Handles m w (w'.reportError m e) true

theorem Handles.refl (m : ObjId) (w : World) : Handles m w w false := .passive (Passive.refl m w)

theorem Handles.ok {cut : Bool} (hh : Handles m w w' cut) (h : WF p w) (hm : m < w.nextObj) : Ok p m w w' := by
  induction hh with
  | passive hp => exact h.ok_passive hm hp
  | error _ e ih => exact ih.trans (ih.wf.ok_handleConnectionError (ih.lt hm) e)
  | cut _ e ih => exact ih.trans (ih.wf.ok_reportError (ih.lt hm) e)

theorem Handles.running {cut : Bool} (hh : Handles m w w' cut) : w'.running = w.running := by
  induction hh with
  | passive hp => exact hp.running
  | error _ e ih => rw [handleConnectionError_running, ih]
  | cut _ e ih => rw [reportError_running, ih]

theorem Handles.quiet {cut : Bool} (hh : Handles m w w' cut) (hq : (w.objs m).Quiet) (hrun : w.running = false) :
    (w'.objs m).Quiet := by
  induction hh with
  | passive hp => exact hp.sameControl.quiet hq
  | error h e ih => exact quiet_handleConnectionError ih (h.running.trans hrun) e
  | cut h e ih =>
      rw [reportError_of_not_running (h.running.trans hrun)]
      exact quiet_handleConnectionError ih (h.running.trans hrun) e

/-- The handlers leave alone what a handshake needs, and an attempt that is scheduled is still scheduled. -/
structure Lasts (m : ObjId) (w w' : World) : Prop where
  config : (w'.objs m).config = (w.objs m).config
  connecting : (w'.objs m).connecting = (w.objs m).connecting
  client : (w'.objs m).client = (w.objs m).client
  clients : w'.clients = w.clients
  reconnect : (∃ t, (w.objs m).handle .reconnect = some t) → ∃ t, (w'.objs m).handle .reconnect = some t

theorem lasts_reportError (w : World) (m : ObjId) (e : JsError) : Lasts m w (w.reportError m e) := by
  have hself := reportError_self w m e
  refine ⟨?_, ?_, ?_, reportError_clients w m e, fun h => ?_⟩
  · rw [hself]
  · rw [hself]
  · rw [hself]
  · rw [hself]
    exact h

theorem Handles.lasts {cut : Bool} (hh : Handles m w w' cut) : Lasts m w w' := by
  induction hh with
  | passive hp => exact ⟨hp.config, hp.connecting, hp.client, hp.clients, fun h => by rw [hp.handle]; exact h⟩
  | @error w' _ _ e ih =>
      have hself := handleConnectionError_self w' m e
      refine ⟨?_, ?_, ?_, (handleConnectionError_clients w' m e).trans ih.clients, fun h => ?_⟩
      · rw [hself, ih.config]
      · rw [hself, ih.connecting]
      · rw [hself, ih.client]
      · obtain ⟨t, ht⟩ := ih.reconnect h
        rw [hself]
        show ∃ t, (if w'.running then some w'.nextTimer else (w'.objs m).reconnectTimer) = some t
        split_ifs
        · exact ⟨_, rfl⟩
        · exact ⟨t, ht⟩
  | @cut w' _ _ e ih =>
      have hcut := lasts_reportError w' m e
      exact ⟨hcut.config.trans ih.config, hcut.connecting.trans ih.connecting, hcut.client.trans ih.client,
        hcut.clients.trans ih.clients, fun h => hcut.reconnect (ih.reconnect h)⟩

/-- An error is handled to its end, unless the callback is called and throws. -/
theorem Handles.handleErrorThrowing {cut : Bool} (hh : Handles m w w' cut) (thrown : Option JsError) (e : JsError) :
    ∃ cut', Handles m w (w'.handleErrorThrowing thrown m e).1 cut' ∧ (cut' = true → thrown ≠ none) ∧
      ((w'.handleErrorThrowing thrown m e).2 = none → cut' = false) := by
  unfold World.handleErrorThrowing
  split
  · exact ⟨true, .cut hh e, fun _ => Option.some_ne_none _, fun h => absurd h (Option.some_ne_none _)⟩
  · exact ⟨false, .error hh e, fun h => absurd h Bool.false_ne_true, fun _ => rfl⟩

/-- Code that is caught is cut short only if it is thrown at twice. -/
theorem Handles.catching {code : World × Option JsError} {cut : Bool} (hh : Handles m w code.1 cut)
    (hreturns : code.2 = none → cut = false) (again : Option JsError) :
    ∃ cut', Handles m w (catching again m code) cut' ∧ (cut' = true → again ≠ none) := by
  obtain ⟨w', thrown⟩ := code
  cases thrown with
  | none =>
      refine ⟨cut, hh, fun hcut => absurd hcut ?_⟩
      rw [hreturns rfl]
      exact Bool.false_ne_true
  | some e =>
      obtain ⟨cut', hh', hthrown, -⟩ := hh.handleErrorThrowing again e
      exact ⟨cut', hh', hthrown⟩

theorem passive_readNextInterrupted (w : World) (m : ObjId) (updates : List ValueUpdate)
    (l : List (Nat × String × Mapping)) (hl : ∀ s ∈ l, ∃ a, parseDeviceAddress s.2.2.deviceAddress = .ok a) :
    Passive m w (readNextInterrupted thrown w m updates l).1 := by
  cases l with
  | nil =>
      unfold readNextInterrupted
      split_ifs
      · exact Passive.refl m w
      · exact (passive_setLastPollAt w m).trans (passive_emitValueUpdates _ m updates)
  | cons s rest =>
      obtain ⟨a, ha⟩ := hl s List.mem_cons_self
      simp only [readNextInterrupted, ha]
      exact passive_issueRead w m rfl _

theorem handles_modbusReadInterrupted (thrown : JsError) (hl : Local .modbusTcp w m)
    (client : Option ClientId) (stamp : Nat) (mapping : Mapping) (parsed : ParsedAddress)
    (updates : List ValueUpdate) (result : Except JsError (List Json)) :
    ∃ cut, Handles m w (modbusReadInterrupted thrown w m client stamp mapping parsed updates result).1 cut ∧
      ((modbusReadInterrupted thrown w m client stamp mapping parsed updates result).2 = none → cut = false) := by
  have hnext : ∀ updates, Handles m w
      (readNextInterrupted thrown w m updates ((w.objs m).mappings.after (some stamp))).1 false := fun updates =>
    .passive (passive_readNextInterrupted w m updates _ (hl.parses _))
  unfold modbusReadInterrupted
  split
  · exact ⟨false, hnext updates, fun _ => rfl⟩
  · rename_i data
    have hanswer := passive_cacheAnswer w m (mapping, ⟨Modbus.valueOf parsed data, .good⟩)
    exact ⟨false, .passive (hanswer.trans (passive_readNextInterrupted _ _ _ _ (hl.parses _))), fun _ => rfl⟩
  · split_ifs
    · obtain ⟨cut, hh, -, hreturns⟩ := (Handles.refl m w).handleErrorThrowing (some thrown) _
      exact ⟨cut, hh, hreturns⟩
    · exact ⟨false, hnext updates, fun _ => rfl⟩

theorem handles_tagsRejected {w₁ : World} (hp : Passive m w w₁) (thrown : Option JsError) (e : JsError) :
    ∃ cut, Handles m w (tagsRejected thrown w₁ m e) cut ∧
      (cut = true → EthernetIp.endsConnection e = true ∧ thrown ≠ none) := by
  have hclear := hp.trans (passive_setPollInProgress w₁ m false)
  unfold tagsRejected
  dsimp only
  split_ifs with hends
  · obtain ⟨cut, hh, hthrown, -⟩ := (Handles.passive hclear).handleErrorThrowing thrown e
    exact ⟨cut, hh, fun hcut => ⟨hends, hthrown hcut⟩⟩
  · exact ⟨false, .passive (hclear.trans (passive_emitQualityUpdate _ m .bad)), fun h => absurd h Bool.false_ne_true⟩

/-- The throws at the handler of a read's answer that leave nothing out: those of a call that comes last, and those
that a `catch` handles. -/
def ReadCaught (p : Protocol) (thrown : JsError) (again : Option JsError) (w : World) (m : ObjId) :
    ReadResult → Prop :=
  match p with
  | .s7 => fun result => ∀ e, result ≠ .failed e
  | .modbusTcp => fun _ => again = none
  | .ethernetIp => fun
      | .failed e => EthernetIp.endsConnection e = false
      | _ => EthernetIp.endsConnection thrown = false ∨ again = none
  | .pccc => fun
      | .found anythingBad found =>
          (w.objs m).client = none ∨ (anythingBad && !Pccc.someItemOk (w.objs m).mappings.values found) = false
      | _ => True

theorem handles_onRead {r : Read} (hl : Local p w r.obj) (result : ReadResult) :
    Handles r.obj w (onRead p w r result) false := by
  rcases onRead_cases hl result with hp | ⟨w₁, e, hp, -, he⟩
  · exact .passive hp
  · rw [he]
    exact .error (.passive hp) e

theorem handles_onReadInterrupted (thrown : JsError) (again : Option JsError) {r : Read} (hl : Local p w r.obj)
    (result : ReadResult) :
    ∃ cut, Handles r.obj w (onReadInterrupted p thrown again w r result) cut ∧
      (cut = true → ¬ ReadCaught p thrown again w r.obj result) := by
  have hsame : ∃ cut, Handles r.obj w (onRead p w r result) cut ∧
      (cut = true → ¬ ReadCaught p thrown again w r.obj result) :=
    ⟨false, handles_onRead hl result, fun h => absurd h Bool.false_ne_true⟩
  unfold onReadInterrupted
  split
  · rename_i e hcont
    obtain ⟨cut, hh, -⟩ := (Handles.refl r.obj w).handleErrorThrowing (some thrown) e
    exact ⟨cut, hh, fun _ hcaught => hcaught e rfl⟩
  · obtain ⟨cut, hh, hreturns⟩ := handles_modbusReadInterrupted thrown hl r.client _ _ _ _ _
    obtain ⟨cut', hh', hagain⟩ := hh.catching hreturns again
    exact ⟨cut', hh', hagain⟩
  · obtain ⟨cut, hh, hreturns⟩ := handles_modbusReadInterrupted thrown hl r.client _ _ _ _ _
    obtain ⟨cut', hh', hagain⟩ := hh.catching hreturns again
    exact ⟨cut', hh', hagain⟩
  · rename_i mappings values hcont
    dsimp only
    split_ifs
    · exact hsame
    · have hdelivered := (passive_setLastPollAt w r.obj).trans
        (passive_deliver (w.setLastPollAt r.obj) r.obj (EthernetIp.answers mappings values))
      obtain ⟨cut, hh, hcut⟩ := handles_tagsRejected hdelivered again thrown
      refine ⟨cut, hh, fun h hcaught => ?_⟩
      obtain ⟨hends, hagain⟩ := hcut h
      rcases hcaught with hends' | hagain'
      · rw [hends] at hends'
        cases hends'
      · exact hagain hagain'
  · rename_i mappings e hcont
    obtain ⟨cut, hh, hcut⟩ := handles_tagsRejected (Passive.refl r.obj w) (some thrown) e
    refine ⟨cut, hh, fun h hcaught => ?_⟩
    obtain ⟨hends, -⟩ := hcut h
    change EthernetIp.endsConnection e = false at hcaught
    rw [hends] at hcaught
    cases hcaught
  · rename_i anythingBad found hcont
    split_ifs with hbad
    · rw [Bool.and_eq_true] at hbad
      obtain ⟨cut, hh, -⟩ := (Handles.passive (passive_setPollInProgress w r.obj false)).handleErrorThrowing
        (some thrown) (.text "All items returned bad quality")
      refine ⟨cut, hh, fun _ hcaught => ?_⟩
      rcases hcaught with hnone | hgood
      · rw [hnone] at hbad
        exact absurd hbad.1 Bool.false_ne_true
      · rw [hbad.2] at hgood
        cases hgood
    · exact hsame
  · exact hsame

/-! ## Connects -/

theorem onConnectInterrupted_cases (p : Protocol) (thrown : JsError) (again : Option JsError) (w : World) (m : ObjId)
    (err : Option JsError) :
    onConnectInterrupted p thrown again w m err = onConnect p w m err ∨
    (connectFailed p err = true ∧ ∃ e, onConnectInterrupted p thrown again w m err =
      ((w.setConnecting m false).handleErrorThrowing (some thrown) m e).1) ∨
    (∃ c, (w.objs m).client = some c ∧ hasCatch p = true ∧ connectFailed p err = false ∧
      onConnectInterrupted p thrown again w m err =
        (((told p (w.setConnecting m false) m c).setConnecting m false).handleErrorThrowing again m thrown).1) ∨
    (∃ c, (w.objs m).client = some c ∧ hasCatch p = false ∧
      onConnectInterrupted p thrown again w m err = told p (w.setConnecting m false) m c) := by
  have hclient := setConnecting_client w m false
  have hfails : connectFailed p err = (err.filter (fun e => connectFailed p (some e))).isSome := by
    cases err with
    | none => cases p <;> rfl
    | some e => cases p <;> cases h : e.truthy <;> simp [connectFailed, Option.filter, h]
  unfold onConnectInterrupted
  cases hf : err.filter (fun e => connectFailed p (some e)) with
  | some e =>
      rw [hf, Option.isSome_some] at hfails
      dsimp only
      split_ifs with hgone
      · left
        obtain ⟨rfl, hnone⟩ := hgone
        simp only [onConnect, Pccc.onConnect, hclient, hnone]
      · exact Or.inr (Or.inl ⟨hfails, e, rfl⟩)
  | none =>
      rw [hf, Option.isSome_none] at hfails
      rcases onConnect_cases p w m err with ⟨hc, -, he⟩ | ⟨hfail, -⟩ | ⟨-, c, hc, he⟩
      · left
        rw [hc, he]
      · rw [hfail] at hfails
        cases hfails
      · rw [hc, he]
        dsimp only
        split_ifs with hnotifies hcatch
        · exact Or.inl rfl
        · exact Or.inr (Or.inr (Or.inl ⟨c, rfl, hcatch, hfails, rfl⟩))
        · exact Or.inr (Or.inr (Or.inr ⟨c, rfl, Bool.not_eq_true _ ▸ hcatch, rfl⟩))

/-- The object after the quality update of a success. -/
theorem told_self (p : Protocol) (w : World) (m : ObjId) (c : ClientId) :
    (told p w m c).objs m = { w.objs m with state := .connected, errorMessage := none } := by
  rw [told, emitQualityUpdate_objs, registerMappings_objs]
  simp only [setErrorMessage, setState, update_objs_self]

theorem registerMappings_running (p : Protocol) (w : World) (m : ObjId) (c : ClientId) :
    (registerMappings p w m c).running = w.running := by
  unfold registerMappings
  split
  · dsimp only
    split_ifs <;> rfl
  · rfl

theorem told_running (p : Protocol) (w : World) (m : ObjId) (c : ClientId) : (told p w m c).running = w.running :=
  (passive_emitQualityUpdate _ m .good).running.trans (registerMappings_running p _ m c)

theorem WF.ok_onConnectInterrupted (h : WF p w) (hm : m < w.nextObj) (thrown : JsError) (again : Option JsError)
    (err : Option JsError) : Ok p m w (onConnectInterrupted p thrown again w m err) := by
  have h1 := h.ok_setConnecting hm false
  have htold : ∀ c, (w.objs m).client = some c → Ok p m w (told p (w.setConnecting m false) m c) := fun c hc =>
    h1.trans (h1.wf.ok_told (h1.lt hm) ((setConnecting_client w m false).trans hc))
  rcases onConnectInterrupted_cases p thrown again w m err with he | ⟨-, e, he⟩ | ⟨c, hc, -, -, he⟩ |
    ⟨c, hc, -, he⟩ <;> rw [he]
  · exact h.ok_onConnect hm err
  · obtain ⟨cut, hh, -⟩ := (Handles.refl m (w.setConnecting m false)).handleErrorThrowing (some thrown) e
    exact h1.trans (hh.ok h1.wf (h1.lt hm))
  · have h2 := htold c hc
    have h3 := h2.trans (h2.wf.ok_setConnecting (h2.lt hm) false)
    obtain ⟨cut, hh, -⟩ := (Handles.refl m ((told p (w.setConnecting m false) m c).setConnecting m false)
      ).handleErrorThrowing again thrown
    exact h3.trans (hh.ok h3.wf (h3.lt hm))
  · exact htold c hc

/-! ## Steps -/

/-- A poll of modbus-serial has no updates before its first answer. -/
theorem pollInterrupted_eq (hl : Local p w m) : pollInterrupted p thrown again w m = poll p w m := by
  cases p with
  | modbusTcp =>
      have hnext : ∀ l : List (Nat × String × Mapping),
          (∀ s ∈ l, ∃ a, parseDeviceAddress s.2.2.deviceAddress = .ok a) →
            readNextInterrupted thrown w m [] l = (Modbus.readNext w m [] l, none) := by
        intro l hparses
        cases l with
        | nil => rfl
        | cons s rest =>
            obtain ⟨a, ha⟩ := hparses s List.mem_cons_self
            simp only [readNextInterrupted, Modbus.readNext, ha]
      simp only [pollInterrupted, poll, Modbus.poll, hnext _ (hl.parses none), catching]
      grind
  | _ => rfl

/-- Only the answers to connects and reads call the callback. -/
theorem interruptedStep_cases (h : WF p w) (thrown : JsError) (again : Option JsError) (e : Event) :
    interruptedStep p thrown again w e = step p w e ∨
    (∃ m c err, e = .connectReport c err ∧ actor w e = some m ∧
      interruptedStep p thrown again w e = onConnectInterrupted p thrown again (reported p w c err) m err) ∨
    (∃ r result read, e = .readReport r result ∧ w.reads r = some read ∧ interruptedStep p thrown again w e =
      onReadInterrupted p thrown again ((w.takeRead r).report (valueReports w read result)) read result) := by
  cases e with
  | connectReport c err =>
      by_cases hc : c < w.nextClient ∧ (w.clients c).handshake = .pending
      · have ha : actor w (.connectReport c err) = some (w.clients c).owner := by rw [actor, if_pos hc]
        exact Or.inr (Or.inl ⟨_, c, err, rfl, ha, by rw [interruptedStep, if_pos hc]⟩)
      · left
        rw [interruptedStep, if_neg hc, Connector.step, onConnectReport, if_neg hc]
  | readReport r result =>
      cases hr : w.reads r with
      | none => exact Or.inl (by simp only [interruptedStep, Connector.step, onReadReport, hr])
      | some read => exact Or.inr (Or.inr ⟨r, result, read, rfl, hr, by simp only [interruptedStep, hr]⟩)
  | pollTick t =>
      left
      have hpoll : pollInterrupted p thrown again w = poll p w := funext fun m => pollInterrupted_eq (h.obj m)
      rw [interruptedStep, hpoll]
      rfl
  | _ => exact Or.inl rfl

theorem WF.ok_interruptedStep (h : WF p w) {e : Event} (ha : actor w e = some m) (thrown : JsError)
    (again : Option JsError) : Ok p m w (interruptedStep p thrown again w e) := by
  rcases interruptedStep_cases h thrown again e with he | ⟨i, c, err, rfl, hi, he⟩ |
    ⟨r, result, read, rfl, hr, he⟩ <;> rw [he]
  · exact h.ok_step ha
  · obtain rfl := Option.some.inj (ha.symm.trans hi)
    obtain ⟨hlt, -, rfl, -⟩ := actor_connectReport (p := p) ha
    have h1 := h.ok_reported hlt err
    exact h1.trans (h1.wf.ok_onConnectInterrupted (h1.lt (h.owner c hlt)) thrown again err)
  · obtain rfl : read.obj = m := by
      rw [actor, hr] at ha
      exact Option.some.inj ha
    obtain ⟨hok, -⟩ := h.ok_answered hr result
    obtain ⟨cut, hh, -⟩ := handles_onReadInterrupted thrown again (hok.wf.obj read.obj) result
    exact hok.trans (hh.ok hok.wf (hok.lt (h.read r read hr).1))

/-- Where no callback is called, nothing is thrown. -/
theorem interruptedStep_of_actor_none (h : WF p w) {e : Event} (ha : actor w e = none) (thrown : JsError)
    (again : Option JsError) : interruptedStep p thrown again w e = step p w e := by
  rcases interruptedStep_cases h thrown again e with he | ⟨i, c, err, rfl, hi, -⟩ | ⟨r, result, read, rfl, hr, -⟩
  · exact he
  · rw [ha] at hi
    cases hi
  · rw [actor, hr] at ha
    cases ha

theorem WF.callbackTurn (h : WF p w) (t : CallbackTurn) : WF p (callbackTurn p w t) := by
  cases t with
  | returns e => exact h.step e
  | throws e thrown again =>
      cases ha : actor w e with
      | none =>
          rw [Connector.callbackTurn, interruptedStep_of_actor_none h ha]
          exact h.step e
      | some m => exact (h.ok_interruptedStep ha thrown again).wf

theorem reachCallbacks_wf (p : Protocol) (ts : List CallbackTurn) : WF p (reachCallbacks p ts) :=
  Machine.run_invariant' (fun _ t h => h.callbackTurn t) ts (wf_initial p)

/-- Without a client no success is told. -/
theorem quiet_onConnectInterrupted (hq : (w.objs m).Quiet) (hrun : w.running = false) (thrown : JsError)
    (again : Option JsError) (err : Option JsError) :
    ((onConnectInterrupted p thrown again w m err).objs m).Quiet := by
  have hobj : (w.setConnecting m false).objs m = { w.objs m with connecting := false } := update_objs_self _ _ _
  have hq1 : ((w.setConnecting m false).objs m).Quiet := hobj ▸ quiet_setConnecting hq
  rcases onConnectInterrupted_cases p thrown again w m err with he | ⟨-, e, he⟩ | ⟨c, hc, -⟩ | ⟨c, hc, -⟩
  · rw [he]
    rcases onConnect_cases p w m err with ⟨-, -, he⟩ | ⟨-, -, e, he⟩ | ⟨-, c, hc, -⟩
    · rw [he]
      exact hq1
    · rw [he]
      exact quiet_handleConnectionError hq1 hrun e
    · rw [hq.client] at hc
      cases hc
  · rw [he]
    obtain ⟨cut, hh, -⟩ := (Handles.refl m (w.setConnecting m false)).handleErrorThrowing (some thrown) e
    exact hh.quiet hq1 hrun
  · rw [hq.client] at hc
    cases hc
  · rw [hq.client] at hc
    cases hc

theorem WF.idle_callbackTurn (h : WF p w) (hidle : All Idle w) (t : CallbackTurn) :
    All Idle (Connector.callbackTurn p w t) := by
  cases t with
  | returns e => exact h.idle_step hidle e
  | throws e thrown again =>
      rw [Connector.callbackTurn]
      rcases interruptedStep_cases h thrown again e with he | ⟨m, c, err, rfl, ha, he⟩ |
        ⟨r, result, read, rfl, hr, he⟩
      · rw [he]
        exact h.idle_step hidle e
      · have hok := h.ok_interruptedStep ha thrown again
        refine (framed_idle p).all_of_ok h hok hidle fun _ hq hrun => ?_
        rw [hok.acts.running] at hrun
        rw [he]
        refine quiet_onConnectInterrupted ?_ ?_ thrown again err
        · rw [reported_objs]
          exact hq hrun
        · rw [reported_running, hrun]
      · have ha : actor w (.readReport r result) = some read.obj := by rw [actor, hr]; rfl
        have hok := h.ok_interruptedStep ha thrown again
        refine (framed_idle p).all_of_ok h hok hidle fun _ hq hrun => ?_
        rw [hok.acts.running] at hrun
        obtain ⟨hok1, -⟩ := h.ok_answered hr result
        obtain ⟨cut, hh, -⟩ := handles_onReadInterrupted thrown again (hok1.wf.obj read.obj) result
        rw [he]
        exact hh.quiet (hq hrun) hrun

end OpcuaLight.Connector
