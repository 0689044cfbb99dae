import OpcuaLight.Connector.Wellformed

/-!
# The handlers of the four protocols

What the handlers of a connect (`onConnect_cases`) and of a read (`onRead_cases`) can do, whichever
the protocol: nothing, the base connector's error handling, going connected, or passive code. From
these, every step keeps the states well-formed (`WF.step`).
-/

namespace OpcuaLight.Connector

open World

variable {p : Protocol} {w w' : World} {m : ObjId}

/-! ## Polls -/

theorem passive_readNext (w : World) (m : ObjId) (updates : List ValueUpdate)
    (l : List (Nat × String × Mapping))
    (hl : ∀ s ∈ l, ∃ a, parseDeviceAddress s.2.2.deviceAddress = .ok a) :
    Passive m w (Modbus.readNext w m updates l) := by
  cases l with
  | nil =>
      unfold Modbus.readNext
      split_ifs
      · exact Passive.refl m w
      · exact (passive_setLastPollAt w m).trans (passive_emitValueUpdates _ m updates)
  | cons s rest =>
      obtain ⟨a, ha⟩ := hl s List.mem_cons_self
      simp only [Modbus.readNext, ha]
      exact passive_issueRead w m rfl _

/-- The addresses of the mappings that the Modbus loop still has to visit parse. -/
theorem Local.parses (h : Local .modbusTcp w m) (t : Option Nat) :
    ∀ s ∈ (w.objs m).mappings.after t, ∃ a, parseDeviceAddress s.2.2.deviceAddress = .ok a :=
  fun _ hs => (h.mapping _ _ (JsMap.get?_of_mem_slots (JsMap.mem_of_mem_after hs))).2.2 rfl

theorem passive_poll (h : Local p w m) : Passive m w (poll p w m) := by
  cases p with
  | s7 =>
      simp only [poll, S7.poll]
      split_ifs
      · exact Passive.refl m w
      · exact Passive.refl m w
      · exact passive_issueRead w m rfl _
  | modbusTcp =>
      simp only [poll, Modbus.poll]
      split_ifs
      · exact Passive.refl m w
      · exact Passive.refl m w
      · exact passive_readNext w m _ _ (h.parses none)
  | ethernetIp =>
      simp only [poll, EthernetIp.poll, EthernetIp.pollTags]
      split_ifs
      any_goals exact Passive.refl m w
      exact (passive_setPollInProgress w m true).trans
        (passive_issueRead _ m (by rw [setPollInProgress, update_objs_self]) _)
  | pccc =>
      simp only [poll, Pccc.poll, Pccc.pollAddresses]
      split_ifs
      any_goals exact Passive.refl m w
      exact (passive_setPollInProgress w m true).trans
        (passive_issueRead _ m (by rw [setPollInProgress, update_objs_self]) _)

/-! ## Connects -/

/-- S7 puts the mapped addresses on the poll list of the client it then holds; the others do not. -/
def registerMappings (p : Protocol) (w : World) (m : ObjId) (c : ClientId) : World :=
  match p with
  | .s7 =>
      let addresses := (w.objs m).mappings.values.map Mapping.deviceAddress
      if addresses = [] then w else w.addItems c addresses
  | _ => w

/-- What a handler does on a success while the object holds the client `c`. -/
def onConnected (p : Protocol) (w : World) (m : ObjId) (c : ClientId) : World :=
  let w := (w.setState m .connected).setErrorMessage m none
  startPollingWith (poll p) ((registerMappings p w m c).emitQualityUpdate m .good) m

/-- A callback's `err` that is not truthy is no failure. -/
theorem isSome_filter_truthy (err : Option JsError) :
    (err.filter JsError.truthy).isSome = err.any JsError.truthy := by
  cases err with
  | none => rfl
  | some e => cases h : e.truthy <;> simp [Option.filter, h]

theorem setConnecting_client (w : World) (m : ObjId) (connecting : Bool) :
    ((w.setConnecting m connecting).objs m).client = (w.objs m).client := by
  rw [setConnecting, update_objs_self]

theorem onConnect_cases (p : Protocol) (w : World) (m : ObjId) (err : Option JsError) :
    ((w.objs m).client = none ∧ (connectFailed p err = false ∨ p = .pccc) ∧
      onConnect p w m err = w.setConnecting m false) ∨
    (connectFailed p err = true ∧ (p = .pccc → (w.objs m).client ≠ none) ∧
      ∃ e, onConnect p w m err = (w.setConnecting m false).handleConnectionError m e) ∨
    (connectFailed p err = false ∧ ∃ c, (w.objs m).client = some c ∧
      onConnect p w m err = onConnected p (w.setConnecting m false) m c) := by
  have hclient := setConnecting_client w m false
  have htruthy := isSome_filter_truthy err
  cases p with
  | s7 =>
      simp only [onConnect, S7.onConnect, connectFailed, ← htruthy, hclient]
      cases err.filter JsError.truthy with
      | some e => exact Or.inr (Or.inl ⟨rfl, by simp, e, rfl⟩)
      | none =>
          cases (w.objs m).client with
          | none => exact Or.inl ⟨rfl, Or.inl rfl, rfl⟩
          | some c => exact Or.inr (Or.inr ⟨rfl, c, rfl, rfl⟩)
  | modbusTcp =>
      simp only [onConnect, Modbus.onConnect, connectFailed, hclient]
      cases err with
      | some e => exact Or.inr (Or.inl ⟨rfl, by simp, e, rfl⟩)
      | none =>
          cases (w.objs m).client with
          | none => exact Or.inl ⟨rfl, Or.inl rfl, rfl⟩
          | some c => exact Or.inr (Or.inr ⟨rfl, c, rfl, rfl⟩)
  | ethernetIp =>
      simp only [onConnect, EthernetIp.onConnect, connectFailed, hclient]
      cases err with
      | some e => exact Or.inr (Or.inl ⟨rfl, by simp, e, rfl⟩)
      | none =>
          cases (w.objs m).client with
          | none => exact Or.inl ⟨rfl, Or.inl rfl, rfl⟩
          | some c => exact Or.inr (Or.inr ⟨rfl, c, rfl, rfl⟩)
  | pccc =>
      simp only [onConnect, Pccc.onConnect, connectFailed, ← htruthy, hclient]
      cases (w.objs m).client with
      | none => exact Or.inl ⟨rfl, Or.inr trivial, rfl⟩
      | some c =>
          cases err.filter JsError.truthy with
          | some e => exact Or.inr (Or.inl ⟨rfl, by simp, e, rfl⟩)
          | none => exact Or.inr (Or.inr ⟨rfl, c, rfl, rfl⟩)

theorem registerMappings_objs (p : Protocol) (w : World) (m : ObjId) (c : ClientId) :
    (registerMappings p w m c).objs = w.objs := by
  cases p with
  | s7 =>
      simp only [registerMappings]
      split_ifs <;> rfl
  | _ => rfl

theorem WF.ok_registerMappings (h : WF p w) (hm : m < w.nextObj) {c : ClientId}
    (hc : (w.objs m).client = some c) : Ok p m w (registerMappings p w m c) := by
  cases p with
  | s7 =>
      simp only [registerMappings]
      split_ifs
      · exact h.ok_refl m
      · exact h.ok_addItems hm hc _
  | _ => exact h.ok_refl m

/-- What `onConnected` does before the quality update. -/
theorem WF.ok_registered (h : WF p w) (hm : m < w.nextObj) {c : ClientId}
    (hc : (w.objs m).client = some c) :
    Ok p m w (registerMappings p ((w.setState m .connected).setErrorMessage m none) m c) := by
  have h1 := h.ok_setState hm .connected
  have h2 := h1.trans (h1.wf.ok_setErrorMessage (h1.lt hm) none)
  have hc2 : (((w.setState m .connected).setErrorMessage m none).objs m).client = some c := by
    simp only [setErrorMessage, setState, update_objs_self]
    exact hc
  exact h2.trans (h2.wf.ok_registerMappings (h2.lt hm) hc2)

/-- What a success does before the first poll. -/
theorem WF.ok_told (h : WF p w) (hm : m < w.nextObj) {c : ClientId} (hc : (w.objs m).client = some c) :
    Ok p m w ((registerMappings p ((w.setState m .connected).setErrorMessage m none) m c).emitQualityUpdate
      m .good) := by
  have h3 := h.ok_registered hm hc
  exact h3.trans (h3.wf.ok_passive (h3.lt hm) (passive_emitQualityUpdate _ m .good))

theorem WF.ok_onConnected (h : WF p w) (hm : m < w.nextObj) {c : ClientId}
    (hc : (w.objs m).client = some c) : Ok p m w (onConnected p w m c) := by
  have h4 := h.ok_told hm hc
  exact h4.trans (h4.wf.ok_startPollingWith (h4.lt hm) (poll p) (passive_poll (h4.wf.obj m)))

theorem WF.ok_onConnect (h : WF p w) (hm : m < w.nextObj) (err : Option JsError) :
    Ok p m w (onConnect p w m err) := by
  have h1 := h.ok_setConnecting hm false
  rcases onConnect_cases p w m err with ⟨-, -, e⟩ | ⟨-, -, er, e⟩ | ⟨-, c, hc, e⟩ <;> rw [e]
  · exact h1
  · exact h1.trans (h1.wf.ok_handleConnectionError (h1.lt hm) er)
  · exact h1.trans (h1.wf.ok_onConnected (h1.lt hm) ((setConnecting_client w m false).trans hc))

/-! ## Reads -/

theorem passive_cacheAnswer (w : World) (m : ObjId) (a : Mapping × Answer) :
    Passive m w (cacheAnswer m w a) := passive_cacheValue w m _ _

/-- The protocol's library gives such an answer to such a read. -/
def answersRead : Protocol → Cont → ReadResult → Bool
  | .s7, .items, .items _ | .s7, .items, .failed _ => true
  | .modbusTcp, .address .., .data _ | .modbusTcp, .address .., .failed _ => true
  | .ethernetIp, .tags _, .tags _ | .ethernetIp, .tags _, .failed _ => true
  | .pccc, .items, .found _ _ => true
  | _, _, _ => false

/-- What the handler of a read's answer does, with the state that it leaves. -/
inductive Handling (w : World) : Protocol → Read → ReadResult → World → Prop
  | items (m : ObjId) (client : Option ClientId) (values : List (String × Json)) :
      Handling w .s7 ⟨m, client, .items⟩ (.items values)
        ((w.setLastPollAt m).deliver m (S7.answers (w.objs m).mappings.values values))
  | itemsLost (m : ObjId) (client : Option ClientId) (e : JsError) :
      Handling w .s7 ⟨m, client, .items⟩ (.failed e) (w.handleConnectionError m e)
  | unasked (m : ObjId) (stamp : Nat) (mapping : Mapping) (parsed : ParsedAddress)
      (updates : List ValueUpdate) (result : ReadResult)
      (h : answersRead .modbusTcp (.address stamp mapping parsed updates) result = true) :
      Handling w .modbusTcp ⟨m, none, .address stamp mapping parsed updates⟩ result
        (Modbus.readNext w m updates ((w.objs m).mappings.after (some stamp)))
  | data (m : ObjId) (c : ClientId) (stamp : Nat) (mapping : Mapping) (parsed : ParsedAddress)
      (updates : List ValueUpdate) (data : List Json) :
      Handling w .modbusTcp ⟨m, some c, .address stamp mapping parsed updates⟩ (.data data)
        (Modbus.readNext (cacheAnswer m w (mapping, ⟨Modbus.valueOf parsed data, .good⟩)) m
          (updates ++ answerUpdates w.now [(mapping, ⟨Modbus.valueOf parsed data, .good⟩)])
          ((w.objs m).mappings.after (some stamp)))
  | dataLost (m : ObjId) (c : ClientId) (stamp : Nat) (mapping : Mapping) (parsed : ParsedAddress)
      (updates : List ValueUpdate) (e : JsError) (h : Modbus.isConnectionError e = true) :
      Handling w .modbusTcp ⟨m, some c, .address stamp mapping parsed updates⟩ (.failed e)
        (w.handleConnectionError m e)
  | dataFailed (m : ObjId) (c : ClientId) (stamp : Nat) (mapping : Mapping) (parsed : ParsedAddress)
      (updates : List ValueUpdate) (e : JsError) (h : Modbus.isConnectionError e = false) :
      Handling w .modbusTcp ⟨m, some c, .address stamp mapping parsed updates⟩ (.failed e)
        (Modbus.readNext w m updates ((w.objs m).mappings.after (some stamp)))
  | tags (m : ObjId) (client : Option ClientId) (mappings : List Mapping)
      (values : List (Option EthernetIp.TagValue)) :
      Handling w .ethernetIp ⟨m, client, .tags mappings⟩ (.tags values)
        (((w.setLastPollAt m).deliver m (EthernetIp.answers mappings values)).setPollInProgress m false)
  | tagsLost (m : ObjId) (client : Option ClientId) (mappings : List Mapping) (e : JsError)
      (h : EthernetIp.endsConnection e = true) :
      Handling w .ethernetIp ⟨m, client, .tags mappings⟩ (.failed e)
        ((w.setPollInProgress m false).handleConnectionError m e)
  | tagsFailed (m : ObjId) (client : Option ClientId) (mappings : List Mapping) (e : JsError)
      (h : EthernetIp.endsConnection e = false) :
      Handling w .ethernetIp ⟨m, client, .tags mappings⟩ (.failed e)
        ((w.setPollInProgress m false).emitQualityUpdate m .bad)
  | clientGone (m : ObjId) (client : Option ClientId) (anythingBad : Bool) (found : List Pccc.Item)
      (h : (w.objs m).client = none) :
      Handling w .pccc ⟨m, client, .items⟩ (.found anythingBad found) (w.setPollInProgress m false)
  | allBad (m : ObjId) (client : Option ClientId) (anythingBad : Bool) (found : List Pccc.Item) (c : ClientId)
      (h : (w.objs m).client = some c)
      (hbad : (anythingBad && !Pccc.someItemOk (w.objs m).mappings.values found) = true) :
      Handling w .pccc ⟨m, client, .items⟩ (.found anythingBad found)
        ((w.setPollInProgress m false).handleConnectionError m (.text "All items returned bad quality"))
  | found (m : ObjId) (client : Option ClientId) (anythingBad : Bool) (found : List Pccc.Item) (c : ClientId)
      (h : (w.objs m).client = some c)
      (hbad : (anythingBad && !Pccc.someItemOk (w.objs m).mappings.values found) = false) :
      Handling w .pccc ⟨m, client, .items⟩ (.found anythingBad found)
        (((w.setPollInProgress m false).setLastPollAt m).deliver m
          (Pccc.answers (w.objs m).mappings.values found))
  | dropped (p : Protocol) (r : Read) (result : ReadResult) (h : answersRead p r.cont result = false) :
      Handling w p r result w

/-- The cases are those of `onRead`. -/
theorem handling_onRead (p : Protocol) (w : World) (r : Read) (result : ReadResult) :
    Handling w p r result (onRead p w r result) := by
  obtain ⟨m, client, cont⟩ := r
  unfold onRead
  split
  · rename_i values hcont
    cases hcont
    exact .items m client values
  · rename_i e hcont
    cases hcont
    exact .itemsLost m client e
  · rename_i stamp mapping parsed updates data hcont
    cases hcont
    cases client with
    | none => exact .unasked m stamp mapping parsed updates _ rfl
    | some c => exact .data m c stamp mapping parsed updates data
  · rename_i stamp mapping parsed updates e hcont
    cases hcont
    cases client with
    | none => exact .unasked m stamp mapping parsed updates _ rfl
    | some c =>
        simp only [Modbus.onRead]
        split_ifs with he
        · exact .dataLost m c stamp mapping parsed updates e he
        · exact .dataFailed m c stamp mapping parsed updates e (Bool.eq_false_iff.mpr he)
  · rename_i mappings values hcont
    cases hcont
    exact .tags m client mappings values
  · rename_i mappings e hcont
    cases hcont
    simp only [EthernetIp.onRead]
    split_ifs with he
    · exact .tagsLost m client mappings e he
    · exact .tagsFailed m client mappings e (Bool.eq_false_iff.mpr he)
  · rename_i anythingBad found hcont
    cases hcont
    have hobj : (w.setPollInProgress m false).objs m = { w.objs m with pollInProgress := false } := by
      rw [setPollInProgress, update_objs_self]
    simp only [Pccc.onRead, hobj]
    cases hc : (w.objs m).client with
    | none => exact .clientGone m client anythingBad found hc
    | some c =>
        simp only
        split_ifs with hbad
        · exact .allBad m client anythingBad found c hc hbad
        · exact .found m client anythingBad found c hc (Bool.eq_false_iff.mpr hbad)
  · refine .dropped _ _ _ ?_
    unfold answersRead
    split <;> grind

/-- A read ends in passive code or, after some, in the handling of a connection error. For PCCC that
takes a client that is still there. -/
theorem onRead_cases {r : Read} (hl : Local p w r.obj) (result : ReadResult) :
    Passive r.obj w (onRead p w r result) ∨
    ∃ w₁ e, Passive r.obj w w₁ ∧ (p = .pccc → (w.objs r.obj).client ≠ none) ∧
      onRead p w r result = w₁.handleConnectionError r.obj e := by
  have hpoll := passive_setLastPollAt w r.obj
  have hclear := passive_setPollInProgress w r.obj false
  have h := handling_onRead p w r result
  generalize onRead p w r result = w' at h ⊢
  cases h with
  | items => exact Or.inl (hpoll.trans (passive_deliver _ _ _))
  | itemsLost => exact Or.inr ⟨w, _, Passive.refl _ w, by simp, rfl⟩
  | unasked => exact Or.inl (passive_readNext w _ _ _ (hl.parses _))
  | data m c stamp mapping parsed updates data =>
      have h1 := passive_cacheAnswer w m (mapping, ⟨Modbus.valueOf parsed data, .good⟩)
      exact Or.inl (h1.trans (passive_readNext _ _ _ _ (hl.parses _)))
  | dataLost => exact Or.inr ⟨w, _, Passive.refl _ w, by simp, rfl⟩
  | dataFailed => exact Or.inl (passive_readNext w _ _ _ (hl.parses _))
  | tags => exact Or.inl ((hpoll.trans (passive_deliver _ _ _)).trans (passive_setPollInProgress _ _ _))
  | tagsLost => exact Or.inr ⟨_, _, hclear, by simp, rfl⟩
  | tagsFailed => exact Or.inl (hclear.trans (passive_emitQualityUpdate _ _ _))
  | clientGone => exact Or.inl hclear
  | allBad m client anythingBad found c hc =>
      refine Or.inr ⟨_, _, hclear, fun _ => ?_, rfl⟩
      rw [hc]
      exact Option.some_ne_none c
  | found => exact Or.inl ((hclear.trans (passive_setLastPollAt _ _)).trans (passive_deliver _ _ _))
  | dropped => exact Or.inl (Passive.refl _ w)

theorem WF.ok_onRead (h : WF p w) {r : Read} (hm : r.obj < w.nextObj) (result : ReadResult) :
    Ok p r.obj w (onRead p w r result) := by
  rcases onRead_cases (h.obj r.obj) result with hp | ⟨w₁, e, hp, -, he⟩
  · exact h.ok_passive hm hp
  · have h1 := h.ok_passive hm hp
    rw [he]
    exact h1.trans (h1.wf.ok_handleConnectionError (h1.lt hm) e)

end OpcuaLight.Connector
