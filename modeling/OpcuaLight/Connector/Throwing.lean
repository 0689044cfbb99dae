import OpcuaLight.Connector.Control

/-!
# Reads that throw

`readAllItems` of nodes7 and nodepccc and `read` of ethernet-ip may throw where a poll calls them.
`throwStep` is the step of an event during which they do. (modbus-serial is called inside functions
that are awaited, so there a throw is a read that failed.) A run may take steps of both kinds
(`Turn`); its states are still well-formed, and the connector that is not running is still idle.
-/

namespace OpcuaLight.Connector

open World

/-- Whether a poll gets as far as the read. -/
def pollReads (p : Protocol) (o : Managed) : Bool :=
  o.state = .connected && o.client.isSome && o.mappings.size ≠ 0 &&
    match p with
    | .ethernetIp | .pccc => !o.pollInProgress
    | .s7 | .modbusTcp => true

/-- `poll` when the read throws; the flag is set before the call. The second component says whether
the error gets out. -/
def pollThrowing (p : Protocol) (w : World) (m : ObjId) : World × Bool :=
  match p with
  | .modbusTcp => (poll .modbusTcp w m, false)
  | .s7 => (w, pollReads .s7 (w.objs m))
  | .ethernetIp | .pccc =>
      if pollReads p (w.objs m) then (w.setPollInProgress m true, true) else (w, false)

/-- `startPolling`: after an error of the first poll the interval is not set. -/
def startPollingThrowing (p : Protocol) (w : World) (m : ObjId) : World × Bool :=
  if (w.objs m).pollingTimer.isSome then (w, false)
  else if (pollThrowing p w m).2 then pollThrowing p w m
  else (arm .polling (pollThrowing p w m).1 m, false)

/-- The handlers of a connect. The `catch` of ethernet-ip's promise handles the error; nothing does
for the callbacks of nodes7 and nodepccc. -/
def onConnectThrowing (p : Protocol) (thrown : JsError) (w : World) (m : ObjId)
    (err : Option JsError) : World :=
  match connectFailed p err, (w.objs m).client with
  | false, some c =>
      let w := ((w.setConnecting m false).setState m .connected).setErrorMessage m none
      let r := startPollingThrowing p ((registerMappings p w m c).emitQualityUpdate m .good) m
      match p, r.2 with
      | .ethernetIp, true => (r.1.setConnecting m false).handleConnectionError m thrown
      | _, _ => r.1
  | _, _ => onConnect p w m err

/-- The step of an event during which a read throws. -/
def throwStep (p : Protocol) (thrown : JsError) (w : World) : Event → World
  | .connectReport c err =>
      if c < w.nextClient ∧ (w.clients c).handshake = .pending then
        onConnectThrowing p thrown (reported p w c err) (w.clients c).owner err
      else w
  | .pollTick t =>
      match w.timers t with
      | some ⟨.polling, m, _⟩ => (pollThrowing p w m).1
      | _ => w
  | e => step p w e

inductive Turn where
  | returns (e : Event)
  | throws (e : Event) (thrown : JsError)

def turnStep (p : Protocol) (w : World) : Turn → World
  | .returns e => step p w e
  | .throws e thrown => throwStep p thrown w e

/-- The state after a list of turns, from a new connector. -/
def reachTurns (p : Protocol) (ts : List Turn) : World := Machine.run (turnStep p) World.initial ts

variable {p : Protocol} {w w' : World} {m : ObjId}

/-! ## Well-formed states -/

theorem passive_pollThrowing (h : Local p w m) : Passive m w (pollThrowing p w m).1 := by
  cases p with
  | s7 => exact Passive.refl m w
  | modbusTcp => exact passive_poll h
  | _ =>
      simp only [pollThrowing]
      split_ifs
      · exact passive_setPollInProgress w m true
      · exact Passive.refl m w

theorem WF.ok_startPollingThrowing (h : WF p w) (hm : m < w.nextObj) :
    Ok p m w (startPollingThrowing p w m).1 := by
  unfold startPollingThrowing
  have hpoll := passive_pollThrowing (h.obj m)
  have h1 := h.ok_passive hm hpoll
  split_ifs with ht
  · exact h.ok_refl m
  · exact h1
  · refine h1.trans (h1.wf.ok_arm (h1.lt hm) ?_)
    rw [hpoll.handle]
    exact Option.not_isSome_iff_eq_none.mp ht

theorem WF.ok_onConnectThrowing (h : WF p w) (hm : m < w.nextObj) (thrown : JsError)
    (err : Option JsError) : Ok p m w (onConnectThrowing p thrown w m err) := by
  unfold onConnectThrowing
  split
  · rename_i c _ hc
    have h1 := h.ok_setConnecting hm false
    have h3 := h1.trans (h1.wf.ok_told (h1.lt hm) ((setConnecting_client w m false).trans hc))
    have h4 := h3.trans (h3.wf.ok_startPollingThrowing (h3.lt hm))
    dsimp only
    split
    · have h5 := h4.trans (h4.wf.ok_setConnecting (h4.lt hm) false)
      exact h5.trans (h5.wf.ok_handleConnectionError (h5.lt hm) thrown)
    · exact h4
  · exact h.ok_onConnect hm err

/-- A step with a read that throws acts for the same object as the step without. -/
theorem WF.ok_throwStep (h : WF p w) {e : Event} (ha : actor w e = some m) (thrown : JsError) :
    Ok p m w (throwStep p thrown w e) := by
  cases e with
  | connectReport c err =>
      obtain ⟨hlt, hpending, rfl, -⟩ := actor_connectReport (p := p) ha
      have h1 := h.ok_reported hlt err
      simp only [throwStep, if_pos (And.intro hlt hpending)]
      exact h1.trans (h1.wf.ok_onConnectThrowing (h1.lt (h.owner c hlt)) thrown err)
  | pollTick t =>
      obtain ⟨ms, ht⟩ := actor_tick ha
      simp only [throwStep, ht]
      exact h.ok_passive (h.timer t _ ht).2 (passive_pollThrowing (h.obj m))
  | _ => exact h.ok_step ha

/-- Where no poll is started or goes on, nothing throws. -/
theorem throwStep_of_actor_none {e : Event} (ha : actor w e = none) (thrown : JsError) :
    throwStep p thrown w e = step p w e := by
  cases e with
  | connectReport c err =>
      simp only [actor] at ha
      split_ifs at ha with hc
      simp only [throwStep, Connector.step, onConnectReport, if_neg hc]
  | pollTick t =>
      rw [step_of_actor_none rfl ha]
      simp only [throwStep]
      split
      · rename_i ht
        simp [actor, ht] at ha
      · rfl
  | _ => rfl

theorem WF.turnStep (h : WF p w) (t : Turn) : WF p (turnStep p w t) := by
  cases t with
  | returns e => exact h.step e
  | throws e thrown =>
      cases ha : actor w e with
      | none =>
          rw [Connector.turnStep, throwStep_of_actor_none ha]
          exact h.step e
      | some m => exact (h.ok_throwStep ha thrown).wf

theorem reachTurns_wf (p : Protocol) (ts : List Turn) : WF p (reachTurns p ts) :=
  Machine.run_invariant' (fun _ t h => h.turnStep t) ts (wf_initial p)

/-! ## The connector that is not running -/

/-- Without a client there is no read, and so none that throws. -/
theorem throwStep_of_client_none {c : ClientId} {err : Option JsError}
    (ha : actor w (.connectReport c err) = some m) (hc : (w.objs m).client = none)
    (thrown : JsError) :
    throwStep p thrown w (.connectReport c err) = step p w (.connectReport c err) := by
  obtain ⟨hlt, hpending, rfl, hstep⟩ := actor_connectReport (p := p) ha
  rw [hstep]
  simp only [throwStep, if_pos (And.intro hlt hpending), onConnectThrowing, reported_objs, hc]
  cases connectFailed p err <;> rfl

theorem WF.idle_turnStep (h : WF p w) (hidle : All Idle w) (t : Turn) :
    All Idle (Connector.turnStep p w t) := by
  cases t with
  | returns e => exact h.idle_step hidle e
  | throws e thrown =>
      cases ha : actor w e with
      | none =>
          rw [Connector.turnStep, throwStep_of_actor_none ha]
          exact h.idle_step hidle e
      | some m =>
          have hok := h.ok_throwStep ha thrown
          cases e with
          | connectReport c err =>
              refine (framed_idle p).all_of_ok h hok hidle fun htr hq hrun => ?_
              have hquiet := hq (by rw [← hok.acts.running]; exact hrun)
              have heq := throwStep_of_client_none (p := p) ha hquiet.client thrown
              have htr' : (Connector.step p w (.connectReport c err)).Tracked m := by
                rw [Tracked, (h.ok_step ha).acts.connections]
                exact htr
              change (throwStep p thrown w (.connectReport c err)).running = false at hrun
              change ((throwStep p thrown w (.connectReport c err)).objs m).Quiet
              rw [heq] at hrun ⊢
              exact h.idle_step hidle _ m htr' hrun
          | pollTick t =>
              obtain ⟨ms, ht⟩ := actor_tick ha
              have hpoll := passive_pollThrowing (h.obj m)
              have heq : throwStep p thrown w (.pollTick t) = (pollThrowing p w m).1 := by
                simp only [throwStep, ht]
              refine (framed_idle p).all_of_ok h hok hidle fun _ hq hrun => ?_
              change (throwStep p thrown w (.pollTick t)).running = false at hrun
              change ((throwStep p thrown w (.pollTick t)).objs m).Quiet
              rw [heq] at hrun ⊢
              exact hpoll.sameControl.quiet (hq (by rw [← hpoll.running]; exact hrun))
          | _ => exact h.idle_step hidle _

theorem reachTurns_idle (p : Protocol) (ts : List Turn) : All Idle (reachTurns p ts) :=
  (Machine.run_invariant' (I := fun w => WF p w ∧ All Idle w)
    (fun _ t h => ⟨h.1.turnStep t, h.1.idle_turnStep h.2 t⟩) ts
    ⟨wf_initial p, all_initial Idle⟩).2

/-! ## Timers -/

/-- **Timers are neither leaked nor doubled.** Of each object ever created, tracked or not, at most
one interval and at most one timeout is armed, and exactly the one that its handle names; while the
connector is not running, no tracked object has a client or a timer. -/
theorem timers_of_handles (p : Protocol) (ts : List Turn) :
    (∀ m k t, ((reachTurns p ts).objs m).handle k = some t ↔
      ∃ ms, (reachTurns p ts).timers t = some ⟨k, m, ms⟩) ∧
    (∀ m k t t' ms ms', (reachTurns p ts).timers t = some ⟨k, m, ms⟩ →
      (reachTurns p ts).timers t' = some ⟨k, m, ms'⟩ → t = t') ∧
    ((reachTurns p ts).running = false → ∀ m, (reachTurns p ts).Tracked m →
      ((reachTurns p ts).objs m).client = none ∧ ((reachTurns p ts).objs m).pollingTimer = none ∧
        ((reachTurns p ts).objs m).reconnectTimer = none) := by
  have hwf := reachTurns_wf p ts
  refine ⟨fun m k t => ⟨fun ht => ((hwf.obj m).armed k t ht).2, ?_⟩, ?_, ?_⟩
  · rintro ⟨ms, ht⟩
    exact (hwf.obj m).timer t _ ht rfl
  · intro m k t t' ms ms' ht ht'
    have hh : ((reachTurns p ts).objs m).handle k = some t := (hwf.obj m).timer t _ ht rfl
    have hh' : ((reachTurns p ts).objs m).handle k = some t' := (hwf.obj m).timer t' _ ht' rfl
    exact Option.some.inj (hh.symm.trans hh')
  · intro hrun m hm
    have hq := reachTurns_idle p ts m hm hrun
    exact ⟨hq.client, hq.handle .polling, hq.handle .reconnect⟩

end OpcuaLight.Connector
