import OpcuaLight.Connector.Throwing

/-!
# Updates that fail

`updateConnection` disconnects the connection before it looks at the new parameters, so an update
that throws has taken the connection down unless there was nothing to take down (`AtRest`).
`addConnection` looks at the parameters first, and an error of it changes nothing.
-/

namespace OpcuaLight.Connector

open World

variable {p : Protocol} {w w' : World} {m : ObjId} {config : ConnectionConfig}

/-- The connection of `m` is the one it was, and goes on as it did: the client is still held and
open, both timers are armed or not as before, and so is an attempt under way. -/
structure Untouched (m : ObjId) (w w' : World) : Prop where
  connections : w'.connections = w.connections
  config : (w'.objs m).config = (w.objs m).config
  params : (w'.objs m).params = (w.objs m).params
  client : (w'.objs m).client = (w.objs m).client
  state : (w'.objs m).state = (w.objs m).state
  handle : ∀ k, (w'.objs m).handle k = (w.objs m).handle k
  connecting : (w'.objs m).connecting = (w.objs m).connecting
  clients : w'.clients = w.clients
  timers : w'.timers = w.timers

theorem Untouched.refl (m : ObjId) (w : World) : Untouched m w w :=
  ⟨rfl, rfl, rfl, rfl, rfl, fun _ => rfl, rfl, rfl, rfl⟩

/-- Neither connected nor trying to be: as created, or as stopped. -/
structure Managed.AtRest (o : Managed) : Prop where
  client : o.client = none
  state : o.state = .disconnected
  handle : ∀ k, o.handle k = none
  connecting : o.connecting = false

/-- An error of `addConnection` leaves everything as it was. -/
theorem addConnection_error {msg : String} (h : (addConnection p w config).2 = some msg) :
    (addConnection p w config).1 = w := by
  unfold addConnection at h ⊢
  split
  · rfl
  · split
    · rfl
    · rename_i hnone _ params hok
      rw [hnone] at h
      simp only [hok] at h
      cases h

/-- `updateConnection` of a tracked connection throws exactly if the new parameters are refused, and
has disconnected it then. -/
theorem updateConnection_tracked (hm : w.connections.get? config.id = some m) :
    (∃ params, extractParams p config = .ok params ∧ (updateConnection p w config).2 = none) ∨
    ∃ msg, extractParams p config = .error msg ∧
      updateConnection p w config = (w.disconnectAndCleanup m, some msg) := by
  unfold updateConnection
  rw [hm]
  cases he : extractParams p config with
  | ok params => exact Or.inl ⟨params, rfl, rfl⟩
  | error msg => exact Or.inr ⟨msg, rfl, rfl⟩

theorem disarm_of_none {k : TimerKind} (h : (w.objs m).handle k = none) : disarm k w m = w := by
  rw [disarm, h]

/-- Disconnecting what is at rest changes the error message at most. -/
theorem disconnectAndCleanup_of_atRest (h : (w.objs m).AtRest) :
    w.disconnectAndCleanup m =
      ((((w.setClient m none).setState m .disconnected).setConnecting m false).setErrorMessage m
        none) := by
  rw [disconnectAndCleanup, stopPolling, disarm_of_none (h.handle .polling),
    disarm_of_none (h.handle .reconnect), dropClient, closeClient, h.client]

theorem disconnectAndCleanup_untouched_iff :
    Untouched m w (w.disconnectAndCleanup m) ↔ (w.objs m).AtRest := by
  have hself := disconnectAndCleanup_self w m
  constructor
  · intro h
    refine ⟨?_, ?_, fun k => ?_, ?_⟩
    · rw [← h.client, hself]
    · rw [← h.state, hself]
    · rw [← h.handle k, hself]
      cases k <;> rfl
    · rw [← h.connecting, hself]
  · intro h
    rw [disconnectAndCleanup_of_atRest h] at hself ⊢
    refine ⟨rfl, ?_, ?_, ?_, ?_, fun k => ?_, ?_, rfl, rfl⟩ <;> rw [hself]
    · exact h.client.symm
    · exact h.state.symm
    · rw [h.handle k]
      cases k <;> rfl
    · exact h.connecting.symm

/-- **A failing update.** In every state an update that throws leaves the tracked connection alone
exactly if it does not throw, its parameters being accepted, or the connection is at rest. -/
theorem updateConnection_untouched_iff (p : Protocol) (w : World) (config : ConnectionConfig) :
    (∀ msg m, (updateConnection p w config).2 = some msg →
      w.connections.get? config.id = some m → Untouched m w (updateConnection p w config).1) ↔
    (∃ params, extractParams p config = .ok params) ∨
      ∀ m, w.connections.get? config.id = some m → (w.objs m).AtRest := by
  constructor
  · intro h
    cases hparams : extractParams p config with
    | ok params => exact Or.inl ⟨params, rfl⟩
    | error msg =>
        refine Or.inr fun m hm => ?_
        rcases updateConnection_tracked (p := p) hm with ⟨params, hok, -⟩ | ⟨msg', -, hupdate⟩
        · rw [hparams] at hok
          cases hok
        · have huntouched := h msg' m (by rw [hupdate]) hm
          rw [hupdate] at huntouched
          exact disconnectAndCleanup_untouched_iff.mp huntouched
  · intro h msg m hmsg hm
    rcases updateConnection_tracked (p := p) hm with ⟨params, -, hnone⟩ | ⟨msg', herr, hupdate⟩
    · rw [hnone] at hmsg
      cases hmsg
    · rw [hupdate]
      refine disconnectAndCleanup_untouched_iff.mpr ?_
      rcases h with ⟨params, hok⟩ | hrest
      · rw [herr] at hok
        cases hok
      · exact hrest m hm

/-- A running connection, and new parameters without a host. -/
def hostless (p : Protocol) : ConnectionConfig := { sampleConnection p with params := .obj [] }

/-- The attempt to connect that is under way is given up. -/
theorem hostless_not_untouched :
    ¬ ∀ (p : Protocol) (ts : List Turn) (config : ConnectionConfig) (msg : String) (m : ObjId),
      (updateConnection p (reachTurns p ts) config).2 = some msg →
      (reachTurns p ts).connections.get? config.id = some m →
      Untouched m (reachTurns p ts) (updateConnection p (reachTurns p ts) config).1 := by
  intro h
  have huntouched := h .s7
    [.returns (.addConnection (sampleConnection .s7)), .returns .start] (hostless .s7)
    "S7 connection 'PLC' requires a 'host' parameter" 0 (by decide) (by decide)
  exact absurd huntouched.client (by decide)

end OpcuaLight.Connector
