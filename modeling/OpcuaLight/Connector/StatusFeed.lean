import OpcuaLight.Connector.Registry
import OpcuaLight.Connector.Callbacks

/-!
# The status that clients see

A tick of the status poll sends the status to every client if it differs from the snapshot, and so
shows it to all. If it does not differ, a client sees it if it was last sent what the snapshot is
(`InStep`). The clients fall out of step when one connects while the status differs from the snapshot,
and when `startAll` overwrites the snapshot without sending it; nothing else does that (`KeepsInStep`).

* `status_reaches` : every tick reaches every client if each tick that finds no change comes after steps that have
  all kept the clients in step since the last broadcast.
-/

namespace OpcuaLight.Connector.Registry

open World

variable {r r' : Registry} {e : RegistryEvent} {statuses : List ConnectionStatus}

/-- The last `connector:status` among what a client has received. -/
def lastStatus (received : List Payload) : Option (List ConnectionStatus) :=
  Hub.lastOf Payload.status? received

/-- All connected clients were last sent this status. -/
def Shows (r : Registry) (statuses : List ConnectionStatus) : Prop :=
  r.sseHub.Each fun received => lastStatus received = some statuses

/-- All connected clients were last sent the status that the snapshot has. -/
def InStep (r : Registry) : Prop := r.Shows r.lastStatusSnapshot

theorem Relays.shows_iff (h : Relays r r') : r'.Shows statuses ↔ r.Shows statuses :=
  h.each _ fun received vs => by rw [lastStatus, Hub.lastOf_append_none rfl, lastStatus]

theorem Relays.inStep_iff (h : Relays r r') : r'.InStep ↔ r.InStep := by
  rw [InStep, h.lastStatusSnapshot]
  exact h.shows_iff

theorem shows_broadcast_status (r : Registry) (statuses : List ConnectionStatus) :
    (r.broadcast (.status statuses)).Shows statuses := by
  refine Hub.each_broadcast.mpr fun received _ => ?_
  exact Hub.lastOf_append_some (f := Payload.status?) rfl received

/-! ## A tick -/

@[simp] theorem getAggregatedStatus_broadcast (r : Registry) (x : Payload) :
    (r.broadcast x).getAggregatedStatus = r.getAggregatedStatus := rfl

theorem getAggregatedStatus_check (r : Registry) :
    r.checkAndBroadcastStatus.getAggregatedStatus = r.getAggregatedStatus := by
  unfold checkAndBroadcastStatus
  split_ifs <;> rfl

/-- A tick shows the status exactly if it has changed since the snapshot, or the clients are in step
with that. -/
theorem shows_check_iff (r : Registry) :
    r.checkAndBroadcastStatus.Shows r.checkAndBroadcastStatus.getAggregatedStatus ↔
      r.getAggregatedStatus ≠ r.lastStatusSnapshot ∨ r.InStep := by
  rw [getAggregatedStatus_check]
  unfold checkAndBroadcastStatus
  split_ifs with hsame
  · rw [InStep, hsame]
    exact ⟨Or.inr, fun h => h.resolve_left fun hne => hne rfl⟩
  · exact ⟨fun _ => Or.inl hsame, fun _ => shows_broadcast_status _ _⟩

/-- The tick finds a change, or every client in step with the snapshot. -/
def TickReaches (r : Registry) : RegistryEvent → Prop
  | .statusTick => r.statusPolling = true →
      r.getAggregatedStatus ≠ r.lastStatusSnapshot ∨ r.InStep
  | _ => True

/-- After every tick of the status poll each connected client was last sent the status that the connectors then
have, exactly if every tick of the run finds a change of it, or the clients in step with the snapshot. -/
theorem status_reaches_iff (order : List Protocol) (es : List RegistryEvent) :
    (∀ fs, fs ++ [.statusTick] <+: es → (reach order fs).statusPolling = true →
      ∀ received, some received ∈ (reach order (fs ++ [.statusTick])).sseHub.clients →
        lastStatus received = some (reach order (fs ++ [.statusTick])).getAggregatedStatus) ↔
      Machine.Guarded step TickReaches (new order) es := by
  have htick : ∀ fs, (reach order fs).statusPolling = true →
      reach order (fs ++ [.statusTick]) = (reach order fs).checkAndBroadcastStatus := fun fs hpolling => by
    rw [reach, Machine.run_snoc]
    exact if_pos hpolling
  rw [Machine.guarded_iff_forall_prefix]
  constructor
  · intro h fs e hpre
    cases e with
    | statusTick =>
        intro hpolling
        have hshows := h fs hpre hpolling
        rw [htick fs hpolling] at hshows
        exact (shows_check_iff _).mp hshows
    | _ => trivial
  · intro h fs hpre hpolling
    rw [htick fs hpolling]
    exact (shows_check_iff _).mpr (h fs .statusTick hpre hpolling)

/-! ## What keeps the clients in step -/

theorem inStep_connectClient : r.connectClient.InStep ↔
    r.InStep ∧ r.getAggregatedStatus = r.lastStatusSnapshot := by
  have hhub : r.connectClient.sseHub = ⟨r.sseHub.clients ++
      [some [.status r.getAggregatedStatus, .values r.getAggregatedValues]]⟩ := by
    change (Hub.sendToClient (Hub.sendToClient (Hub.mk (r.sseHub.clients ++ [some []]))
      r.sseHub.nextClient _) r.sseHub.nextClient _) = _
    rw [Hub.sendToClient_new, Hub.sendToClient_new]
    rfl
  have hlast : lastStatus [.status r.getAggregatedStatus, .values r.getAggregatedValues] =
      some r.getAggregatedStatus := rfl
  rw [InStep, Shows, hhub, Hub.each_append, hlast, Option.some.injEq]
  rfl

theorem getAggregatedStatus_run_start (r : Registry) (p : Protocol) :
    (r.run p (Connector.start p)).getAggregatedStatus = r.getAggregatedStatus := by
  rw [getAggregatedStatus, getAggregatedStatus, (relays_run r p _).order, run_connectors]
  refine List.flatMap_congr fun q _ => ?_
  by_cases hq : q = p
  · rw [hq, Function.update_self, (unseen_start p _).getStatus]
  · rw [Function.update_of_ne hq]

theorem getAggregatedStatus_foldl_start (ps : List Protocol) (r : Registry) :
    (ps.foldl (fun r p => r.run p (Connector.start p)) r).getAggregatedStatus =
      r.getAggregatedStatus := by
  induction ps generalizing r with
  | nil => rfl
  | cons p ps ih => rw [List.foldl_cons, ih, getAggregatedStatus_run_start]

/-- A client connects while the status is that of the snapshot, and `startAll` takes the snapshot when
it has not changed or nobody is connected. -/
def KeepsInStep (r : Registry) : RegistryEvent → Prop
  | .connectClient => r.getAggregatedStatus = r.lastStatusSnapshot
  | .startAll => r.statusPolling = true ∨ r.getAggregatedStatus = r.lastStatusSnapshot ∨
      ∀ received, some received ∉ r.sseHub.clients
  | _ => True

theorem inStep_startAll (h : r.InStep) : r.startAll.InStep ↔ KeepsInStep r .startAll := by
  have hrelays : Relays r (r.order.foldl (fun r p => r.run p (Connector.start p)) r) :=
    relays_foldl (fun r p => relays_run r p _) _ _
  unfold startAll startStatusPolling
  rw [hrelays.statusPolling]
  split_ifs with hpolling
  · exact ⟨fun _ => Or.inl hpolling, fun _ => hrelays.inStep_iff.mpr h⟩
  · -- the snapshot is now the status, which starting has not changed
    have hnew : InStep { r.order.foldl (fun r p => r.run p (Connector.start p)) r with
        lastStatusSnapshot := (r.order.foldl (fun r p => r.run p (Connector.start p)) r).getAggregatedStatus
        statusPolling := true } ↔ r.Shows r.getAggregatedStatus := by
      rw [← getAggregatedStatus_foldl_start r.order r]
      exact hrelays.shows_iff
    rw [hnew]
    constructor
    · intro hshows
      by_cases hnone : ∀ received, some received ∉ r.sseHub.clients
      · exact Or.inr (Or.inr hnone)
      · obtain ⟨received, hmem⟩ := not_forall_not.mp hnone
        exact Or.inr (Or.inl (Option.some.inj ((hshows _ hmem).symm.trans (h _ hmem))))
    · rintro (hp | hsame | hnone)
      · exact absurd hp hpolling
      · rw [hsame]
        exact h
      · exact fun received hmem => absurd hmem (hnone received)

theorem inStep_step (h : r.InStep) (e : RegistryEvent) :
    (Registry.step r e).InStep ↔ KeepsInStep r e := by
  have htrue : (Registry.step r e).InStep → ((Registry.step r e).InStep ↔ True) := fun hstep =>
    iff_of_true hstep trivial
  cases e with
  | connectClient => exact inStep_connectClient.trans (and_iff_right h)
  | disconnectClient c => exact htrue (Hub.Each.removeClient h c)
  | call p t =>
      refine htrue ?_
      by_cases hp : p ∈ r.order
      · rw [Registry.step, if_pos hp]
        exact (relays_run r p _).inStep_iff.mpr h
      · rw [Registry.step, if_neg hp]
        exact h
  | startAll => exact inStep_startAll h
  | stopAll => exact htrue (shows_broadcast_status _ _)
  | statusTick =>
      refine htrue ?_
      rw [Registry.step, checkAndBroadcastStatus]
      split_ifs
      · exact h
      · exact shows_broadcast_status _ _
      · exact h

/-- Along a run the clients are in step with the snapshot in every state, exactly if every step keeps
them so. -/
theorem inStep_iff (order : List Protocol) (es : List RegistryEvent) :
    (∀ fs, fs <+: es → (reach order fs).InStep) ↔
      Machine.Guarded step KeepsInStep (new order) es := by
  have hnew : (new order).InStep := Hub.each_empty
  exact Machine.always_iff_guarded (I := InStep) (J := fun _ => True) (fun _ _ _ _ => trivial)
    (fun _ e _ _ h => inStep_step h e) (Machine.guarded_true _ es) trivial hnew

/-! ## The steps since the last broadcast -/

instance (r : Registry) : (e : RegistryEvent) → Decidable (KeepsInStep r e)
  | .connectClient => inferInstanceAs (Decidable (r.getAggregatedStatus = r.lastStatusSnapshot))
  | .startAll =>
      have : Decidable (∀ received, some received ∉ r.sseHub.clients) :=
        decidable_of_iff (∀ client ∈ r.sseHub.clients, client = none)
          ⟨fun h received hmem => Option.some_ne_none received (h _ hmem),
            fun h _ hmem => Option.eq_none_iff_forall_ne_some.mpr fun received heq => h received (heq ▸ hmem)⟩
      inferInstanceAs (Decidable (r.statusPolling = true ∨ r.getAggregatedStatus = r.lastStatusSnapshot ∨
        ∀ received, some received ∉ r.sseHub.clients))
  | .disconnectClient _ | .call _ _ | .stopAll | .statusTick => inferInstanceAs (Decidable True)

/-- The event sends the status to every client. -/
def Broadcasts (r : Registry) : RegistryEvent → Prop
  | .stopAll => True
  | .statusTick => r.statusPolling = true ∧ r.getAggregatedStatus ≠ r.lastStatusSnapshot
  | _ => False

instance (r : Registry) : (e : RegistryEvent) → Decidable (Broadcasts r e)
  | .stopAll => inferInstanceAs (Decidable True)
  | .statusTick =>
      inferInstanceAs (Decidable (r.statusPolling = true ∧ r.getAggregatedStatus ≠ r.lastStatusSnapshot))
  | .connectClient | .disconnectClient _ | .call _ _ | .startAll => inferInstanceAs (Decidable False)

/-- A step of the registry, with whether each step since the last broadcast has kept the clients in step. -/
def keepStep (s : Registry × Bool) (e : RegistryEvent) : Registry × Bool :=
  (step s.1 e, decide (Broadcasts s.1 e) || s.2 && decide (KeepsInStep s.1 e))

/-- A tick finds a change, or comes when each step since the last broadcast has kept the clients in step. -/
def TickFollows (s : Registry × Bool) : RegistryEvent → Prop
  | .statusTick => s.1.statusPolling = true → s.1.getAggregatedStatus ≠ s.1.lastStatusSnapshot ∨ s.2 = true
  | _ => True

instance (s : Registry × Bool) : (e : RegistryEvent) → Decidable (TickFollows s e)
  | .statusTick => inferInstanceAs (Decidable (s.1.statusPolling = true →
      s.1.getAggregatedStatus ≠ s.1.lastStatusSnapshot ∨ s.2 = true))
  | .connectClient | .disconnectClient _ | .call _ _ | .startAll | .stopAll => inferInstanceAs (Decidable True)

theorem inStep_broadcasts (h : Broadcasts r e) : (Registry.step r e).InStep := by
  cases e with
  | stopAll => exact shows_broadcast_status _ _
  | statusTick =>
      rw [Registry.step, if_pos h.1, checkAndBroadcastStatus, if_neg h.2]
      exact shows_broadcast_status _ _
  | _ => exact h.elim

theorem inStep_keepStep {s : Registry × Bool} (h : s.2 = true → s.1.InStep) (e : RegistryEvent)
    (hkept : (keepStep s e).2 = true) : (keepStep s e).1.InStep := by
  rw [keepStep, Bool.or_eq_true, Bool.and_eq_true, decide_eq_true_eq, decide_eq_true_eq] at hkept
  rcases hkept with hbroadcasts | ⟨hbefore, hkeeps⟩
  · exact inStep_broadcasts hbroadcasts
  · exact (inStep_step (h hbefore) e).mpr hkeeps

theorem run_keepStep (s : Registry × Bool) (es : List RegistryEvent) :
    (Machine.run keepStep s es).1 = Machine.run step s.1 es := by
  induction es generalizing s with
  | nil => rfl
  | cons e es ih => exact ih (keepStep s e)

theorem guarded_tickReaches {order : List Protocol} {es : List RegistryEvent}
    (h : Machine.Guarded keepStep TickFollows (new order, true) es) :
    Machine.Guarded step TickReaches (new order) es := by
  refine Machine.guarded_iff_forall_prefix.mpr fun fs e hpre => ?_
  have hfollows := Machine.guarded_iff_forall_prefix.mp h fs e hpre
  have hkept : (Machine.run keepStep (new order, true) fs).2 = true →
      (Machine.run keepStep (new order, true) fs).1.InStep :=
    Machine.run_invariant' (I := fun s : Registry × Bool => s.2 = true → s.1.InStep)
      (fun _ e hs => inStep_keepStep hs e) fs fun _ => Hub.each_empty
  rw [run_keepStep] at hkept
  cases e with
  | statusTick =>
      intro hpolling
      rw [TickFollows, run_keepStep] at hfollows
      exact (hfollows hpolling).imp_right hkept
  | _ => trivial

/-- **Status feed.** In a run whose ticks find a change of the status, or come when each step since the last
broadcast has kept the clients in step: after every tick each connected client was last sent the status that the
connectors then have. -/
theorem status_reaches (order : List Protocol) {es : List RegistryEvent}
    (h : Machine.Guarded keepStep TickFollows (new order, true) es) :
    ∀ fs, fs ++ [.statusTick] <+: es → (reach order fs).statusPolling = true →
      ∀ received, some received ∈ (reach order (fs ++ [.statusTick])).sseHub.clients →
        lastStatus received = some (reach order (fs ++ [.statusTick])).getAggregatedStatus :=
  (status_reaches_iff order es).mpr (guarded_tickReaches h)

/-- The second client connects while the status has changed, the third when the tick has sent it. -/
def changedRun : List RegistryEvent :=
  [.startAll, .connectClient, .call .s7 (.returns (.addConnection (sampleConnection .s7))), .connectClient,
    .statusTick, .connectClient]

theorem status_reaches_changedRun :
    Machine.Guarded keepStep TickFollows (new [.s7], true) (changedRun ++ [.statusTick]) ∧
    ∀ received, some received ∈ (reach [.s7] (changedRun ++ [.statusTick])).sseHub.clients →
      lastStatus received = some (reach [.s7] (changedRun ++ [.statusTick])).getAggregatedStatus :=
  have h : Machine.Guarded keepStep TickFollows (new [.s7], true) (changedRun ++ [.statusTick]) := by decide
  ⟨h, status_reaches [.s7] h changedRun List.prefix_rfl (by decide)⟩

/-- A client connects, a connection that is not enabled is added, and the connectors are started. -/
def overwrittenRun : List RegistryEvent :=
  [.connectClient,
    .call .s7 (.returns (.addConnection { sampleConnection .s7 with enabled := false })), .startAll,
    .statusTick]

/-- The client is not told about the connection. -/
theorem overwrittenRun_not_shown :
    ¬ ∀ received, some received ∈ (reach [.s7] overwrittenRun).sseHub.clients →
      lastStatus received = some (reach [.s7] overwrittenRun).getAggregatedStatus := by
  intro h
  exact absurd (h [.status [], .values []] (by decide)) (by decide)

end OpcuaLight.Connector.Registry
