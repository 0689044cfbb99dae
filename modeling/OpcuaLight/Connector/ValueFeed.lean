import OpcuaLight.Connector.Registry
import OpcuaLight.Connector.Callbacks

/-!
# The values that clients see

The registry sends all values to all clients whenever a connector calls back, unless no connection is
connected then. A handler's last callback shows what the handler leaves, so the clients have the
values at its end: of a poll when its last answer has come, a Modbus poll carrying the updates it has
collected until then.
-/

namespace OpcuaLight.Connector.Registry

open World

variable {r r' : Registry} {p : Protocol}

/-- The last `connector:values` among what a client has received. -/
def lastValues (received : List Payload) : Option (List CurrentValue) :=
  Hub.lastOf Payload.values? received

def hasActiveConnector (r : Registry) : Prop := ∃ s ∈ r.getAggregatedStatus, s.state = .connected

/-! ## The connectors stay well formed -/

theorem run_wf (h : ∀ q, WF q (r.connectors q)) {f : World → World}
    (hf : WF p (r.connectors p) → WF p (f (r.connectors p))) :
    ∀ q, WF q ((r.run p f).connectors q) := by
  intro q
  rw [run_connectors]
  by_cases hq : q = p
  · rw [hq, Function.update_self]
    exact hf (h p)
  · rw [Function.update_of_ne hq]
    exact h q

theorem foldl_run_wf {f : Protocol → World → World} (hf : ∀ p w, WF p w → WF p (f p w))
    (ps : List Protocol) (h : ∀ q, WF q (r.connectors q)) :
    ∀ q, WF q ((ps.foldl (fun r p => r.run p (f p)) r).connectors q) := by
  induction ps generalizing r with
  | nil => exact h
  | cons p ps ih => exact ih (run_wf h (hf p _))

theorem step_wf (h : ∀ q, WF q (r.connectors q)) (e : RegistryEvent) :
    ∀ q, WF q ((Registry.step r e).connectors q) := by
  cases e with
  | connectClient | disconnectClient => exact h
  | call p t =>
      by_cases hp : p ∈ r.order
      · rw [Registry.step, if_pos hp]
        exact run_wf h fun hw => hw.turnStep t
      · rw [Registry.step, if_neg hp]
        exact h
  | startAll =>
      rw [Registry.step, startAll, startStatusPolling]
      split_ifs <;> exact foldl_run_wf (fun p w hw => hw.step .start) r.order h
  | stopAll =>
      have hstop := foldl_run_wf (r := { r with statusPolling := false }) (f := fun _ => Connector.stop)
        (fun p w hw => hw.step .stop) r.order h
      exact hstop
  | statusTick =>
      rw [Registry.step, checkAndBroadcastStatus]
      split_ifs <;> exact h

theorem reach_wf (order : List Protocol) (es : List RegistryEvent) :
    ∀ q, WF q ((reach order es).connectors q) :=
  Machine.run_invariant' (I := fun r : Registry => ∀ q, WF q (r.connectors q))
    (fun _ e h => step_wf h e) es fun q => wf_initial q

theorem foldl_run_order {f : Protocol → World → World} (ps : List Protocol) (r : Registry) :
    (ps.foldl (fun r p => r.run p (f p)) r).order = r.order :=
  (relays_foldl (fun r p => relays_run r p (f p)) ps r).order

theorem reach_order (order : List Protocol) (es : List RegistryEvent) :
    (reach order es).order = order := by
  refine Machine.run_invariant' (I := fun r : Registry => r.order = order) (fun r e h => ?_) es rfl
  cases e with
  | connectClient | disconnectClient => exact h
  | call p t =>
      rw [Registry.step]
      split_ifs
      · exact (relays_run r p _).order.trans h
      · exact h
  | startAll =>
      rw [Registry.step, startAll, startStatusPolling]
      split_ifs <;> exact (foldl_run_order _ r).trans h
  | stopAll => exact (foldl_run_order _ _).trans h
  | statusTick =>
      rw [Registry.step, checkAndBroadcastStatus]
      split_ifs <;> exact h

/-! ## The last callback -/

/-- A callback that shows the connector as it is sends all values. -/
theorem broadcastValues_snapshot (p : Protocol) (r : Registry) (h : r.hasActiveConnector) :
    broadcastValues p r (r.connectors p).snapshot = r.broadcast (.values r.getAggregatedValues) := by
  have hflat : ∀ {α : Type} (f : World → List α), r.order.flatMap (fun q =>
      if q = p then f (r.connectors p) else f (r.connectors q)) =
        r.order.flatMap fun q => f (r.connectors q) := fun f =>
    List.flatMap_congr fun q _ => by
      split_ifs with hq
      · rw [hq]
      · rfl
  have hany : r.getAggregatedStatus.any (·.state = .connected) = true := by
    obtain ⟨s, hs, hstate⟩ := h
    exact List.any_eq_true.mpr ⟨s, hs, decide_eq_true hstate⟩
  unfold broadcastValues
  dsimp only [World.snapshot]
  rw [hflat getStatus, hflat getCurrentValues]
  exact if_pos hany

theorem hasActiveConnector_broadcastValues (p : Protocol) (r : Registry) (seen : Snapshot) :
    (broadcastValues p r seen).hasActiveConnector ↔ r.hasActiveConnector := by
  unfold hasActiveConnector getAggregatedStatus
  rw [broadcastValues_connectors, (relays_broadcastValues p r seen).order]

/-- What the connector shows last, the clients have. -/
theorem run_shown {f : World → World} {seen : List Snapshot}
    (hseen : (f (r.connectors p)).callbacks = (r.connectors p).callbacks ++ seen)
    (hlast : seen.getLast? = some (f (r.connectors p)).snapshot)
    (hactive : (r.run p f).hasActiveConnector) :
    (r.run p f).sseHub.Each fun received =>
      lastValues received = some (r.run p f).getAggregatedValues := by
  obtain ⟨before, hbefore⟩ := List.getLast?_eq_some_iff.mp hlast
  -- the state in which the last callback is made
  obtain ⟨r₁, hr₁⟩ : ∃ r₁, r₁ = before.foldl (broadcastValues p)
      { r with connectors := Function.update r.connectors p (f (r.connectors p)) } := ⟨_, rfl⟩
  have hconn : r₁.connectors p = f (r.connectors p) := by
    rw [hr₁, foldl_broadcastValues_connectors]
    exact Function.update_self _ _ _
  have hrun : r.run p f = broadcastValues p r₁ (r₁.connectors p).snapshot := by
    rw [run, seenSince, hseen, List.drop_left, hbefore, List.foldl_append, ← hr₁, hconn]
    rfl
  rw [hrun, hasActiveConnector_broadcastValues] at hactive
  rw [hrun, broadcastValues_snapshot p r₁ hactive]
  exact Hub.each_broadcast.mpr fun received _ =>
    Hub.lastOf_append_some (f := Payload.values?) rfl received

/-! ## Steps -/

/-- The step has issued a read whose poll has collected updates. -/
def PollGoesOn (w w' : World) : Prop :=
  w.nextRead < w'.nextRead ∧ ∃ read, w'.reads w.nextRead = some read ∧ read.cont.updates ≠ []

/-- An entry of a mapping with a node has changed in the step of a callback, or the poll that the
callback answers has collected the updates of some and gets past the answer. -/
def Changes (p : Protocol) (w w' : World) (e : Event) : Prop :=
  (∃ key, w'.currentValues.get? key ≠ w.currentValues.get? key ∧
    ∀ mp, e.Concerned w mp → mp.id = key → Js.truthyString mp.nodeId = true) ∨ e.Passes p w

/-- **Value feed.** When a completed poll or the handling of a connection error has changed an entry of
a mapping with a node, every client has been sent all values by the end of that step, if some
connection is connected then. -/
theorem values_reach (order : List Protocol) (es : List RegistryEvent) (p : Protocol) (t : Turn)
    (hp : p ∈ order) (ht : t.event.isCallback = true)
    (hchanges : Changes p ((reach order es).connectors p)
      ((reach order (es ++ [.call p t])).connectors p) t.event)
    (hdone : ¬ PollGoesOn ((reach order es).connectors p)
      ((reach order (es ++ [.call p t])).connectors p))
    (hactive : (reach order (es ++ [.call p t])).hasActiveConnector) :
    ∀ received, some received ∈ (reach order (es ++ [.call p t])).sseHub.clients →
      lastValues received = some (reach order (es ++ [.call p t])).getAggregatedValues := by
  have hmem : p ∈ (reach order es).order := by
    rw [reach_order]
    exact hp
  have hrun : reach order (es ++ [.call p t]) =
      (reach order es).run p (fun w => turnStep p w t) := by
    rw [reach, Machine.run_snoc]
    exact if_pos hmem
  have hconn : (reach order (es ++ [.call p t])).connectors p =
      turnStep p ((reach order es).connectors p) t := by
    rw [hrun, run_connectors, Function.update_self]
  rw [hconn] at hchanges hdone
  rcases turnStep_told (reach_wf order es p) t ht with ⟨seen, hseen, hlast, hpass, hchanged⟩ |
    ⟨hlt, read, hread, hpass, hchanged⟩
  · have hne : seen ≠ [] := by
      rcases hchanges with ⟨key, hkey, hnode⟩ | hpasses
      · obtain ⟨mp, hmp, hid, hseen⟩ := hchanged key hkey
        exact hseen (hnode mp hmp hid)
      · exact hpass hpasses
    rw [hrun] at hactive ⊢
    exact run_shown hseen (hlast.resolve_left hne) hactive
  · have hne : read.cont.updates ≠ [] := by
      rcases hchanges with ⟨key, hkey, hnode⟩ | hpasses
      · obtain ⟨mp, hmp, hid, hcollected⟩ := hchanged key hkey
        exact hcollected (hnode mp hmp hid)
      · exact hpass hpasses
    exact absurd ⟨hlt, read, hread, hne⟩ hdone

/-- A connection with one mapping is started and connects; a client opens the event stream, and a
value is read for it. -/
def valueFeedRun : List RegistryEvent :=
  [.call .s7 (.returns (.addConnection (sampleConnection .s7))),
    .call .s7 (.returns (.addMapping (sampleMapping "m1" "DB1,INT0"))), .startAll,
    .call .s7 (.returns (.connectReport 0 none)), .connectClient]

def valueAnswer : Turn := .returns (.readReport 0 (.items [("DB1,INT0", .num 7)]))

theorem values_reach_valueAnswer :
    (Changes .s7 ((reach [.s7] valueFeedRun).connectors .s7)
      ((reach [.s7] (valueFeedRun ++ [.call .s7 valueAnswer])).connectors .s7) valueAnswer.event ∧
      (reach [.s7] (valueFeedRun ++ [.call .s7 valueAnswer])).hasActiveConnector) ∧
    ∀ received, some received ∈
        (reach [.s7] (valueFeedRun ++ [.call .s7 valueAnswer])).sseHub.clients →
      lastValues received =
        some (reach [.s7] (valueFeedRun ++ [.call .s7 valueAnswer])).getAggregatedValues := by
  have hchanges : Changes .s7 ((reach [.s7] valueFeedRun).connectors .s7)
      ((reach [.s7] (valueFeedRun ++ [.call .s7 valueAnswer])).connectors .s7) valueAnswer.event := by
    refine Or.inl ⟨"m1", by decide, ?_⟩
    rintro mp (⟨m, ha, hmp⟩ | ⟨r, result, read, he, hr, hmp⟩) -
    · have hactor : actor ((reach [.s7] valueFeedRun).connectors .s7) valueAnswer.event = some 0 := by
        decide
      have hvalues : (((reach [.s7] valueFeedRun).connectors .s7).objs 0).mappings.values =
          [sampleMapping "m1" "DB1,INT0"] := by decide
      obtain rfl := Option.some.inj (hactor.symm.trans ha)
      rw [HeldBy, hvalues, List.mem_singleton] at hmp
      rw [hmp]
      decide
    · have hread : (((reach [.s7] valueFeedRun).connectors .s7).reads 0).map (·.cont.mappings) =
          some [] := by decide
      obtain ⟨rfl, -⟩ := Event.readReport.inj he
      rw [hr, Option.map_some, Option.some.injEq] at hread
      rw [hread] at hmp
      cases hmp
  have hactive : (reach [.s7] (valueFeedRun ++ [.call .s7 valueAnswer])).hasActiveConnector :=
    ⟨⟨"c1", .connected, some 0, none⟩, by decide, rfl⟩
  refine ⟨⟨hchanges, hactive⟩, values_reach [.s7] valueFeedRun .s7 valueAnswer (by decide) rfl hchanges
    (fun hgoes => absurd hgoes.1 (by decide)) hactive⟩

/-- The value is read, and then the read fails with which the connection is lost. -/
def lostRun : List RegistryEvent :=
  valueFeedRun ++ [.call .s7 valueAnswer, .call .s7 (.returns (.pollTick 0))]

def lostAnswer : Turn := .returns (.readReport 1 (.failed (.error .other "ECONNRESET")))

/-- The value is bad now, and the client is not told. -/
theorem lost_not_reached :
    ((reach [.s7] (lostRun ++ [.call .s7 lostAnswer])).connectors .s7).currentValues.get? "m1" ≠
      ((reach [.s7] lostRun).connectors .s7).currentValues.get? "m1" ∧
    ¬ ∀ received, some received ∈ (reach [.s7] (lostRun ++ [.call .s7 lostAnswer])).sseHub.clients →
      .values (reach [.s7] (lostRun ++ [.call .s7 lostAnswer])).getAggregatedValues ∈ received := by
  refine ⟨by decide, fun h => ?_⟩
  have hsent := h (((reach [.s7] (lostRun ++ [.call .s7 lostAnswer])).sseHub.clients.head?.join).getD [])
    (by decide)
  exact absurd hsent (by decide)

end OpcuaLight.Connector.Registry
