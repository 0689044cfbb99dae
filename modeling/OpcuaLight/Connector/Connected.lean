import OpcuaLight.Connector.Control

/-!
# Connected to the client it holds

A handler that is told of a success checks that the object holds some client, not that it holds the
one that succeeded. So a tracked connection in state `connected` holds a client whose own connect
succeeded exactly as long as no success of an older client arrives while a newer one is held that has
not succeeded (`connected_iff`).
-/

namespace OpcuaLight.Connector

open World

variable {p : Protocol} {w w' : World} {m : ObjId}

/-- If the object is in state `connected`, the connect of the client it holds has succeeded and the
client has not been closed. -/
def HoldsConnected (w : World) (m : ObjId) : Prop :=
  (w.objs m).state = .connected → ∃ c, (w.objs m).client = some c ∧
    (w.clients c).handshake = .succeeded ∧ (w.clients c).closed = false

/-- A success reported for a tracked connection finds no client held, the client that succeeded, or
one that has succeeded before. -/
def OwnReport (p : Protocol) (w : World) : Event → Prop
  | .connectReport c err =>
      connectFailed p err = false → c < w.nextClient → (w.clients c).handshake = .pending →
        w.Tracked (w.clients c).owner → ∀ c', (w.objs (w.clients c).owner).client = some c' →
          c' = c ∨ (w.clients c').handshake = .succeeded
  | _ => True

theorem framed_holdsConnected (p : Protocol) : Framed p HoldsConnected := by
  intro w w' m i h hok hi hP hs
  rw [hok.acts.objs i hi] at hs ⊢
  obtain ⟨c, hc, hh⟩ := hP hs
  obtain ⟨hlt, hown, -⟩ := (h.obj i).client c hc
  refine ⟨c, hc, ?_⟩
  rw [hok.acts.clients c hlt (by rw [hown]; exact hi)]
  exact hh

theorem holdsConnected_of_state (h : (w.objs m).state ≠ .connected) : HoldsConnected w m :=
  fun hs => absurd hs h

/-- A quiet object that is started is connecting, not connected. -/
theorem turn_not_connected (hq : (w.objs m).Quiet) : ((turn p w m).objs m).state ≠ .connected := by
  unfold turn
  split_ifs
  · rw [(initiateConnection_self p hq.connecting).1]
    exact hq.state
  · exact hq.state

/-- The client it holds is not closed, so only the handshake is at stake. -/
theorem holdsConnected_of_client (h : WF p w) {c : ClientId} (hc : (w.objs m).client = some c)
    (hh : (w.clients c).handshake = .succeeded) : HoldsConnected w m :=
  fun _ => ⟨c, hc, hh, ((h.obj m).client c hc).2.2⟩

theorem HoldsConnected.same (h : WF p w') (hs : SameControl m w w') (hP : HoldsConnected w m) :
    HoldsConnected w' m := by
  intro hst
  obtain ⟨c, hc, hh, -⟩ := hP (by rw [← hs.state, hst])
  exact holdsConnected_of_client h (by rw [hs.client, hc]) (by rw [hs.handshake, hh]) hst

/-- An event keeps the property of its own object if it is no foreign success. -/
theorem holdsConnected_own (h : WF p w) {e : Event} (ha : actor w e = some m) (htr : w.Tracked m)
    (hok : OwnReport p w e) (hP : HoldsConnected w m) : HoldsConnected (step p w e) m := by
  have hwf := h.step e
  cases e with
  | addMapping mapping => exact hP.same hwf (sameControl_addMapping ha)
  | removeMapping id => exact hP.same hwf (sameControl_removeMapping ha)
  | pollTick t => exact hP.same hwf (sameControl_pollTick h ha)
  | readReport r result =>
      rcases readReport_cases h ha with hs | ⟨w₁, e, -, -, he⟩
      · exact hP.same hwf hs
      · rw [he]
        exact holdsConnected_of_state not_connected_of_error
  | connectReport c err =>
      obtain ⟨hlt, hpending, hown, -⟩ := actor_connectReport (p := p) ha
      rcases connectReport_cases h ha with
        ⟨hn, -, ho⟩ | ⟨-, -, w₁, e, -, -, -, he⟩ | ⟨hf, c', hc', ⟨l, b, t, ho⟩, hh⟩
      · refine holdsConnected_of_state ?_
        rw [ho]
        intro hs
        obtain ⟨c, hc, -⟩ := hP hs
        rw [hn] at hc
        cases hc
      · rw [he]
        exact holdsConnected_of_state not_connected_of_error
      · refine holdsConnected_of_client hwf (c := c') (by rw [ho]; exact hc') ?_
        rw [(hh c').1]
        rcases hok hf hlt hpending (by rw [hown]; exact htr) c' (by rw [hown]; exact hc') with hcc | hcc
        · rw [if_pos hcc]
        · split_ifs
          · rfl
          · exact hcc
  | reconnectTick t =>
      rcases reconnectTick_cases h ha with ⟨-, ho⟩ | ⟨-, -, ho⟩ | ⟨-, -, c, ho, -⟩
      · -- the connector is not running: nothing but the handle changes
        intro hs
        rw [ho, disarm_objs_self, Managed.setHandle_state] at hs
        rw [ho, disarm_objs_self, Managed.setHandle_client, (disarm_rest .reconnect w m).2.1]
        exact hP hs
      · refine holdsConnected_of_state ?_
        rw [ho]
        simp
      · refine holdsConnected_of_state ?_
        rw [ho]
        simp
  | _ => cases ha

/-- **Step lemma.** Where all tracked objects have the property, an event keeps that exactly if it is
no foreign success. -/
theorem holdsConnected_step (h : WF p w) (hidle : All Idle w) (hall : All HoldsConnected w)
    (e : Event) : All HoldsConnected (step p w e) ↔ OwnReport p w e := by
  constructor
  · intro hstep
    cases e with
    | connectReport c err =>
        intro hf hlt hpending htr c' hc'
        have ha : actor w (.connectReport c err) = some (w.clients c).owner :=
          if_pos ⟨hlt, hpending⟩
        rcases connectReport_cases h ha with
          ⟨hn, -⟩ | ⟨hf', -⟩ | ⟨-, c'', hc'', ⟨l, b, t, ho⟩, hh⟩
        · rw [hn] at hc'
          cases hc'
        · rw [hf] at hf'
          cases hf'
        · obtain rfl := Option.some.inj (hc'.symm.trans hc'')
          have htr' : (step p w (.connectReport c err)).Tracked (w.clients c).owner := by
            rw [Tracked, (h.ok_step ha).acts.connections]
            exact htr
          obtain ⟨d, hd, hdh, -⟩ := hstep _ htr' (by rw [ho])
          rw [ho] at hd
          obtain rfl := Option.some.inj (hc'.symm.trans hd)
          rw [(hh c').1] at hdh
          by_cases hcc : c' = c
          · exact Or.inl hcc
          · rw [if_neg hcc] at hdh
            exact Or.inr hdh
    | _ => trivial
  · intro hok
    refine all_step (framed_holdsConnected p) ?_ ?_ h hidle hall e ?_ ?_
    · intro w w' i ho hc _ hP
      unfold HoldsConnected
      rw [ho, hc]
      exact hP
    · exact fun w m _ _ hq => holdsConnected_of_state (turn_not_connected hq)
    · exact fun _ m _ _ _ _ => holdsConnected_of_state (quiet_disconnectAndCleanup w m).state
    · exact fun m ha htr => holdsConnected_own h ha htr hok

/-- In every state of a run the tracked connections in state `connected` hold a client that has
itself reported success and is not closed, exactly if no success of the run is a foreign one. -/
theorem connected_iff (p : Protocol) (es : List Event) :
    (∀ fs, fs <+: es → ∀ m, (reach p fs).Tracked m → ((reach p fs).objs m).state = .connected →
      ∃ c, ((reach p fs).objs m).client = some c ∧ ((reach p fs).clients c).handshake = .succeeded ∧
        ((reach p fs).clients c).closed = false) ↔
      Machine.Guarded (step p) (OwnReport p) World.initial es :=
  Machine.always_iff_guarded (I := All HoldsConnected) (J := fun w => WF p w ∧ All Idle w)
    (fun _ e _ h => ⟨h.1.step e, h.1.idle_step h.2 e⟩)
    (fun _ e _ h hall => holdsConnected_step h.1 h.2 hall e) (Machine.guarded_true _ es)
    ⟨wf_initial p, all_initial Idle⟩ (all_initial _)

/-- The connection is updated while its first handshake is under way, and that one succeeds late. -/
def lateSuccess : List Event :=
  [.addConnection (sampleConnection .modbusTcp), .start,
    .updateConnection { sampleConnection .modbusTcp with params := .obj [("host", .str "10.0.0.7")] },
    .connectReport 0 none]

/-- Then the state is `connected`, and the client held is still connecting. -/
theorem lateSuccess_not_connected :
    ¬ ∀ m, (reach .modbusTcp lateSuccess).Tracked m →
      ((reach .modbusTcp lateSuccess).objs m).state = .connected →
      ∃ c, ((reach .modbusTcp lateSuccess).objs m).client = some c ∧
        ((reach .modbusTcp lateSuccess).clients c).handshake = .succeeded ∧
        ((reach .modbusTcp lateSuccess).clients c).closed = false := by
  intro h
  obtain ⟨c, hc, hh, -⟩ := h 0 (by decide) (by decide)
  have hclient : ((reach .modbusTcp lateSuccess).objs 0).client = some 1 := by decide
  have hpending : ((reach .modbusTcp lateSuccess).clients 1).handshake = .pending := by decide
  obtain rfl := Option.some.inj (hclient.symm.trans hc)
  rw [hpending] at hh
  cases hh

end OpcuaLight.Connector
