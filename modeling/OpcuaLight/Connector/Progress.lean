import OpcuaLight.Connector.Interrupted

/-!
# Progress

An enabled connection of a running connector goes on by itself while its handshake is under way,
while it is connected and polled, or while a reconnect attempt is scheduled (`Live`). Two things end
that: a reconnect timer that fires during a handshake drops the client and then starts nothing,
because an attempt is still marked as under way; and a callback that throws keeps the handler of an
answer from scheduling the next attempt, or the polls (`live_iff`).
-/

namespace OpcuaLight.Connector

open World

variable {p : Protocol} {w w' : World} {m : ObjId}

/-- A timer of the kind is armed for the object. -/
def Armed (w : World) (k : TimerKind) (m : ObjId) : Prop := ∃ t ms, w.timers t = some ⟨k, m, ms⟩

/-- Something is under way that will call back: the handshake of the client held, the polls of a
connected client, or a reconnect attempt. -/
def Live (w : World) (m : ObjId) : Prop :=
  ((w.objs m).connecting = true ∧
    ∃ c, (w.objs m).client = some c ∧ (w.clients c).handshake = .pending) ∨
  ((w.objs m).state = .connected ∧ (w.objs m).client ≠ none ∧ Armed w .polling m) ∨
  Armed w .reconnect m

/-- The connection's params are accepted. -/
def Accepted (p : Protocol) : Event → Prop
  | .addConnection config | .updateConnection config => ∃ params, extractParams p config = .ok params
  | _ => True

/-- A reconnect timer that fires for an enabled tracked connection of a running connector does not
fire during a handshake. -/
def NoTickWhileConnecting (w : World) : Event → Prop
  | .reconnectTick t => ∀ m ms, w.timers t = some ⟨.reconnect, m, ms⟩ → w.running = true →
      w.Tracked m → (w.objs m).config.enabled = true → (w.objs m).connecting = false
  | _ => True

/-- Where the callback throws at the handler of an answer, nothing is left out, or the connection lives by something
else: an attempt that is scheduled or, if the answer is to a read, a handshake. -/
def ThrowsSafely (p : Protocol) (w : World) : CallbackTurn → Prop
  | .returns _ => True
  | .throws e thrown again => ∀ m, actor w e = some m → w.running = true → w.Tracked m →
      (w.objs m).config.enabled = true → Armed w .reconnect m ∨
        match e with
        | .connectReport _ err => connectFailed p err = false ∧ hasCatch p = true ∧ again = none
        | .readReport _ result => ReadCaught p thrown again w m result ∨
            ((w.objs m).connecting = true ∧
              ∃ c, (w.objs m).client = some c ∧ (w.clients c).handshake = .pending)
        | _ => True

theorem WF.armed_iff (h : WF p w) (k : TimerKind) (m : ObjId) :
    Armed w k m ↔ ∃ t, (w.objs m).handle k = some t := by
  constructor
  · rintro ⟨t, ms, ht⟩
    exact ⟨t, (h.obj m).timer t _ ht rfl⟩
  · rintro ⟨t, ht⟩
    obtain ⟨-, ms, hms⟩ := (h.obj m).armed k t ht
    exact ⟨t, ms, hms⟩

/-- `Live`, told by the handles the object keeps. -/
def LiveHandle (w : World) (m : ObjId) : Prop :=
  ((w.objs m).connecting = true ∧
    ∃ c, (w.objs m).client = some c ∧ (w.clients c).handshake = .pending) ∨
  ((w.objs m).state = .connected ∧ (w.objs m).client ≠ none ∧
    ∃ t, (w.objs m).handle .polling = some t) ∨
  ∃ t, (w.objs m).handle .reconnect = some t

theorem WF.live_iff_handle (h : WF p w) (m : ObjId) : Live w m ↔ LiveHandle w m := by
  rw [Live, LiveHandle, h.armed_iff, h.armed_iff]

def NotWedged (w : World) (m : ObjId) : Prop :=
  w.running = true → (w.objs m).config.enabled = true → LiveHandle w m

theorem framed_notWedged (p : Protocol) : Framed p NotWedged := by
  intro w w' m i h hok hi hP hrun
  rw [hok.acts.objs i hi]
  intro hen
  rw [hok.acts.running] at hrun
  rw [LiveHandle, hok.acts.objs i hi]
  rcases hP hrun hen with ⟨hcon, c, hc, hpend⟩ | hrest
  · obtain ⟨hlt, hown, -⟩ := (h.obj i).client c hc
    refine Or.inl ⟨hcon, c, hc, ?_⟩
    rw [hok.acts.clients c hlt (by rw [hown]; exact hi), hpend]
  · exact Or.inr hrest

theorem LiveHandle.same (hs : SameControl m w w') (hl : LiveHandle w m) : LiveHandle w' m := by
  rw [LiveHandle, hs.connecting, hs.client, hs.state, hs.handle, hs.handle]
  rcases hl with ⟨hcon, c, hc, hpend⟩ | hrest
  · exact Or.inl ⟨hcon, c, hc, by rw [hs.handshake, hpend]⟩
  · exact Or.inr hrest

/-- After an error of a running connector a reconnect attempt is scheduled. -/
theorem liveHandle_error {w₁ : World} (hrun : w₁.running = true) (e : JsError) :
    LiveHandle (w₁.handleConnectionError m e) m := by
  refine Or.inr (Or.inr ⟨w₁.nextTimer, ?_⟩)
  rw [handleConnectionError_self, hrun]
  rfl

theorem notWedged_turn (h : WF p w) (hm : m < w.nextObj) (hq : (w.objs m).Quiet) :
    NotWedged (turn p w m) m := by
  intro hrun hen
  rw [(h.ok_turn hm).acts.running] at hrun
  unfold turn at hen ⊢
  by_cases hon : (w.running && (w.objs m).config.enabled) = true
  · obtain ⟨ho, hh, -⟩ := initiateConnection_self p hq.connecting
    rw [if_pos hon]
    exact Or.inl ⟨by rw [ho], _, by rw [ho], hh⟩
  · rw [if_neg hon] at hen
    rw [hrun, hen] at hon
    exact absurd rfl hon

/-- An event keeps the property of its own object unless it is a reconnect timer during a
handshake. -/
theorem notWedged_own (h : WF p w) {e : Event} (ha : actor w e = some m) (htr : w.Tracked m)
    (hok : NoTickWhileConnecting w e) (hP : NotWedged w m) : NotWedged (step p w e) m := by
  intro hrun hen
  rw [(h.ok_step ha).acts.running] at hrun
  have hsame : SameControl m w (step p w e) → LiveHandle (step p w e) m := fun hs =>
    (hP hrun (by rw [← hs.config]; exact hen)).same hs
  cases e with
  | addMapping mapping => exact hsame (sameControl_addMapping ha)
  | removeMapping id => exact hsame (sameControl_removeMapping ha)
  | pollTick t => exact hsame (sameControl_pollTick h ha)
  | readReport r result =>
      rcases readReport_cases h ha with hs | ⟨w₁, e, hs, -, he⟩
      · exact hsame hs
      · rw [he]
        exact liveHandle_error (by rw [hs.running, hrun]) e
  | connectReport c err =>
      rcases connectReport_cases h ha with
        ⟨hn, -, ho⟩ | ⟨-, -, w₁, e, hr, -, -, he⟩ | ⟨-, c', hc', ⟨l, b, t, ho⟩, -⟩
      · -- no client is held, so what was under way is a reconnect attempt
        rw [ho] at hen
        rw [LiveHandle, ho]
        rcases hP hrun hen with ⟨-, c, hc, -⟩ | ⟨-, hc, -⟩ | hr
        · rw [hn] at hc
          cases hc
        · exact absurd hn hc
        · exact Or.inr (Or.inr hr)
      · rw [he]
        exact liveHandle_error (by rw [hr, hrun]) e
      · refine Or.inr (Or.inl ⟨by rw [ho], ?_, t, by rw [ho]; rfl⟩)
        rw [ho]
        show (w.objs m).client ≠ none
        rw [hc']
        simp
  | reconnectTick t =>
      obtain ⟨ms, ht⟩ := actor_tick ha
      rcases reconnectTick_cases h ha with ⟨hr, -⟩ | ⟨-, hcon, ho⟩ | ⟨-, -, c, ho, hh, -⟩
      · rw [hrun] at hr
        cases hr
      · rw [ho] at hen
        rw [hok m ms ht hrun htr hen] at hcon
        cases hcon
      · exact Or.inl ⟨by rw [ho], c, by rw [ho], hh⟩
  | _ => cases ha

theorem LiveHandle.of_reconnect (h : ∃ t, (w.objs m).handle .reconnect = some t) : LiveHandle w m := Or.inr (Or.inr h)

/-- A connect that is answered while the callback throws. -/
theorem notWedged_connectInterrupted (h : WF p w) {c : ClientId} {err : Option JsError} {thrown : JsError}
    {again : Option JsError} (ha : actor w (.connectReport c err) = some m) (htr : w.Tracked m)
    (hsafe : ThrowsSafely p w (.throws (.connectReport c err) thrown again)) (hP : NotWedged w m) :
    NotWedged (onConnectInterrupted p thrown again (reported p w c err) m err) m := by
  set v := reported p w c err with hv
  have hobj : v.objs m = w.objs m := by rw [hv, reported_objs]
  have hrunning : v.running = w.running := reported_running p w c err
  have hconnecting : (v.setConnecting m false).objs m = { w.objs m with connecting := false } := by
    rw [setConnecting, update_objs_self, hobj]
  have htold : ∀ c, (told p (v.setConnecting m false) m c).objs m =
      { w.objs m with connecting := false, state := .connected, errorMessage := none } := fun c => by
    rw [told_self, hconnecting]
  -- where the reconnect timer is armed, it stays so
  have harmed : (w.objs m).config.enabled = true → w.running = true →
      (∃ t, (w.objs m).handle .reconnect = some t) ∨
        (connectFailed p err = false ∧ hasCatch p = true ∧ again = none) := fun hen hrun =>
    (hsafe m ha hrun htr hen).imp_left (h.armed_iff .reconnect m).mp
  rcases onConnectInterrupted_cases p thrown again v m err with he | ⟨hf, e, he⟩ | ⟨c', -, -, hf, he⟩ |
    ⟨c', -, hcatch, he⟩
  · have hstep := (actor_connectReport (p := p) ha).2.2.2
    rw [he.trans hstep.symm]
    exact notWedged_own h ha htr trivial hP
  · obtain ⟨cut, hh, -⟩ := (Handles.refl m (v.setConnecting m false)).handleErrorThrowing (some thrown) e
    rw [he]
    intro hrun hen
    rw [hh.running] at hrun
    rw [hh.lasts.config, hconnecting] at hen
    rcases harmed hen (hrunning.symm.trans hrun) with hreconnect | ⟨hf', -⟩
    · exact .of_reconnect (hh.lasts.reconnect (by rw [hconnecting]; exact hreconnect))
    · rw [hf] at hf'
      cases hf'
  · have hclear : ((told p (v.setConnecting m false) m c').setConnecting m false).objs m =
        { w.objs m with connecting := false, state := .connected, errorMessage := none } := by
      rw [setConnecting, update_objs_self, htold]
    have htoldRunning : (told p (v.setConnecting m false) m c').running = v.running := told_running p _ m c'
    rw [he]
    unfold World.handleErrorThrowing
    split
    · intro hrun hen
      rw [reportError_running] at hrun
      have hlasts := lasts_reportError ((told p (v.setConnecting m false) m c').setConnecting m false) m thrown
      rw [hlasts.config, hclear] at hen
      rcases harmed hen (hrunning.symm.trans (htoldRunning.symm.trans hrun)) with hreconnect | ⟨-, -, hagain⟩
      · exact .of_reconnect (hlasts.reconnect (by rw [hclear]; exact hreconnect))
      · cases hagain
    · intro hrun _
      rw [handleConnectionError_running] at hrun
      exact liveHandle_error hrun thrown
  · rw [he]
    intro hrun hen
    rw [told_running] at hrun
    rw [htold] at hen
    rcases harmed hen (hrunning.symm.trans hrun) with hreconnect | ⟨-, hcatch', -⟩
    · refine .of_reconnect ?_
      rw [htold]
      exact hreconnect
    · rw [hcatch] at hcatch'
      cases hcatch'

/-- A read that is answered while the callback throws. -/
theorem notWedged_readInterrupted (h : WF p w) {r : ReadId} {result : ReadResult} {read : Read}
    (hr : w.reads r = some read) {thrown : JsError} {again : Option JsError} (htr : w.Tracked read.obj)
    (hsafe : ThrowsSafely p w (.throws (.readReport r result) thrown again)) (hP : NotWedged w read.obj) :
    NotWedged (onReadInterrupted p thrown again ((w.takeRead r).report (valueReports w read result)) read result)
      read.obj := by
  obtain ⟨hok, -⟩ := h.ok_answered hr result
  obtain ⟨cut, hh, hcut⟩ := handles_onReadInterrupted thrown again (hok.wf.obj read.obj) result
  generalize onReadInterrupted p thrown again ((w.takeRead r).report (valueReports w read result)) read result =
    w' at hh ⊢
  intro hrun hen
  rw [hh.running] at hrun
  rw [hh.lasts.config] at hen
  have hlive : LiveHandle w read.obj := hP hrun hen
  cases hh with
  | passive hp => exact LiveHandle.same hp.sameControl hlive
  | @error w₁ _ hh e =>
      rw [← hh.running] at hrun
      exact liveHandle_error hrun e
  | @cut w₁ _ hh₁ e =>
      have hlasts := (Handles.cut hh₁ e).lasts
      have ha : actor w (.readReport r result) = some read.obj := by rw [actor, hr]; rfl
      rcases hsafe read.obj ha hrun htr hen with hreconnect | hcaught | ⟨hcon, c, hc, hpend⟩
      · exact .of_reconnect (hlasts.reconnect ((h.armed_iff .reconnect read.obj).mp hreconnect))
      · exact absurd hcaught (hcut rfl)
      · refine Or.inl ⟨hlasts.connecting.trans hcon, c, hlasts.client.trans hc, ?_⟩
        rw [hlasts.clients]
        exact hpend

/-- **Step lemma.** Where no tracked object is wedged, an event whose params are accepted keeps that
exactly if it is no reconnect timer during a handshake. -/
theorem notWedged_step (h : WF p w) (hidle : All Idle w) (hall : All NotWedged w) {e : Event}
    (hacc : Accepted p e) : All NotWedged (step p w e) ↔ NoTickWhileConnecting w e := by
  constructor
  · intro hstep
    cases e with
    | reconnectTick t =>
        intro m ms ht hrun htr hen
        by_contra hcon
        rw [Bool.not_eq_false] at hcon
        have ha : actor w (.reconnectTick t) = some m := by simp [actor, ht]
        rcases reconnectTick_cases h ha with ⟨hr, -⟩ | ⟨-, -, ho⟩ | ⟨-, hcon', -⟩
        · rw [hrun] at hr
          cases hr
        · -- no client, no connected state and no reconnect timer are left
          have hacts := (h.ok_step ha).acts
          have hdead := hstep m (by rw [Tracked, hacts.connections]; exact htr)
            (by rw [hacts.running, hrun]) (by rw [ho, hen])
          rw [LiveHandle, ho] at hdead
          rcases hdead with ⟨-, c, hc, -⟩ | ⟨-, hc, -⟩ | ⟨t', ht'⟩
          · cases hc
          · exact hc rfl
          · cases ht'
        · rw [hcon] at hcon'
          cases hcon'
    | _ => trivial
  · intro hok
    refine all_step (framed_notWedged p) ?_ (fun w m hw hm hq => notWedged_turn hw hm hq)
      h hidle hall e ?_ (fun m ha htr => notWedged_own h ha htr hok)
    · intro w w' i ho hc hr hP
      unfold NotWedged LiveHandle
      rw [ho, hc, hr]
      exact hP
    · intro config m msg he _ hmsg
      subst he
      obtain ⟨params, hp⟩ := hacc
      rw [hp] at hmsg
      cases hmsg

/-- The same for a turn, unless the callback throws where something is left out. -/
theorem notWedged_turnStep (h : WF p w) (hidle : All Idle w) (hall : All NotWedged w) {t : CallbackTurn}
    (hacc : Accepted p t.event) (hsafe : ThrowsSafely p w t) :
    All NotWedged (callbackTurn p w t) ↔ NoTickWhileConnecting w t.event := by
  cases t with
  | returns e => exact notWedged_step h hidle hall hacc
  | throws e thrown again =>
      rw [callbackTurn]
      rcases interruptedStep_cases h thrown again e with he | ⟨m, c, err, rfl, ha, he⟩ |
        ⟨r, result, read, rfl, hr, he⟩
      · rw [he]
        exact notWedged_step h hidle hall hacc
      · refine iff_of_true ?_ trivial
        have hok := h.ok_interruptedStep ha thrown again
        refine (framed_notWedged p).all_of_ok h hok hall fun htr hP => ?_
        rw [he]
        exact notWedged_connectInterrupted h ha htr hsafe hP
      · refine iff_of_true ?_ trivial
        have ha : actor w (.readReport r result) = some read.obj := by rw [actor, hr]; rfl
        have hok := h.ok_interruptedStep ha thrown again
        refine (framed_notWedged p).all_of_ok h hok hall fun htr hP => ?_
        rw [he]
        exact notWedged_readInterrupted h hr htr hsafe hP

/-- **Progress.** In a run whose params are accepted and whose callback throws only where nothing is left out, the
enabled tracked connections of the running connector are live in every state, exactly if no reconnect timer of the
run fires for one during its handshake. -/
theorem live_iff (p : Protocol) (ts : List CallbackTurn) (hacc : ∀ t ∈ ts, Accepted p t.event)
    (hsafe : Machine.Guarded (callbackTurn p) (ThrowsSafely p) World.initial ts) :
    (∀ fs, fs <+: ts → (reachCallbacks p fs).running = true → ∀ m, (reachCallbacks p fs).Tracked m →
      ((reachCallbacks p fs).objs m).config.enabled = true → Live (reachCallbacks p fs) m) ↔
      Machine.Guarded (callbackTurn p) (fun w t => NoTickWhileConnecting w t.event) World.initial ts := by
  have hok : Machine.Guarded (callbackTurn p) (fun w t => Accepted p t.event ∧ ThrowsSafely p w t) World.initial ts :=
    Machine.guarded_and.mpr ⟨Machine.guarded_of_forall World.initial hacc, hsafe⟩
  have hrule : (∀ fs, fs <+: ts → All NotWedged (reachCallbacks p fs)) ↔
      Machine.Guarded (callbackTurn p) (fun w t => NoTickWhileConnecting w t.event) World.initial ts :=
    Machine.always_iff_guarded (I := All NotWedged) (J := fun w => WF p w ∧ All Idle w)
      (fun w t (_ : Accepted p t.event ∧ ThrowsSafely p w t) h => ⟨h.1.callbackTurn t, h.1.idle_callbackTurn h.2 t⟩)
      (fun _ _ hok h hall => notWedged_turnStep h.1 h.2 hall hok.1 hok.2)
      hok ⟨wf_initial p, all_initial Idle⟩ (all_initial _)
  rw [← hrule]
  refine forall₂_congr fun fs _ => ?_
  constructor
  · intro hl m htr hrun hen
    exact ((reachCallbacks_wf p fs).live_iff_handle m).mp (hl hrun m htr hen)
  · intro hl hrun m htr hen
    exact ((reachCallbacks_wf p fs).live_iff_handle m).mpr (hl m htr hrun hen)

/-- The callback throws when the values of a read are told; the next read fails, and the connection is tried again. -/
def valuesThrown : List CallbackTurn :=
  [.returns (.addConnection (sampleConnection .s7)), .returns (.addMapping (sampleMapping "m1" "DB1,INT0")),
    .returns .start, .returns (.connectReport 0 none), .returns (.pollTick 0),
    .throws (.readReport 0 (.items [("DB1,INT0", .num 7)])) (.error .other "database is locked") none,
    .returns (.readReport 1 (.failed (.error .other "socket closed"))), .returns (.reconnectTick 1)]

theorem live_iff_valuesThrown :
    (∀ t ∈ valuesThrown, Accepted .s7 t.event) ∧
    Machine.Guarded (callbackTurn .s7) (ThrowsSafely .s7) World.initial valuesThrown ∧
    ((∀ fs, fs <+: valuesThrown → (reachCallbacks .s7 fs).running = true → ∀ m, (reachCallbacks .s7 fs).Tracked m →
      ((reachCallbacks .s7 fs).objs m).config.enabled = true → Live (reachCallbacks .s7 fs) m) ↔
      Machine.Guarded (callbackTurn .s7) (fun w t => NoTickWhileConnecting w t.event) World.initial valuesThrown) := by
  have hacc : ∀ t ∈ valuesThrown, Accepted .s7 t.event := by
    simp only [valuesThrown, List.forall_mem_cons, CallbackTurn.event, Accepted, List.not_mem_nil, false_implies,
      implies_true, and_true]
    exact ⟨[("host", .str "192.168.1.10"), ("rack", .num 0), ("slot", .num 1)], by decide⟩
  have hsafe : Machine.Guarded (callbackTurn .s7) (ThrowsSafely .s7) World.initial valuesThrown := by
    simp only [valuesThrown, Machine.guarded_cons, ThrowsSafely, true_and, Machine.guarded_nil, and_true]
    exact fun m _ _ _ _ => Or.inr (Or.inl fun e he => by cases he)
  exact ⟨hacc, hsafe, live_iff .s7 valuesThrown hacc hsafe⟩

/-- A read of the first client fails after the connection was updated, and the reconnect attempt it
schedules comes while the second client is still connecting. -/
def tickDuringHandshake : List CallbackTurn :=
  [.returns (.addConnection (sampleConnection .s7)), .returns (.addMapping (sampleMapping "m1" "DB1,INT0")),
    .returns .start, .returns (.connectReport 0 none), .returns (.updateConnection (sampleConnection .s7)),
    .returns (.readReport 0 (.failed (.error .other "socket closed"))), .returns (.reconnectTick 1)]

/-- Nothing that would call back is left. -/
theorem not_live_of {ts : List CallbackTurn} (hclient : ((reachCallbacks p ts).objs m).connecting = false ∨
      ((reachCallbacks p ts).objs m).client = none)
    (hstate : ((reachCallbacks p ts).objs m).state ≠ .connected)
    (hreconnect : ((reachCallbacks p ts).objs m).handle .reconnect = none) : ¬ Live (reachCallbacks p ts) m := by
  intro hlive
  rcases ((reachCallbacks_wf p ts).live_iff_handle m).mp hlive with ⟨hcon, c, hc, -⟩ | ⟨hs, -⟩ | ⟨t, ht⟩
  · rcases hclient with hfalse | hnone
    · rw [hcon] at hfalse
      cases hfalse
    · rw [hnone] at hc
      cases hc
  · exact hstate hs
  · rw [hreconnect] at ht
    cases ht

/-- Then no client is left, nothing is scheduled, and the connection still counts as connecting. -/
theorem tickDuringHandshake_not_live :
    ¬ ((reachCallbacks .s7 tickDuringHandshake).running = true →
      ∀ m, (reachCallbacks .s7 tickDuringHandshake).Tracked m →
        ((reachCallbacks .s7 tickDuringHandshake).objs m).config.enabled = true →
        Live (reachCallbacks .s7 tickDuringHandshake) m) := by
  intro h
  have hlive := h (by decide) 0 (by decide) (by decide)
  exact not_live_of (Or.inr (by decide)) (by decide) (by decide) hlive

/-- A read fails, and the callback throws when that is told: no attempt is scheduled. -/
def failureThrown : List CallbackTurn :=
  [.returns (.addConnection (sampleConnection .s7)), .returns (.addMapping (sampleMapping "m1" "DB1,INT0")),
    .returns .start, .returns (.connectReport 0 none),
    .throws (.readReport 0 (.failed (.error .other "socket closed"))) (.error .other "database is locked") none]

example : ¬ Live (reachCallbacks .s7 failureThrown) 0 :=
  not_live_of (Or.inl (by decide)) (by decide) (by decide)

end OpcuaLight.Connector
