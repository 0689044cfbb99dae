import OpcuaLight.Lib.Machine
import OpcuaLight.Lib.Timers

/-!
# The connection of the dashboard

`useSSE` from its mount on: the event source, which the browser opens, and either reconnects or gives up when an
error comes; the two timers of the hook; and the polling that it falls back to.

* `useSse_runs` : the hook never gives up, and while the stream has not been open for more than
  `DISCONNECT_THRESHOLD_MS` the queries poll.
-/

namespace OpcuaLight.Web

inductive SseConnectionState where
  | connecting
  | connected
  | disconnected
  deriving DecidableEq

/-- The `readyState` of an event source that is not closed. -/
inductive ReadyState where
  | connecting
  | open
  deriving DecidableEq

inductive SseTimer where
  | disconnect
  | reconnect
  deriving DecidableEq

def reconnectDelayMs : Nat := 5000

def disconnectThresholdMs : Nat := 6000

/-- The queries that fall back to polling, with their intervals. -/
def fallbackIntervals : List (List String × Nat) :=
  [(["serverStatus"], 5000), (["server-status"], 5000), (["server", "clients"], 3000), (["connectors-status"], 5000),
   (["connectors-values"], 2000)]

structure UseSse where
  timers : Timers SseTimer
  connectionState : SseConnectionState
  /-- The variables of the effect. -/
  eventSource : Option ReadyState
  reconnectTimer : Option Nat
  disconnectTimer : Option Nat
  disposed : Bool
  /-- The `refetchInterval` of the query defaults; `some none` is `false`. -/
  refetchInterval : List String → Option (Option Nat)
  /-- The time at which the stream was last open, or the mount; `none` if it is open. -/
  closedSince : Option Nat

namespace UseSse

/-- The effect of a new connection state on the query defaults. -/
def refetch (state : SseConnectionState) (defaults : List String → Option (Option Nat)) :
    List String → Option (Option Nat) :=
  match state with
  | .disconnected => fallbackIntervals.foldl (fun d q => Function.update d q.1 (some (some q.2))) defaults
  | .connected => fallbackIntervals.foldl (fun d q => Function.update d q.1 (some none)) defaults
  | .connecting => defaults

/-- The effect runs when the state has changed. -/
def setConnectionState (h : UseSse) (state : SseConnectionState) : UseSse :=
  { h with
    connectionState := state
    refetchInterval := if h.connectionState = state then h.refetchInterval else refetch state h.refetchInterval }

def clearTimers (h : UseSse) : UseSse :=
  { h with
    timers := (h.reconnectTimer.elim h.timers h.timers.clearTimeout) |> fun timers =>
      h.disconnectTimer.elim timers timers.clearTimeout
    reconnectTimer := none
    disconnectTimer := none }

def connect (h : UseSse) : UseSse :=
  if h.disposed then h
  else
    let h := { h.clearTimers with eventSource := some .connecting }.setConnectionState .connecting
    { h with
      timers := h.timers.setTimeout disconnectThresholdMs .disconnect
      disconnectTimer := some h.timers.next }

/-- The component is mounted. -/
def mount : UseSse := connect ⟨.initial, .connecting, none, none, none, false, fun _ => none, some 0⟩

def onopen (h : UseSse) : UseSse :=
  if h.disposed then h
  else
    { h with
      timers := h.disconnectTimer.elim h.timers h.timers.clearTimeout
      disconnectTimer := none }.setConnectionState .connected

/-- `onerror`, with the event source closed or connecting again. -/
def onerror (h : UseSse) (closed : Bool) : UseSse :=
  if h.disposed then h
  else if closed then
    let h := { h.setConnectionState .disconnected with eventSource := none }
    { h with
      timers := h.timers.setTimeout reconnectDelayMs .reconnect
      reconnectTimer := some h.timers.next }
  else if h.disconnectTimer.isNone then
    { h with
      timers := h.timers.setTimeout disconnectThresholdMs .disconnect
      disconnectTimer := some h.timers.next }
  else h

/-- A timer goes off. -/
def timeout (h : UseSse) : SseTimer → UseSse
  | .disconnect => if h.disposed then h else h.setConnectionState .disconnected
  | .reconnect => if h.disposed then h else h.connect

def unmount (h : UseSse) : UseSse := { { h with disposed := true }.clearTimers with eventSource := none }

end UseSse

inductive SseHookEvent where
  /-- The event source opens. -/
  | open
  /-- The stream is lost, or an attempt to reconnect has failed; `closed` if the browser gives up. -/
  | error (closed : Bool)
  | timer (id : Nat)
  | wait (ms : Nat)
  | unmount

/-- Nothing comes from an event source that is closed. -/
def UseSse.step (h : UseSse) : SseHookEvent → UseSse
  | .open =>
      match h.eventSource with
      | some .connecting => { h with eventSource := some .open, closedSince := none }.onopen
      | _ => h
  | .error closed =>
      match h.eventSource with
      | none => h
      | some _ =>
          { h with
            eventSource := some .connecting
            closedSince := h.closedSince.or (some h.timers.now) }.onerror closed
  | .timer id =>
      match h.timers.due? id with
      | none => h
      | some timer => { h with timers := h.timers.clearTimeout id }.timeout timer.calls
  | .wait ms => { h with timers := h.timers.wait ms }
  | .unmount => h.unmount

/-! ## What holds along a run -/

namespace UseSse

/-- The queries poll. -/
def Polls (h : UseSse) : Prop := ∀ q ∈ fallbackIntervals, h.refetchInterval q.1 = some (some q.2)

/-- The queries do not poll. -/
def Waits (h : UseSse) : Prop := ∀ q ∈ fallbackIntervals, h.refetchInterval q.1 = some none

/-- The variables have every timer that is pending. -/
structure Timed (h : UseSse) : Prop where
  wf : h.timers.WF
  disconnect : ∀ x ∈ h.timers.pending, x.calls = .disconnect → h.disconnectTimer = some x.id
  reconnect : ∀ x ∈ h.timers.pending, x.calls = .reconnect → h.reconnectTimer = some x.id

/-- The timer that tells that the stream is closed goes off in time, or the queries poll already. -/
def Watched (h : UseSse) : Prop :=
  ∀ since, h.closedSince = some since →
    h.Polls ∨ ∃ x ∈ h.timers.pending, x.calls = .disconnect ∧ x.due ≤ since + disconnectThresholdMs

structure Inv (h : UseSse) : Prop where
  timed : h.Timed
  watched : h.disposed = false → h.Watched
  disconnected : h.connectionState = .disconnected → h.Polls
  connected : h.connectionState = .connected → h.Waits
  disposed : h.disposed = true → h.timers.pending = [] ∧ h.eventSource = none
  closed : h.disposed = false → h.eventSource = none →
    h.connectionState = .disconnected ∧ ∃ x ∈ h.timers.pending, x.calls = .reconnect
  source : h.eventSource ≠ none → h.reconnectTimer = none
  connecting : h.eventSource = some .connecting → h.disconnectTimer ≠ none
  opened : h.eventSource = some .open → h.connectionState = .connected ∧ h.disconnectTimer = none
  since : h.disposed = false → (h.closedSince = none ↔ h.eventSource = some .open)

theorem refetch_disconnected (d : List String → Option (Option Nat)) :
    ∀ q ∈ fallbackIntervals, refetch .disconnected d q.1 = some (some q.2) := by
  simp +decide [refetch, fallbackIntervals, Function.update_apply]

theorem refetch_connected (d : List String → Option (Option Nat)) :
    ∀ q ∈ fallbackIntervals, refetch .connected d q.1 = some none := by
  simp +decide [refetch, fallbackIntervals, Function.update_apply]

/-- In the state disconnected the queries poll. -/
theorem polls_disconnected {h : UseSse} (hpolls : h.connectionState = .disconnected → h.Polls) :
    (h.setConnectionState .disconnected).Polls := by
  intro q hq
  show (if h.connectionState = .disconnected then _ else _ : List String → Option (Option Nat)) q.1 = _
  split_ifs with hsame
  · exact hpolls hsame q hq
  · exact refetch_disconnected _ q hq

theorem waits_connected {h : UseSse} (hwaits : h.connectionState = .connected → h.Waits) :
    (h.setConnectionState .connected).Waits := by
  intro q hq
  show (if h.connectionState = .connected then _ else _ : List String → Option (Option Nat)) q.1 = _
  split_ifs with hsame
  · exact hwaits hsame q hq
  · exact refetch_connected _ q hq

theorem refetchInterval_connecting (h : UseSse) :
    (h.setConnectionState .connecting).refetchInterval = h.refetchInterval := by
  show (if _ then _ else _ : List String → Option (Option Nat)) = _
  split_ifs <;> rfl

/-- No timer is left. -/
theorem Timed.clearTimers {h : UseSse} (ht : h.Timed) : h.clearTimers.timers.pending = [] := by
  refine List.eq_nil_iff_forall_not_mem.mpr fun x hx => ?_
  have hkeep : x ∈ h.timers.pending ∧ h.reconnectTimer ≠ some x.id ∧ h.disconnectTimer ≠ some x.id := by
    have hmem : ∀ (var : Option Nat) (t : Timers SseTimer), x ∈ (var.elim t t.clearTimeout).pending →
        x ∈ t.pending ∧ var ≠ some x.id := by
      intro var t hx
      cases var with
      | none => exact ⟨hx, nofun⟩
      | some id =>
          obtain ⟨hin, hne⟩ := Timers.mem_clearTimeout.mp hx
          exact ⟨hin, fun he => hne (Option.some.inj he).symm⟩
    obtain ⟨hx, hd⟩ := hmem h.disconnectTimer _ hx
    obtain ⟨hx, hr⟩ := hmem h.reconnectTimer _ hx
    exact ⟨hx, hr, hd⟩
  obtain ⟨hin, hr, hd⟩ := hkeep
  cases hcalls : x.calls with
  | disconnect => exact hd (ht.disconnect x hin hcalls)
  | reconnect => exact hr (ht.reconnect x hin hcalls)

theorem Timed.clearTimers_wf {h : UseSse} (ht : h.Timed) : h.clearTimers.timers.WF := by
  show (h.disconnectTimer.elim (h.reconnectTimer.elim _ _) _ : Timers SseTimer).WF
  cases h.disconnectTimer <;> cases h.reconnectTimer
  · exact ht.wf
  · exact ht.wf.clearTimeout _
  · exact ht.wf.clearTimeout _
  · exact (ht.wf.clearTimeout _).clearTimeout _

theorem clearTimers_now (h : UseSse) : h.clearTimers.timers.now = h.timers.now := by
  show (h.disconnectTimer.elim _ _ : Timers SseTimer).now = _
  cases h.disconnectTimer <;> cases h.reconnectTimer <;> rfl

theorem inv_connect {h : UseSse} (hd : h.disposed = false) (ht : h.Timed) {since : Nat}
    (hsince : h.closedSince = some since) (hpolls : h.Polls ∨ h.timers.now ≤ since) : h.connect.Inv := by
  have hnow := clearTimers_now h
  have hconnect : h.connect =
      { { h.clearTimers with eventSource := some .connecting }.setConnectionState .connecting with
        timers := h.clearTimers.timers.setTimeout disconnectThresholdMs .disconnect
        disconnectTimer := some h.clearTimers.timers.next } := by
    rw [connect, hd]
    rfl
  have hrefetch : h.connect.refetchInterval = h.refetchInterval := by
    rw [hconnect]
    exact refetchInterval_connecting _
  have hpending : h.connect.timers.pending =
      [⟨h.clearTimers.timers.next, h.timers.now + disconnectThresholdMs, .disconnect⟩] := by
    rw [hconnect]
    show h.clearTimers.timers.pending ++ [_] = _
    rw [ht.clearTimers, hnow, List.nil_append]
  have hmem : ∀ x ∈ h.connect.timers.pending,
      x = ⟨h.clearTimers.timers.next, h.timers.now + disconnectThresholdMs, .disconnect⟩ := fun x hx => by
    rw [hpending] at hx
    exact List.mem_singleton.mp hx
  have hstate : h.connect.connectionState = .connecting ∧ h.connect.eventSource = some .connecting ∧
      h.connect.disconnectTimer = some h.clearTimers.timers.next ∧ h.connect.reconnectTimer = none ∧
      h.connect.disposed = false ∧ h.connect.closedSince = some since := by
    rw [hconnect]
    exact ⟨rfl, rfl, rfl, rfl, hd, hsince⟩
  obtain ⟨hconn, hsource, hdt, hrt, hdis, hcs⟩ := hstate
  refine ⟨⟨?_, fun x hx _ => ?_, fun x hx hcalls => ?_⟩, fun _ since' hsince' => ?_, ?_, ?_, ?_, ?_, ?_, ?_, ?_, ?_⟩
  · rw [hconnect]
    exact ht.clearTimers_wf.setTimeout _ _
  · rw [hmem x hx, hdt]
  · rw [hmem x hx] at hcalls
    cases hcalls
  · rw [hcs] at hsince'
    obtain rfl := Option.some.inj hsince'
    rcases hpolls with hpolls | hlate
    · exact Or.inl fun q hq => hrefetch ▸ hpolls q hq
    · exact Or.inr ⟨_, hpending ▸ List.mem_singleton_self _, rfl, Nat.add_le_add_right hlate _⟩
  · rw [hconn]; nofun
  · rw [hconn]; nofun
  · rw [hdis]; nofun
  · rw [hsource]; nofun
  · exact fun _ => hrt
  · rw [hdt]; nofun
  · rw [hsource]; nofun
  · rw [hcs, hsource]
    exact fun _ => ⟨nofun, nofun⟩

theorem Timed.clear_disconnect {h : UseSse} (ht : h.Timed) {x : Timer SseTimer}
    (hx : x ∈ (h.disconnectTimer.elim h.timers h.timers.clearTimeout).pending) :
    x ∈ h.timers.pending ∧ x.calls = .reconnect := by
  have hin : x ∈ h.timers.pending ∧ h.disconnectTimer ≠ some x.id := by
    cases hvar : h.disconnectTimer with
    | none =>
        rw [hvar] at hx
        exact ⟨hx, nofun⟩
    | some id =>
        rw [hvar] at hx
        obtain ⟨hin, hne⟩ := Timers.mem_clearTimeout.mp hx
        exact ⟨hin, fun he => hne (Option.some.inj he).symm⟩
  refine ⟨hin.1, ?_⟩
  cases hcalls : x.calls with
  | reconnect => rfl
  | disconnect => exact absurd (ht.disconnect x hin.1 hcalls) hin.2

/-- The stream opens. -/
theorem inv_open {h : UseSse} (hi : h.Inv) (hd : h.disposed = false) (hsource : h.eventSource = some .connecting) :
    ({ h with eventSource := some .open, closedSince := none }.onopen).Inv := by
  set h' := { h with eventSource := some .open, closedSince := none }.onopen with hh'
  have hopen : h' =
      { { h with eventSource := some .open, closedSince := none } with
        timers := h.disconnectTimer.elim h.timers h.timers.clearTimeout
        disconnectTimer := none }.setConnectionState .connected := by
    rw [hh', onopen]
    show (if h.disposed = true then _ else _) = _
    rw [hd]
    rfl
  have hpending : h'.timers.pending = [] := by
    refine List.eq_nil_iff_forall_not_mem.mpr fun x hx => ?_
    rw [hopen] at hx
    obtain ⟨hin, hcalls⟩ := hi.timed.clear_disconnect hx
    have hvar := hi.timed.reconnect x hin hcalls
    rw [hi.source (by rw [hsource]; nofun)] at hvar
    cases hvar
  have hnone : ∀ {P : Timer SseTimer → Prop}, ∀ x ∈ h'.timers.pending, P x := fun x hx =>
    absurd (hpending ▸ hx) List.not_mem_nil
  have hstate : h'.connectionState = .connected ∧ h'.eventSource = some .open ∧ h'.disconnectTimer = none ∧
      h'.disposed = false ∧ h'.closedSince = none ∧ h'.reconnectTimer = none := by
    rw [hopen]
    exact ⟨rfl, rfl, rfl, hd, rfl, hi.source (by rw [hsource]; nofun)⟩
  obtain ⟨hconn, hes, hdt, hdis, hcs, hrt⟩ := hstate
  have hwf : h'.timers.WF := by
    rw [hopen]
    show (h.disconnectTimer.elim h.timers h.timers.clearTimeout).WF
    cases h.disconnectTimer with
    | none => exact hi.timed.wf
    | some id => exact hi.timed.wf.clearTimeout id
  refine ⟨⟨hwf, hnone, hnone⟩, fun _ since hsince => ?_, ?_, fun _ => ?_, ?_, ?_, fun _ => hrt, ?_, fun _ => ⟨hconn, hdt⟩,
    ?_⟩
  · rw [hcs] at hsince
    cases hsince
  · rw [hconn]; nofun
  · rw [hopen]
    exact waits_connected hi.connected
  · rw [hdis]; nofun
  · rw [hes]; nofun
  · rw [hes]; nofun
  · exact fun _ => ⟨fun _ => hes, fun _ => hcs⟩

/-- The browser gives up. -/
theorem inv_closed {h : UseSse} (hi : h.Inv) (hd : h.disposed = false) (hsource : h.eventSource ≠ none) :
    ({ h with
        eventSource := some .connecting
        closedSince := h.closedSince.or (some h.timers.now) }.onerror true).Inv := by
  set h' := { h with
    eventSource := some .connecting
    closedSince := h.closedSince.or (some h.timers.now) }.onerror true with hh'
  have hclosed : h' =
      { { h with closedSince := h.closedSince.or (some h.timers.now) }.setConnectionState .disconnected with
        eventSource := none
        timers := h.timers.setTimeout reconnectDelayMs .reconnect
        reconnectTimer := some h.timers.next } := by
    rw [hh', onerror]
    show (if h.disposed = true then _ else _) = _
    rw [hd]
    rfl
  have hpolls : h'.Polls := by
    rw [hclosed]
    exact polls_disconnected hi.disconnected
  have hold : ∀ x ∈ h'.timers.pending, x ∈ h.timers.pending ∨
      x = ⟨h.timers.next, h.timers.now + reconnectDelayMs, .reconnect⟩ := fun x hx => by
    rw [hclosed] at hx
    exact Timers.mem_setTimeout.mp hx
  have hnew : ⟨h.timers.next, h.timers.now + reconnectDelayMs, .reconnect⟩ ∈ h'.timers.pending := by
    rw [hclosed]
    exact Timers.mem_setTimeout.mpr (Or.inr rfl)
  have hstate : h'.connectionState = .disconnected ∧ h'.eventSource = none ∧ h'.disconnectTimer = h.disconnectTimer ∧
      h'.reconnectTimer = some h.timers.next ∧ h'.disposed = false ∧
      h'.closedSince = h.closedSince.or (some h.timers.now) ∧ h'.timers.WF := by
    rw [hclosed]
    exact ⟨rfl, rfl, rfl, rfl, hd, rfl, hi.timed.wf.setTimeout _ _⟩
  obtain ⟨hconn, hes, hdt, hrt, hdis, hcs, hwf⟩ := hstate
  refine ⟨⟨hwf, fun x hx hcalls => ?_, fun x hx hcalls => ?_⟩, fun _ since _ => Or.inl hpolls, fun _ => hpolls, ?_, ?_,
    fun _ _ => ⟨hconn, _, hnew, rfl⟩, ?_, ?_, ?_, ?_⟩
  · rcases hold x hx with hin | rfl
    · exact hdt.trans (hi.timed.disconnect x hin hcalls)
    · cases hcalls
  · rcases hold x hx with hin | rfl
    · -- there was no such timer
      have hvar := hi.timed.reconnect x hin hcalls
      rw [hi.source hsource] at hvar
      cases hvar
    · exact hrt
  · rw [hconn]; nofun
  · rw [hdis]; nofun
  · exact fun hne => absurd hes hne
  · rw [hes]; nofun
  · rw [hes]; nofun
  · rw [hcs, hes]
    cases h.closedSince <;> exact fun _ => ⟨nofun, nofun⟩

/-- The stream is lost, or an attempt has failed, and the browser reconnects. -/
theorem inv_retry {h : UseSse} (hi : h.Inv) (hd : h.disposed = false) (hsource : h.eventSource ≠ none) :
    ({ h with
        eventSource := some .connecting
        closedSince := h.closedSince.or (some h.timers.now) }.onerror false).Inv := by
  by_cases hvar : h.disconnectTimer = none
  · have hes : h.eventSource = some .open := by
      cases hrs : h.eventSource with
      | none => exact absurd hrs hsource
      | some rs =>
          cases rs with
          | connecting => exact absurd hvar (hi.connecting hrs)
          | «open» => rfl
    have hcs : h.closedSince = none := (hi.since hd).mpr hes
    have hconn := (hi.opened hes).1
    set h' := { h with
      eventSource := some .connecting
      closedSince := h.closedSince.or (some h.timers.now) }.onerror false with hh'
    have hretry : h' = { h with
        eventSource := some .connecting
        closedSince := some h.timers.now
        timers := h.timers.setTimeout disconnectThresholdMs .disconnect
        disconnectTimer := some h.timers.next } := by
      rw [hh', hcs, onerror, hd, hvar]
      rfl
    have hold : ∀ x ∈ h'.timers.pending, x ∈ h.timers.pending ∨
        x = ⟨h.timers.next, h.timers.now + disconnectThresholdMs, .disconnect⟩ := fun x hx => by
      rw [hretry] at hx
      exact Timers.mem_setTimeout.mp hx
    have hstate : h'.connectionState = .connected ∧ h'.eventSource = some .connecting ∧
        h'.disconnectTimer = some h.timers.next ∧ h'.reconnectTimer = none ∧ h'.disposed = false ∧
        h'.closedSince = some h.timers.now ∧ h'.timers.WF ∧ h'.Waits := by
      rw [hretry]
      exact ⟨hconn, rfl, rfl, hi.source hsource, hd, rfl, hi.timed.wf.setTimeout _ _, hi.connected hconn⟩
    obtain ⟨hconn', hes', hdt, hrt, hdis, hcs', hwf, hwaits⟩ := hstate
    refine ⟨⟨hwf, fun x hx hcalls => ?_, fun x hx hcalls => ?_⟩, fun _ since hsince => Or.inr ?_, ?_, fun _ => hwaits,
      ?_, ?_, fun _ => hrt, ?_, ?_, ?_⟩
    · rcases hold x hx with hin | rfl
      · have hx := hi.timed.disconnect x hin hcalls
        rw [hvar] at hx
        cases hx
      · exact hdt
    · rcases hold x hx with hin | rfl
      · exact hrt.trans ((hi.source hsource).symm.trans (hi.timed.reconnect x hin hcalls))
      · cases hcalls
    · rw [hcs'] at hsince
      obtain rfl := Option.some.inj hsince
      refine ⟨⟨h.timers.next, h.timers.now + disconnectThresholdMs, .disconnect⟩, ?_, rfl, Nat.le_refl _⟩
      rw [hretry]
      exact Timers.mem_setTimeout.mpr (Or.inr rfl)
    · rw [hconn']; nofun
    · rw [hdis]; nofun
    · rw [hes']; nofun
    · rw [hdt]; nofun
    · rw [hes']; nofun
    · rw [hcs', hes']
      exact fun _ => ⟨nofun, nofun⟩
  · -- it is reconnecting already
    obtain ⟨id, hid⟩ := Option.ne_none_iff_exists'.mp hvar
    have hes : h.eventSource = some .connecting := by
      cases hrs : h.eventSource with
      | none => exact absurd hrs hsource
      | some rs =>
          cases rs with
          | connecting => rfl
          | «open» => exact absurd (hi.opened hrs).2 hvar
    have hor : h.closedSince.or (some h.timers.now) = h.closedSince := by
      cases hcs : h.closedSince with
      | some since => rfl
      | none =>
          have hopen := (hi.since hd).mp hcs
          rw [hes] at hopen
          cases hopen
    have hsame : { h with
        eventSource := some .connecting
        closedSince := h.closedSince.or (some h.timers.now) }.onerror false = h := by
      rw [hor, ← hes, onerror]
      show (if h.disposed = true then h else if false = true then _ else if h.disconnectTimer.isNone = true then _
        else h) = h
      rw [if_neg (by rw [hd]; nofun), if_neg Bool.false_ne_true, if_neg (by rw [hid]; nofun)]
    rw [hsame]
    exact hi

/-- A timer goes off. -/
theorem inv_timeout {h : UseSse} (hi : h.Inv) {id : Nat} {timer : Timer SseTimer}
    (hdue : h.timers.due? id = some timer) :
    ({ h with timers := h.timers.clearTimeout id }.timeout timer.calls).Inv := by
  obtain ⟨hin, hid, -⟩ := Timers.due?_eq_some hdue
  have hd : h.disposed = false := by
    by_contra hdisposed
    rw [Bool.not_eq_false] at hdisposed
    exact absurd ((hi.disposed hdisposed).1 ▸ hin) List.not_mem_nil
  have hleft : ∀ x ∈ (h.timers.clearTimeout id).pending, x ∈ h.timers.pending := fun x hx =>
    (Timers.mem_clearTimeout.mp hx).1
  have htimed : Timed { h with timers := h.timers.clearTimeout id } :=
    ⟨hi.timed.wf.clearTimeout id, fun x hx => hi.timed.disconnect x (hleft x hx),
      fun x hx => hi.timed.reconnect x (hleft x hx)⟩
  cases hcalls : timer.calls with
  | reconnect =>
      -- the event source was closed, and the queries poll
      have hes : h.eventSource = none := by
        by_contra hsource
        have hvar := hi.timed.reconnect timer hin hcalls
        rw [hi.source hsource] at hvar
        cases hvar
      have hpolls := hi.disconnected (hi.closed hd hes).1
      obtain ⟨since, hsince⟩ : ∃ since, h.closedSince = some since := by
        cases hcs : h.closedSince with
        | some since => exact ⟨since, rfl⟩
        | none =>
            have hopen := (hi.since hd).mp hcs
            rw [hes] at hopen
            cases hopen
      have hconnect : ({ h with timers := h.timers.clearTimeout id } : UseSse).timeout .reconnect =
          ({ h with timers := h.timers.clearTimeout id } : UseSse).connect := by
        rw [timeout, hd]
        rfl
      rw [hconnect]
      exact inv_connect hd htimed hsince (Or.inl hpolls)
  | disconnect =>
      set h' := ({ h with timers := h.timers.clearTimeout id } : UseSse).timeout .disconnect with hh'
      have hfired : h' = ({ h with timers := h.timers.clearTimeout id } : UseSse).setConnectionState .disconnected := by
        rw [hh', timeout, hd]
        rfl
      have hpolls : h'.Polls := by
        rw [hfired]
        exact polls_disconnected hi.disconnected
      have hnotopen : h.eventSource ≠ some .open := fun hopen => by
        have hvar := hi.timed.disconnect timer hin hcalls
        rw [(hi.opened hopen).2] at hvar
        cases hvar
      have hstate : h'.connectionState = .disconnected ∧ h'.eventSource = h.eventSource ∧
          h'.disconnectTimer = h.disconnectTimer ∧ h'.reconnectTimer = h.reconnectTimer ∧ h'.disposed = false ∧
          h'.closedSince = h.closedSince ∧ h'.timers = h.timers.clearTimeout id := by
        rw [hfired]
        exact ⟨rfl, rfl, rfl, rfl, hd, rfl, rfl⟩
      obtain ⟨hconn, hes, hdt, hrt, hdis, hcs, htimers⟩ := hstate
      refine ⟨⟨?_, ?_, ?_⟩, fun _ since _ => Or.inl hpolls, fun _ => hpolls, ?_, ?_, fun _ hnone => ⟨hconn, ?_⟩, ?_, ?_, ?_,
        ?_⟩
      · rw [htimers]; exact htimed.wf
      · rw [htimers, hdt]; exact htimed.disconnect
      · rw [htimers, hrt]; exact htimed.reconnect
      · rw [hconn]; nofun
      · rw [hdis]; nofun
      · rw [hes] at hnone
        obtain ⟨-, x, hx, hxcalls⟩ := hi.closed hd hnone
        refine ⟨x, ?_, hxcalls⟩
        rw [htimers]
        refine Timers.mem_clearTimeout.mpr ⟨hx, fun he => ?_⟩
        -- the numbers are used once
        obtain rfl := hi.timed.wf.eq_of_id hx hin (he.trans hid.symm)
        rw [hcalls] at hxcalls
        cases hxcalls
      · rw [hes, hrt]; exact hi.source
      · rw [hes, hdt]; exact hi.connecting
      · rw [hes]
        exact fun hopen => absurd hopen hnotopen
      · rw [hcs, hes]
        exact fun _ => hi.since hd

theorem inv_wait {h : UseSse} (hi : h.Inv) (ms : Nat) : Inv { h with timers := h.timers.wait ms } := by
  have hpending : (h.timers.wait ms).pending = h.timers.pending := by
    rw [Timers.wait]
    split_ifs <;> rfl
  refine ⟨⟨hi.timed.wf.wait ms, ?_, ?_⟩, fun hd since hsince => ?_, hi.disconnected, hi.connected, ?_, ?_, hi.source,
    hi.connecting, hi.opened, hi.since⟩
  · show ∀ x ∈ (h.timers.wait ms).pending, _
    rw [hpending]
    exact hi.timed.disconnect
  · show ∀ x ∈ (h.timers.wait ms).pending, _
    rw [hpending]
    exact hi.timed.reconnect
  · refine (hi.watched hd since hsince).imp id fun hpending' => ?_
    show ∃ x ∈ (h.timers.wait ms).pending, _
    rw [hpending]
    exact hpending'
  · show _ → (h.timers.wait ms).pending = [] ∧ _
    rw [hpending]
    exact hi.disposed
  · show _ → _ → _ ∧ ∃ x ∈ (h.timers.wait ms).pending, _
    rw [hpending]
    exact hi.closed

theorem inv_unmount {h : UseSse} (hi : h.Inv) : h.unmount.Inv := by
  have htimed : Timed { h with disposed := true } := ⟨hi.timed.wf, hi.timed.disconnect, hi.timed.reconnect⟩
  have hpending : h.unmount.timers.pending = [] := htimed.clearTimers
  have hnone : ∀ {P : Timer SseTimer → Prop}, ∀ x ∈ h.unmount.timers.pending, P x := fun x hx =>
    absurd (hpending ▸ hx) List.not_mem_nil
  exact ⟨⟨htimed.clearTimers_wf, hnone, hnone⟩, nofun, hi.disconnected, hi.connected, fun _ => ⟨hpending, rfl⟩, nofun,
    fun hne => absurd rfl hne, nofun, nofun, nofun⟩

theorem inv_step {h : UseSse} (hi : h.Inv) (e : SseHookEvent) : (h.step e).Inv := by
  have hd : h.eventSource ≠ none → h.disposed = false := fun hsource => by
    by_contra hdisposed
    rw [Bool.not_eq_false] at hdisposed
    exact hsource (hi.disposed hdisposed).2
  cases e with
  | «open» =>
      rw [step]
      split
      · rename_i hes
        exact inv_open hi (hd (by rw [hes]; nofun)) hes
      · exact hi
  | error closed =>
      rw [step]
      split
      · exact hi
      · rename_i rs hes
        have hsource : h.eventSource ≠ none := by rw [hes]; nofun
        cases closed with
        | true => exact inv_closed hi (hd hsource) hsource
        | false => exact inv_retry hi (hd hsource) hsource
  | timer id =>
      rw [step]
      split
      · exact hi
      · rename_i timer hdue
        exact inv_timeout hi hdue
  | wait ms => exact inv_wait hi ms
  | unmount => exact inv_unmount hi

theorem inv_mount : mount.Inv :=
  inv_connect rfl ⟨Timers.wf_initial, nofun, nofun⟩ rfl (Or.inr (Nat.le_refl 0))

/-- **The hook never gives up.** In every run of a mounted hook it has an event source or a timer that opens one;
while the stream is open it is connected and the queries do not poll; and once the stream has not been open for
more than the threshold they all do. After the unmount no timer and no event source is left. -/
theorem useSse_runs (es : List SseHookEvent) :
    let h := Machine.run step mount es
    (h.disposed = true → h.timers.pending = [] ∧ h.eventSource = none) ∧
    (h.disposed = false →
      (h.eventSource ≠ none ∨ ∃ x ∈ h.timers.pending, x.calls = .reconnect) ∧
      (h.closedSince = none → h.eventSource = some .open ∧ h.connectionState = .connected ∧
        ∀ q ∈ fallbackIntervals, h.refetchInterval q.1 = some none) ∧
      ∀ since, h.closedSince = some since → since + disconnectThresholdMs < h.timers.now →
        ∀ q ∈ fallbackIntervals, h.refetchInterval q.1 = some (some q.2)) := by
  intro h
  have hi : Inv (Machine.run step mount es) :=
    Machine.run_invariant' (I := Inv) (fun h e hi => inv_step hi e) es inv_mount
  refine ⟨hi.disposed, fun hd => ⟨?_, fun hcs => ?_, fun since hsince hlate => ?_⟩⟩
  · by_cases hsource : h.eventSource = none
    · exact Or.inr (hi.closed hd hsource).2
    · exact Or.inl hsource
  · have hopen := (hi.since hd).mp hcs
    exact ⟨hopen, (hi.opened hopen).1, hi.connected (hi.opened hopen).1⟩
  · rcases hi.watched hd since hsince with hpolls | ⟨x, hx, -, hdue⟩
    · exact hpolls
    · have hnow : h.timers.now ≤ x.due := hi.timed.wf.onTime x hx
      omega

end UseSse

end OpcuaLight.Web
