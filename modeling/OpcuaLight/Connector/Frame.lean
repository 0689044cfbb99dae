import OpcuaLight.Connector.Step
import OpcuaLight.Lib.Machine

/-!
# What one object's code can change

* `Acts m w w'` : everything from `w` to `w'` was done by code that runs for the managed object `m`.
  The other objects, their clients and their timers are as before; new clients, reads and effects
  are `m`'s. `Acts.refl`, `Acts.trans`.
* `Passive m w w'` : code that only reads, caches and emits: it also leaves clients and timers
  alone, and of `m` changes the poll's own two fields at most. `Passive.refl`, `Passive.trans`.
-/

namespace OpcuaLight.Connector

open World

/-- What is appended in two steps. -/
theorem appended_trans {α : Type*} {P : α → Prop} {l l' l'' : List α} (h : ∃ es, l' = l ++ es ∧ ∀ e ∈ es, P e)
    (h' : ∃ es, l'' = l' ++ es ∧ ∀ e ∈ es, P e) : ∃ es, l'' = l ++ es ∧ ∀ e ∈ es, P e := by
  obtain ⟨es, rfl, hes⟩ := h
  obtain ⟨fs, rfl, hfs⟩ := h'
  refine ⟨es ++ fs, List.append_assoc l es fs, fun e he => ?_⟩
  rcases List.mem_append.mp he with he | he
  · exact hes e he
  · exact hfs e he

/-! ## Acts -/

structure Acts (m : ObjId) (w w' : World) : Prop where
  running : w'.running = w.running
  connections : w'.connections = w.connections
  nextObj : w'.nextObj = w.nextObj
  now : w'.now = w.now
  objs : ∀ i, i ≠ m → w'.objs i = w.objs i
  configId : (w'.objs m).config.id = (w.objs m).config.id
  nextClient : w.nextClient ≤ w'.nextClient
  nextTimer : w.nextTimer ≤ w'.nextTimer
  clients : ∀ c < w.nextClient, (w.clients c).owner ≠ m → w'.clients c = w.clients c
  owner : ∀ c < w.nextClient, (w'.clients c).owner = (w.clients c).owner
  newClients : ∀ c, w.nextClient ≤ c → c < w'.nextClient → (w'.clients c).owner = m
  timers : ∀ t x, x.obj ≠ m → (w'.timers t = some x ↔ w.timers t = some x)
  reads : ∀ r x, w'.reads r = some x → w.reads r = some x ∨
    x.obj = m ∧ ∀ c, x.client = some c → c < w'.nextClient ∧ (w'.clients c).owner = m
  effects : ∃ es, w'.effects = w.effects ++ es ∧
    ∀ e ∈ es, e.obj = m ∧ e.connectionId = (w.objs m).config.id

namespace Acts

variable {m : ObjId} {w w' w'' : World}

theorem refl (m : ObjId) (w : World) : Acts m w w where
  running := rfl
  connections := rfl
  nextObj := rfl
  now := rfl
  objs := fun _ _ => rfl
  configId := rfl
  nextClient := le_refl _
  nextTimer := le_refl _
  clients := fun _ _ _ => rfl
  owner := fun _ _ => rfl
  newClients := fun c h h' => by omega
  timers := fun _ _ _ => Iff.rfl
  reads := fun _ _ h => Or.inl h
  effects := ⟨[], by simp, by simp⟩

theorem trans (h : Acts m w w') (h' : Acts m w' w'') : Acts m w w'' where
  running := by rw [h'.running, h.running]
  connections := by rw [h'.connections, h.connections]
  nextObj := by rw [h'.nextObj, h.nextObj]
  now := by rw [h'.now, h.now]
  objs := fun i hi => by rw [h'.objs i hi, h.objs i hi]
  configId := by rw [h'.configId, h.configId]
  nextClient := h.nextClient.trans h'.nextClient
  nextTimer := h.nextTimer.trans h'.nextTimer
  clients := fun c hc ho => by
    have h1 := h.clients c hc ho
    rw [h'.clients c (lt_of_lt_of_le hc h.nextClient) (by rw [h1]; exact ho), h1]
  owner := fun c hc => by
    rw [h'.owner c (lt_of_lt_of_le hc h.nextClient), h.owner c hc]
  newClients := fun c hc hc' => by
    by_cases hm : c < w'.nextClient
    · rw [h'.owner c hm]
      exact h.newClients c hc hm
    · exact h'.newClients c (not_lt.mp hm) hc'
  timers := fun t x hx => (h'.timers t x hx).trans (h.timers t x hx)
  reads := fun r x hx => by
    rcases h'.reads r x hx with hx | hx
    · rcases h.reads r x hx with hx | ⟨hobj, hc⟩
      · exact Or.inl hx
      · refine Or.inr ⟨hobj, fun c hxc => ?_⟩
        obtain ⟨hlt, hown⟩ := hc c hxc
        exact ⟨lt_of_lt_of_le hlt h'.nextClient, by rw [h'.owner c hlt, hown]⟩
    · exact Or.inr hx
  effects := by
    have hnext := h'.effects
    rw [h.configId] at hnext
    exact appended_trans h.effects hnext

end Acts

theorem acts_update (w : World) (m : ObjId) (f : Managed → Managed)
    (hid : (f (w.objs m)).config.id = (w.objs m).config.id) : Acts m w (w.update m f) :=
  { Acts.refl m w with
    objs := fun _ hi => update_objs_of_ne w f hi
    configId := by rw [update_objs_self, hid] }

theorem acts_report (w : World) (m : ObjId) (rs : List Report) : Acts m w (w.report rs) :=
  { Acts.refl m w with reads := fun _ _ hx => Or.inl hx }

theorem takeRead_reads {w : World} {r r' : ReadId} {x : Read}
    (h : (w.takeRead r).reads r' = some x) : r' ≠ r ∧ w.reads r' = some x := by
  change Function.update w.reads r none r' = some x at h
  by_cases hr : r' = r
  · rw [hr, Function.update_self] at h
    cases h
  · rw [Function.update_of_ne hr] at h
    exact ⟨hr, h⟩

theorem acts_takeRead (w : World) (m : ObjId) (r : ReadId) : Acts m w (w.takeRead r) :=
  { Acts.refl m w with reads := fun _ _ hx => Or.inl (takeRead_reads hx).2 }

theorem acts_forgetValue (w : World) (m : ObjId) (id : String) : Acts m w (w.forgetValue id) :=
  { Acts.refl m w with reads := fun _ _ hx => Or.inl hx }

theorem acts_act (w : World) (m : ObjId) (a : Action) : Acts m w (w.act m a) :=
  { Acts.refl m w with effects := ⟨[⟨m, (w.objs m).config.id, a⟩], rfl, by simp⟩ }

/-- Only the client's own object is concerned when one of its clients is changed. -/
theorem acts_updateClient (w : World) {m : ObjId} {c : ClientId} (hc : (w.clients c).owner = m)
    (f : Client → Client) (howner : (f (w.clients c)).owner = (w.clients c).owner) :
    Acts m w (w.updateClient c f) := by
  refine { Acts.refl m w with
    clients := fun i _ ho => updateClient_of_ne w f (fun hi => ho (by rw [hi, hc]))
    owner := fun i _ => ?_
    newClients := fun i h h' => absurd h' (not_lt.mpr h)
    reads := fun r x hx => Or.inl hx }
  by_cases hi : i = c
  · rw [hi, updateClient_self, howner]
  · rw [updateClient_of_ne w f hi]

theorem acts_createClient (w : World) (m : ObjId) (args : List Json) :
    Acts m w (w.createClient m args) := by
  refine { Acts.refl m w with
    nextClient := Nat.le_succ _
    clients := fun c hc _ => createClient_old w m args hc
    owner := fun c hc => by rw [createClient_old w m args hc]
    newClients := fun c h h' => ?_
    reads := fun r x hx => Or.inl hx }
  have hc : c = w.nextClient := Nat.le_antisymm (Nat.lt_succ_iff.mp h') h
  rw [hc, createClient_new]

/-! ## Passive -/

structure Passive (m : ObjId) (w w' : World) : Prop where
  running : w'.running = w.running
  connections : w'.connections = w.connections
  nextObj : w'.nextObj = w.nextObj
  now : w'.now = w.now
  reports : w'.reports = w.reports
  nextClient : w'.nextClient = w.nextClient
  nextTimer : w'.nextTimer = w.nextTimer
  clients : w'.clients = w.clients
  timers : w'.timers = w.timers
  others : ∀ i, i ≠ m → w'.objs i = w.objs i
  self : ∃ l b, w'.objs m = { w.objs m with lastPollAt := l, pollInProgress := b }
  reads : ∀ r x, w'.reads r = some x → w.reads r = some x ∨
    x.obj = m ∧ x.client = (w.objs m).client
  effects : ∃ es, w'.effects = w.effects ++ es ∧
    ∀ e ∈ es, e.obj = m ∧ e.connectionId = (w.objs m).config.id

namespace Passive

variable {m : ObjId} {w w' w'' : World}

theorem refl (m : ObjId) (w : World) : Passive m w w where
  running := rfl
  connections := rfl
  nextObj := rfl
  now := rfl
  reports := rfl
  nextClient := rfl
  nextTimer := rfl
  clients := rfl
  timers := rfl
  others := fun _ _ => rfl
  self := ⟨_, _, rfl⟩
  reads := fun _ _ h => Or.inl h
  effects := ⟨[], by simp, by simp⟩

theorem client (h : Passive m w w') : (w'.objs m).client = (w.objs m).client := by
  obtain ⟨l, b, h⟩ := h.self
  rw [h]

theorem state (h : Passive m w w') : (w'.objs m).state = (w.objs m).state := by
  obtain ⟨l, b, h⟩ := h.self
  rw [h]

theorem handle (h : Passive m w w') (k : TimerKind) :
    (w'.objs m).handle k = (w.objs m).handle k := by
  obtain ⟨l, b, h⟩ := h.self
  rw [h]
  cases k <;> rfl

theorem connecting (h : Passive m w w') : (w'.objs m).connecting = (w.objs m).connecting := by
  obtain ⟨l, b, h⟩ := h.self
  rw [h]

theorem mappings (h : Passive m w w') : (w'.objs m).mappings = (w.objs m).mappings := by
  obtain ⟨l, b, h⟩ := h.self
  rw [h]

theorem config (h : Passive m w w') : (w'.objs m).config = (w.objs m).config := by
  obtain ⟨l, b, h⟩ := h.self
  rw [h]

theorem errorMessage (h : Passive m w w') : (w'.objs m).errorMessage = (w.objs m).errorMessage := by
  obtain ⟨l, b, h⟩ := h.self
  rw [h]

theorem trans (h : Passive m w w') (h' : Passive m w' w'') : Passive m w w'' where
  running := by rw [h'.running, h.running]
  connections := by rw [h'.connections, h.connections]
  nextObj := by rw [h'.nextObj, h.nextObj]
  now := by rw [h'.now, h.now]
  reports := by rw [h'.reports, h.reports]
  nextClient := by rw [h'.nextClient, h.nextClient]
  nextTimer := by rw [h'.nextTimer, h.nextTimer]
  clients := by rw [h'.clients, h.clients]
  timers := by rw [h'.timers, h.timers]
  others := fun i hi => by rw [h'.others i hi, h.others i hi]
  self := by
    obtain ⟨l, b, e⟩ := h.self
    obtain ⟨l', b', e'⟩ := h'.self
    exact ⟨l', b', by rw [e', e]⟩
  reads := fun r x hx => by
    rcases h'.reads r x hx with hx | ⟨ho, hc⟩
    · exact h.reads r x hx
    · exact Or.inr ⟨ho, by rw [hc, h.client]⟩
  effects := by
    have hnext := h'.effects
    rw [h.config] at hnext
    exact appended_trans h.effects hnext

/-- A fold of passive steps is passive. -/
theorem foldl {α : Type*} {f : World → α → World} (hf : ∀ w a, Passive m w (f w a)) (l : List α)
    (w : World) : Passive m w (l.foldl f w) :=
  Machine.run_related (refl m w) trans fun w a _ _ => hf w a

/-- Passive code acts for its object, whose client is its own. -/
theorem acts (h : Passive m w w')
    (hc : ∀ c, (w.objs m).client = some c → c < w.nextClient ∧ (w.clients c).owner = m) :
    Acts m w w' where
  running := h.running
  connections := h.connections
  nextObj := h.nextObj
  now := h.now
  objs := h.others
  configId := by rw [h.config]
  nextClient := h.nextClient.ge
  nextTimer := h.nextTimer.ge
  clients := fun c _ _ => by rw [h.clients]
  owner := fun c _ => by rw [h.clients]
  newClients := fun c h1 h2 => by rw [h.nextClient] at h2; omega
  timers := fun t x _ => by rw [h.timers]
  reads := fun r x hx => by
    rcases h.reads r x hx with hx | ⟨ho, hxc⟩
    · exact Or.inl hx
    · refine Or.inr ⟨ho, fun c hxc' => ?_⟩
      rw [h.nextClient, h.clients]
      exact hc c (by rw [← hxc, hxc'])
  effects := h.effects

end Passive

theorem passive_callback (w : World) (m : ObjId) (us : List ValueUpdate) :
    Passive m w (w.callback m us) :=
  { Passive.refl m w with
    effects := ⟨[⟨m, (w.objs m).config.id, .updatesEmitted us⟩], rfl, by simp⟩ }

theorem passive_emitValueUpdates (w : World) (m : ObjId) (us : List ValueUpdate) :
    Passive m w (w.emitValueUpdates m us) := by
  unfold emitValueUpdates
  split_ifs
  · exact Passive.refl m w
  · exact passive_callback w m us

theorem passive_cacheValue (w : World) (m : ObjId) (id : String) (v : CurrentValue) :
    Passive m w (w.cacheValue m id v) :=
  { Passive.refl m w with
    effects := ⟨[⟨m, (w.objs m).config.id, .valueWritten id⟩], rfl, by simp⟩ }

theorem passive_cacheQuality (m : ObjId) (q : Quality) (w : World) (mp : Mapping) :
    Passive m w (cacheQuality m q w mp) := by
  unfold cacheQuality
  split
  · exact passive_cacheValue w m _ _
  · split_ifs
    · exact passive_cacheValue w m _ _
    · exact Passive.refl m w

theorem passive_emitQualityUpdate (w : World) (m : ObjId) (q : Quality) :
    Passive m w (w.emitQualityUpdate m q) :=
  (Passive.foldl (passive_cacheQuality m q) _ w).trans (passive_emitValueUpdates _ m _)

theorem passive_deliver (w : World) (m : ObjId) (as : List (Mapping × Answer)) :
    Passive m w (w.deliver m as) :=
  (Passive.foldl (fun w _ => passive_cacheValue w m _ _) as w).trans
    (passive_emitValueUpdates _ m _)

theorem passive_setPollInProgress (w : World) (m : ObjId) (b : Bool) :
    Passive m w (w.setPollInProgress m b) :=
  { Passive.refl m w with
    others := fun _ hi => update_objs_of_ne w _ hi
    self := ⟨_, _, update_objs_self w m _⟩ }

theorem passive_setLastPollAt (w : World) (m : ObjId) : Passive m w (w.setLastPollAt m) :=
  { Passive.refl m w with
    others := fun _ hi => update_objs_of_ne w _ hi
    self := ⟨_, _, update_objs_self w m _⟩ }

theorem passive_issueRead (w : World) (m : ObjId) {c : Option ClientId}
    (hc : c = (w.objs m).client) (k : Cont) : Passive m w (w.issueRead ⟨m, c, k⟩) := by
  refine { Passive.refl m w with reads := fun r x hx => ?_ }
  rcases issueRead_reads hx with rfl | hx
  · exact Or.inr ⟨rfl, hc⟩
  · exact Or.inl hx

end OpcuaLight.Connector
