import OpcuaLight.Connector.Control

/-!
# Poll lists

The clients of nodes7 and nodepccc read the items registered with them. S7 registers all mapped
addresses when a connect succeeds, with the client it then holds; PCCC registers an address only when
its mapping is added. So the poll list of a connected client is the set of mapped addresses if, for
S7, only the client held reports success, and, for PCCC, clients are created only while no address is
mapped (`pollList_eq`).
-/

namespace OpcuaLight.Connector

open World

variable {p : Protocol} {w w' : World} {m : ObjId}

/-- The `deviceAddress` values of the object's mappings. -/
def Managed.addresses (o : Managed) : List String := o.mappings.values.map Mapping.deviceAddress

theorem mem_addresses {o : Managed} {a : String} :
    a ∈ o.addresses ↔ ∃ id mp, o.mappings.get? id = some mp ∧ mp.deviceAddress = a := by
  rw [Managed.addresses, List.mem_map]
  constructor
  · rintro ⟨mp, hmp, ha⟩
    obtain ⟨id, hid⟩ := JsMap.mem_values_iff.mp hmp
    exact ⟨id, mp, hid, ha⟩
  · rintro ⟨id, mp, hid, ha⟩
    exact ⟨mp, JsMap.mem_values_of_get? hid, ha⟩

/-- A mapping that is added to a connection has an id and an address that are new to it. -/
def NewMapping (w : World) : Event → Prop
  | .addMapping mapping => ∀ m, w.connections.get? mapping.connectionId = some m →
      (w.objs m).mappings.get? mapping.id = none ∧ mapping.deviceAddress ∉ (w.objs m).addresses
  | _ => True

/-- A success is reported by the client that the tracked connection holds, or it holds none. -/
def OwnSuccess (p : Protocol) (w : World) : Event → Prop
  | .connectReport c err =>
      connectFailed p err = false → c < w.nextClient → (w.clients c).handshake = .pending →
        w.Tracked (w.clients c).owner →
        ∀ c', (w.objs (w.clients c).owner).client = some c' → c' = c
  | _ => True

/-- An event that creates a client for a tracked connection finds it without mappings. -/
def CreatesUnmapped (w : World) : Event → Prop
  | .start => w.running = false → ∀ m, w.Tracked m → (w.objs m).config.enabled = true →
      (w.objs m).addresses = []
  | .updateConnection config => ∀ m, w.connections.get? config.id = some m → w.running = true →
      config.enabled = true → (w.objs m).addresses = []
  | .reconnectTick t => ∀ m ms, w.timers t = some ⟨.reconnect, m, ms⟩ → w.running = true →
      w.Tracked m → (w.objs m).connecting = false → (w.objs m).addresses = []
  | _ => True

/-- What keeps the poll lists right: for S7 own successes, for PCCC no client that comes after a
mapping. -/
def KeepsPollList (p : Protocol) (w : World) (e : Event) : Prop :=
  match p with
  | .s7 => OwnSuccess p w e
  | .pccc => CreatesUnmapped w e
  | .modbusTcp | .ethernetIp => True

/-! ## Mappings and poll lists -/

/-- No two mappings of the object have one address. -/
def Managed.Distinct (o : Managed) : Prop :=
  ∀ id id' mp mp', o.mappings.get? id = some mp → o.mappings.get? id' = some mp' →
    mp.deviceAddress = mp'.deviceAddress → id = id'

theorem addresses_set {o : Managed} {mapping : Mapping} (hid : o.mappings.get? mapping.id = none)
    (a : String) :
    a ∈ Managed.addresses { o with mappings := o.mappings.set mapping.id mapping } ↔
      a ∈ o.addresses ∨ a = mapping.deviceAddress := by
  rw [mem_addresses, mem_addresses]
  constructor
  · rintro ⟨id, mp, hmp, rfl⟩
    rw [JsMap.get?_set] at hmp
    split_ifs at hmp
    · obtain rfl := Option.some.inj hmp
      exact Or.inr rfl
    · exact Or.inl ⟨id, mp, hmp, rfl⟩
  · rintro (⟨id, mp, hmp, rfl⟩ | rfl)
    · refine ⟨id, mp, ?_, rfl⟩
      rw [JsMap.get?_set_of_ne, hmp]
      intro he
      rw [he, hid] at hmp
      cases hmp
    · exact ⟨mapping.id, mapping, JsMap.get?_set_self _ _ _, rfl⟩

theorem Managed.Distinct.set {o : Managed} (h : o.Distinct) {mapping : Mapping}
    (haddr : mapping.deviceAddress ∉ o.addresses) :
    Managed.Distinct { o with mappings := o.mappings.set mapping.id mapping } := by
  intro id id' mp mp' hmp hmp' he
  have hne : ∀ i q, o.mappings.get? i = some q → q.deviceAddress ≠ mapping.deviceAddress :=
    fun i q hq hqa => haddr (by rw [← hqa]; exact mem_addresses.mpr ⟨i, q, hq, rfl⟩)
  rw [JsMap.get?_set] at hmp hmp'
  split_ifs at hmp hmp' with h1 h2 h2
  · rw [h1, h2]
  · obtain rfl := Option.some.inj hmp
    exact absurd he.symm (hne _ _ hmp')
  · obtain rfl := Option.some.inj hmp'
    exact absurd he (hne _ _ hmp)
  · exact h _ _ _ _ hmp hmp' he

theorem addresses_delete {o : Managed} (h : o.Distinct) {id : String} {mp : Mapping}
    (hmp : o.mappings.get? id = some mp) (a : String) :
    a ∈ Managed.addresses { o with mappings := o.mappings.delete id } ↔
      a ∈ o.addresses ∧ a ≠ mp.deviceAddress := by
  rw [mem_addresses, mem_addresses]
  constructor
  · rintro ⟨id', mp', hmp', rfl⟩
    rw [JsMap.get?_delete] at hmp'
    split_ifs at hmp' with hne
    exact ⟨⟨id', mp', hmp', rfl⟩, fun he => hne (h _ _ _ _ hmp' hmp he)⟩
  · rintro ⟨⟨id', mp', hmp', rfl⟩, hne⟩
    refine ⟨id', mp', ?_, rfl⟩
    rw [JsMap.get?_delete_of_ne, hmp']
    intro he
    rw [he, hmp] at hmp'
    exact hne (by rw [Option.some.inj hmp'])

theorem Managed.Distinct.delete {o : Managed} (h : o.Distinct) (id : String) :
    Managed.Distinct { o with mappings := o.mappings.delete id } := by
  intro id₁ id₂ mp₁ mp₂ h₁ h₂ he
  rw [JsMap.get?_delete] at h₁ h₂
  split_ifs at h₁ h₂
  exact h _ _ _ _ h₁ h₂ he

theorem mem_items_pushItem (p : Protocol) (w : World) (m : ObjId) (a b : String) (c : ClientId) :
    b ∈ ((pushItem p w m a).clients c).items ↔
      b ∈ (w.clients c).items ∨ pollList p (w.objs m) = some c ∧ b = a := by
  unfold pushItem
  cases h : pollList p (w.objs m) with
  | none => simp
  | some d =>
      by_cases hd : c = d
      · subst hd
        simp [addItems]
      · have hne : d ≠ c := fun he => hd he.symm
        simp [addItems, updateClient_of_ne _ _ hd, hne]

theorem mem_items_dropItem (p : Protocol) (w : World) (m : ObjId) (a b : String) (c : ClientId) :
    b ∈ ((dropItem p w m a).clients c).items ↔
      b ∈ (w.clients c).items ∧ ¬ (pollList p (w.objs m) = some c ∧ b = a) := by
  unfold dropItem
  cases h : pollList p (w.objs m) with
  | none => simp
  | some d =>
      by_cases hd : c = d
      · subst hd
        simp [removeItems]
      · have hne : d ≠ c := fun he => hd he.symm
        simp [removeItems, updateClient_of_ne _ _ hd, hne]

/-- The poll list of `c` is the set of mapped addresses. -/
def Lists (w : World) (m : ObjId) (c : ClientId) : Prop :=
  ∀ a, a ∈ (w.clients c).items ↔ a ∈ (w.objs m).addresses

/-- A new mapping goes on a poll list that has all the others. -/
theorem lists_addMapping {mapping : Mapping} (ha : actor w (.addMapping mapping) = some m)
    (hnew : NewMapping w (.addMapping mapping)) {c : ClientId}
    (hlist : pollList p (w.objs m) = some c) (h : Lists w m c) :
    Lists (step p w (.addMapping mapping)) m c := by
  obtain ⟨hid, -⟩ := hnew m ha
  rcases addMapping_cases p w mapping with ⟨e, he⟩ | ⟨m', hm, -, he⟩ <;> rw [step, he]
  · exact h
  · obtain rfl := Option.some.inj (ha.symm.trans hm)
    have hobj : (w.setMappings m (·.set mapping.id mapping)).objs m =
        { w.objs m with mappings := (w.objs m).mappings.set mapping.id mapping } :=
      update_objs_self _ _ _
    have hlist' : pollList p ((w.setMappings m (·.set mapping.id mapping)).objs m) = some c := by
      rw [hobj, ← hlist]
      cases p <;> rfl
    intro a
    rw [mem_items_pushItem, hlist', pushItem_objs, hobj, addresses_set hid]
    exact or_congr (h a) (and_iff_right rfl)

theorem lists_removeMapping {id : String} (ha : actor w (.removeMapping id) = some m)
    (hd : (w.objs m).Distinct) {c : ClientId} (hlist : pollList p (w.objs m) = some c)
    (h : Lists w m c) : Lists (step p w (.removeMapping id)) m c := by
  rcases removeMapping_cases p w id with ⟨-, e, he⟩ | ⟨m', mp, hm, -, hmp, he⟩ <;> rw [step, he]
  · exact h
  · obtain rfl := Option.some.inj (ha.symm.trans hm)
    have hobj : (w.setMappings m (·.delete id)).objs m =
        { w.objs m with mappings := (w.objs m).mappings.delete id } := update_objs_self _ _ _
    have hlist' : pollList p ((w.setMappings m (·.delete id)).objs m) = some c := by
      rw [hobj, ← hlist]
      cases p <;> rfl
    intro a
    show a ∈ ((dropItem p _ m _).clients c).items ↔ a ∈ ((dropItem p _ m _).objs m).addresses
    rw [mem_items_dropItem, hlist', dropItem_objs, hobj, addresses_delete hd hmp]
    refine and_congr (h a) ?_
    simp

/-! ## The invariant -/

/-- The poll list that new mappings go on is right, and an S7 client that is still connecting has an
empty one. -/
def Listed (p : Protocol) (w : World) (m : ObjId) : Prop :=
  (w.objs m).Distinct ∧ ∀ c, (w.objs m).client = some c →
    (pollList p (w.objs m) = some c → Lists w m c) ∧
    (p = .s7 → (w.clients c).handshake = .pending →
      (w.clients c).items = [] ∧ (w.objs m).state ≠ .connected)

theorem framed_listed (p : Protocol) : Framed p (Listed p) := by
  intro w w' m i h hok hi hP
  rw [Listed, hok.acts.objs i hi]
  refine ⟨hP.1, fun c hc => ?_⟩
  obtain ⟨hlt, hown, -⟩ := (h.obj i).client c hc
  obtain ⟨h1, h2⟩ := hP.2 c hc
  have hsame := hok.acts.clients c hlt (by rw [hown]; exact hi)
  refine ⟨fun hl a => ?_, by rw [hsame]; exact h2⟩
  rw [hsame, hok.acts.objs i hi]
  exact h1 hl a

theorem congruent_listed (p : Protocol) : Congruent (Listed p) := by
  intro w w' i ho hc _ hP
  unfold Listed Lists
  rw [ho, hc]
  exact hP

/-- Whether a new mapping is to be registered depends on the protocol, the client and the state. -/
theorem pollList_congr {o o' : Managed} (hc : o'.client = o.client) (hs : o'.state = o.state) :
    pollList p o' = pollList p o := by
  cases p with
  | s7 => rw [pollList, pollList, hc, hs]
  | pccc => exact hc
  | _ => rfl

/-- For S7 a poll list is kept up to date while the state is `connected`. -/
theorem pollList_s7 {o : Managed} (h : o.state ≠ .connected) : pollList .s7 o = none := if_neg h

theorem listed_turn (hq : (w.objs m).Quiet)
    (hd : (w.objs m).Distinct)
    (hpre : w.running = true → (w.objs m).config.enabled = true → p = .pccc → (w.objs m).addresses = []) :
    Listed p (turn p w m) m := by
  unfold turn
  by_cases hon : (w.running && (w.objs m).config.enabled) = true
  · obtain ⟨ho, hh, hi⟩ := initiateConnection_self p hq.connecting
    rw [if_pos hon, Listed, ho]
    refine ⟨hd, fun c hc => ?_⟩
    obtain rfl := Option.some.inj hc
    refine ⟨fun hl a => ?_, fun _ _ => ⟨hi, hq.state⟩⟩
    rw [hi, ho]
    cases p with
    | s7 =>
        have hnone := hl.symm.trans (pollList_s7 hq.state)
        cases hnone
    | pccc =>
        obtain ⟨hrun, hen⟩ := Bool.and_eq_true_iff.mp hon
        have haddr := hpre hrun hen rfl
        show a ∈ [] ↔ a ∈ (w.objs m).addresses
        rw [haddr]
    | _ => cases hl
  · rw [if_neg hon]
    refine ⟨hd, fun c hc => ?_⟩
    rw [hq.client] at hc
    cases hc

/-- Nothing changes about the poll lists and what decides on them. -/
theorem Listed.same (h : Listed p w m) (hmap : (w'.objs m).mappings = (w.objs m).mappings)
    (hclients : w'.clients = w.clients)
    (hclient : ∀ c, (w'.objs m).client = some c → (w.objs m).client = some c)
    (hstate : (w'.objs m).state = .connected → (w.objs m).state = .connected) :
    Listed p w' m := by
  have haddr : (w'.objs m).addresses = (w.objs m).addresses := by
    rw [Managed.addresses, hmap, Managed.addresses]
  refine ⟨by rw [Managed.Distinct, hmap]; exact h.1, fun c hc => ?_⟩
  obtain ⟨h1, h2⟩ := h.2 c (hclient c hc)
  rw [hclients]
  refine ⟨fun hl a => ?_, fun hp hh => ⟨(h2 hp hh).1, fun hs => (h2 hp hh).2 (hstate hs)⟩⟩
  rw [hclients, haddr]
  refine h1 ?_ a
  cases p with
  | s7 =>
      by_cases hs : (w'.objs m).state = .connected
      · rw [pollList, if_pos (hstate hs)]
        exact hclient c hc
      · rw [pollList_s7 hs] at hl
        cases hl
  | pccc => exact hclient c hc
  | _ => cases hl

/-- A mapping's event keeps the poll list right, or there is none to keep. -/
theorem listed_addMapping {mapping : Mapping} (ha : actor w (.addMapping mapping) = some m)
    (hnew : NewMapping w (.addMapping mapping)) (hP : Listed p w m) :
    Listed p (step p w (.addMapping mapping)) m := by
  have hsame := sameControl_addMapping (p := p) ha
  have hlist := pollList_congr (p := p) hsame.client hsame.state
  refine ⟨?_, fun c hc => ?_⟩
  · rcases addMapping_cases p w mapping with ⟨e, he⟩ | ⟨m', hm, -, he⟩ <;> rw [step, he]
    · exact hP.1
    · obtain rfl := Option.some.inj (ha.symm.trans hm)
      rw [pushItem_objs, setMappings, update_objs_self]
      exact hP.1.set (hnew m ha).2
  · rw [hsame.client] at hc
    obtain ⟨h1, h2⟩ := hP.2 c hc
    rw [hlist, hsame.state, hsame.handshake]
    refine ⟨fun hl => lists_addMapping ha hnew hl (h1 hl), fun hp hh => ?_⟩
    obtain ⟨hi, hs⟩ := h2 hp hh
    refine ⟨?_, hs⟩
    -- an S7 client that is still connecting gets no item
    rcases addMapping_cases p w mapping with ⟨e, he⟩ | ⟨m', hm, -, he⟩ <;> rw [step, he]
    · exact hi
    · obtain rfl := Option.some.inj (ha.symm.trans hm)
      rw [List.eq_nil_iff_forall_not_mem]
      intro a hmem
      rw [mem_items_pushItem] at hmem
      rcases hmem with hmem | ⟨hl, -⟩
      · rw [show (w.setMappings m _).clients c = w.clients c from rfl, hi] at hmem
        cases hmem
      · subst hp
        have hnone := hl.symm.trans (pollList_s7 (by rw [setMappings, update_objs_self]; exact hs))
        cases hnone

theorem listed_removeMapping {id : String} (ha : actor w (.removeMapping id) = some m)
    (hP : Listed p w m) : Listed p (step p w (.removeMapping id)) m := by
  have hsame := sameControl_removeMapping (p := p) ha
  have hlist := pollList_congr (p := p) hsame.client hsame.state
  refine ⟨?_, fun c hc => ?_⟩
  · rcases removeMapping_cases p w id with ⟨-, e, he⟩ | ⟨m', mp, hm, -, -, he⟩ <;> rw [step, he]
    · exact hP.1
    · obtain rfl := Option.some.inj (ha.symm.trans hm)
      show ((dropItem p _ m _).objs m).Distinct
      rw [dropItem_objs, setMappings, update_objs_self]
      exact hP.1.delete id
  · rw [hsame.client] at hc
    obtain ⟨h1, h2⟩ := hP.2 c hc
    rw [hlist, hsame.state, hsame.handshake]
    refine ⟨fun hl => lists_removeMapping ha hP.1 hl (h1 hl), fun hp hh => ?_⟩
    obtain ⟨hi, hs⟩ := h2 hp hh
    refine ⟨?_, hs⟩
    rcases removeMapping_cases p w id with ⟨-, e, he⟩ | ⟨m', mp, hm, -, -, he⟩ <;> rw [step, he]
    · exact hi
    · obtain rfl := Option.some.inj (ha.symm.trans hm)
      rw [List.eq_nil_iff_forall_not_mem]
      intro a hmem
      have hmem := ((mem_items_dropItem p _ m _ a c).mp hmem).1
      rw [show (w.setMappings m _).clients c = w.clients c from rfl, hi] at hmem
      cases hmem

/-- The report of a connect keeps the poll list right if a success is the held client's own. -/
theorem listed_connectReport (h : WF p w) {c : ClientId} {err : Option JsError}
    (ha : actor w (.connectReport c err) = some m) (htr : w.Tracked m)
    (hok : KeepsPollList p w (.connectReport c err)) (hP : Listed p w m) :
    Listed p (step p w (.connectReport c err)) m := by
  obtain ⟨hlt, hpending, hown, -⟩ := actor_connectReport (p := p) ha
  rcases connectReport_cases h ha with
    ⟨hn, -, ho⟩ | ⟨-, -, w₁, e, -, ho, hcl, he⟩ | ⟨hf, c', hc', ⟨l, b, t, ho⟩, hh⟩
  · rw [Listed, ho]
    refine ⟨hP.1, fun d hd => ?_⟩
    rw [show (w.objs m).client = some d from hd] at hn
    cases hn
  · -- after an error the state is not `connected`, and no handshake has become pending
    have hobj := handleConnectionError_self w₁ m e
    have hstate : ((w₁.handleConnectionError m e).objs m).state ≠ .connected := not_connected_of_error
    rw [he, Listed, hobj, ho]
    refine ⟨hP.1, fun d hd => ?_⟩
    obtain ⟨h1, h2⟩ := hP.2 d hd
    obtain ⟨hitems, hhand⟩ := reported_client p w c err d
    rw [handleConnectionError_clients, hcl, hitems, hhand]
    rw [hobj, ho] at hstate
    refine ⟨fun hl a => ?_, fun hp hh => ⟨(h2 hp ?_).1, hstate⟩⟩
    · rw [handleConnectionError_clients, hcl, hitems, hobj, ho]
      cases p with
      | s7 =>
          have hnone := hl.symm.trans (pollList_s7 hstate)
          cases hnone
      | pccc => exact h1 hd a
      | _ => cases hl
    · split_ifs at hh
      exact hh
  · rw [Listed, ho]
    refine ⟨hP.1, fun d hd => ?_⟩
    obtain rfl := Option.some.inj (hc'.symm.trans hd)
    obtain ⟨h1, h2⟩ := hP.2 c' hc'
    obtain ⟨hhand, hitems⟩ := hh c'
    constructor
    · intro hl a
      rw [hitems, ho]
      cases p with
      | s7 =>
          obtain rfl := hok hf hlt hpending (by rw [hown]; exact htr) c' (by rw [hown]; exact hc')
          rw [if_pos ⟨rfl, rfl⟩, (h2 rfl hpending).1]
          exact Iff.rfl
      | pccc => exact h1 hc' a
      | _ => cases hl
    · intro hp hpend
      subst hp
      obtain rfl := hok hf hlt hpending (by rw [hown]; exact htr) c' (by rw [hown]; exact hc')
      rw [hhand, if_pos rfl] at hpend
      cases hpend

/-- An event keeps the poll list of its own object right. -/
theorem listed_own (h : WF p w) {e : Event} (ha : actor w e = some m) (htr : w.Tracked m)
    (hnew : NewMapping w e) (hok : KeepsPollList p w e) (hP : Listed p w m) :
    Listed p (step p w e) m := by
  cases e with
  | addMapping mapping => exact listed_addMapping ha hnew hP
  | removeMapping id => exact listed_removeMapping ha hP
  | connectReport c err => exact listed_connectReport h ha htr hok hP
  | pollTick t =>
      have hs := sameControl_pollTick h ha
      exact hP.same (pollTick_mappings h ha) (pollTick_clients h ha)
        (fun c hc => by rw [← hs.client, hc]) (fun hst => by rw [← hs.state, hst])
  | readReport r result =>
      refine hP.same (readReport_mappings h ha) (readReport_clients h ha) (fun c hc => ?_)
        (fun hst => ?_) <;> rcases readReport_cases h ha with hs | ⟨w₁, e, hs, -, he⟩
      · rw [← hs.client, hc]
      · rw [he, handleConnectionError_self] at hc
        exact hs.client.symm.trans hc
      · rw [← hs.state, hst]
      · rw [he] at hst
        exact absurd hst not_connected_of_error
  | reconnectTick t =>
      rcases reconnectTick_cases h ha with ⟨-, ho⟩ | ⟨-, -, ho⟩ | ⟨hrun, hcon, c, ho, hh, hi⟩
      · rw [ho]
        refine hP.same ?_ (disarm_rest .reconnect w m).2.1 (fun c hc => ?_) (fun hs => ?_)
        · rw [disarm_objs_self, Managed.setHandle_mappings]
        · rw [disarm_objs_self, Managed.setHandle_client] at hc
          exact hc
        · rw [disarm_objs_self, Managed.setHandle_state] at hs
          exact hs
      · rw [Listed, ho]
        exact ⟨hP.1, fun c hc => by cases hc⟩
      · rw [Listed, ho]
        refine ⟨hP.1, fun d hd => ?_⟩
        obtain rfl := Option.some.inj hd
        refine ⟨fun hl a => ?_, fun _ _ => ⟨hi, by simp⟩⟩
        rw [hi, ho]
        cases p with
        | s7 => cases hl
        | pccc =>
            obtain ⟨ms, ht⟩ := actor_tick ha
            have haddr := hok m ms ht hrun htr hcon
            show a ∈ [] ↔ a ∈ (w.objs m).addresses
            rw [haddr]
        | _ => cases hl
  | _ => cases ha

/-- The object itself holds no mapping before its first. -/
theorem distinct_empty : ∀ id id' (mp mp' : Mapping), (∅ : JsMap String Mapping).get? id = some mp →
    (∅ : JsMap String Mapping).get? id' = some mp' → mp.deviceAddress = mp'.deviceAddress → id = id' := by
  intro id id' mp mp' h
  cases h

theorem listed_step (h : WF p w) (hidle : All Idle w) (hall : All (Listed p) w) {e : Event}
    (hnew : NewMapping w e) (hok : KeepsPollList p w e) : All (Listed p) (step p w e) := by
  refine all_step_of (fun o => p = .pccc → o.addresses = [])
    (fun mps => ∀ id id' mp mp', mps.get? id = some mp → mps.get? id' = some mp' →
      mp.deviceAddress = mp'.deviceAddress → id = id')
    (framed_listed p) (congruent_listed p) (fun w m _ _ hq hd hpre => listed_turn hq hd hpre)
    (fun _ _ _ => rfl) distinct_empty (fun _ _ hP => hP.1) h hidle hall e ?_ ?_ ?_
    (fun m ha htr hP => listed_own h ha htr hnew hok hP)
  · intro he hrun m htr hen hp
    subst he
    subst hp
    exact hok hrun m htr hen
  · intro config m params he hm hrun hen hp
    subst he
    subst hp
    rw [World.applyParams, update_objs_self, disconnectAndCleanup_self]
    exact hok m hm hrun hen
  · intro config m msg _ hm _
    have hobj := disconnectAndCleanup_self w m
    rw [Listed, hobj]
    exact ⟨(hall m (JsMap.mem_values_of_get? hm)).1, fun c hc => by cases hc⟩

/-- In every run whose mappings are new and whose steps keep the poll lists, a connected client of a
tracked connection has exactly the mapped addresses on its poll list. -/
theorem pollList_eq (hp : p = .s7 ∨ p = .pccc) (es : List Event)
    (hnew : Machine.Guarded (step p) NewMapping World.initial es)
    (hok : Machine.Guarded (step p) (KeepsPollList p) World.initial es) :
    ∀ m, (reach p es).Tracked m → ((reach p es).objs m).state = .connected →
      ∀ c, ((reach p es).objs m).client = some c → ((reach p es).clients c).handshake = .succeeded →
      ∀ a, a ∈ ((reach p es).clients c).items ↔
        ∃ mp ∈ ((reach p es).objs m).mappings.values, mp.deviceAddress = a := by
  have hinv : WF p (reach p es) ∧ All Idle (reach p es) ∧ All (Listed p) (reach p es) :=
    Machine.run_invariant (I := fun w => WF p w ∧ All Idle w ∧ All (Listed p) w)
      (fun w e hg h => ⟨h.1.step e, h.1.idle_step h.2.1 e, listed_step h.1 h.2.1 h.2.2 hg.1 hg.2⟩)
      (Machine.guarded_and.mpr ⟨hnew, hok⟩) ⟨wf_initial p, all_initial Idle, all_initial _⟩
  intro m htr hst c hc _ a
  have hlist : pollList p ((reach p es).objs m) = some c := by
    rcases hp with rfl | rfl
    · rw [pollList, if_pos hst]
      exact hc
    · exact hc
  rw [((hinv.2.2 m htr).2 c hc).1 hlist a, Managed.addresses, List.mem_map]

/-- A connection with one mapping, loaded before the start as `main` does, whose connect succeeds. -/
def mappedRun (p : Protocol) (address : String) : List Event :=
  [.addConnection (sampleConnection p), .addMapping (sampleMapping "m1" address), .start,
    .connectReport 0 none]

/-- With S7 the mapping is on the poll list. -/
theorem pollList_eq_mappedRun :
    Machine.Guarded (step .s7) NewMapping World.initial (mappedRun .s7 "DB1,INT0") ∧
    Machine.Guarded (step .s7) (KeepsPollList .s7) World.initial (mappedRun .s7 "DB1,INT0") ∧
    ∀ a, a ∈ ((reach .s7 (mappedRun .s7 "DB1,INT0")).clients 0).items ↔
      ∃ mp ∈ ((reach .s7 (mappedRun .s7 "DB1,INT0")).objs 0).mappings.values, mp.deviceAddress = a := by
  have hnew : Machine.Guarded (step .s7) NewMapping World.initial (mappedRun .s7 "DB1,INT0") := by
    refine ⟨trivial, fun m hm => ?_, trivial, trivial, trivial⟩
    have h0 : (step .s7 World.initial (.addConnection (sampleConnection .s7))).connections.get? "c1" =
        some 0 := by decide
    obtain rfl := Option.some.inj (h0.symm.trans hm)
    exact ⟨by decide, by decide⟩
  have hok : Machine.Guarded (step .s7) (KeepsPollList .s7) World.initial
      (mappedRun .s7 "DB1,INT0") := by
    refine ⟨trivial, trivial, trivial, fun _ _ _ _ c' hc' => ?_, trivial⟩
    exact (Option.some.inj ((by decide : some 0 = _).trans hc')).symm
  exact ⟨hnew, hok, pollList_eq (Or.inl rfl) _ hnew hok 0 (by decide) (by decide) 0 (by decide)
    (by decide)⟩

/-- With PCCC it is not. -/
theorem pollList_pccc_empty :
    ¬ ∀ m, (reach .pccc (mappedRun .pccc "N7:0")).Tracked m →
      ((reach .pccc (mappedRun .pccc "N7:0")).objs m).state = .connected →
      ∀ c, ((reach .pccc (mappedRun .pccc "N7:0")).objs m).client = some c →
      ((reach .pccc (mappedRun .pccc "N7:0")).clients c).handshake = .succeeded →
      ∀ a, a ∈ ((reach .pccc (mappedRun .pccc "N7:0")).clients c).items ↔
        ∃ mp ∈ ((reach .pccc (mappedRun .pccc "N7:0")).objs m).mappings.values,
          mp.deviceAddress = a := by
  intro h
  have hiff := h 0 (by decide) (by decide) 0 (by decide) (by decide) "N7:0"
  have hnot : "N7:0" ∉ ((reach .pccc (mappedRun .pccc "N7:0")).clients 0).items := by decide
  exact hnot (hiff.mpr ⟨sampleMapping "m1" "N7:0", by decide, rfl⟩)

end OpcuaLight.Connector
