import OpcuaLight.Api.Connectors
import OpcuaLight.Connector.Held
import OpcuaLight.Db.Reachable
import OpcuaLight.Lib.Rows

/-!
# Connectors and tables

What the tables have for each connector (`stored`), and the connectors that track just that
(`Mirrors`). Each change of a row of `connections` or `mappings`, with the call that goes with it, keeps
the two together, as long as the connector accepts what it is given (`Mirrors.addConnection`, ...).
-/

namespace OpcuaLight.Api

open Connector (Protocol World Held ConnectionConfig Mapping WF acceptsAddress)
open Db
open Db.ConnectorRepository (findConnectionById findMappingById)

/-- The registered connectors: one for each built-in protocol. -/
abbrev Connectors := Protocol → World

/-- A handler's call; what the connector throws is caught. -/
def Connectors.notify (cs : Connectors) (n : Notice) : Connectors :=
  match getConnector n.type with
  | none => cs
  | some p => Function.update cs p (Connector.step p (cs p) n.event)

/-- The targets of the mappings of a connection, by their ids. -/
def targets (t : Tables) (connectionId mappingId : String) : Option (Option String × String) :=
  ((findMappingById t mappingId).filter (fun m => m.connectionId = connectionId)).map Mapping.target

/-- What the tables have for the connector of a protocol under the id of a connection. -/
def stored (t : Tables) (p : Protocol) (id : String) : Option Held :=
  ((findConnectionById t id).filter (fun c => c.type = p.type)).map (fun c => ⟨c, targets t id⟩)

/-- Every connector tracks the connections of its type, as stored, with their mappings. -/
structure Mirrors (cs : Connectors) (t : Tables) : Prop where
  wf : ∀ p, WF p (cs p)
  held : ∀ p id, (cs p).held id = stored t p id

variable {cs : Connectors} {t t' : Tables} {p : Protocol} {id : String}

theorem type_inj {p q : Protocol} (h : p.type = q.type) : p = q := by
  have hq := getConnector_type q
  rw [← h, getConnector_type] at hq
  exact Option.some.inj hq

theorem notify_apply (cs : Connectors) (n : Notice) (p : Protocol) :
    cs.notify n p = if n.type = p.type then Connector.step p (cs p) n.event else cs p := by
  unfold Connectors.notify
  cases hq : getConnector n.type with
  | none =>
      have hne : n.type ≠ p.type := by
        intro htype
        rw [htype, getConnector_type] at hq
        cases hq
      rw [if_neg hne]
  | some q =>
      rw [getConnector_eq_some.mp hq]
      show Function.update cs q (Connector.step q (cs q) n.event) p = _
      by_cases hp : p = q
      · rw [hp, if_pos rfl, Function.update_self]
      · rw [if_neg fun h => hp (type_inj h).symm, Function.update_of_ne hp]

theorem wf_notify (h : ∀ p, WF p (cs p)) (n : Notice) (p : Protocol) : WF p (cs.notify n p) := by
  rw [notify_apply]
  split_ifs
  · exact (h p).step n.event
  · exact h p

/-! ## What the tables have -/

theorem targets_eq_some {k : String} {x : Option String × String} : targets t id k = some x ↔
    ∃ m, findMappingById t k = some m ∧ m.connectionId = id ∧ m.target = x := by
  simp only [targets, Option.map_eq_some_iff, Option.filter_eq_some_iff, decide_eq_true_eq, and_assoc]

theorem stored_eq_some {k : Held} : stored t p id = some k ↔
    ∃ c, findConnectionById t id = some c ∧ c.type = p.type ∧ (⟨c, targets t id⟩ : Held) = k := by
  simp only [stored, Option.map_eq_some_iff, Option.filter_eq_some_iff, decide_eq_true_eq, and_assoc]

theorem stored_eq_none : stored t p id = none ↔
    ∀ c, findConnectionById t id = some c → c.type ≠ p.type := by
  simp [stored, Option.filter_eq_none_iff]

/-- Only the connection of the id and its mappings count. -/
theorem stored_congr (hc : findConnectionById t' id = findConnectionById t id)
    (hm : stored t p id ≠ none → targets t' id = targets t id) : stored t' p id = stored t p id := by
  cases hs : stored t p id with
  | none =>
      rw [stored_eq_none] at hs ⊢
      rw [hc]
      exact hs
  | some k =>
      obtain ⟨c, hfind, htype, rfl⟩ := stored_eq_some.mp hs
      rw [← hm (by rw [hs]; exact Option.some_ne_none _)]
      exact stored_eq_some.mpr ⟨c, hc.trans hfind, htype, rfl⟩

theorem stored_of_rows (hc : t'.connections = t.connections) (hm : t'.mappings = t.mappings) (p : Protocol)
    (id : String) : stored t' p id = stored t p id := by
  refine stored_congr ?_ fun _ => funext fun k => ?_
  · unfold findConnectionById
    rw [hc]
  · unfold targets findMappingById
    rw [hm]

/-! ### Connections -/

theorem stored_insertConnection {c : ConnectionConfig} (hnew : findConnectionById t c.id = none)
    (hfree : ∀ m ∈ t.mappings, m.connectionId ≠ c.id) (p : Protocol) (id : String) :
    stored { t with connections := t.connections ++ [c] } p id =
      if id = c.id then if c.type = p.type then some ⟨c, fun _ => none⟩ else none
      else stored t p id := by
  have hfind : findConnectionById { t with connections := t.connections ++ [c] } id =
      if id = c.id then some c else findConnectionById t id := Rows.find?_append _ hnew
  by_cases hid : id = c.id
  · have hnone : targets t id = fun _ => none := by
      funext k
      rw [targets, Option.map_eq_none_iff, Option.filter_eq_none_iff]
      intro m hm
      simpa [hid] using hfree m (List.mem_of_find?_eq_some hm)
    rw [if_pos hid] at hfind ⊢
    rw [stored, hfind, Option.filter_some, show targets { t with connections := t.connections ++ [c] } id =
      fun _ => none from hnone]
    by_cases htype : c.type = p.type
    · rw [if_pos (decide_eq_true htype), if_pos htype]
      rfl
    · rw [if_neg (by simpa using htype), if_neg htype]
      rfl
  · rw [if_neg hid] at hfind ⊢
    exact stored_congr hfind fun _ => rfl

theorem stored_updateConnection {f : ConnectionConfig → ConnectionConfig}
    (hf : ∀ c, (f c).id = c.id ∧ (f c).type = c.type) (changed : String) (p : Protocol) (id : String) :
    stored { t with connections := t.connections.map (fun r => if r.id = changed then f r else r) } p id =
      if id = changed then (stored t p id).map (fun k => { k with config := f k.config })
      else stored t p id := by
  have hfind : findConnectionById
        { t with connections := t.connections.map (fun r => if r.id = changed then f r else r) } id =
      if id = changed then (findConnectionById t id).map f else findConnectionById t id :=
    Rows.find?_update _ (fun r => (hf r).1) changed
  by_cases hid : id = changed
  · rw [if_pos hid] at hfind ⊢
    refine Option.ext fun k => ?_
    simp only [Option.map_eq_some_iff, stored_eq_some, hfind]
    constructor
    · rintro ⟨_, ⟨c, hc, rfl⟩, htype, rfl⟩
      exact ⟨_, ⟨c, hc, (hf c).2.symm.trans htype, rfl⟩, rfl⟩
    · rintro ⟨_, ⟨c, hc, htype, rfl⟩, rfl⟩
      exact ⟨f c, ⟨c, hc, rfl⟩, (hf c).2.trans htype, rfl⟩
  · rw [if_neg hid] at hfind ⊢
    exact stored_congr hfind fun _ => rfl

theorem stored_deleteConnection (hv : t.Valid) (deleted : String) (p : Protocol) (id : String) :
    stored { t with
      connections := t.connections.filter (fun r => r.id ≠ deleted)
      mappings := t.mappings.filter (fun r => r.connectionId ≠ deleted) } p id =
      if id = deleted then none else stored t p id := by
  have hconnection : ∀ c, findConnectionById { t with
        connections := t.connections.filter (fun r => r.id ≠ deleted)
        mappings := t.mappings.filter (fun r => r.connectionId ≠ deleted) } id = some c ↔
      findConnectionById t id = some c ∧ id ≠ deleted := by
    intro c
    have hfilter := Rows.find?_filter (fun c : ConnectionConfig => c.id) (k := id) hv.connectionIds
      (fun r => r.id ≠ deleted)
    have hid : findConnectionById t id = some c → c.id = id := fun h => by simpa using List.find?_some h
    unfold findConnectionById at hid ⊢
    rw [hfilter, Option.filter_eq_some_iff, decide_eq_true_eq]
    exact and_congr_right fun h => by rw [hid h]
  have hmapping : ∀ k, findMappingById { t with
        connections := t.connections.filter (fun r => r.id ≠ deleted)
        mappings := t.mappings.filter (fun r => r.connectionId ≠ deleted) } k =
      (findMappingById t k).filter (fun m => m.connectionId ≠ deleted) :=
    fun k => Rows.find?_filter (fun m : Mapping => m.id) hv.mappingIds _
  split_ifs with hid
  · refine stored_eq_none.mpr fun c hc => ?_
    exact absurd hid ((hconnection c).mp hc).2
  · refine stored_congr (Option.ext fun c => (hconnection c).trans (and_iff_left hid)) fun _ => ?_
    funext k
    refine Option.ext fun x => ?_
    simp only [targets_eq_some, hmapping, Option.filter_eq_some_iff, decide_eq_true_eq]
    refine exists_congr fun m => ?_
    constructor
    · rintro ⟨⟨hm, -⟩, hmid, hx⟩
      exact ⟨hm, hmid, hx⟩
    · rintro ⟨hm, hmid, hx⟩
      exact ⟨⟨hm, by rw [hmid]; exact hid⟩, hmid, hx⟩

/-! ### Mappings -/

theorem stored_insertMapping {m : Mapping} (hnew : findMappingById t m.id = none) (p : Protocol)
    (id : String) : stored { t with mappings := t.mappings ++ [m] } p id =
      if id = m.connectionId then (stored t p id).map (fun k => k.add m) else stored t p id := by
  have hfind : ∀ k, findMappingById { t with mappings := t.mappings ++ [m] } k =
      if k = m.id then some m else findMappingById t k := fun k => Rows.find?_append _ hnew
  split_ifs with hid
  · have htargets : targets { t with mappings := t.mappings ++ [m] } id =
        Function.update (targets t id) m.id (some m.target) := by
      funext k
      rw [Function.update_apply, targets, hfind]
      split_ifs
      · rw [Option.filter_some, if_pos (decide_eq_true hid.symm)]
        rfl
      · rfl
    unfold stored
    rw [htargets, Option.map_map]
    rfl
  · refine stored_congr rfl fun _ => funext fun k => ?_
    rw [targets, hfind]
    split_ifs with hk
    · rw [hk, targets, hnew, Option.filter_some, if_neg (by simpa using Ne.symm hid)]
      rfl
    · rfl

theorem stored_deleteMapping (hv : t.Valid) (deleted : String) (p : Protocol) (id : String) :
    stored { t with mappings := t.mappings.filter (fun r => r.id ≠ deleted) } p id =
      (stored t p id).map (fun k => k.forget deleted) := by
  have hfind : ∀ k, findMappingById { t with mappings := t.mappings.filter (fun r => r.id ≠ deleted) } k =
      (findMappingById t k).filter (fun m => m.id ≠ deleted) :=
    fun k => Rows.find?_filter (fun m : Mapping => m.id) hv.mappingIds _
  have htargets : targets { t with mappings := t.mappings.filter (fun r => r.id ≠ deleted) } id =
      Function.update (targets t id) deleted none := by
    funext k
    refine Option.ext fun x => ?_
    rw [Function.update_apply, targets_eq_some, hfind]
    have hmid : ∀ m, findMappingById t k = some m → m.id = k := fun m h => by simpa using List.find?_some h
    simp only [Option.filter_eq_some_iff, decide_eq_true_eq]
    split_ifs with hk
    · refine iff_of_false ?_ nofun
      rintro ⟨m, ⟨hm, hne⟩, -⟩
      exact hne ((hmid m hm).trans hk)
    · rw [targets_eq_some]
      refine exists_congr fun m => and_congr_left fun _ => and_iff_left_of_imp fun hm => ?_
      rw [hmid m hm]
      exact hk
  unfold stored
  rw [htargets, Option.map_map]
  rfl

/-- Mappings may go that no connector tracks. -/
theorem stored_filterMappings (hv : t.Valid) {q : Mapping → Bool}
    (hq : ∀ m ∈ t.mappings, q m = false → ∀ p, stored t p m.connectionId = none) (p : Protocol)
    (id : String) : stored { t with mappings := t.mappings.filter q } p id = stored t p id := by
  refine stored_congr rfl fun hs => funext fun k => Option.ext fun x => ?_
  rw [targets_eq_some, targets_eq_some, show findMappingById { t with mappings := t.mappings.filter q } k =
    (findMappingById t k).filter q from Rows.find?_filter (fun m : Mapping => m.id) hv.mappingIds _]
  refine exists_congr fun m => ?_
  rw [Option.filter_eq_some_iff]
  constructor
  · rintro ⟨⟨hm, -⟩, hid, hx⟩
    exact ⟨hm, hid, hx⟩
  · rintro ⟨hm, hid, hx⟩
    refine ⟨⟨hm, ?_⟩, hid, hx⟩
    by_contra hqm
    refine hs ?_
    rw [← hid]
    exact hq m (List.mem_of_find?_eq_some hm) (by simpa using hqm) p

/-- A mapping may change as far as its connector does not see it. -/
theorem stored_updateMapping {f : Mapping → Mapping}
    (hf : ∀ m, (f m).id = m.id ∧ (f m).connectionId = m.connectionId) {changed : String}
    (htarget : ∀ m, findMappingById t changed = some m → (∃ p, stored t p m.connectionId ≠ none) →
      (f m).target = m.target) (p : Protocol) (id : String) :
    stored { t with mappings := t.mappings.map (fun r => if r.id = changed then f r else r) } p id =
      stored t p id := by
  have hfind : ∀ k, findMappingById
        { t with mappings := t.mappings.map (fun r => if r.id = changed then f r else r) } k =
      if k = changed then (findMappingById t k).map f else findMappingById t k :=
    fun k => Rows.find?_update _ (fun r => (hf r).1) changed
  refine stored_congr rfl fun hs => funext fun k => Option.ext fun x => ?_
  rw [targets_eq_some, targets_eq_some, hfind]
  split_ifs with hk
  · have hsame : ∀ m, findMappingById t k = some m → m.connectionId = id → (f m).target = m.target :=
      fun m hm hid => htarget m (hk ▸ hm) ⟨p, by rw [hid]; exact hs⟩
    simp only [Option.map_eq_some_iff]
    constructor
    · rintro ⟨_, ⟨m, hm, rfl⟩, hid, hx⟩
      have hid' := (hf m).2.symm.trans hid
      exact ⟨m, hm, hid', (hsame m hm hid').symm.trans hx⟩
    · rintro ⟨m, hm, hid, hx⟩
      exact ⟨f m, ⟨m, hm, rfl⟩, (hf m).2.trans hid, (hsame m hm hid).trans hx⟩
  · rfl

/-! ## Calls -/

theorem Mirrors.of_stored (h : Mirrors cs t) (hs : ∀ p id, stored t' p id = stored t p id) :
    Mirrors cs t' :=
  ⟨h.wf, fun p id => (h.held p id).trans (hs p id).symm⟩

theorem Mirrors.held_eq_none (h : Mirrors cs t) (hne : ∀ c, findConnectionById t id = some c → c.type ≠ p.type) :
    (cs p).held id = none := (h.held p id).trans (stored_eq_none.mpr hne)

/-- Only the connector of the type that the call is for is asked about it. -/
theorem Mirrors.notify (h : Mirrors cs t) {n : Notice}
    (hcalled : ∀ p, n.type = p.type → ∀ id, (Connector.step p (cs p) n.event).held id = stored t' p id)
    (hother : ∀ p, n.type ≠ p.type → ∀ id, stored t' p id = stored t p id) :
    Mirrors (cs.notify n) t' := by
  refine ⟨wf_notify h.wf n, fun p id => ?_⟩
  rw [notify_apply]
  split_ifs with hp
  · exact hcalled p hp id
  · rw [h.held, hother p hp]

theorem extractParams_ok {config : ConnectionConfig} (h : hasHost config.params = true) :
    ∃ params, Connector.extractParams p config = .ok params := by
  rcases extractParams_cases p config with ⟨-, hok⟩ | ⟨hfalse, -⟩
  · exact hok
  · rw [h] at hfalse
    cases hfalse

theorem Mirrors.addConnection_ok (h : Mirrors cs t) {c : ConnectionConfig}
    (hnew : findConnectionById t c.id = none) (hhost : hasHost c.params = true) :
    (Connector.addConnection p (cs p) c).2 = none ∧ ∀ id, (Connector.addConnection p (cs p) c).1.held id =
      if id = c.id then some ⟨c, fun _ => none⟩ else stored t p id := by
  obtain ⟨params, hparams⟩ := extractParams_ok (p := p) hhost
  have hnone : (cs p).held c.id = none := h.held_eq_none fun c' hc' => by
    rw [hnew] at hc'
    cases hc'
  obtain ⟨hok, hheld⟩ := Connector.held_addConnection (h.wf p) hnone hparams
  exact ⟨hok, fun id => by rw [hheld, h.held]⟩

theorem Mirrors.insertConnection (h : Mirrors cs t) {c : ConnectionConfig}
    (hnew : findConnectionById t c.id = none) (hfree : ∀ m ∈ t.mappings, m.connectionId ≠ c.id)
    (hhost : ∀ p : Protocol, c.type = p.type → hasHost c.params = true) :
    Mirrors (cs.notify ⟨c.type, .addConnection c⟩) { t with connections := t.connections ++ [c] } := by
  refine h.notify (fun p htype id => ?_) fun p htype id => ?_
  · show (Connector.addConnection p (cs p) c).1.held id = _
    rw [(h.addConnection_ok hnew (hhost p htype)).2, stored_insertConnection hnew hfree, if_pos htype]
  · rw [stored_insertConnection hnew hfree, if_neg htype]
    split_ifs with hid
    · rw [hid, eq_comm, stored_eq_none, hnew]
      nofun
    · rfl

theorem Mirrors.updateConnection (h : Mirrors cs t) {c : ConnectionConfig}
    (hc : findConnectionById t id = some c) {f : ConnectionConfig → ConnectionConfig}
    (hf : ∀ c, (f c).id = c.id ∧ (f c).type = c.type)
    (hhost : ∀ p : Protocol, c.type = p.type → hasHost (f c).params = true) :
    Mirrors (cs.notify ⟨(f c).type, .updateConnection (f c)⟩)
      { t with connections := t.connections.map (fun r => if r.id = id then f r else r) } := by
  have hcid : (f c).id = id := (hf c).1.trans (by simpa using List.find?_some hc)
  refine h.notify (fun p htype id' => ?_) fun p htype id' => ?_
  · have htype' := (hf c).2.symm.trans htype
    obtain ⟨params, hparams⟩ := extractParams_ok (p := p) (hhost p htype')
    have hstored : stored t p id = some ⟨c, targets t id⟩ := stored_eq_some.mpr ⟨c, hc, htype', rfl⟩
    have hk : (cs p).held (f c).id = some ⟨c, targets t id⟩ := by rw [hcid, h.held, hstored]
    show (Connector.updateConnection p (cs p) (f c)).1.held id' = _
    rw [Connector.held_updateConnection (h.wf p) hk hparams, stored_updateConnection hf, hcid, h.held]
    split_ifs with hid
    · rw [hid, hstored]
      rfl
    · rfl
  · rw [stored_updateConnection hf]
    split_ifs with hid
    · have hnone : stored t p id' = none := stored_eq_none.mpr fun c' hc' => by
        rw [hid, hc] at hc'
        rw [← Option.some.inj hc', ← (hf c).2]
        exact htype
      rw [hnone]
      rfl
    · rfl

theorem Mirrors.deleteConnection (h : Mirrors cs t) (hv : t.Valid) {c : ConnectionConfig}
    (hc : findConnectionById t id = some c) :
    Mirrors (cs.notify ⟨c.type, .removeConnection id⟩)
      { t with
        connections := t.connections.filter (fun r => r.id ≠ id)
        mappings := t.mappings.filter (fun r => r.connectionId ≠ id) } := by
  refine h.notify (fun p htype id' => ?_) fun p htype id' => ?_
  · show (Connector.removeConnection (cs p) id).1.held id' = _
    rw [Connector.held_removeConnection (h.wf p), stored_deleteConnection hv, h.held]
  · rw [stored_deleteConnection hv]
    split_ifs with hid
    · rw [hid, eq_comm, stored_eq_none, hc]
      exact fun c' hc' => Option.some.inj hc' ▸ htype
    · rfl

theorem Mirrors.addMapping_ok (h : Mirrors cs t) {m : Mapping} {c : ConnectionConfig}
    (hc : findConnectionById t m.connectionId = some c) (htype : c.type = p.type)
    (haddress : acceptsAddress p m.deviceAddress = true) :
    (Connector.addMapping p (cs p) m).2 = none ∧ ∀ id, (Connector.addMapping p (cs p) m).1.held id =
      if id = m.connectionId then (stored t p id).map (fun k => k.add m) else stored t p id := by
  have hstored : stored t p m.connectionId = some ⟨c, targets t m.connectionId⟩ :=
    stored_eq_some.mpr ⟨c, hc, htype, rfl⟩
  obtain ⟨hok, hheld⟩ := Connector.held_addMapping (h.wf p) ((h.held p _).trans hstored) haddress
  refine ⟨hok, fun id => ?_⟩
  rw [hheld, h.held]
  split_ifs with hid
  · rw [hid, hstored]
    rfl
  · rfl

theorem Mirrors.insertMapping (h : Mirrors cs t) {m : Mapping} {c : ConnectionConfig}
    (hc : findConnectionById t m.connectionId = some c) (hnew : findMappingById t m.id = none)
    (haddress : ∀ p : Protocol, c.type = p.type → acceptsAddress p m.deviceAddress = true) :
    Mirrors (cs.notify ⟨c.type, .addMapping m⟩) { t with mappings := t.mappings ++ [m] } := by
  refine h.notify (fun p htype id => ?_) fun p htype id => ?_
  · show (Connector.addMapping p (cs p) m).1.held id = _
    rw [(h.addMapping_ok hc htype (haddress p htype)).2, stored_insertMapping hnew]
  · rw [stored_insertMapping hnew]
    split_ifs with hid
    · have hnone : stored t p id = none := stored_eq_none.mpr fun c' hc' => by
        rw [hid, hc] at hc'
        exact Option.some.inj hc' ▸ htype
      rw [hnone]
      rfl
    · rfl

theorem Mirrors.deleteMapping (h : Mirrors cs t) (hv : t.Valid) {m : Mapping} {c : ConnectionConfig}
    (hm : findMappingById t id = some m) (hc : findConnectionById t m.connectionId = some c) :
    Mirrors (cs.notify ⟨c.type, .removeMapping id⟩)
      { t with mappings := t.mappings.filter (fun r => r.id ≠ id) } := by
  -- of all connections, the one of the mapping has it
  have howner : ∀ (p : Protocol) id' (k : Held), stored t p id' = some k → (k.targets id).isSome = true →
      m.connectionId = id' := by
    intro p id' k hk hsome
    obtain ⟨c', -, -, rfl⟩ := stored_eq_some.mp hk
    obtain ⟨x, hx⟩ := Option.isSome_iff_exists.mp hsome
    obtain ⟨m', hm', hid', -⟩ := targets_eq_some.mp hx
    rw [hm] at hm'
    rw [Option.some.inj hm']
    exact hid'
  refine h.notify (fun p htype id' => ?_) fun p htype id' => ?_
  · show (Connector.removeMapping p (cs p) id).1.held id' = _
    rw [Connector.held_removeMapping (h.wf p), stored_deleteMapping hv, h.held]
    intro c₁ c₂ k₁ k₂ hk₁ hk₂ hs₁ hs₂
    rw [h.held] at hk₁ hk₂
    exact (howner p c₁ k₁ hk₁ hs₁).symm.trans (howner p c₂ k₂ hk₂ hs₂)
  · rw [stored_deleteMapping hv]
    cases hk : stored t p id' with
    | none => rfl
    | some k =>
        obtain ⟨c', hc', htype', rfl⟩ := stored_eq_some.mp hk
        rw [Option.map_some, Held.forget_of_none]
        refine Option.not_isSome_iff_eq_none.mp fun hsome => htype ?_
        rw [← howner p id' _ hk hsome, hc] at hc'
        rw [Option.some.inj hc']
        exact htype'

end OpcuaLight.Api
