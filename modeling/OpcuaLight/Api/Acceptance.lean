import OpcuaLight.Api.Loading

/-!
# What the API accepts can be loaded

After any run of requests to the API, the loop of `main` ends and every mapping of a registered type is
tracked (`reach_loads`), as long as a connection is not given falsy parameters by an update, which are
not validated, and a mapping not an address that the connector of its connection refuses: the handlers
catch what the connector throws, and the row stays.
-/

namespace OpcuaLight.Api

open Connector (Protocol World Held ConnectionConfig Mapping WF acceptsAddress)
open Db
open Db.ConnectorRepository (findConnectionById findMappingById CreateMappingRequest
  UpdateConnectionRequest assignConnection assignMapping)

variable {t t' : Tables} {id now : String}

/-- What changes the tables: a request, or a restart, which reopens the database. -/
inductive Mutation where
  | addressSpace (request : Request)
  | connectors (request : ConnectorRequest)
  | restart

def mutate (t : Tables) : Mutation → Tables
  | .addressSpace request => (handle t request).1
  | .connectors request => (handleConnector t request).tables
  | .restart => apply t .reopen

/-! ## The condition -/

/-- The connector of the connection, if there is one, accepts the address. -/
def acceptable (t : Tables) (connectionId address : String) : Bool :=
  (findConnectionById t connectionId).all (fun c =>
    (getConnector c.type).all (fun p => acceptsAddress p address))

/-- The mappings that a request asks the repository to create. -/
def ConnectorRequest.creations (t : Tables) : ConnectorRequest → List CreateMappingRequest
  | .postMapping _ _ body =>
      match mappingRequest body with
      | .ok request => [request]
      | .error _ => []
  | .postMappingsBulk _ _ items => (bulkAttempts items).filterMap Attempt.request
  | .importMappings _ _ csv =>
      match csvAttempts t csv with
      | .ok attempts => attempts.filterMap Attempt.request
      | .error _ => []
  | _ => []

/-- An update of a connection of a registered type has no falsy parameters. -/
def keepsParams (t : Tables) (id : String) (body : UpdateConnectionRequest) : Bool :=
  !providesField body || (findConnectionById t id).all (fun c =>
    (getConnector c.type).isNone || body.params.all Json.truthy)

/-- What the request would store is acceptable to the connectors. -/
def ConnectorRequest.acceptable (t : Tables) : ConnectorRequest → Bool
  | .putConnection id body => keepsParams t id body
  | .putMapping id body => (findMappingById t id).all (fun m =>
      body.deviceAddress.all (Api.acceptable t m.connectionId))
  | r => (r.creations t).all (fun request =>
      Api.acceptable t request.connectionId request.deviceAddress)

def Mutation.acceptable (t : Tables) : Mutation → Bool
  | .connectors request => request.acceptable t
  | _ => true

theorem acceptable_iff {connectionId address : String} : acceptable t connectionId address = true ↔
    ∀ c, findConnectionById t connectionId = some c →
      ∀ p : Protocol, c.type = p.type → acceptsAddress p address = true := by
  unfold acceptable
  simp only [Option.all_eq_true, getConnector_eq_some]

theorem keepsParams_iff {body : UpdateConnectionRequest} : keepsParams t id body = true ↔
    (providesField body = true → ∀ c, findConnectionById t id = some c →
      ∀ p : Protocol, c.type = p.type → ∀ v, body.params = some v → v.truthy = true) := by
  unfold keepsParams
  rw [Bool.or_eq_true, Bool.not_eq_true', ← Bool.not_eq_true, ← imp_iff_not_or, Option.all_eq_true]
  refine imp_congr_right fun _ => forall₂_congr fun c _ => ?_
  rw [Bool.or_eq_true, Option.isNone_iff_eq_none, Option.all_eq_true]
  constructor
  · intro h p hp
    rcases h with hnone | htruthy
    · rw [hp, getConnector_type] at hnone
      cases hnone
    · exact htruthy
  · intro h
    cases hq : getConnector c.type with
    | none => exact Or.inl rfl
    | some q => exact Or.inr (h q (getConnector_eq_some.mp hq))

/-! ## Rows that come and go -/

/-- Fewer rows are as loadable. -/
theorem Loadable.of_subset (h : Loadable t) (hc : t'.connections ⊆ t.connections)
    (hm : t'.mappings ⊆ t.mappings) : Loadable t' :=
  ⟨fun c hcm => h.hosts c (hc hcm), fun m hmm c hcm => h.addresses m (hm hmm) c (hc hcm)⟩

theorem Loadable.insertConnection (h : Loadable t) {c : ConnectionConfig}
    (hfree : ∀ m ∈ t.mappings, m.connectionId ≠ c.id)
    (hhost : ∀ p : Protocol, c.type = p.type → hasHost c.params = true) :
    Loadable { t with connections := t.connections ++ [c] } := by
  refine ⟨fun c' hc' => ?_, fun m hm c' hc' hid => ?_⟩
  · rcases List.mem_append.mp hc' with hc' | hc'
    · exact h.hosts c' hc'
    · rw [List.mem_singleton.mp hc']
      exact hhost
  · rcases List.mem_append.mp hc' with hc' | hc'
    · exact h.addresses m hm c' hc' hid
    · rw [List.mem_singleton.mp hc'] at hid
      exact absurd hid.symm (hfree m hm)

theorem Loadable.updateConnection (h : Loadable t) {f : ConnectionConfig → ConnectionConfig}
    (hf : ∀ c, (f c).id = c.id ∧ (f c).type = c.type)
    (hhost : ∀ c ∈ t.connections, c.id = id → ∀ p : Protocol, c.type = p.type →
      hasHost (f c).params = true) :
    Loadable { t with connections := t.connections.map (fun r => if r.id = id then f r else r) } := by
  have hrow : ∀ c' ∈ t.connections.map (fun r => if r.id = id then f r else r), ∃ c ∈ t.connections,
      c'.id = c.id ∧ c'.type = c.type ∧
        (c.id = id ∧ c'.params = (f c).params ∨ c'.params = c.params) := by
    intro c' hc'
    obtain ⟨c, hc, rfl⟩ := List.mem_map.mp hc'
    refine ⟨c, hc, ?_⟩
    split_ifs with hid
    · exact ⟨(hf c).1, (hf c).2, Or.inl ⟨hid, rfl⟩⟩
    · exact ⟨rfl, rfl, Or.inr rfl⟩
  refine ⟨fun c' hc' p hp => ?_, fun m hm c' hc' hid p hp => ?_⟩
  · obtain ⟨c, hc, -, htype, ⟨hid, hparams⟩ | hparams⟩ := hrow c' hc'
    · rw [hparams]
      exact hhost c hc hid p (htype.symm.trans hp)
    · rw [hparams]
      exact h.hosts c hc p (htype.symm.trans hp)
  · obtain ⟨c, hc, hcid, htype, -⟩ := hrow c' hc'
    exact h.addresses m hm c hc (hcid.symm.trans hid) p (htype.symm.trans hp)

theorem Loadable.insertMapping (h : Loadable t) (hv : t.Valid) {m : Mapping}
    (haddress : acceptable t m.connectionId m.deviceAddress = true) :
    Loadable { t with mappings := t.mappings ++ [m] } := by
  refine ⟨h.hosts, fun m' hm' c hc hid => ?_⟩
  rcases List.mem_append.mp hm' with hm' | hm'
  · exact h.addresses m' hm' c hc hid
  · rw [List.mem_singleton.mp hm'] at hid ⊢
    exact acceptable_iff.mp haddress c ((findConnectionById_eq_some hv).mpr ⟨hc, hid⟩)

theorem Loadable.updateMapping (h : Loadable t) (hv : t.Valid) {f : Mapping → Mapping}
    (hf : ∀ m, (f m).connectionId = m.connectionId)
    (haddress : ∀ m ∈ t.mappings, m.id = id → (f m).deviceAddress = m.deviceAddress ∨
      acceptable t m.connectionId (f m).deviceAddress = true) :
    Loadable { t with mappings := t.mappings.map (fun r => if r.id = id then f r else r) } := by
  refine ⟨h.hosts, fun m' hm' c hc hid => ?_⟩
  obtain ⟨m, hm, rfl⟩ := List.mem_map.mp hm'
  by_cases hmid : m.id = id
  · simp only [if_pos hmid] at hid ⊢
    rw [hf] at hid
    rcases haddress m hm hmid with hsame | hok
    · rw [hsame]
      exact h.addresses m hm c hc hid
    · exact acceptable_iff.mp hok c ((findConnectionById_eq_some hv).mpr ⟨hc, hid⟩)
  · simp only [if_neg hmid] at hid ⊢
    exact h.addresses m hm c hc hid

/-! ## Requests -/

/-- A new connection has no mappings yet. -/
theorem free_of_inserted (hv : t.Valid) {c : ConnectionConfig} (h : t.insertConnection c = .ok t') :
    findConnectionById t c.id = none ∧ ∀ m ∈ t.mappings, m.connectionId ≠ c.id := by
  have hn := (valid_checked h).connectionIds
  rw [checked_ok h, List.map_append, List.nodup_append] at hn
  have hnew : ∀ c' ∈ t.connections, c'.id ≠ c.id := fun c' hc' =>
    hn.2.2 c'.id (List.mem_map_of_mem hc') c.id (List.mem_map_of_mem List.mem_cons_self)
  refine ⟨(Rows.find?_eq_none (fun c : ConnectionConfig => c.id)).mpr hnew, fun m hm hid => ?_⟩
  obtain ⟨c', hc', hcid⟩ := List.any_eq_true.mp (hv.mappingKeys m hm).1
  exact hnew c' hc' ((decide_eq_true_eq.mp hcid).trans hid)

theorem loadable_postConnection (hv : t.Valid) (h : Loadable t) (id now : String) (body : ConnectionBody) :
    (postConnection t id now body).tables.Valid ∧ Loadable (postConnection t id now body).tables := by
  rcases postConnection_cases t id now body with ⟨response, he⟩ | ⟨t', row, response, hins, hhost, he⟩
  · rw [he]
    exact ⟨hv, h⟩
  · rw [he]
    refine ⟨valid_checked hins, ?_⟩
    rw [checked_ok hins]
    exact h.insertConnection (free_of_inserted hv hins).2 hhost

theorem loadable_putConnection (hv : t.Valid) (h : Loadable t) {body : UpdateConnectionRequest}
    (hok : keepsParams t id body = true) :
    (putConnection t id body).tables.Valid ∧ Loadable (putConnection t id body).tables := by
  rcases putConnection_cases t id body with ⟨response, he⟩ | ⟨t', c, response, hc, hupd, hfield, hvalid, he⟩
  · rw [he]
    exact ⟨hv, h⟩
  · rw [he]
    refine ⟨valid_checked hupd, ?_⟩
    rw [checked_ok hupd]
    refine h.updateConnection (fun _ => ⟨rfl, rfl⟩) fun c' hc' hid p hp => ?_
    have hfound := (findConnectionById_eq_some hv).mpr ⟨hc', hid⟩
    obtain rfl := Option.some.inj (hc.symm.trans hfound)
    show hasHost (body.params.getD c.params) = true
    cases hparams : body.params with
    | none => exact h.hosts c hc' p hp
    | some v => exact hvalid v hparams (keepsParams_iff.mp hok hfield c hc p hp v hparams) p hp

theorem loadable_deleteConnection (hv : t.Valid) (h : Loadable t) (id : String) :
    (deleteConnection t id).tables.Valid ∧ Loadable (deleteConnection t id).tables := by
  rcases deleteConnection_cases t id with ⟨response, he⟩ | ⟨t', c, response, -, hdel, he⟩
  · rw [he]
    exact ⟨hv, h⟩
  · rw [he]
    refine ⟨valid_checked hdel, ?_⟩
    rw [checked_ok hdel]
    exact h.of_subset (List.filter_subset_self _) (List.filter_subset_self _)

/-- A creation of a mapping that the connectors accept. -/
theorem loadable_created (hv : t.Valid) (h : Loadable t) {request : CreateMappingRequest} {row : Mapping}
    {c : ConnectionConfig} (hcreated : Created t request t' row c)
    (hok : acceptable t request.connectionId request.deviceAddress = true) : t'.Valid ∧ Loadable t' := by
  refine ⟨valid_checked hcreated.inserted, ?_⟩
  rw [checked_ok hcreated.inserted]
  refine h.insertMapping hv ?_
  rw [hcreated.connectionId, hcreated.deviceAddress]
  exact hok

theorem loadable_postMapping (hv : t.Valid) (h : Loadable t) {body : MappingBody}
    (hok : (ConnectorRequest.postMapping id now body).acceptable t = true) :
    (postMapping t id now body).tables.Valid ∧ Loadable (postMapping t id now body).tables := by
  rcases postMapping_cases t id now body with ⟨response, he⟩ | ⟨request, t', row, c, response, hreq, hcreated, he⟩
  · rw [he]
    exact ⟨hv, h⟩
  · rw [he]
    refine loadable_created hv h hcreated ?_
    have hall := List.all_eq_true.mp hok request
    rw [ConnectorRequest.creations, hreq] at hall
    exact hall List.mem_cons_self

theorem loadable_putMapping (hv : t.Valid) (h : Loadable t)
    {body : ConnectorRepository.UpdateMappingRequest}
    (hok : (ConnectorRequest.putMapping id body).acceptable t = true) :
    (putMapping t id body).tables.Valid ∧ Loadable (putMapping t id body).tables := by
  rcases putMapping_cases t id body with ⟨response, he⟩ | ⟨t', m, response, hm, hupd, he⟩
  · rw [he]
    exact ⟨hv, h⟩
  · rw [he]
    refine ⟨valid_checked hupd, ?_⟩
    rw [checked_ok hupd]
    refine h.updateMapping hv (fun _ => rfl) fun m' hm' hid => ?_
    have hfound := (Rows.find?_eq_some (fun m : Mapping => m.id) hv.mappingIds).mpr ⟨hm', hid⟩
    obtain rfl := Option.some.inj (hm.symm.trans hfound)
    have hall : body.deviceAddress.all (acceptable t m.connectionId) = true := by
      rw [ConnectorRequest.acceptable, hm] at hok
      exact hok
    show body.deviceAddress.getD m.deviceAddress = _ ∨
      acceptable t m.connectionId (body.deviceAddress.getD m.deviceAddress) = true
    cases haddress : body.deviceAddress with
    | none => exact Or.inl rfl
    | some address =>
        rw [haddress] at hall
        exact Or.inr hall

theorem loadable_deleteMapping (hv : t.Valid) (h : Loadable t) (id : String) :
    (deleteMapping t id).tables.Valid ∧ Loadable (deleteMapping t id).tables := by
  rcases deleteMapping_cases hv id with ⟨response, he⟩ | ⟨t', m, c, response, -, -, hdel, he⟩
  · rw [he]
    exact ⟨hv, h⟩
  · rw [he]
    refine ⟨valid_checked hdel, ?_⟩
    rw [checked_ok hdel]
    exact h.of_subset (List.Subset.refl _) (List.filter_subset_self _)

/-- Several creations; none of them changes the connections. -/
theorem loadable_createEach {ρ : Type} (hv : t.Valid) (h : Loadable t) {ids : Nat → String}
    {rows : List (Attempt ρ)} (hok : (rows.filterMap Attempt.request).all (fun request =>
      acceptable t request.connectionId request.deviceAddress) = true) :
    (createEach now ids t 0 rows).tables.Valid ∧ Loadable (createEach now ids t 0 rows).tables := by
  refine (createEach_induction (I := fun t' _ => t'.connections = t.connections ∧ t'.Valid ∧ Loadable t')
    (fun t₁ _ request t₂ row c hI hmem hcreated => ?_) 0 [] ⟨rfl, hv, h⟩).2
  obtain ⟨hsame, hv₁, h₁⟩ := hI
  refine ⟨by rw [checked_ok hcreated.inserted]; exact hsame, loadable_created hv₁ h₁ hcreated ?_⟩
  unfold acceptable findConnectionById
  rw [hsame]
  exact List.all_eq_true.mp hok request hmem

theorem loadable_handleConnector (hv : t.Valid) (h : Loadable t) {r : ConnectorRequest}
    (hok : r.acceptable t = true) :
    (handleConnector t r).tables.Valid ∧ Loadable (handleConnector t r).tables := by
  cases r with
  | postConnection id now body => exact loadable_postConnection hv h id now body
  | putConnection id body => exact loadable_putConnection hv h hok
  | deleteConnection id => exact loadable_deleteConnection hv h id
  | postMapping id now body => exact loadable_postMapping hv h hok
  | putMapping id body => exact loadable_putMapping hv h hok
  | deleteMapping id => exact loadable_deleteMapping hv h id
  | postMappingsBulk ids now items =>
      show (postMappingsBulk t ids now items).tables.Valid ∧ Loadable (postMappingsBulk t ids now items).tables
      unfold postMappingsBulk
      split
      · exact ⟨hv, h⟩
      · rw [(conclude_tables _ _).1]
        exact loadable_createEach hv h hok
  | importMappings ids now csv =>
      show (importMappings t ids now csv).tables.Valid ∧ Loadable (importMappings t ids now csv).tables
      unfold importMappings
      split_ifs
      · exact ⟨hv, h⟩
      · split
        · exact ⟨hv, h⟩
        · rename_i attempts hattempts
          rw [(conclude_tables _ _).1]
          refine loadable_createEach hv h ?_
          have hall : ((ConnectorRequest.importMappings ids now csv).creations t).all (fun request =>
            acceptable t request.connectionId request.deviceAddress) = true := hok
          rw [ConnectorRequest.creations, hattempts] at hall
          exact hall

theorem loadable_apply (hv : t.Valid) (h : Loadable t) {op : Operation} (hop : op.onAddressSpace = true) :
    Loadable (apply t op) := by
  obtain ⟨hc, hm | hm⟩ := apply_mappings hv hop
  · exact h.of_subset (by rw [hc]; exact List.Subset.refl _) (by rw [hm]; exact List.Subset.refl _)
  · exact h.of_subset (by rw [hc]; exact List.Subset.refl _) (by rw [hm]; exact List.filter_subset_self _)

theorem loadable_mutate (hv : t.Valid) (h : Loadable t) {m : Mutation} (hok : m.acceptable t = true) :
    (mutate t m).Valid ∧ Loadable (mutate t m) := by
  cases m with
  | addressSpace r =>
      obtain ⟨ops, hops⟩ := handle_ops t r
      show (handle t r).1.Valid ∧ Loadable (handle t r).1
      have hguard : Machine.Guarded apply (fun _ op => op.onAddressSpace = true) t ops :=
        Machine.guarded_of_forall t hops.onAddressSpace
      rw [hops.run]
      exact Machine.run_invariant (I := fun t => t.Valid ∧ Loadable t)
        (fun t op hop h => ⟨valid_apply h.1 op, loadable_apply h.1 h.2 hop⟩) hguard ⟨hv, h⟩
  | connectors r => exact loadable_handleConnector hv h hok
  | restart => exact ⟨valid_reopen hv, h.of_subset (List.Subset.refl _) (List.Subset.refl _)⟩

/-- After every run of requests, of which each stores what the connectors accept, the loop of `main` ends
without an exception and every stored mapping of a registered type is tracked by its connector. -/
theorem reach_loads (ms : List Mutation)
    (hok : Machine.Guarded mutate (fun t m => m.acceptable t = true) (Tables.empty false) ms) :
    ∃ cs, load (Machine.run mutate (Tables.empty false) ms) = .ok cs ∧
      ∀ m ∈ (Machine.run mutate (Tables.empty false) ms).mappings,
      ∀ c ∈ (Machine.run mutate (Tables.empty false) ms).connections, c.id = m.connectionId →
      ∀ p : Protocol, c.type = p.type →
        ∃ k, (cs p).held c.id = some k ∧ k.config = c ∧ k.targets m.id = some m.target := by
  obtain ⟨hv, h⟩ := Machine.run_invariant (I := fun t => t.Valid ∧ Loadable t)
    (fun t m hok h => loadable_mutate h.1 h.2 hok) hok ⟨valid_empty false, nofun, nofun⟩
  obtain ⟨cs, hload, hmirrors⟩ := load_of_loadable hv h
  refine ⟨cs, hload, fun m hm c hc hid p hp => ?_⟩
  have hfound := (findConnectionById_eq_some hv).mpr ⟨hc, rfl⟩
  refine ⟨_, (hmirrors.held p c.id).trans (stored_eq_some.mpr ⟨c, hfound, hp, rfl⟩), rfl, ?_⟩
  exact targets_eq_some.mpr ⟨m, (Rows.find?_eq_some (fun m : Mapping => m.id) hv.mappingIds).mpr ⟨hm, rfl⟩,
    hid.symm, rfl⟩

/-- A Modbus connection with the parameters that its schema asks for. -/
def modbusBody : ConnectionBody where
  type := some "modbus-tcp"
  name := some "PLC"
  params := some (.obj [("host", .str "192.168.1.10"), ("port", .num 502), ("unitId", .num 1)])
  pollingIntervalMs := none
  reconnectIntervalMs := none
  enabled := none

/-- An update with a new name and `null` for the parameters. -/
def nulledParams : List Mutation :=
  [.connectors (.postConnection "c1" "2024-01-01" modbusBody),
   .connectors (.putConnection "c1" ⟨some "PLC 1", some .null, none, none, none⟩)]

theorem nulledParams_not_loaded : load (Machine.run mutate (Tables.empty false) nulledParams) =
    .error "Cannot read properties of null (reading 'host')" := by
  rfl

/-- A new name alone, and a mapping for the connection. -/
def renamed : List Mutation :=
  [.restart,
   .connectors (.postConnection "c1" "2024-01-01" modbusBody),
   .connectors (.putConnection "c1" ⟨some "PLC 1", none, none, none, none⟩),
   .connectors (.postMapping "m1" "2024-01-01" ⟨some "c1", none, some "HR:100", none⟩)]

example : (Machine.run mutate (Tables.empty false) renamed).mappings.length = 1 := by decide

theorem reach_loads_renamed : ∃ cs, load (Machine.run mutate (Tables.empty false) renamed) = .ok cs ∧
    ∀ m ∈ (Machine.run mutate (Tables.empty false) renamed).mappings,
    ∀ c ∈ (Machine.run mutate (Tables.empty false) renamed).connections, c.id = m.connectionId →
    ∀ p : Protocol, c.type = p.type →
      ∃ k, (cs p).held c.id = some k ∧ k.config = c ∧ k.targets m.id = some m.target :=
  reach_loads renamed (by decide +kernel)

end OpcuaLight.Api
