import OpcuaLight.Api.Connectors
import OpcuaLight.Db.Mappings

/-!
# What a request does

Each connector request is refused, and then the tables stay and no connector is called, or it changes
rows of `connections` or `mappings` and makes the call that goes with the change (`postConnection_cases`,
...). A request for several mappings is a run of creations (`createEach_induction`), and a request to the
address space is a run of operations on it (`handle_ops`).
-/

namespace OpcuaLight.Api

open Connector (Protocol ConnectionConfig Mapping)
open Db
open Db.ConnectorRepository (UpdateConnectionRequest CreateMappingRequest UpdateMappingRequest
  assignConnection assignMapping findConnectionById findMappingById createMapping_ok updateMapping_ok)

variable {t t' : Tables} {id now : String}

theorem conclude_cases {α : Type} (t : Tables) (success : Nat) (domain : DomainError → Nat)
    (notices : Tables → α → List Notice) (r : Except Failure (Tables × α)) :
    (∃ response, conclude t success domain notices r = refuse t response) ∨
    ∃ t' row, r = .ok (t', row) ∧
      conclude t success domain notices r = ⟨t', ⟨success, none⟩, notices t' row⟩ := by
  cases r with
  | ok p => exact Or.inr ⟨p.1, p.2, rfl, rfl⟩
  | error e =>
      cases e with
      | domain e => exact Or.inl ⟨_, rfl⟩
      | thrown e => exact Or.inl ⟨_, rfl⟩

/-! ## Connections -/

theorem hasHost_of_noErrors {type : String} {params : Json} (h : paramsErrors type params = [])
    {p : Protocol} (hp : type = p.type) : hasHost params = true := by
  unfold paramsErrors at h
  rw [hp, getConnector_type] at h
  exact hasHost_of_valid h

theorem postConnection_cases (t : Tables) (id now : String) (body : ConnectionBody) :
    (∃ response, postConnection t id now body = refuse t response) ∨
    ∃ t' row response, t.insertConnection row = .ok t' ∧
      (∀ p : Protocol, row.type = p.type → hasHost row.params = true) ∧
      postConnection t id now body = ⟨t', response, [⟨row.type, .addConnection row⟩]⟩ := by
  unfold postConnection
  simp only
  split
  · rename_i type name params _ _ _ _
    split
    · rename_i hvalid
      rcases conclude_cases t 201 (fun e => if e.code = .duplicateError then 409 else 400)
          (fun _ row => [⟨row.type, .addConnection row⟩]) (ConnectorRepository.createConnection t id now
            ⟨type, name, params, body.pollingIntervalMs, body.reconnectIntervalMs, body.enabled⟩)
        with hrefused | ⟨t', row, hok, he⟩
      · exact Or.inl hrefused
      · obtain ⟨hins, -, htype, hparams⟩ := ConnectorRepository.createConnection_ok hok
        refine Or.inr ⟨t', row, _, hins, fun p hp => ?_, he⟩
        rw [hparams]
        exact hasHost_of_noErrors hvalid (htype.symm.trans hp)
    · exact Or.inl ⟨_, rfl⟩
  · exact Or.inl ⟨_, rfl⟩

/-- Truthy parameters have been validated when they are stored. -/
theorem putConnection_cases (t : Tables) (id : String) (body : UpdateConnectionRequest) :
    (∃ response, putConnection t id body = refuse t response) ∨
    ∃ t' c response, findConnectionById t id = some c ∧
      t.updateConnection id (assignConnection body) = .ok t' ∧ providesField body = true ∧
      (∀ v, body.params = some v → v.truthy = true → ∀ p : Protocol, c.type = p.type → hasHost v = true) ∧
      putConnection t id body =
        ⟨t', response, [⟨(assignConnection body c).type, .updateConnection (assignConnection body c)⟩]⟩ := by
  unfold putConnection
  split_ifs with hfield
  · exact Or.inl ⟨_, rfl⟩
  · split
    · rename_i hvalid
      rcases conclude_cases t 200 (fun e => if e.code = .notFound then 404 else 400)
          (fun _ row => [⟨row.type, .updateConnection row⟩])
          (ConnectorRepository.updateConnection t id body) with hrefused | ⟨t', row, hok, he⟩
      · exact Or.inl hrefused
      · obtain ⟨c, hc, rfl, hupd⟩ := ConnectorRepository.updateConnection_ok hok
        refine Or.inr ⟨t', c, _, hc, hupd, by simpa using hfield, fun v hv htruthy p hp => ?_, he⟩
        unfold updateErrors at hvalid
        rw [hv, Option.filter_some, if_pos htruthy, hc] at hvalid
        exact hasHost_of_noErrors hvalid hp
    · exact Or.inl ⟨_, rfl⟩

theorem deleteConnection_cases (t : Tables) (id : String) :
    (∃ response, deleteConnection t id = refuse t response) ∨
    ∃ t' c response, findConnectionById t id = some c ∧ t.deleteConnection id = .ok t' ∧
      deleteConnection t id = ⟨t', response, [⟨c.type, .removeConnection id⟩]⟩ := by
  unfold deleteConnection
  simp only
  rcases conclude_cases t 204 (fun _ => 404) (fun _ _ => ((findConnectionById t id).map (fun connection =>
      ⟨connection.type, .removeConnection id⟩)).toList)
      ((ConnectorRepository.deleteConnection t id).map (fun t => (t, ()))) with hrefused | ⟨t', _, hok, he⟩
  · exact Or.inl hrefused
  · cases hd : ConnectorRepository.deleteConnection t id with
    | error e =>
        rw [hd] at hok
        cases hok
    | ok t₁ =>
        rw [hd] at hok he
        obtain ⟨c, hc⟩ : ∃ c, findConnectionById t id = some c := by
          unfold ConnectorRepository.deleteConnection at hd
          split_ifs at hd with hsome
          exact Option.isSome_iff_exists.mp hsome
        have ht : t₁ = t' := congrArg Prod.fst (Except.ok.inj hok)
        rw [hc] at he ⊢
        exact Or.inr ⟨t', c, _, rfl, ht ▸ ConnectorRepository.deleteConnection_ok hd, he⟩

/-! ## Mappings -/

/-- What a creation did: a new row for a connection that is there. -/
structure Created (t : Tables) (request : CreateMappingRequest) (t' : Tables) (row : Mapping)
    (c : ConnectionConfig) : Prop where
  inserted : t.insertMapping row = .ok t'
  connection : findConnectionById t row.connectionId = some c
  connectionId : row.connectionId = request.connectionId
  deviceAddress : row.deviceAddress = request.deviceAddress

theorem created {request : CreateMappingRequest} {row : Mapping}
    (h : ConnectorRepository.createMapping t id now request = .ok (t', row)) :
    ∃ c, Created t request t' row c ∧
      mappingNotices t' row (.addMapping row) = [⟨c.type, .addMapping row⟩] := by
  obtain ⟨hins, -, hrow⟩ := createMapping_ok h
  obtain ⟨c, hc⟩ : ∃ c, findConnectionById t request.connectionId = some c := by
    unfold ConnectorRepository.createMapping at h
    split at h
    · cases h
    · rename_i hnone
      exact Option.isSome_iff_exists.mp (by simpa [Option.isSome_iff_ne_none] using hnone)
  have hid : row.connectionId = request.connectionId := by rw [hrow]
  refine ⟨c, ⟨hins, by rw [hid]; exact hc, hid, by rw [hrow]⟩, ?_⟩
  have hsame : findConnectionById t' row.connectionId = findConnectionById t row.connectionId := by
    rw [checked_ok hins]
    rfl
  unfold mappingNotices
  rw [hsame, hid, hc]
  rfl

theorem postMapping_cases (t : Tables) (id now : String) (body : MappingBody) :
    (∃ response, postMapping t id now body = refuse t response) ∨
    ∃ request t' row c response, mappingRequest body = .ok request ∧ Created t request t' row c ∧
      postMapping t id now body = ⟨t', response, [⟨c.type, .addMapping row⟩]⟩ := by
  unfold postMapping
  split
  · rename_i request hrequest
    rcases conclude_cases t 201 namespaceStatus (fun t row => mappingNotices t row (.addMapping row))
        (ConnectorRepository.createMapping t id now request) with hrefused | ⟨t', row, hok, he⟩
    · exact Or.inl hrefused
    · obtain ⟨c, hc, hnotices⟩ := created hok
      rw [hnotices] at he
      exact Or.inr ⟨request, t', row, c, _, hrequest, hc, he⟩
  · exact Or.inl ⟨_, rfl⟩

theorem putMapping_cases (t : Tables) (id : String) (body : UpdateMappingRequest) :
    (∃ response, putMapping t id body = refuse t response) ∨
    ∃ t' m response, findMappingById t id = some m ∧ t.updateMapping id (assignMapping body) = .ok t' ∧
      putMapping t id body = ⟨t', response, []⟩ := by
  unfold putMapping
  split_ifs
  · exact Or.inl ⟨_, rfl⟩
  · rcases conclude_cases t 200 namespaceStatus (fun _ _ => [])
        (ConnectorRepository.updateMapping t id body) with hrefused | ⟨t', row, hok, he⟩
    · exact Or.inl hrefused
    · obtain ⟨m, hm, -, hupd⟩ := updateMapping_ok hok
      exact Or.inr ⟨t', m, _, hm, hupd, he⟩

theorem deleteMapping_cases (hv : t.Valid) (id : String) :
    (∃ response, deleteMapping t id = refuse t response) ∨
    ∃ t' m c response, findMappingById t id = some m ∧ findConnectionById t m.connectionId = some c ∧
      t.deleteMapping id = .ok t' ∧ deleteMapping t id = ⟨t', response, [⟨c.type, .removeMapping id⟩]⟩ := by
  unfold deleteMapping
  simp only
  rcases conclude_cases t 204 (fun _ => 404) (fun _ _ => (findMappingById t id).toList.flatMap (fun mapping =>
      mappingNotices t mapping (.removeMapping id)))
      ((ConnectorRepository.deleteMapping t id).map (fun t => (t, ()))) with hrefused | ⟨t', _, hok, he⟩
  · exact Or.inl hrefused
  · cases hd : ConnectorRepository.deleteMapping t id with
    | error e =>
        rw [hd] at hok
        cases hok
    | ok t₁ =>
        rw [hd] at hok he
        obtain ⟨m, hm⟩ : ∃ m, findMappingById t id = some m := by
          unfold ConnectorRepository.deleteMapping at hd
          split_ifs at hd with hsome
          exact Option.isSome_iff_exists.mp hsome
        obtain ⟨c, hc⟩ : ∃ c, findConnectionById t m.connectionId = some c := by
          have hkey := (hv.mappingKeys m (List.mem_of_find?_eq_some hm)).1
          exact Option.isSome_iff_exists.mp (List.find?_isSome.mpr (List.any_eq_true.mp hkey))
        have ht : t₁ = t' := congrArg Prod.fst (Except.ok.inj hok)
        have hnotices : mappingNotices t m (.removeMapping id) = [⟨c.type, .removeMapping id⟩] := by
          rw [mappingNotices, hc]
          rfl
        rw [hm, Option.toList_some, List.flatMap_singleton, hnotices] at he ⊢
        exact Or.inr ⟨t', m, c, _, rfl, hc, ht ▸ ConnectorRepository.deleteMapping_ok hd, he⟩

/-! ## Several mappings at once -/

/-- What holds at the start of the loop, with the calls made until then, and is kept by every creation
of one of its rows holds at its end. -/
theorem createEach_induction {ρ : Type} {I : Tables → List Notice → Prop} {ids : Nat → String}
    {rows : List (Attempt ρ)} (hstep : ∀ t notices request t' row c, I t notices →
      request ∈ rows.filterMap Attempt.request → Created t request t' row c →
      I t' (notices ++ [⟨c.type, .addMapping row⟩])) (i : Nat) (notices : List Notice)
    (hstart : I t notices) :
    I (createEach now ids t i rows).tables (notices ++ (createEach now ids t i rows).notices) := by
  induction rows generalizing t i notices with
  | nil =>
      show I t (notices ++ [])
      rw [List.append_nil]
      exact hstart
  | cons attempt rows ih =>
      cases attempt with
      | refused result => exact ih hstep (i + 1) notices hstart
      | create request result =>
          have hrest : ∀ t notices request t' row c, I t notices →
              request ∈ rows.filterMap Attempt.request → Created t request t' row c →
              I t' (notices ++ [⟨c.type, .addMapping row⟩]) := fun t notices request t' row c hI hmem =>
            hstep t notices request t' row c hI (List.mem_cons_of_mem _ hmem)
          unfold createEach
          cases hr : ConnectorRepository.createMapping t (ids i) now request with
          | ok p =>
              obtain ⟨t', row⟩ := p
              obtain ⟨c, hcreated, hnotices⟩ := created hr
              have hI := hstep t notices request t' row c hstart List.mem_cons_self hcreated
              show I _ (notices ++ (mappingNotices t' row (.addMapping row) ++ _))
              rw [hnotices, ← List.append_assoc]
              exact ih hrest (i + 1) _ hI
          | error e =>
              cases e with
              | domain e => exact ih hrest (i + 1) notices hstart
              | thrown e =>
                  show I t (notices ++ [])
                  rw [List.append_nil]
                  exact hstart

/-! ## The address space -/

theorem respond_tables (t : Tables) (success : Nat) (domain : DomainError → Nat)
    (thrown : SqlError → String) (r : Except Failure Tables) :
    (respond t success domain thrown r).1 = after t r := by
  cases r with
  | ok t' => rfl
  | error e => cases e <;> rfl

/-- The requests that delete nodes. -/
def Request.deletesNodes : Request → Bool
  | .deleteNode _ | .deleteNamespace _ => true
  | _ => false

/-- The operations are on the address space, and delete nodes only if `r` does. -/
structure Request.Ops (t : Tables) (r : Request) (t' : Tables) (ops : List Operation) : Prop where
  onAddressSpace : ∀ op ∈ ops, op.onAddressSpace = true
  deletesNodes : ∀ op ∈ ops, op.deletesNodes = true → r.deletesNodes = true
  run : t' = Machine.run apply t ops

theorem Request.ops_nil (t : Tables) (r : Request) : r.Ops t t [] :=
  ⟨fun _ hop => absurd hop List.not_mem_nil, fun _ hop => absurd hop List.not_mem_nil, rfl⟩

theorem Request.ops_single {r : Request} {op : Operation} (hop : op.onAddressSpace = true)
    (hd : op.deletesNodes = true → r.deletesNodes = true) (he : t' = apply t op) : r.Ops t t' [op] :=
  ⟨fun _ h => List.mem_singleton.mp h ▸ hop, fun _ h => List.mem_singleton.mp h ▸ hd, he⟩

theorem importRows_ops (t : Tables) (rows : List (String × NodeRepository.CreateNodeRequest))
    {r : Request} : ∃ ops, r.Ops t (importRows t rows).1 ops := by
  induction rows generalizing t with
  | nil => exact ⟨[], r.ops_nil t⟩
  | cons row rows ih =>
      unfold importRows
      cases hr : NodeRepository.create t row.1 row.2 with
      | ok t' =>
          obtain ⟨ops, hops⟩ := ih t'
          have hcreate : apply t (.createNode row.1 row.2) = t' := congrArg (after t) hr
          refine ⟨.createNode row.1 row.2 :: ops, List.forall_mem_cons.mpr ⟨rfl, hops.onAddressSpace⟩,
            List.forall_mem_cons.mpr ⟨nofun, hops.deletesNodes⟩, ?_⟩
          rw [Machine.run_cons, hcreate]
          exact hops.run
      | error e =>
          cases e with
          | thrown e => exact ⟨[], r.ops_nil t⟩
          | domain e =>
              obtain ⟨ops, hops⟩ := ih t
              refine ⟨ops, hops.onAddressSpace, hops.deletesNodes, ?_⟩
              rw [← hops.run]
              simp only
              split
              · rename_i h
                rw [h]
              · rfl

theorem handle_ops (t : Tables) (r : Request) : ∃ ops, r.Ops t (handle t r).1 ops := by
  cases r with
  | postNamespace id body =>
      show ∃ ops, Request.Ops t _ (postNamespace t id body).1 ops
      unfold postNamespace
      simp only
      split
      · exact ⟨[.createNamespace _ _], Request.ops_single rfl nofun (respond_tables _ _ _ _ _)⟩
      · exact ⟨[], Request.ops_nil t _⟩
  | putNamespace id body =>
      show ∃ ops, Request.Ops t _ (putNamespace t id body).1 ops
      unfold putNamespace
      simp only
      split
      · exact ⟨[], Request.ops_nil t _⟩
      · split
        · exact ⟨[.updateNamespace _ _], Request.ops_single rfl nofun (respond_tables _ _ _ _ _)⟩
        · exact ⟨[], Request.ops_nil t _⟩
  | deleteNamespace id =>
      exact ⟨[.deleteNamespace id], Request.ops_single rfl (fun _ => rfl) (respond_tables _ _ _ _ _)⟩
  | postObjectNode id body =>
      show ∃ ops, Request.Ops t _ (postObjectNode t id body).1 ops
      unfold postObjectNode
      simp only
      split
      · exact ⟨[.createObjectNode _ _], Request.ops_single rfl nofun (respond_tables _ _ _ _ _)⟩
      · exact ⟨[], Request.ops_nil t _⟩
  | deleteObjectNode id =>
      refine ⟨[.deleteObjectNode id], Request.ops_single rfl nofun ?_⟩
      show (deleteObjectNode t id).1 = (ObjectNodeRepository.delete t id).1
      unfold deleteObjectNode
      split
      all_goals
        rename_i h
        rw [h]
  | postNode id body =>
      exact ⟨[.createNode id body], Request.ops_single rfl nofun (respond_tables _ _ _ _ _)⟩
  | putNode id body =>
      exact ⟨[.updateNode id body], Request.ops_single rfl nofun (respond_tables _ _ _ _ _)⟩
  | deleteNode id =>
      exact ⟨[.deleteNode id], Request.ops_single rfl (fun _ => rfl) (respond_tables _ _ _ _ _)⟩
  | importNodes rows refused =>
      obtain ⟨ops, hops⟩ := importRows_ops t rows (r := .importNodes rows refused)
      refine ⟨ops, hops.onAddressSpace, hops.deletesNodes, ?_⟩
      rw [← hops.run]
      show (importNodes t rows refused).1 = _
      unfold importNodes
      split
      all_goals
        rename_i h
        rw [h]

/-! ## The constraints are met -/

theorem valid_handle (hv : t.Valid) (r : Request) : (handle t r).1.Valid := by
  obtain ⟨ops, hops⟩ := handle_ops t r
  rw [hops.run]
  exact Machine.run_invariant' (I := Tables.Valid) (fun _ op h => valid_apply h op) ops hv

theorem valid_handleConnector (hv : t.Valid) (r : ConnectorRequest) :
    (handleConnector t r).tables.Valid := by
  have hloop : ∀ {ρ : Type} {now : String} {ids : Nat → String} {rows : List (Attempt ρ)},
      (createEach now ids t 0 rows).tables.Valid := fun {_ _ _ _} =>
    createEach_induction (I := fun t _ => t.Valid)
      (fun _ _ _ _ _ _ _ _ hcreated => valid_checked hcreated.inserted) 0 [] hv
  cases r with
  | postConnection id now body =>
      rcases postConnection_cases t id now body with ⟨_, he⟩ | ⟨_, _, _, hins, -, he⟩
      all_goals
        show (postConnection t id now body).tables.Valid
        rw [he]
      · exact hv
      · exact valid_checked hins
  | putConnection id body =>
      rcases putConnection_cases t id body with ⟨_, he⟩ | ⟨_, _, _, -, hupd, -, -, he⟩
      all_goals
        show (putConnection t id body).tables.Valid
        rw [he]
      · exact hv
      · exact valid_checked hupd
  | deleteConnection id =>
      rcases deleteConnection_cases t id with ⟨_, he⟩ | ⟨_, _, _, -, hdel, he⟩
      all_goals
        show (deleteConnection t id).tables.Valid
        rw [he]
      · exact hv
      · exact valid_checked hdel
  | postMapping id now body =>
      rcases postMapping_cases t id now body with ⟨_, he⟩ | ⟨_, _, _, _, _, -, hcreated, he⟩
      all_goals
        show (postMapping t id now body).tables.Valid
        rw [he]
      · exact hv
      · exact valid_checked hcreated.inserted
  | putMapping id body =>
      rcases putMapping_cases t id body with ⟨_, he⟩ | ⟨_, _, _, -, hupd, he⟩
      all_goals
        show (putMapping t id body).tables.Valid
        rw [he]
      · exact hv
      · exact valid_checked hupd
  | deleteMapping id =>
      rcases deleteMapping_cases hv id with ⟨_, he⟩ | ⟨_, _, _, _, -, -, hdel, he⟩
      all_goals
        show (deleteMapping t id).tables.Valid
        rw [he]
      · exact hv
      · exact valid_checked hdel
  | postMappingsBulk ids now items =>
      show (postMappingsBulk t ids now items).tables.Valid
      unfold postMappingsBulk
      split
      · exact hv
      · rw [(conclude_tables _ _).1]
        exact hloop
  | importMappings ids now csv =>
      show (importMappings t ids now csv).tables.Valid
      unfold importMappings
      split_ifs
      · exact hv
      · split
        · exact hv
        · rw [(conclude_tables _ _).1]
          exact hloop

end OpcuaLight.Api
