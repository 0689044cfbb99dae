import OpcuaLight.Db.Links
import OpcuaLight.Db.Mappings
import OpcuaLight.Lib.Rows

/-!
# One mapping for each node

After migration 5 the database no longer keeps two mappings from one node; the checks of the repository do
(`oneMapping_run`). They pass over an empty node id, which the foreign key refuses as long as no node has it.
-/

namespace OpcuaLight.Db

open Connector (ConnectionConfig Mapping)

/-- A request to the repositories, alone or in bulk. -/
inductive Request where
  | one (op : Operation)
  | createMappingsBulk (now : String) (requests : List (String × ConnectorRepository.CreateMappingRequest))

def Request.apply (t : Tables) : Request → Tables
  | .one op => Db.apply t op
  | .createMappingsBulk now requests => (ConnectorRepository.createMappingsBulk t now requests).1

/-- The operation gives a node the empty id; the ids of the repository are UUIDs. -/
def Operation.unnamed : Operation → Bool
  | .createNode id _ => id = ""
  | _ => false

def Request.unnamed : Request → Bool
  | .one op => op.unnamed
  | .createMappingsBulk _ _ => false

/-- At most one mapping for each node id, and for each address of a connection. -/
structure OneMapping (t : Tables) : Prop where
  nodes : (t.mappings.filterMap (fun m => m.nodeId)).Nodup
  addresses : (t.mappings.map (fun m => (m.connectionId, m.deviceAddress))).Nodup

/-- The state of a run: the constraints are met, no node has the empty id, no node is mapped twice. -/
structure Uniquely (t : Tables) : Prop where
  valid : t.Valid
  named : t.hasNode "" = false
  nodes : (t.mappings.filterMap (fun m => m.nodeId)).Nodup

variable {t t' : Tables}

/-! ## The checks -/

theorem findMappingByNodeId_none {nodeId : String} :
    ConnectorRepository.findMappingByNodeId t nodeId = none ↔ ∀ m ∈ t.mappings, m.nodeId ≠ some nodeId := by
  rw [ConnectorRepository.findMappingByNodeId, List.find?_eq_none]
  simp only [decide_eq_true_eq]

/-- A node that may be mapped has an empty id, or no mapping. -/
theorem checkNode_none {nodeId : Option String} (h : ConnectorRepository.checkNode t nodeId = none) :
    nodeId = none ∨ nodeId = some "" ∨ ∀ m ∈ t.mappings, m.nodeId ≠ nodeId := by
  unfold ConnectorRepository.checkNode at h
  cases nodeId with
  | none => exact Or.inl rfl
  | some nodeId =>
      apply Or.inr
      simp only at h
      split_ifs at h with hempty hnode hmapped
      · exact Or.inl (congrArg some hempty)
      · apply Or.inr
        apply findMappingByNodeId_none.mp
        rwa [Option.not_isSome_iff_eq_none] at hmapped

/-- A node that a mapping may be moved to is its own, has an empty id, or no mapping. -/
theorem checkNewNode_none (hids : (t.mappings.map (fun m => m.id)).Nodup) {existing : Mapping}
    (hex : existing ∈ t.mappings) {nodeId : String}
    (h : ConnectorRepository.checkNewNode t existing (some (some nodeId)) = none) :
    nodeId = "" ∨ existing.nodeId = some nodeId ∨ ∀ m ∈ t.mappings, m.nodeId ≠ some nodeId := by
  unfold ConnectorRepository.checkNewNode at h
  simp only at h
  split_ifs at h with hsame hnode hmapped
  · exact hsame.imp_right Or.inl
  · apply Or.inr
    by_cases hown : existing.nodeId = some nodeId
    · exact Or.inl hown
    · apply Or.inr
      apply findMappingByNodeId_none.mp
      cases hfind : ConnectorRepository.findMappingByNodeId t nodeId with
      | none => rfl
      | some m =>
          -- the mapping found has another id, which the check refuses
          rw [hfind] at hmapped
          have hid : m.id = existing.id := by simpa using hmapped
          have hm : m ∈ t.mappings := List.mem_of_find?_eq_some hfind
          have hnodeId : m.nodeId = some nodeId := by simpa using List.find?_some hfind
          rw [List.inj_on_of_nodup_map hids hm hex hid] at hnodeId
          exact absurd hnodeId hown

theorem updateMapping_checked {id : String} {request : ConnectorRepository.UpdateMappingRequest} {row : Mapping}
    (h : ConnectorRepository.updateMapping t id request = .ok (t', row)) :
    ∃ existing ∈ t.mappings, existing.id = id ∧
      ConnectorRepository.checkNewNode t existing request.nodeId = none ∧
      t.updateMapping id (ConnectorRepository.assignMapping request) = .ok t' := by
  obtain ⟨existing, hfind, -, hupd⟩ := ConnectorRepository.updateMapping_ok h
  refine ⟨existing, List.mem_of_find?_eq_some hfind, by simpa using List.find?_some hfind, ?_, hupd⟩
  unfold ConnectorRepository.updateMapping at h
  rw [hfind] at h
  simp only at h
  split at h
  · cases h
  · cases h
  · assumption

/-! ## The statements -/

/-- A mapping with an empty node id breaks the foreign key. -/
theorem Uniquely.nodeId_ne (h : Uniquely t) {rows : List Mapping}
    (hrows : Tables.Valid { t with mappings := rows }) {m : Mapping} (hm : m ∈ rows) : m.nodeId ≠ some "" := by
  intro hempty
  have hkey := (hrows.mappingKeys m hm).2
  rw [hempty] at hkey
  exact absurd (h.named.symm.trans hkey) (by decide)

theorem nodes_insertMapping (h : Uniquely t) {row : Mapping}
    (hnode : ConnectorRepository.checkNode t row.nodeId = none) (hins : t.insertMapping row = .ok t') :
    (t'.mappings.filterMap (fun m => m.nodeId)).Nodup := by
  obtain ⟨hv, rfl⟩ := Tables.checked_eq_ok.mp hins
  apply Rows.column_append h.nodes
  intro m hm
  rcases checkNode_none hnode with hnone | hempty | hfree
  · exact Or.inl hnone
  · exact absurd hempty (h.nodeId_ne hv (List.mem_append_right _ (List.mem_singleton_self row)))
  · exact Or.inr (hfree m hm)

theorem nodes_updateMapping (h : Uniquely t) {id : String}
    {request : ConnectorRepository.UpdateMappingRequest} {existing : Mapping} (hex : existing ∈ t.mappings)
    (hid : existing.id = id) (hnode : ConnectorRepository.checkNewNode t existing request.nodeId = none)
    (hupd : t.updateMapping id (ConnectorRepository.assignMapping request) = .ok t') :
    (t'.mappings.filterMap (fun m => m.nodeId)).Nodup := by
  obtain ⟨hv, rfl⟩ := Tables.checked_eq_ok.mp hupd
  apply Rows.column_update (fun m : Mapping => m.id) h.valid.mappingIds h.nodes
  intro m hm hmid
  have hm' : m = existing := List.inj_on_of_nodup_map h.valid.mappingIds hm hex (hmid.trans hid.symm)
  subst hm'
  have hnew : (ConnectorRepository.assignMapping request m).nodeId = request.nodeId.getD m.nodeId := rfl
  rw [hnew]
  match hreq : request.nodeId with
  | none => exact Or.inr (Or.inl rfl)
  | some none => exact Or.inl rfl
  | some (some nodeId) =>
      rw [hreq] at hnode hnew
      rcases checkNewNode_none h.valid.mappingIds hm hnode with rfl | hown | hfree
      · have hrow : ConnectorRepository.assignMapping request m ∈
            t.mappings.map (fun m => if m.id = id then ConnectorRepository.assignMapping request m else m) :=
          List.mem_map.mpr ⟨m, hm, if_pos hmid⟩
        exact absurd hnew (h.nodeId_ne hv hrow)
      · exact Or.inr (Or.inl hown.symm)
      · exact Or.inr (Or.inr hfree)

/-! ## One operation -/

theorem nodes_apply (h : Uniquely t) (op : Operation) :
    ((apply t op).mappings.filterMap (fun m => m.nodeId)).Nodup := by
  by_cases hop : op.onAddressSpace = true
  · rcases (apply_mappings h.valid hop).2 with hsame | hfilter
    · rw [hsame]
      exact h.nodes
    · rw [hfilter]
      exact h.nodes.sublist (List.filter_sublist.filterMap _)
  rcases apply_cases t op with hsame | hdid
  · rw [hsame]
    exact h.nodes
  cases op with
  | createMapping id now request => exact nodes_insertMapping h hdid.1 hdid.2
  | updateMapping id request =>
      show ((after t ((ConnectorRepository.updateMapping t id request).map Prod.fst)).mappings.filterMap _).Nodup
      rcases after_cases t ((ConnectorRepository.updateMapping t id request).map Prod.fst) with hsame | hok
      · rw [hsame]
        exact h.nodes
      · obtain ⟨row, hrow⟩ := ConnectorRepository.map_fst_ok hok
        obtain ⟨existing, hex, hid, hnode, hupd⟩ := updateMapping_checked hrow
        exact nodes_updateMapping h hex hid hnode hupd
  | deleteMapping id | deleteConnection id =>
      rw [checked_ok hdid]
      exact h.nodes.sublist (List.filter_sublist.filterMap _)
  | createConnection id now request =>
      obtain ⟨_, -, -, -, hdid⟩ := hdid
      rw [checked_ok hdid]
      exact h.nodes
  | updateConnection id request =>
      rw [checked_ok hdid]
      exact h.nodes
  | reopen => exact h.nodes
  | _ => exact absurd rfl hop

/-- No operation but the creation of a node makes one. -/
theorem nodes_created (hv : t.Valid) (op : Operation) {r : NodeRow} (hr : r ∈ (apply t op).nodes) :
    (∃ s ∈ t.nodes, s.id = r.id) ∨ ∃ request, op = .createNode r.id request := by
  by_cases hop : op.onLinks = false
  · rw [apply_nodes t hop] at hr
    exact Or.inl ⟨r, hr, rfl⟩
  · rcases apply_cases t op with hsame | hdid
    · rw [hsame] at hr
      exact Or.inl ⟨r, hr, rfl⟩
    · cases op with
      | createNode id request =>
          obtain ⟨name, namespaceId, dataType, -, -, hins⟩ := hdid
          rw [checked_ok hins] at hr
          rcases List.mem_append.mp hr with hr | hr
          · exact Or.inl ⟨r, hr, rfl⟩
          · rw [List.mem_singleton.mp hr]
            exact Or.inr ⟨request, rfl⟩
      | updateNode id request =>
          rw [checked_ok hdid] at hr
          obtain ⟨s, hs, rfl⟩ := List.mem_map.mp hr
          refine Or.inl ⟨s, hs, ?_⟩
          split_ifs <;> rfl
      | deleteNode id =>
          rw [checked_ok hdid] at hr
          exact Or.inl ⟨r, List.mem_of_mem_filter hr, rfl⟩
      | deleteNamespace id =>
          rw [cascaded_of_ok hv hdid] at hr
          obtain ⟨s, hs, rfl⟩ := List.mem_map.mp hr
          exact Or.inl ⟨s, List.mem_of_mem_filter hs, rfl⟩
      | createObjectNode id input =>
          rw [checked_ok hdid.2] at hr
          exact Or.inl ⟨r, hr, rfl⟩
      | deleteObjectNode id =>
          have hreassign : ∀ {t₁ t₂ : Tables} {new : Option String}, t₁.reassignNodes id new = .ok t₂ →
              ∀ r ∈ t₂.nodes, ∃ s ∈ t₁.nodes, s.id = r.id := by
            intro t₁ t₂ new h r hr
            rw [checked_ok h] at hr
            obtain ⟨s, hs, rfl⟩ := List.mem_map.mp hr
            exact ⟨s, hs, by split_ifs <;> rfl⟩
          obtain ⟨x, t₁, -, h₁, he | ⟨t₂, h₂, he | h₃⟩⟩ := hdid
          · rw [he] at hr
            exact Or.inl (hreassign h₁ r hr)
          · rw [he, checked_ok h₂] at hr
            exact Or.inl (hreassign h₁ r hr)
          · rw [checked_ok h₃] at hr
            obtain ⟨s, hs, rfl⟩ := List.mem_map.mp hr
            rw [checked_ok h₂] at hs
            obtain ⟨q, hq, hid⟩ := hreassign h₁ s hs
            refine Or.inl ⟨q, hq, hid.trans ?_⟩
            split_ifs <;> rfl
      | _ => exact absurd rfl hop

theorem Uniquely.apply (h : Uniquely t) {op : Operation} (hop : op.unnamed = false) :
    Uniquely (Db.apply t op) where
  valid := valid_apply h.valid op
  named := by
    by_contra hnode
    obtain ⟨r, hr, hid⟩ := List.any_eq_true.mp (Bool.not_eq_false _ ▸ hnode)
    have hid : r.id = "" := of_decide_eq_true hid
    rcases nodes_created h.valid op hr with ⟨s, hs, hsid⟩ | ⟨request, rfl⟩
    · have hold : t.hasNode "" = true := List.any_eq_true.mpr ⟨s, hs, decide_eq_true (hsid.trans hid)⟩
      exact absurd (h.named.symm.trans hold) (by decide)
    · exact absurd hop (by simp [Operation.unnamed, hid])
  nodes := nodes_apply h op

/-! ## Runs -/

/-- A bulk creation is a run of creations. -/
theorem bulk_run (now : String) (requests : List (String × ConnectorRepository.CreateMappingRequest))
    (t : Tables) : ∃ ops : List Operation, (∀ op ∈ ops, op.unnamed = false) ∧
      (ConnectorRepository.createMappingsBulk t now requests).1 = Machine.run apply t ops := by
  induction requests generalizing t with
  | nil => exact ⟨[], fun _ hop => absurd hop List.not_mem_nil, rfl⟩
  | cons request requests ih =>
      obtain ⟨id, request⟩ := request
      have hcreate : ∀ t', (ConnectorRepository.createMapping t id now request).map Prod.fst = .ok t' →
          apply t (.createMapping id now request) = t' := by
        intro t' h
        rw [apply, h]
        rfl
      unfold ConnectorRepository.createMappingsBulk
      cases hrow : ConnectorRepository.createMapping t id now request with
      | ok result =>
          obtain ⟨t', row⟩ := result
          obtain ⟨ops, hops, hrun⟩ := ih t'
          refine ⟨.createMapping id now request :: ops, ?_, ?_⟩
          · intro op hop
            rcases List.mem_cons.mp hop with rfl | hop
            · rfl
            · exact hops op hop
          · rw [Machine.run_cons, hcreate t' (by rw [hrow]; rfl), ← hrun]
            simp only
            split <;> rename_i heq
            · rw [heq]
            · rfl
      | error e =>
          cases e with
          | domain e =>
              obtain ⟨ops, hops, hrun⟩ := ih t
              refine ⟨ops, hops, ?_⟩
              rw [← hrun]
              simp only
              split <;> rename_i heq
              · rw [heq]
              · rfl
          | thrown e => exact ⟨[], fun _ hop => absurd hop List.not_mem_nil, rfl⟩

theorem Uniquely.run {ops : List Operation} (h : Uniquely t) (hops : ∀ op ∈ ops, op.unnamed = false) :
    Uniquely (Machine.run Db.apply t ops) :=
  Machine.run_invariant (I := Uniquely) (fun _ _ hop h => Uniquely.apply h hop)
    (Machine.guarded_of_forall t hops) h

theorem Uniquely.request {request : Request} (h : Uniquely t) (hrequest : request.unnamed = false) :
    Uniquely (request.apply t) := by
  cases request with
  | one op => exact h.apply hrequest
  | createMappingsBulk now requests =>
      obtain ⟨ops, hops, hrun⟩ := bulk_run now requests t
      rw [Request.apply, hrun]
      exact h.run hops

/-- **One mapping for each node.** From a state that meets the constraints, in which no node has the empty id or
two mappings, every run of requests reaches a state with at most one mapping for each node and for
each address of a connection. -/
theorem oneMapping_run (t : Tables) (requests : List Request) (hvalid : t.Valid)
    (hnamed : t.hasNode "" = false) (hnodes : (t.mappings.filterMap (fun m => m.nodeId)).Nodup)
    (hrequests : ∀ request ∈ requests, request.unnamed = false) :
    OneMapping (Machine.run Request.apply t requests) := by
  have h : Uniquely (Machine.run Request.apply t requests) :=
    Machine.run_invariant (I := Uniquely) (fun _ _ hreq h => h.request hreq)
      (Machine.guarded_of_forall t hrequests) ⟨hvalid, hnamed, hnodes⟩
  exact ⟨h.nodes, h.valid.mappingAddresses⟩

/-- A connection and a node with the id, at version 5. -/
def oneNode (id : String) : Tables where
  migrated := true
  namespaces := [⟨"n1", "Plant", none, "urn:plant"⟩]
  objectNodes := []
  nodes := [⟨id, "n1", none, "level", .double, none, none⟩]
  connections := [⟨"c1", "s7", "press", .obj [("host", .str "10.0.0.1")], 1000, 5000, true, "now"⟩]
  mappings := []

/-- Two mappings for the node, at two addresses. -/
def twice (id : String) : List Request :=
  [.createMappingsBulk "now" [("m1", ⟨"c1", some id, "DB1,REAL0", none⟩), ("m2", ⟨"c1", some id, "DB1,REAL4", none⟩)]]

theorem oneMapping_twice : OneMapping (Machine.run Request.apply (oneNode "v") (twice "v")) :=
  oneMapping_run (oneNode "v") (twice "v") (by decide) (by decide) (by decide) (by decide)

/-- A node whose id is empty is mapped twice. -/
theorem emptyId_twice : ¬∀ (t : Tables) (requests : List Request), t.Valid → t.migrated = true →
    (t.mappings.filterMap (fun m => m.nodeId)).Nodup → (∀ request ∈ requests, request.unnamed = false) →
    OneMapping (Machine.run Request.apply t requests) := by
  intro h
  have hone := (h (oneNode "") (twice "") (by decide) rfl (by decide) (by decide)).nodes
  revert hone
  decide

end OpcuaLight.Db
