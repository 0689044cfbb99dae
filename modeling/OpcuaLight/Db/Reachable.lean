import OpcuaLight.Db.ConnectorRepository
import OpcuaLight.Lib.Machine

/-!
# The states of the database

A database state is reached from an empty one by operations of the repositories, each with the new ids
it draws, and by reopening the file, which migrates a database of the first run. Every state meets the
constraints of the schema (`reach_valid`).
-/

namespace OpcuaLight.Db

open Connector (ConnectionConfig Mapping)

inductive Operation where
  | createNamespace (id : String) (request : NamespaceRepository.CreateNamespaceRequest)
  | updateNamespace (id : String) (request : NamespaceRepository.UpdateNamespaceRequest)
  | deleteNamespace (id : String)
  | createObjectNode (id : String) (input : ObjectNodeRepository.CreateObjectNodeInput)
  | deleteObjectNode (id : String)
  | createNode (id : String) (request : NodeRepository.CreateNodeRequest)
  | updateNode (id : String) (request : NodeRepository.UpdateNodeRequest)
  | deleteNode (id : String)
  | createConnection (id now : String) (request : ConnectorRepository.CreateConnectionRequest)
  | updateConnection (id : String) (request : ConnectorRepository.UpdateConnectionRequest)
  | deleteConnection (id : String)
  | createMapping (id now : String) (request : ConnectorRepository.CreateMappingRequest)
  | updateMapping (id : String) (request : ConnectorRepository.UpdateMappingRequest)
  | deleteMapping (id : String)
  | reopen

/-- The tables that an operation leaves which changes nothing when it fails. -/
def after (t : Tables) : Except Failure Tables → Tables
  | .ok t => t
  | .error _ => t

/-- The tables after the operation, whether it succeeds or not. -/
def apply (t : Tables) : Operation → Tables
  | .createNamespace id request => after t (NamespaceRepository.create t id request)
  | .updateNamespace id request => after t (NamespaceRepository.update t id request)
  | .deleteNamespace id => after t (NamespaceRepository.delete t id)
  | .createObjectNode id input => after t (ObjectNodeRepository.create t id input)
  | .deleteObjectNode id => (ObjectNodeRepository.delete t id).1
  | .createNode id request => after t (NodeRepository.create t id request)
  | .updateNode id request => after t (NodeRepository.update t id request)
  | .deleteNode id => after t (NodeRepository.delete t id)
  | .createConnection id now request =>
      after t ((ConnectorRepository.createConnection t id now request).map Prod.fst)
  | .updateConnection id request =>
      after t ((ConnectorRepository.updateConnection t id request).map Prod.fst)
  | .deleteConnection id => after t (ConnectorRepository.deleteConnection t id)
  | .createMapping id now request =>
      after t ((ConnectorRepository.createMapping t id now request).map Prod.fst)
  | .updateMapping id request => after t ((ConnectorRepository.updateMapping t id request).map Prod.fst)
  | .deleteMapping id => after t (ConnectorRepository.deleteMapping t id)
  | .reopen => { t with migrated := true }

/-- The state after a run of operations on a new database. -/
def reach (ops : List Operation) : Tables := Machine.run apply (Tables.empty false) ops

/-! ## What the operations do -/

/-- The outcome of an operation: nothing, or one of the statements with its constraints met. -/
theorem after_cases (t : Tables) (r : Except Failure Tables) : after t r = t ∨ r = .ok (after t r) := by
  cases r with
  | error e => exact Or.inl rfl
  | ok t' => exact Or.inr rfl

namespace NamespaceRepository

theorem create_ok {t t' : Tables} {id : String} {request : CreateNamespaceRequest}
    (h : create t id request = .ok t') : t.insertNamespace
      ⟨id, request.name, request.description, request.uri⟩ = .ok t' := by
  unfold create at h
  split_ifs at h
  exact execute_eq_ok.mp h

theorem update_ok {t t' : Tables} {id : String} {request : UpdateNamespaceRequest}
    (h : update t id request = .ok t') : ∃ existing, findById t id = some existing ∧
      t.updateNamespace id (fun r => { r with
        name := request.name.getD existing.name
        description := request.description.getD existing.description
        uri := request.uri.getD existing.uri }) = .ok t' := by
  unfold update at h
  split at h
  · cases h
  · rename_i existing hex
    simp only at h
    split_ifs at h
    exact ⟨existing, hex, execute_eq_ok.mp h⟩

theorem delete_ok {t t' : Tables} {id : String} (h : delete t id = .ok t') :
    (findById t id).isSome = true ∧ t.deleteNamespace id = .ok t' := by
  unfold delete at h
  split_ifs at h with hex
  exact ⟨hex, execute_eq_ok.mp h⟩

end NamespaceRepository

namespace ObjectNodeRepository

theorem create_ok {t t' : Tables} {id : String} {input : CreateObjectNodeInput}
    (h : create t id input = .ok t') : t.hasNamespace input.namespaceId = true ∧
      checkParent t input.parentObjectNodeId = .ok () ∧
      t.insertObjectNode ⟨id, input.namespaceId, input.parentObjectNodeId, input.name⟩ = .ok t' := by
  unfold create at h
  split_ifs at h with hns
  split at h
  · cases h
  · rename_i hparent
    split at h
    · rename_i t₁ hins
      rw [← Except.ok.inj h]
      exact ⟨by simpa using hns, hparent, hins⟩
    · cases h
    · cases h

theorem checkParent_ok {t : Tables} {parent : String} (h : checkParent t (some parent) = .ok ()) :
    t.hasObjectNode parent = true ∧ computeDepth t parent < maxDepth := by
  unfold checkParent at h
  simp only at h
  split_ifs at h with hex hdeep
  exact ⟨by simpa using hex, Nat.not_le.mp hdeep⟩

/-- The deletion is made of statements, of which a first part has been carried out. -/
theorem delete_cases (t : Tables) (id : String) :
    (delete t id).1 = t ∨ ∃ x t₁, findById t id = some x ∧
      t.reassignNodes id x.parentObjectNodeId = .ok t₁ ∧ ((delete t id).1 = t₁ ∨
        ∃ t₂, t₁.reparentObjectNodes id x.parentObjectNodeId = .ok t₂ ∧
          ((delete t id).1 = t₂ ∨ t₂.deleteObjectNode id = .ok (delete t id).1)) := by
  unfold delete
  split
  · exact Or.inl rfl
  · rename_i x hx
    split
    · exact Or.inl rfl
    · rename_i t₁ h₁
      refine Or.inr ⟨x, t₁, hx, h₁, ?_⟩
      split
      · exact Or.inl rfl
      · rename_i t₂ h₂
        refine Or.inr ⟨t₂, h₂, ?_⟩
        split
        · exact Or.inl rfl
        · rename_i t₃ h₃
          exact Or.inr h₃

end ObjectNodeRepository

namespace NodeRepository

theorem create_ok {t t' : Tables} {id : String} {request : CreateNodeRequest}
    (h : create t id request = .ok t') : ∃ name namespaceId dataType,
      request.name = some name ∧ request.namespaceId = some namespaceId ∧
      t.insertNode ⟨id, namespaceId, request.objectNodeId, name, dataType, request.initialValue,
        request.description⟩ = .ok t' := by
  unfold create at h
  split at h
  · rename_i name namespaceId dataType _ hname hns _
    split_ifs at h
    exact ⟨name, namespaceId, dataType, hname, hns, execute_eq_ok.mp h⟩
  · cases h

theorem update_ok {t t' : Tables} {id : String} {request : UpdateNodeRequest}
    (h : update t id request = .ok t') : t.updateNode id (assign request) = .ok t' := by
  unfold update at h
  split at h
  · cases h
  · split at h
    · simp only at h
      split_ifs at h
      exact execute_eq_ok.mp h
    · cases h

theorem delete_ok {t t' : Tables} {id : String} (h : delete t id = .ok t') :
    t.deleteNode id = .ok t' := by
  unfold delete at h
  split_ifs at h
  exact execute_eq_ok.mp h

end NodeRepository

namespace ConnectorRepository

theorem map_fst_ok {α β : Type} {r : Except Failure (α × β)} {a : α} (h : r.map Prod.fst = .ok a) :
    ∃ b, r = .ok (a, b) := by
  cases r with
  | error e => cases h
  | ok p => exact ⟨p.2, by rw [← Except.ok.inj h]⟩

theorem map_execute_ok {β : Type} {r : Except SqlError Tables} {f : Tables → Tables × β}
    (hf : ∀ t, (f t).1 = t) {t' : Tables} {b : β} (h : (execute r).map f = .ok (t', b)) :
    r = .ok t' ∧ (f t').2 = b := by
  cases hr : execute r with
  | error e =>
      rw [hr] at h
      cases h
  | ok t₁ =>
      rw [hr] at h
      have hpair : f t₁ = (t', b) := Except.ok.inj h
      have ht : t₁ = t' := by rw [← hf t₁, hpair]
      rw [ht] at hpair hr
      exact ⟨execute_eq_ok.mp hr, by rw [hpair]⟩

theorem createConnection_ok {t t' : Tables} {id now : String} {request : CreateConnectionRequest}
    {row : ConnectionConfig} (h : createConnection t id now request = .ok (t', row)) :
    t.insertConnection row = .ok t' ∧ row.id = id ∧ row.type = request.type ∧
      row.params = request.params := by
  obtain ⟨hins, rfl⟩ := map_execute_ok (fun _ => rfl) h
  exact ⟨hins, rfl, rfl, rfl⟩

theorem updateConnection_ok {t t' : Tables} {id : String} {request : UpdateConnectionRequest}
    {row : ConnectionConfig} (h : updateConnection t id request = .ok (t', row)) :
    ∃ existing, findConnectionById t id = some existing ∧ row = assignConnection request existing ∧
      t.updateConnection id (assignConnection request) = .ok t' := by
  unfold updateConnection at h
  split at h
  · cases h
  · rename_i existing hex
    obtain ⟨hupd, rfl⟩ := map_execute_ok (fun _ => rfl) h
    exact ⟨existing, hex, rfl, hupd⟩

theorem deleteConnection_ok {t t' : Tables} {id : String} (h : deleteConnection t id = .ok t') :
    t.deleteConnection id = .ok t' := by
  unfold deleteConnection at h
  split_ifs at h
  exact execute_eq_ok.mp h

theorem createMapping_ok {t t' : Tables} {id now : String} {request : CreateMappingRequest}
    {row : Mapping} (h : createMapping t id now request = .ok (t', row)) :
    t.insertMapping row = .ok t' ∧ checkNode t request.nodeId = none ∧ row = ⟨id, request.connectionId,
      request.nodeId, request.deviceAddress, request.description, now⟩ := by
  unfold createMapping at h
  split at h
  · cases h
  · split at h
    · cases h
    · rename_i hnode
      split at h
      · cases h
      · obtain ⟨hins, rfl⟩ := map_execute_ok (fun _ => rfl) h
        exact ⟨hins, hnode, rfl⟩

theorem updateMapping_ok {t t' : Tables} {id : String} {request : UpdateMappingRequest} {row : Mapping}
    (h : updateMapping t id request = .ok (t', row)) :
    ∃ existing, findMappingById t id = some existing ∧ row = assignMapping request existing ∧
      t.updateMapping id (assignMapping request) = .ok t' := by
  unfold updateMapping at h
  split at h
  · cases h
  · rename_i existing hex
    split at h
    · cases h
    · cases h
    · obtain ⟨hupd, rfl⟩ := map_execute_ok (fun _ => rfl) h
      exact ⟨existing, hex, rfl, hupd⟩

theorem deleteMapping_ok {t t' : Tables} {id : String} (h : deleteMapping t id = .ok t') :
    t.deleteMapping id = .ok t' := by
  unfold deleteMapping at h
  split_ifs at h
  exact execute_eq_ok.mp h

end ConnectorRepository

/-- What an operation did that changed the tables: its statement, which met the constraints. -/
def Operation.Did (t : Tables) (t' : Tables) : Operation → Prop
  | .createNamespace id request =>
      t.insertNamespace ⟨id, request.name, request.description, request.uri⟩ = .ok t'
  | .updateNamespace id request => ∃ existing, NamespaceRepository.findById t id = some existing ∧
      t.updateNamespace id (fun r => { r with
        name := request.name.getD existing.name
        description := request.description.getD existing.description
        uri := request.uri.getD existing.uri }) = .ok t'
  | .deleteNamespace id => t.deleteNamespace id = .ok t'
  | .createObjectNode id input => ObjectNodeRepository.checkParent t input.parentObjectNodeId = .ok () ∧
      t.insertObjectNode ⟨id, input.namespaceId, input.parentObjectNodeId, input.name⟩ = .ok t'
  | .deleteObjectNode id => ∃ x t₁, ObjectNodeRepository.findById t id = some x ∧
      t.reassignNodes id x.parentObjectNodeId = .ok t₁ ∧ (t' = t₁ ∨
        ∃ t₂, t₁.reparentObjectNodes id x.parentObjectNodeId = .ok t₂ ∧
          (t' = t₂ ∨ t₂.deleteObjectNode id = .ok t'))
  | .createNode id request => ∃ name namespaceId dataType,
      request.name = some name ∧ request.namespaceId = some namespaceId ∧
      t.insertNode ⟨id, namespaceId, request.objectNodeId, name, dataType, request.initialValue,
        request.description⟩ = .ok t'
  | .updateNode id request => t.updateNode id (NodeRepository.assign request) = .ok t'
  | .deleteNode id => t.deleteNode id = .ok t'
  | .createConnection id _ request => ∃ row : ConnectionConfig, row.id = id ∧ row.type = request.type ∧
      row.params = request.params ∧ t.insertConnection row = .ok t'
  | .updateConnection id request =>
      t.updateConnection id (ConnectorRepository.assignConnection request) = .ok t'
  | .deleteConnection id => t.deleteConnection id = .ok t'
  | .createMapping id now request => ConnectorRepository.checkNode t request.nodeId = none ∧
      t.insertMapping ⟨id, request.connectionId, request.nodeId, request.deviceAddress,
        request.description, now⟩ = .ok t'
  | .updateMapping id request => t.updateMapping id (ConnectorRepository.assignMapping request) = .ok t'
  | .deleteMapping id => t.deleteMapping id = .ok t'
  | .reopen => t' = { t with migrated := true }

/-- An operation changes nothing, or it does its statement. -/
theorem apply_cases (t : Tables) (op : Operation) : apply t op = t ∨ op.Did t (apply t op) := by
  have hafter : ∀ {r : Except Failure Tables} {P : Tables → Prop}, (∀ t', r = .ok t' → P t') →
      after t r = t ∨ P (after t r) := fun {r} _ h => (after_cases t r).imp_right (h _)
  cases op with
  | createNamespace id request => exact hafter fun t' => NamespaceRepository.create_ok
  | updateNamespace id request => exact hafter fun t' => NamespaceRepository.update_ok
  | deleteNamespace id => exact hafter fun t' h => (NamespaceRepository.delete_ok h).2
  | createObjectNode id input => exact hafter fun t' h => (ObjectNodeRepository.create_ok h).2
  | deleteObjectNode id => exact ObjectNodeRepository.delete_cases t id
  | createNode id request => exact hafter fun t' => NodeRepository.create_ok
  | updateNode id request => exact hafter fun t' => NodeRepository.update_ok
  | deleteNode id => exact hafter fun t' => NodeRepository.delete_ok
  | createConnection id now request =>
      refine hafter (P := fun t' => (Operation.createConnection id now request).Did t t') fun t' h => ?_
      obtain ⟨row, hrow⟩ := ConnectorRepository.map_fst_ok h
      obtain ⟨hins, hid, htype, hparams⟩ := ConnectorRepository.createConnection_ok hrow
      exact ⟨row, hid, htype, hparams, hins⟩
  | updateConnection id request =>
      refine hafter (P := fun t' => (Operation.updateConnection id request).Did t t') fun t' h => ?_
      obtain ⟨row, hrow⟩ := ConnectorRepository.map_fst_ok h
      obtain ⟨_, -, -, hupd⟩ := ConnectorRepository.updateConnection_ok hrow
      exact hupd
  | deleteConnection id => exact hafter fun t' => ConnectorRepository.deleteConnection_ok
  | createMapping id now request =>
      refine hafter (P := fun t' => (Operation.createMapping id now request).Did t t') fun t' h => ?_
      obtain ⟨row, hrow⟩ := ConnectorRepository.map_fst_ok h
      obtain ⟨hins, hnode, rfl⟩ := ConnectorRepository.createMapping_ok hrow
      exact ⟨hnode, hins⟩
  | updateMapping id request =>
      refine hafter (P := fun t' => (Operation.updateMapping id request).Did t t') fun t' h => ?_
      obtain ⟨row, hrow⟩ := ConnectorRepository.map_fst_ok h
      obtain ⟨_, -, -, hupd⟩ := ConnectorRepository.updateMapping_ok hrow
      exact hupd
  | deleteMapping id => exact hafter fun t' => ConnectorRepository.deleteMapping_ok
  | reopen => exact Or.inr rfl

/-! ## What the operations leave alone -/

/-- A statement leaves the tables it is about to leave. -/
theorem checked_ok {t t' : Tables} (h : t.checked = .ok t') : t' = t := (Tables.checked_eq_ok.mp h).2.symm

/-- The operations that touch object nodes. -/
def Operation.onObjectNodes : Operation → Bool
  | .deleteNamespace _ | .createObjectNode _ _ | .deleteObjectNode _ => true
  | _ => false

theorem apply_objectNodes (t : Tables) {op : Operation} (h : op.onObjectNodes = false) :
    (apply t op).objectNodes = t.objectNodes := by
  rcases apply_cases t op with he | hdid
  · rw [he]
  · cases op with
    | deleteNamespace | createObjectNode | deleteObjectNode => cases h
    | createNamespace | updateNode | updateConnection | deleteConnection | updateMapping | deleteMapping =>
        rw [checked_ok hdid]
    | deleteNode =>
        rw [checked_ok hdid]
        rfl
    | updateNamespace =>
        obtain ⟨_, -, hdid⟩ := hdid
        rw [checked_ok hdid]
    | createNode =>
        obtain ⟨_, _, _, -, -, hdid⟩ := hdid
        rw [checked_ok hdid]
    | createConnection =>
        obtain ⟨_, -, -, -, hdid⟩ := hdid
        rw [checked_ok hdid]
    | createMapping => rw [checked_ok hdid.2]
    | reopen => rw [hdid]

/-! ## Every state meets the constraints -/

theorem valid_empty (migrated : Bool) : (Tables.empty migrated).Valid := by
  cases migrated <;> decide

theorem valid_checked {t t' : Tables} (h : t.checked = .ok t') : t'.Valid := by
  obtain ⟨hv, rfl⟩ := Tables.checked_eq_ok.mp h
  exact hv

theorem valid_deleteNamespace {t t' : Tables} {id : String} (h : t.deleteNamespace id = .ok t') :
    t'.Valid := by
  unfold Tables.deleteNamespace at h
  simp only at h
  split at h
  · cases h
  · exact valid_checked h

theorem valid_reopen {t : Tables} (h : t.Valid) : Tables.Valid { t with migrated := true } :=
  { h with mappedNodes := Or.inl rfl, mappedNodesDiffer := Or.inl rfl }

theorem valid_apply {t : Tables} (h : t.Valid) (op : Operation) : (apply t op).Valid := by
  rcases apply_cases t op with he | hdid
  · rw [he]
    exact h
  · cases op with
    | createNamespace | updateNode | deleteNode | updateConnection | deleteConnection | updateMapping
    | deleteMapping => exact valid_checked hdid
    | updateNamespace =>
        obtain ⟨_, -, hdid⟩ := hdid
        exact valid_checked hdid
    | deleteNamespace => exact valid_deleteNamespace hdid
    | createObjectNode => exact valid_checked hdid.2
    | deleteObjectNode =>
        obtain ⟨x, t₁, -, h₁, he | ⟨t₂, h₂, he | h₃⟩⟩ := hdid
        · rw [he]
          exact valid_checked h₁
        · rw [he]
          exact valid_checked h₂
        · exact valid_checked h₃
    | createNode =>
        obtain ⟨_, _, _, -, -, hdid⟩ := hdid
        exact valid_checked hdid
    | createConnection =>
        obtain ⟨_, -, -, -, hdid⟩ := hdid
        exact valid_checked hdid
    | createMapping => exact valid_checked hdid.2
    | reopen =>
        rw [hdid]
        exact valid_reopen h

/-- What holds of the empty database and is kept by every operation holds of every state. -/
theorem reach_invariant {I : Tables → Prop} (hempty : I (Tables.empty false))
    (hstep : ∀ t op, t.Valid → I t → I (apply t op)) (ops : List Operation) :
    (reach ops).Valid ∧ I (reach ops) :=
  Machine.run_invariant' (I := fun t => t.Valid ∧ I t)
    (fun t op h => ⟨valid_apply h.1 op, hstep t op h.1 h.2⟩) ops ⟨valid_empty false, hempty⟩

theorem reach_valid (ops : List Operation) : (reach ops).Valid :=
  (reach_invariant (I := fun _ => True) trivial (fun _ _ _ _ => trivial) ops).1

end OpcuaLight.Db
