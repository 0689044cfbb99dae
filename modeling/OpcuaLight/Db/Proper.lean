import OpcuaLight.Db.Links
import OpcuaLight.Db.Mappings
import OpcuaLight.Lib.JsonText

/-!
# What the tables hold

The ids that the repositories draw are UUIDs, and the values they are given come from JSON. So no row has
the empty id, and the initial values are canonical (`reach_proper`). The checks of the repository keep the
names of the nodes from being blank (`reach_nodesNamed`).
-/

namespace OpcuaLight.Db

open Connector (ConnectionConfig Mapping)

/-- The id that the operation draws is not empty, and the value that it stores is canonical. -/
def Operation.Proper : Operation → Prop
  | .createNamespace id _ | .createObjectNode id _ | .createConnection id _ _ => id ≠ ""
  | .createNode id request => id ≠ "" ∧ ∀ v ∈ request.initialValue, v.Canonical
  | .updateNode _ request => ∀ v ∈ request.initialValue, v.Canonical
  | _ => True

/-- No row that others refer to has the empty id, and the initial values are canonical. -/
structure Tables.Proper (t : Tables) : Prop where
  namespaces : ∀ r ∈ t.namespaces, r.id ≠ ""
  objectNodes : ∀ r ∈ t.objectNodes, r.id ≠ ""
  nodes : ∀ r ∈ t.nodes, r.id ≠ "" ∧ ∀ v ∈ r.initialValue, v.Canonical
  connections : ∀ r ∈ t.connections, r.id ≠ ""

variable {t t' : Tables}

/-- What holds of the rows before an update, and after it of the rows it sets, holds of all rows. -/
theorem forall_mem_map {α : Type} {P : α → Prop} {rows : List α} {set : α → α} (h : ∀ r ∈ rows, P r)
    (hset : ∀ r, P r → P (set r)) : ∀ r ∈ rows.map set, P r := by
  intro r hr
  obtain ⟨s, hs, rfl⟩ := List.mem_map.mp hr
  exact hset s (h s hs)

theorem forall_mem_concat {α : Type} {P : α → Prop} {rows : List α} {new : α} (h : ∀ r ∈ rows, P r)
    (hnew : P new) : ∀ r ∈ rows ++ [new], P r := by
  intro r hr
  rcases List.mem_append.mp hr with hr | hr
  · exact h r hr
  · rw [List.mem_singleton.mp hr]
    exact hnew

theorem Tables.Proper.apply (h : t.Proper) (hv : t.Valid) {op : Operation} (hop : op.Proper) :
    (Db.apply t op).Proper := by
  rcases apply_cases t op with he | hdid
  · rw [he]
    exact h
  · cases op with
    | createNamespace id request =>
        rw [checked_ok hdid]
        exact { h with namespaces := forall_mem_concat h.namespaces hop }
    | updateNamespace id request =>
        obtain ⟨_, -, hdid⟩ := hdid
        rw [checked_ok hdid]
        exact { h with namespaces := forall_mem_map h.namespaces fun r hr => by split_ifs <;> exact hr }
    | deleteNamespace id =>
        rw [cascaded_of_ok hv hdid]
        exact
          { namespaces := fun r hr => h.namespaces r (List.mem_of_mem_filter hr)
            objectNodes := forall_mem_map (fun r hr => h.objectNodes r (List.mem_of_mem_filter hr))
              fun _ hr => hr
            nodes := forall_mem_map (fun r hr => h.nodes r (List.mem_of_mem_filter hr)) fun _ hr => hr
            connections := h.connections }
    | createObjectNode id input =>
        rw [checked_ok hdid.2]
        exact { h with objectNodes := forall_mem_concat h.objectNodes hop }
    | deleteObjectNode id =>
        obtain ⟨x, t₁, -, h₁, hrest⟩ := hdid
        have hp₁ : t₁.Proper := by
          rw [checked_ok h₁]
          exact { h with nodes := forall_mem_map h.nodes fun r hr => by split_ifs <;> exact hr }
        rcases hrest with he | ⟨t₂, h₂, hrest⟩
        · rw [he]
          exact hp₁
        · have hp₂ : t₂.Proper := by
            rw [checked_ok h₂]
            exact { hp₁ with
              objectNodes := forall_mem_map hp₁.objectNodes fun r hr => by split_ifs <;> exact hr }
          rcases hrest with he | h₃
          · rw [he]
            exact hp₂
          · rw [checked_ok h₃]
            exact { hp₂ with
              objectNodes := forall_mem_map (fun r hr => hp₂.objectNodes r (List.mem_of_mem_filter hr))
                fun r hr => by split_ifs <;> exact hr
              nodes := forall_mem_map hp₂.nodes fun r hr => by split_ifs <;> exact hr }
    | createNode id request =>
        obtain ⟨name, namespaceId, dataType, -, -, hdid⟩ := hdid
        rw [checked_ok hdid]
        exact { h with nodes := forall_mem_concat h.nodes hop }
    | updateNode id request =>
        rw [checked_ok hdid]
        refine { h with nodes := forall_mem_map h.nodes fun r hr => ?_ }
        split_ifs
        · refine ⟨hr.1, fun v hv => ?_⟩
          cases hvalue : request.initialValue with
          | none =>
              rw [NodeRepository.assign, hvalue] at hv
              exact hr.2 v hv
          | some w =>
              rw [NodeRepository.assign, hvalue] at hv
              rw [← Option.some.inj hv]
              exact hop w hvalue
        · exact hr
    | deleteNode id =>
        rw [checked_ok hdid]
        exact { h with nodes := fun r hr => h.nodes r (List.mem_of_mem_filter hr) }
    | createConnection id now request =>
        obtain ⟨row, hid, -, -, hdid⟩ := hdid
        rw [checked_ok hdid]
        exact { h with connections := forall_mem_concat h.connections (hid ▸ hop) }
    | updateConnection id request =>
        rw [checked_ok hdid]
        exact { h with connections := forall_mem_map h.connections fun r hr => by split_ifs <;> exact hr }
    | deleteConnection id =>
        rw [checked_ok hdid]
        exact { h with connections := fun r hr => h.connections r (List.mem_of_mem_filter hr) }
    | createMapping id now request =>
        rw [checked_ok hdid.2]
        exact { h with }
    | updateMapping id request =>
        rw [checked_ok hdid]
        exact { h with }
    | deleteMapping id =>
        rw [checked_ok hdid]
        exact { h with }
    | reopen =>
        rw [hdid]
        exact { h with }

theorem proper_empty (migrated : Bool) : (Tables.empty migrated).Proper :=
  ⟨nofun, nofun, nofun, nofun⟩

theorem reach_proper {ops : List Operation} (h : ∀ op ∈ ops, op.Proper) :
    (reach ops).Valid ∧ (reach ops).Proper :=
  Machine.run_invariant (I := fun t : Tables => t.Valid ∧ t.Proper)
    (fun _ op hop h => ⟨valid_apply h.1 op, h.2.apply h.1 hop⟩)
    (Machine.guarded_of_forall _ h) ⟨valid_empty false, proper_empty false⟩

/-! ## Nodes have names -/

/-- What the creation of a node checks, and the row that it inserts. -/
theorem NodeRepository.create_checked {id : String} {request : NodeRepository.CreateNodeRequest}
    (h : NodeRepository.create t id request = .ok t') : NodeRepository.validateCreate request = [] ∧
      ∃ name namespaceId dataType, request.name = some name ∧ request.namespaceId = some namespaceId ∧
        request.dataType.bind NodeRepository.supported = some dataType ∧
        t.insertNode ⟨id, namespaceId, request.objectNodeId, name, dataType, request.initialValue,
          request.description⟩ = .ok t' := by
  unfold NodeRepository.create at h
  split at h
  · rename_i name namespaceId dataType hvalid hname hns htype
    split_ifs at h
    exact ⟨hvalid, name, namespaceId, dataType, hname, hns, htype, execute_eq_ok.mp h⟩
  · cases h

/-- The name of a node, and the id of its namespace, are not blank. -/
def Tables.NodesNamed (t : Tables) : Prop :=
  ∀ r ∈ t.nodes, Js.trim r.name ≠ "" ∧ Js.trim r.namespaceId ≠ ""

theorem NodeRepository.named_of_valid {request : NodeRepository.CreateNodeRequest}
    (h : NodeRepository.validateCreate request = []) {name namespaceId : String} (hname : request.name = some name)
    (hns : request.namespaceId = some namespaceId) : Js.trim name ≠ "" ∧ Js.trim namespaceId ≠ "" := by
  unfold NodeRepository.validateCreate at h
  rw [List.append_eq_nil_iff, List.append_eq_nil_iff, hname, hns] at h
  obtain ⟨⟨h₁, h₂⟩, -⟩ := h
  split_ifs at h₁ h₂ with hblank hblank'
  exact ⟨by simpa [NodeRepository.blank] using hblank, by simpa [NodeRepository.blank] using hblank'⟩

theorem NodeRepository.update_named {id : String} {request : NodeRepository.UpdateNodeRequest}
    (h : NodeRepository.update t id request = .ok t') : ∀ name ∈ request.name, Js.trim name ≠ "" := by
  intro name hname
  unfold NodeRepository.update at h
  split at h
  · cases h
  split at h
  · rename_i hvalid
    unfold NodeRepository.validateUpdate at hvalid
    rw [List.append_eq_nil_iff, hname] at hvalid
    obtain ⟨hvalid, -⟩ := hvalid
    split_ifs at hvalid with hblank
    simpa [NodeRepository.blank] using hblank
  · cases h

theorem nodesNamed_apply (hv : t.Valid) (h : t.NodesNamed) (op : Operation) : (Db.apply t op).NodesNamed := by
  by_cases hop : op.onLinks = false
  · unfold Tables.NodesNamed
    rw [apply_nodes t hop]
    exact h
  rcases apply_cases t op with hsame | hdid
  · rw [hsame]
    exact h
  cases op with
  | deleteNamespace id =>
      rw [cascaded_of_ok hv hdid]
      exact forall_mem_map (fun r hr => h r (List.mem_of_mem_filter hr)) fun _ hr => hr
  | createObjectNode id input =>
      rw [checked_ok hdid.2]
      exact h
  | deleteObjectNode id =>
      obtain ⟨x, t₁, -, h₁, hrest⟩ := hdid
      have hn₁ : t₁.NodesNamed := by
        rw [checked_ok h₁]
        exact forall_mem_map h fun r hr => by split_ifs <;> exact hr
      rcases hrest with he | ⟨t₂, h₂, he | h₃⟩
      · rw [he]
        exact hn₁
      · rw [he, checked_ok h₂]
        exact hn₁
      · rw [checked_ok h₃, checked_ok h₂]
        exact forall_mem_map hn₁ fun r hr => by split_ifs <;> exact hr
  | createNode id request =>
      show (after t (NodeRepository.create t id request)).NodesNamed
      rcases after_cases t (NodeRepository.create t id request) with hsame | hok
      · rw [hsame]
        exact h
      · obtain ⟨hvalid, name, namespaceId, dataType, hname, hns, -, hins⟩ := NodeRepository.create_checked hok
        rw [checked_ok hins]
        exact forall_mem_concat h (NodeRepository.named_of_valid hvalid hname hns)
  | updateNode id request =>
      show (after t (NodeRepository.update t id request)).NodesNamed
      rcases after_cases t (NodeRepository.update t id request) with hsame | hok
      · rw [hsame]
        exact h
      · have hnamed := NodeRepository.update_named hok
        rw [checked_ok (NodeRepository.update_ok hok)]
        refine forall_mem_map h fun r hr => ?_
        split_ifs
        · refine ⟨?_, hr.2⟩
          show Js.trim (request.name.getD r.name) ≠ ""
          cases hname : request.name with
          | none => exact hr.1
          | some name => exact hnamed name hname
        · exact hr
  | deleteNode id =>
      rw [checked_ok hdid]
      exact fun r hr => h r (List.mem_of_mem_filter hr)
  | _ => exact absurd rfl hop

theorem reach_nodesNamed (ops : List Operation) : (reach ops).NodesNamed :=
  (reach_invariant (I := Tables.NodesNamed) (fun _ h => absurd h List.not_mem_nil)
    (fun _ op hv h => nodesNamed_apply hv h op) ops).2

end OpcuaLight.Db
