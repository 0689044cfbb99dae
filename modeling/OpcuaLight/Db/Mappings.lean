import OpcuaLight.Db.Cascade

/-!
# The address space and the mappings

An operation on the address space leaves the connections alone, and of the mappings it takes those to the
nodes it deletes (`apply_mappings`).
-/

namespace OpcuaLight.Db

open Connector (ConnectionConfig Mapping)

variable {t t' : Tables}

/-- The operations of the repositories of the address space. -/
def Operation.onAddressSpace : Operation → Bool
  | .createNamespace _ _ | .updateNamespace _ _ | .deleteNamespace _ | .createObjectNode _ _
  | .deleteObjectNode _ | .createNode _ _ | .updateNode _ _ | .deleteNode _ => true
  | _ => false

/-- The mapping goes with a node that the operation deletes. -/
def Operation.takes (t : Tables) (op : Operation) (m : Mapping) : Bool :=
  match op with
  | .deleteNode id => t.nodes.any (fun r => r.id = id ∧ m.nodeId = some r.id)
  | .deleteNamespace id => t.nodes.any (fun r => r.namespaceId = id ∧ m.nodeId = some r.id)
  | _ => false

/-- The operations that delete nodes. -/
def Operation.deletesNodes : Operation → Bool
  | .deleteNode _ | .deleteNamespace _ => true
  | _ => false

theorem takes_of_not_deletes {op : Operation} (h : op.deletesNodes = false) (t : Tables) (m : Mapping) :
    op.takes t m = false := by
  cases op with
  | deleteNode | deleteNamespace => cases h
  | _ => rfl

theorem cascaded_of_ok (hv : t.Valid) {id : String} (h : t.deleteNamespace id = .ok t') :
    t' = cascaded t id := by
  have hcascade := fun t' => cascade_ok_iff (t := { t with
    namespaces := t.namespaces.filter (fun r => r.id ≠ id) }) t' hv.objectNodeIds hv.places
    (doomed t id) []
  rw [without_nil] at hcascade
  unfold Tables.deleteNamespace at h
  simp only at h
  split at h
  · cases h
  · rename_i t₁ h₁
    rw [checked_ok h, ((hcascade t₁).mp h₁).1, List.nil_append]
    exact without_dropNodes hv.objectNodeIds id

/-- The connections stay, and of the mappings all or those that the operation does not take. -/
theorem apply_mappings (hv : t.Valid) {op : Operation} (h : op.onAddressSpace = true) :
    (apply t op).connections = t.connections ∧ ((apply t op).mappings = t.mappings ∨
      (apply t op).mappings = t.mappings.filter (fun m => !op.takes t m)) := by
  rcases apply_cases t op with he | hdid
  · rw [he]
    exact ⟨rfl, Or.inl rfl⟩
  · cases op with
    | createNamespace | updateNode =>
        rw [checked_ok hdid]
        exact ⟨rfl, Or.inl rfl⟩
    | updateNamespace =>
        obtain ⟨_, -, hdid⟩ := hdid
        rw [checked_ok hdid]
        exact ⟨rfl, Or.inl rfl⟩
    | deleteNamespace id =>
        rw [cascaded_of_ok hv hdid]
        refine ⟨rfl, Or.inr (List.filter_congr fun m _ => ?_)⟩
        show decide (¬∃ r ∈ t.nodes, r.namespaceId = id ∧ m.nodeId = some r.id) =
          !t.nodes.any (fun r => r.namespaceId = id ∧ m.nodeId = some r.id)
        rw [decide_not, Bool.not_inj_iff, Bool.eq_iff_iff, decide_eq_true_iff, List.any_eq_true]
        simp only [decide_eq_true_eq]
    | createObjectNode =>
        rw [checked_ok hdid.2]
        exact ⟨rfl, Or.inl rfl⟩
    | deleteObjectNode =>
        obtain ⟨x, t₁, -, h₁, he | ⟨t₂, h₂, he | h₃⟩⟩ := hdid
        · rw [he, checked_ok h₁]
          exact ⟨rfl, Or.inl rfl⟩
        · rw [he, checked_ok h₂, checked_ok h₁]
          exact ⟨rfl, Or.inl rfl⟩
        · rw [checked_ok h₃, checked_ok h₂, checked_ok h₁]
          exact ⟨rfl, Or.inl rfl⟩
    | createNode =>
        obtain ⟨_, _, _, -, -, hdid⟩ := hdid
        rw [checked_ok hdid]
        exact ⟨rfl, Or.inl rfl⟩
    | deleteNode id =>
        rw [checked_ok hdid]
        refine ⟨rfl, Or.inr (List.filter_congr fun m _ => ?_)⟩
        simp [Operation.takes]
    | _ => cases h

end OpcuaLight.Db
