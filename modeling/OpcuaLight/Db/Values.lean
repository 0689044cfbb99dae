import OpcuaLight.Db.Proper

/-!
# The JSON values of the tables

The initial values of the nodes and the parameters of the connections are those that the operations were
given (`reach_values`).
-/

namespace OpcuaLight.Db

/-- The JSON values that an operation stores. -/
def Operation.Values (P : Json → Prop) : Operation → Prop
  | .createNode _ request => ∀ v ∈ request.initialValue, P v
  | .updateNode _ request => ∀ v ∈ request.initialValue, P v
  | .createConnection _ _ request => P request.params
  | .updateConnection _ request => ∀ v ∈ request.params, P v
  | _ => True

/-- The JSON values that the tables hold. -/
structure Tables.Values (P : Json → Prop) (t : Tables) : Prop where
  nodes : ∀ r ∈ t.nodes, ∀ v ∈ r.initialValue, P v
  connections : ∀ c ∈ t.connections, P c.params

variable {P : Json → Prop} {t : Tables}

theorem nodeValues_apply (hv : t.Valid) (h : ∀ r ∈ t.nodes, ∀ v ∈ r.initialValue, P v) {op : Operation}
    (hop : op.Values P) : ∀ r ∈ (apply t op).nodes, ∀ v ∈ r.initialValue, P v := by
  by_cases hlinks : op.onLinks = false
  · rw [apply_nodes t hlinks]
    exact h
  rcases apply_cases t op with hsame | hdid
  · rw [hsame]
    exact h
  cases op with
  | deleteNamespace id =>
      rw [cascaded_of_ok hv hdid]
      exact forall_mem_map (fun r hr => h r (List.mem_of_mem_filter hr)) fun _ hr => hr
  | createObjectNode id input =>
      rw [checked_ok hdid.2]
      exact h
  | deleteObjectNode id =>
      obtain ⟨x, t₁, -, h₁, hrest⟩ := hdid
      have hnodes₁ : ∀ r ∈ t₁.nodes, ∀ v ∈ r.initialValue, P v := by
        rw [checked_ok h₁]
        exact forall_mem_map h fun r hr => by split_ifs <;> exact hr
      rcases hrest with he | ⟨t₂, h₂, he | h₃⟩
      · rw [he]
        exact hnodes₁
      · rw [he, checked_ok h₂]
        exact hnodes₁
      · rw [checked_ok h₃, checked_ok h₂]
        exact forall_mem_map hnodes₁ fun r hr => by split_ifs <;> exact hr
  | createNode id request =>
      obtain ⟨name, namespaceId, dataType, -, -, hdid⟩ := hdid
      rw [checked_ok hdid]
      exact forall_mem_concat h hop
  | updateNode id request =>
      rw [checked_ok hdid]
      refine forall_mem_map h fun r hr => ?_
      split_ifs
      · show ∀ v ∈ request.initialValue.orElse (fun _ => r.initialValue), P v
        cases hvalue : request.initialValue with
        | none => exact hr
        | some w =>
            intro v hv
            rw [← Option.some.inj hv]
            exact hop w hvalue
      · exact hr
  | deleteNode id =>
      rw [checked_ok hdid]
      exact fun r hr => h r (List.mem_of_mem_filter hr)
  | _ => exact absurd rfl hlinks

theorem params_apply (hv : t.Valid) (h : ∀ c ∈ t.connections, P c.params) {op : Operation}
    (hop : op.Values P) : ∀ c ∈ (apply t op).connections, P c.params := by
  by_cases hspace : op.onAddressSpace = true
  · rw [(apply_mappings hv hspace).1]
    exact h
  rcases apply_cases t op with hsame | hdid
  · rw [hsame]
    exact h
  cases op with
  | createConnection id now request =>
      obtain ⟨row, -, -, hparams, hdid⟩ := hdid
      rw [checked_ok hdid]
      exact forall_mem_concat h (hparams ▸ hop)
  | updateConnection id request =>
      rw [checked_ok hdid]
      refine forall_mem_map h fun c hc => ?_
      split_ifs
      · show P (request.params.getD c.params)
        cases hparams : request.params with
        | none => exact hc
        | some v => exact hop v hparams
      · exact hc
  | deleteConnection id =>
      rw [checked_ok hdid]
      exact fun c hc => h c (List.mem_of_mem_filter hc)
  | createMapping =>
      rw [checked_ok hdid.2]
      exact h
  | updateMapping | deleteMapping =>
      rw [checked_ok hdid]
      exact h
  | reopen =>
      rw [hdid]
      exact h
  | _ => exact absurd rfl hspace

/-- What holds of the values that the operations store holds of those in the tables. -/
theorem reach_values {ops : List Operation} (h : ∀ op ∈ ops, op.Values P) : (reach ops).Values P :=
  (Machine.run_invariant (I := fun t : Tables => t.Valid ∧ t.Values P)
    (fun _ op hop h => ⟨valid_apply h.1 op,
      ⟨nodeValues_apply h.1 h.2.nodes hop, params_apply h.1 h.2.connections hop⟩⟩)
    (Machine.guarded_of_forall _ h) ⟨valid_empty false, ⟨nofun, nofun⟩⟩).2

end OpcuaLight.Db
