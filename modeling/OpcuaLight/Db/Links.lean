import OpcuaLight.Db.Reachable

/-!
# Links and namespaces

The parent of an object node and the object node of a variable node are named by the caller, and the
foreign keys do not ask for their namespace. The links stay inside a namespace as long as the callers
name them so (`linked_of_local`): no deletion and no cascade breaks them.
-/

namespace OpcuaLight.Db

/-- The object node `id` is there, and in the namespace. -/
def Tables.Holds (t : Tables) (namespaceId id : String) : Prop :=
  ∃ q ∈ t.objectNodes, q.id = id ∧ q.namespaceId = namespaceId

/-- The links of all rows lead to object nodes of their own namespaces. -/
structure Tables.Linked (t : Tables) : Prop where
  parents : ∀ r ∈ t.objectNodes, ∀ p, r.parentObjectNodeId = some p → t.Holds r.namespaceId p
  nodes : ∀ r ∈ t.nodes, ∀ p, r.objectNodeId = some p → t.Holds r.namespaceId p

/-- The object node `id`, if there is one, is in the namespace. -/
def Tables.Local (t : Tables) (namespaceId id : String) : Prop :=
  ∀ q ∈ t.objectNodes, q.id = id → q.namespaceId = namespaceId

/-- A new link leads to an object node of the namespace of the row. -/
def Operation.Local (t : Tables) : Operation → Prop
  | .createObjectNode _ input => ∀ p ∈ input.parentObjectNodeId, t.Local input.namespaceId p
  | .createNode _ request => ∀ ns ∈ request.namespaceId, ∀ p ∈ request.objectNodeId, t.Local ns p
  | .updateNode id request =>
      ∀ r ∈ t.nodes, r.id = id → ∀ link ∈ request.objectNodeId, ∀ p ∈ link, t.Local r.namespaceId p
  | _ => True

instance (t : Tables) (ns id : String) : Decidable (t.Local ns id) :=
  inferInstanceAs (Decidable (∀ q ∈ t.objectNodes, q.id = id → q.namespaceId = ns))

instance (t : Tables) : (op : Operation) → Decidable (op.Local t)
  | .createObjectNode _ input =>
      inferInstanceAs (Decidable (∀ p ∈ input.parentObjectNodeId, t.Local input.namespaceId p))
  | .createNode _ request =>
      inferInstanceAs (Decidable (∀ ns ∈ request.namespaceId, ∀ p ∈ request.objectNodeId, t.Local ns p))
  | .updateNode id request =>
      inferInstanceAs (Decidable (∀ r ∈ t.nodes, r.id = id →
        ∀ link ∈ request.objectNodeId, ∀ p ∈ link, t.Local r.namespaceId p))
  | .createNamespace _ _ | .updateNamespace _ _ | .deleteNamespace _ | .deleteObjectNode _
  | .deleteNode _ | .createConnection _ _ _ | .updateConnection _ _ | .deleteConnection _
  | .createMapping _ _ _ | .updateMapping _ _ | .deleteMapping _ | .reopen =>
      inferInstanceAs (Decidable True)

/-! ## What a statement does to the links -/

theorem Tables.Local.holds {t : Tables} {ns id : String} (h : t.Local ns id)
    (hex : t.hasObjectNode id = true) : t.Holds ns id := by
  obtain ⟨q, hq, hid⟩ : ∃ q ∈ t.objectNodes, q.id = id := by simpa [Tables.hasObjectNode] using hex
  exact ⟨q, hq, hid, h q hq hid⟩

theorem Tables.Holds.subset {t t' : Tables} {ns id : String} (hsub : t.objectNodes ⊆ t'.objectNodes)
    (h : t.Holds ns id) : t'.Holds ns id := by
  obtain ⟨q, hq, hid⟩ := h
  exact ⟨q, hsub hq, hid⟩

theorem Tables.Holds.congr {t t' : Tables} {ns id : String} (hrows : t'.objectNodes = t.objectNodes)
    (h : t.Holds ns id) : t'.Holds ns id := h.subset (by rw [hrows]; exact List.Subset.refl _)

/-- The two columns that the links go by survive a change of the rows. -/
theorem Tables.Holds.map {t t' : Tables} {ns id : String} {f : ObjectNodeRow → ObjectNodeRow}
    (hrows : t'.objectNodes = t.objectNodes.map f)
    (hf : ∀ r, (f r).id = r.id ∧ (f r).namespaceId = r.namespaceId) (h : t.Holds ns id) :
    t'.Holds ns id := by
  obtain ⟨q, hq, hid, hns⟩ := h
  refine ⟨f q, ?_, (hf q).1.trans hid, (hf q).2.trans hns⟩
  rw [hrows]
  exact List.mem_map_of_mem hq

theorem linked_of_eq {t t' : Tables} (hobj : t'.objectNodes = t.objectNodes)
    (hnodes : t'.nodes = t.nodes) (h : t.Linked) : t'.Linked := by
  constructor
  · intro r hr p hp
    rw [hobj] at hr
    exact (h.parents r hr p hp).congr hobj
  · intro r hr p hp
    rw [hnodes] at hr
    exact (h.nodes r hr p hp).congr hobj

theorem linked_insertObjectNode {t : Tables} (h : t.Linked) {r : ObjectNodeRow}
    (hr : ∀ p, r.parentObjectNodeId = some p → t.Holds r.namespaceId p) :
    Tables.Linked { t with objectNodes := t.objectNodes ++ [r] } := by
  have hsub : t.objectNodes ⊆ t.objectNodes ++ [r] := List.subset_append_left _ _
  constructor
  · intro s hs p hp
    rcases List.mem_append.mp hs with hs | hs
    · exact (h.parents s hs p hp).subset hsub
    · rw [List.mem_singleton.mp hs] at hp ⊢
      exact (hr p hp).subset hsub
  · exact fun s hs p hp => (h.nodes s hs p hp).subset hsub

theorem linked_insertNode {t : Tables} (h : t.Linked) {r : NodeRow}
    (hr : ∀ p, r.objectNodeId = some p → t.Holds r.namespaceId p) :
    Tables.Linked { t with nodes := t.nodes ++ [r] } := by
  refine ⟨fun s hs p hp => h.parents s hs p hp, fun s hs p hp => ?_⟩
  rcases List.mem_append.mp hs with hs | hs
  · exact h.nodes s hs p hp
  · rw [List.mem_singleton.mp hs] at hp ⊢
    exact hr p hp

/-- The rows of `nodes` may change as long as their links do not, or lead to where they may. -/
theorem linked_mapNodes {t : Tables} (h : t.Linked) {f : NodeRow → NodeRow}
    (hf : ∀ r ∈ t.nodes, (f r).namespaceId = r.namespaceId ∧
      ((f r).objectNodeId = r.objectNodeId ∨
        ∀ p, (f r).objectNodeId = some p → t.Holds r.namespaceId p)) :
    Tables.Linked { t with nodes := t.nodes.map f } := by
  refine ⟨fun s hs p hp => h.parents s hs p hp, fun s hs p hp => ?_⟩
  obtain ⟨r, hr, rfl⟩ := List.mem_map.mp hs
  obtain ⟨hns, hlink⟩ := hf r hr
  rw [hns]
  rcases hlink with heq | hlink
  · rw [heq] at hp
    exact h.nodes r hr p hp
  · exact hlink p hp

/-- The rows of `object_nodes` may get other parents in the same namespace. -/
theorem linked_mapParents {t : Tables} (h : t.Linked) {f : ObjectNodeRow → ObjectNodeRow}
    (hf : ∀ r, (f r).id = r.id ∧ (f r).namespaceId = r.namespaceId)
    (hlink : ∀ r ∈ t.objectNodes, ∀ p, (f r).parentObjectNodeId = some p → t.Holds r.namespaceId p) :
    Tables.Linked { t with objectNodes := t.objectNodes.map f } := by
  constructor
  · intro s hs p hp
    obtain ⟨r, hr, rfl⟩ := List.mem_map.mp hs
    rw [(hf r).2]
    exact (hlink r hr p hp).map rfl hf
  · exact fun s hs p hp => (h.nodes s hs p hp).map rfl hf

/-- The row of an object node goes, and the links to it. -/
theorem linked_dropObjectNode {t : Tables} (h : t.Linked) (id : String) :
    (t.dropObjectNode id).Linked := by
  have hkept : ∀ {ns p : String}, p ≠ id → t.Holds ns p → (t.dropObjectNode id).Holds ns p := by
    rintro ns p hne ⟨q, hq, rfl, rfl⟩
    have hq : q ∈ t.objectNodes.filter (fun r => r.id ≠ id) := by simp [hq, hne]
    refine ⟨_, List.mem_map_of_mem hq, ?_⟩
    split_ifs <;> exact ⟨rfl, rfl⟩
  constructor
  · intro s hs p hp
    obtain ⟨r, hr, rfl⟩ := List.mem_map.mp hs
    have hr := List.mem_of_mem_filter hr
    by_cases hid : r.parentObjectNodeId = some id
    · rw [if_pos hid] at hp
      exact absurd hp nofun
    · rw [if_neg hid] at hp ⊢
      exact hkept (fun he => hid (by rw [hp, he])) (h.parents r hr p hp)
  · intro s hs p hp
    obtain ⟨r, hr, rfl⟩ := List.mem_map.mp hs
    by_cases hid : r.objectNodeId = some id
    · rw [if_pos hid] at hp
      exact absurd hp nofun
    · rw [if_neg hid] at hp ⊢
      exact hkept (fun he => hid (by rw [hp, he])) (h.nodes r hr p hp)

theorem linked_dropNodes {t : Tables} (h : t.Linked) (drop : NodeRow → Bool) :
    (t.dropNodes drop).Linked :=
  ⟨fun r hr p hp => h.parents r hr p hp, fun r hr p hp => h.nodes r (List.mem_of_mem_filter hr) p hp⟩

theorem linked_cascade {rows : List ObjectNodeRow} : ∀ {t t' : Tables}, t.Linked →
    t.cascadeObjectNodes rows = .ok t' → t'.Linked := by
  induction rows with
  | nil =>
      intro t t' h hc
      rw [← Except.ok.inj hc]
      exact h
  | cons r rows ih =>
      intro t t' h hc
      unfold Tables.cascadeObjectNodes Tables.cascadeObjectNode at hc
      simp only at hc
      split at hc
      · cases hc
      · rename_i t₁ h₁
        split_ifs at h₁
        rw [← Except.ok.inj h₁] at hc
        exact ih (linked_dropObjectNode h r.id) hc

theorem linked_deleteNamespace {t t' : Tables} (h : t.Linked) {id : String}
    (hd : t.deleteNamespace id = .ok t') : t'.Linked := by
  unfold Tables.deleteNamespace at hd
  simp only at hd
  split at hd
  · cases hd
  · rename_i t₁ h₁
    rw [checked_ok hd]
    have hbefore : Tables.Linked { t with namespaces := t.namespaces.filter (fun r => r.id ≠ id) } :=
      linked_of_eq (t := t) rfl rfl h
    exact linked_dropNodes (linked_cascade hbefore h₁) _

/-! ## What an operation does to the links -/

/-- What hangs below the object node is moved to where it hangs itself. -/
theorem linked_deleteObjectNode {t t' : Tables} (h : t.Linked) (hv : t.Valid) {id : String}
    (hdid : (Operation.deleteObjectNode id).Did t t') : t'.Linked := by
  obtain ⟨x, t₁, hx, h₁, hrest⟩ := hdid
  have hxmem := List.mem_of_find?_eq_some hx
  have hxid : x.id = id := by simpa using List.find?_some hx
  -- the namespace of a link to the object node is its own, so that its parent will do
  have hup : ∀ {ns p : String}, t.Holds ns id → x.parentObjectNodeId = some p → t.Holds ns p := by
    rintro ns p ⟨q, hq, hqid, rfl⟩ hp
    have hqx : q = x := List.inj_on_of_nodup_map hv.objectNodeIds hq hxmem (hqid.trans hxid.symm)
    rw [hqx]
    exact h.parents x hxmem p hp
  have hl₁ : t₁.Linked := by
    rw [checked_ok h₁]
    refine linked_mapNodes h fun r hr => ?_
    split_ifs with hid
    · exact ⟨rfl, Or.inr fun p hp => hup (h.nodes r hr id hid) hp⟩
    · exact ⟨rfl, Or.inl rfl⟩
  rcases hrest with he | ⟨t₂, h₂, hrest⟩
  · rw [he]
    exact hl₁
  · have hl₂ : t₂.Linked := by
      have hobj : t₁.objectNodes = t.objectNodes := by rw [checked_ok h₁]
      rw [checked_ok h₂]
      refine linked_mapParents hl₁ (fun r => by split_ifs <;> exact ⟨rfl, rfl⟩) fun r hr p hp => ?_
      split_ifs at hp with hid
      · rw [hobj] at hr
        exact (hup (h.parents r hr id hid) hp).congr hobj
      · exact hl₁.parents r hr p hp
    rcases hrest with he | h₃
    · rw [he]
      exact hl₂
    · rw [checked_ok h₃]
      exact linked_dropObjectNode hl₂ id

/-- The operations that touch the rows that have links. -/
def Operation.onLinks : Operation → Bool
  | .createNode _ _ | .updateNode _ _ | .deleteNode _ => true
  | op => op.onObjectNodes

theorem apply_nodes (t : Tables) {op : Operation} (h : op.onLinks = false) :
    (apply t op).nodes = t.nodes := by
  rcases apply_cases t op with he | hdid
  · rw [he]
  · cases op with
    | deleteNamespace | createObjectNode | deleteObjectNode | createNode | updateNode | deleteNode =>
        cases h
    | createNamespace | updateConnection | deleteConnection | updateMapping | deleteMapping =>
        rw [checked_ok hdid]
    | updateNamespace =>
        obtain ⟨_, -, hdid⟩ := hdid
        rw [checked_ok hdid]
    | createConnection =>
        obtain ⟨_, -, -, -, hdid⟩ := hdid
        rw [checked_ok hdid]
    | createMapping => rw [checked_ok hdid.2]
    | reopen => rw [hdid]

theorem linked_apply {t : Tables} (hv : t.Valid) (h : t.Linked) {op : Operation} (hop : op.Local t) :
    (apply t op).Linked := by
  rcases apply_cases t op with he | hdid
  · rw [he]
    exact h
  · cases op with
    | deleteNamespace id => exact linked_deleteNamespace h hdid
    | createObjectNode id input =>
        rw [checked_ok hdid.2]
        refine linked_insertObjectNode h fun p hp => (hop p hp).holds ?_
        have hparent := hdid.1
        rw [show input.parentObjectNodeId = some p from hp] at hparent
        exact (ObjectNodeRepository.checkParent_ok hparent).1
    | deleteObjectNode id => exact linked_deleteObjectNode h hv hdid
    | createNode id request =>
        obtain ⟨name, ns, dataType, -, hns, hins⟩ := hdid
        obtain ⟨hv', he⟩ := Tables.checked_eq_ok.mp hins
        rw [← he]
        refine linked_insertNode h fun p hp => (hop ns hns p hp).holds ?_
        have hkey := (hv'.nodeKeys _ (List.mem_append_right _ (List.mem_singleton.mpr rfl))).2
        rw [show request.objectNodeId = some p from hp] at hkey
        exact hkey
    | updateNode id request =>
        obtain ⟨hv', he⟩ := Tables.checked_eq_ok.mp hdid
        rw [← he]
        refine linked_mapNodes h fun r hr => ?_
        split_ifs with hid
        · refine ⟨rfl, ?_⟩
          cases hreq : request.objectNodeId with
          | none => exact Or.inl (by simp [NodeRepository.assign, hreq])
          | some link =>
              refine Or.inr fun p hp => ?_
              have hlink : link = some p := by simpa [NodeRepository.assign, hreq] using hp
              refine (hop r hr hid link hreq p hlink).holds ?_
              have hkey := (hv'.nodeKeys _ (List.mem_map_of_mem hr)).2
              rw [if_pos hid, hp] at hkey
              exact hkey
        · exact ⟨rfl, Or.inl rfl⟩
    | deleteNode id =>
        rw [checked_ok hdid]
        exact linked_dropNodes h _
    | _ => exact linked_of_eq (apply_objectNodes t rfl) (apply_nodes t rfl) h

/-- In a run whose callers make local links only, the links stay inside the namespaces. -/
theorem linked_of_local (ops : List Operation)
    (h : Machine.Guarded apply (fun t op => op.Local t) (Tables.empty false) ops) :
    (reach ops).Linked :=
  (Machine.run_invariant (I := fun t => t.Valid ∧ t.Linked)
    (fun _ op hop h => ⟨valid_apply h.1 op, linked_apply h.1 h.2 hop⟩) h
    ⟨valid_empty false, nofun, nofun⟩).2

/-- A folder below one of another namespace. -/
def crossOps : List Operation :=
  [.createNamespace "n1" ⟨"Plant", none, "urn:plant"⟩, .createNamespace "n2" ⟨"Line", none, "urn:line"⟩,
   .createObjectNode "o1" ⟨"n1", none, "Hall"⟩, .createObjectNode "o2" ⟨"n2", some "o1", "Cell"⟩]

/-- Two folders of a namespace, and a node that moves from one to the other. -/
def moveOps : List Operation :=
  [.createNamespace "n1" ⟨"Plant", none, "urn:plant"⟩, .createObjectNode "o1" ⟨"n1", none, "Hall"⟩,
   .createObjectNode "o2" ⟨"n1", some "o1", "Cell"⟩,
   .createNode "v" ⟨some "level", some "n1", some "o1", some "Double", none, none⟩,
   .updateNode "v" ⟨none, some (some "o2"), none, none, none⟩]

theorem crossOps_not_linked : ¬(reach crossOps).Linked := by
  intro h
  have hr : (⟨"o2", "n2", some "o1", "Cell"⟩ : ObjectNodeRow) ∈ (reach crossOps).objectNodes := by decide
  obtain ⟨q, hq, hid, hns⟩ := h.parents _ hr "o1" rfl
  have hother : ∀ q ∈ (reach crossOps).objectNodes, q.id = "o1" → q.namespaceId ≠ "n2" := by decide
  exact hother q hq hid hns

theorem linked_of_local_move : (reach moveOps).Linked := linked_of_local moveOps (by decide)

end OpcuaLight.Db
