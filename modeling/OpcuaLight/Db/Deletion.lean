import OpcuaLight.Db.Hierarchy

/-!
# Deletion of an object node

`ObjectNodeRepository.delete` reassigns the variable nodes, then the child object nodes, then deletes the row,
without a transaction. Only the second statement can fail, when a child takes its name to a level where
it is taken; what the first one has done stays then (`delete_allOrNothing_iff`).
-/

namespace OpcuaLight.Db

open ObjectNodeRepository (findById delete)

/-- A row that refers to `id` goes to the parent. -/
def reparent (id : String) (parent : Option String) (r : ObjectNodeRow) : ObjectNodeRow :=
  if r.parentObjectNodeId = some id then { r with parentObjectNodeId := parent } else r

def reassign (id : String) (parent : Option String) (r : NodeRow) : NodeRow :=
  if r.objectNodeId = some id then { r with objectNodeId := parent } else r

/-- The tables without the object node: what pointed to it points to its parent. -/
def removed (t : Tables) (x : ObjectNodeRow) : Tables :=
  { t with
    objectNodes := (t.objectNodes.filter (fun r => r.id ≠ x.id)).map (reparent x.id x.parentObjectNodeId)
    nodes := t.nodes.map (reassign x.id x.parentObjectNodeId) }

/-- The deletion is carried out, or it changes nothing. -/
def AllOrNothing (t : Tables) (id : String) : Prop :=
  match delete t id with
  | (t', .ok ()) => ∃ x, findById t id = some x ∧ t' = removed t x
  | (t', .error _) => t' = t

/-- A child of the object node has the name of an object node where it would go. -/
def NameTaken (t : Tables) (x : ObjectNodeRow) : Prop :=
  ∃ r ∈ t.objectNodes, r.parentObjectNodeId = some x.id ∧ ∃ s ∈ t.objectNodes,
    s.parentObjectNodeId = x.parentObjectNodeId ∧ s.namespaceId = r.namespaceId ∧ s.name = r.name

/-- There are variable nodes in the object node. -/
def Occupied (t : Tables) (x : ObjectNodeRow) : Prop := ∃ n ∈ t.nodes, n.objectNodeId = some x.id

/-! ## The rows -/

@[simp] theorem reparent_id (id : String) (parent : Option String) (r : ObjectNodeRow) :
    (reparent id parent r).id = r.id := by
  unfold reparent
  split_ifs <;> rfl

@[simp] theorem reparent_namespaceId (id : String) (parent : Option String) (r : ObjectNodeRow) :
    (reparent id parent r).namespaceId = r.namespaceId := by
  unfold reparent
  split_ifs <;> rfl

@[simp] theorem reparent_name (id : String) (parent : Option String) (r : ObjectNodeRow) :
    (reparent id parent r).name = r.name := by
  unfold reparent
  split_ifs <;> rfl

theorem reparent_parent (id : String) (parent : Option String) (r : ObjectNodeRow) :
    (reparent id parent r).parentObjectNodeId =
      if r.parentObjectNodeId = some id then parent else r.parentObjectNodeId := by
  unfold reparent
  split_ifs <;> rfl

@[simp] theorem reassign_key (id : String) (parent : Option String) (r : NodeRow) :
    (reassign id parent r).id = r.id ∧ (reassign id parent r).namespaceId = r.namespaceId ∧
      (reassign id parent r).name = r.name := by
  unfold reassign
  split_ifs <;> exact ⟨rfl, rfl, rfl⟩

theorem reassign_objectNodeId (id : String) (parent : Option String) (r : NodeRow) :
    (reassign id parent r).objectNodeId = if r.objectNodeId = some id then parent else r.objectNodeId := by
  unfold reassign
  split_ifs <;> rfl

theorem hasObjectNode_iff {t : Tables} {id : String} :
    t.hasObjectNode id = true ↔ ∃ r ∈ t.objectNodes, r.id = id := by
  rw [Tables.hasObjectNode, List.any_eq_true]
  simp only [decide_eq_true_eq]

/-- No object node is its own parent. -/
theorem ReachesRoot.parent_ne {rows : List ObjectNodeRow} (hn : (rows.map (fun r => r.id)).Nodup)
    {x : ObjectNodeRow} (hx : x ∈ rows) : ∀ {n : Nat}, ReachesRoot rows n x.id →
      x.parentObjectNodeId ≠ some x.id
  | n + 1, ⟨r, hr, hid, hp⟩, heq => by
      rw [List.inj_on_of_nodup_map hn hr hx hid] at hp
      exact ReachesRoot.parent_ne hn hx (hp x.id heq) heq

/-! ## The statements -/

/-- Other object nodes, and nodes with other object nodes, that meet the constraints as well. -/
theorem valid_links {t : Tables} (hv : t.Valid) {rows : List ObjectNodeRow} {f : NodeRow → NodeRow}
    (hids : (rows.map (fun r => r.id)).Nodup) (hplaces : (rows.map Tables.place).Nodup)
    (hrows : ∀ r ∈ rows, t.hasNamespace r.namespaceId = true ∧
      ∀ p, r.parentObjectNodeId = some p → ∃ q ∈ rows, q.id = p)
    (hf : ∀ n, (f n).id = n.id ∧ (f n).namespaceId = n.namespaceId ∧ (f n).name = n.name)
    (hnodes : ∀ n ∈ t.nodes, ∀ p, (f n).objectNodeId = some p → ∃ q ∈ rows, q.id = p) :
    Tables.Valid { t with objectNodes := rows, nodes := t.nodes.map f } := by
  have hlink : ∀ {link : Option String}, (∀ p, link = some p → ∃ q ∈ rows, q.id = p) →
      link.all ({ t with objectNodes := rows, nodes := t.nodes.map f } : Tables).hasObjectNode = true := by
    intro link h
    cases link with
    | none => rfl
    | some p => exact hasObjectNode_iff.mpr (h p rfl)
  have hkeys : (t.nodes.map f).map (fun r => r.id) = t.nodes.map (fun r => r.id) := by
    rw [List.map_map]
    exact List.map_congr_left fun n _ => (hf n).1
  have hnames : (t.nodes.map f).map (fun r => (r.namespaceId, r.name)) =
      t.nodes.map (fun r => (r.namespaceId, r.name)) := by
    rw [List.map_map]
    exact List.map_congr_left fun n _ => by rw [Function.comp_apply, (hf n).2.1, (hf n).2.2]
  have hnode : ∀ id, ({ t with objectNodes := rows, nodes := t.nodes.map f } : Tables).hasNode id =
      t.hasNode id := by
    intro id
    simp only [Tables.hasNode, List.any_map, Function.comp_def, (hf _).1]
  exact { hv with
    objectNodeIds := hids
    places := hplaces
    nodeIds := by
      show ((t.nodes.map f).map (fun r => r.id)).Nodup
      rw [hkeys]
      exact hv.nodeIds
    nodeNames := by
      show ((t.nodes.map f).map (fun r => (r.namespaceId, r.name))).Nodup
      rw [hnames]
      exact hv.nodeNames
    objectNodeKeys := fun r hr => ⟨(hrows r hr).1, hlink (hrows r hr).2⟩
    nodeKeys := fun n hn => by
      obtain ⟨m, hm, rfl⟩ := List.mem_map.mp hn
      rw [(hf m).2.1]
      exact ⟨(hv.nodeKeys m hm).1, hlink (hnodes m hm)⟩
    mappingKeys := fun m hm => by
      have hmap := hv.mappingKeys m hm
      refine ⟨hmap.1, ?_⟩
      rw [show ({ t with objectNodes := rows, nodes := t.nodes.map f } : Tables).hasNode = t.hasNode from
        funext hnode]
      exact hmap.2 }

section Statements
variable {t : Tables} {x : ObjectNodeRow} (hv : t.Valid) (hx : x ∈ t.objectNodes)
include hv hx

/-- The parent of an object node is an object node. -/
theorem parent_mem {p : String} (hp : x.parentObjectNodeId = some p) : ∃ q ∈ t.objectNodes, q.id = p := by
  have hkey := (hv.objectNodeKeys x hx).2
  rw [hp] at hkey
  exact hasObjectNode_iff.mp hkey

/-- The object node of a reassigned node. -/
theorem reassigned_mem {n : NodeRow} (hn : n ∈ t.nodes) {p : String}
    (hp : (reassign x.id x.parentObjectNodeId n).objectNodeId = some p) :
    ∃ q ∈ t.objectNodes, q.id = p ∧ (q.id = x.id → x.parentObjectNodeId = some x.id) := by
  rw [reassign_objectNodeId] at hp
  split_ifs at hp with hin
  · obtain ⟨q, hq, rfl⟩ := parent_mem hv hx hp
    exact ⟨q, hq, rfl, fun h => by rw [hp, h]⟩
  · have hkey := (hv.nodeKeys n hn).2
    rw [hp] at hkey
    obtain ⟨q, hq, rfl⟩ := hasObjectNode_iff.mp hkey
    exact ⟨q, hq, rfl, fun h => absurd (h ▸ hp) hin⟩

theorem reparented_mem {r : ObjectNodeRow} (hr : r ∈ t.objectNodes) {p : String}
    (hp : (reparent x.id x.parentObjectNodeId r).parentObjectNodeId = some p) :
    ∃ q ∈ t.objectNodes, q.id = p ∧ (q.id = x.id → x.parentObjectNodeId = some x.id) := by
  rw [reparent_parent] at hp
  split_ifs at hp with hin
  · obtain ⟨q, hq, rfl⟩ := parent_mem hv hx hp
    exact ⟨q, hq, rfl, fun h => by rw [hp, h]⟩
  · obtain ⟨q, hq, rfl⟩ := parent_mem hv hr hp
    exact ⟨q, hq, rfl, fun h => absurd (h ▸ hp) hin⟩

/-- The first statement succeeds. -/
theorem reassignNodes_ok : t.reassignNodes x.id x.parentObjectNodeId =
    .ok { t with nodes := t.nodes.map (reassign x.id x.parentObjectNodeId) } := by
  apply Tables.checked_eq_ok.mpr
  refine ⟨?_, rfl⟩
  apply valid_links hv hv.objectNodeIds hv.places
  · intro r hr
    exact ⟨(hv.objectNodeKeys r hr).1, fun p hp => parent_mem hv hr hp⟩
  · exact reassign_key x.id x.parentObjectNodeId
  · intro n hn p hp
    obtain ⟨q, hq, hid, -⟩ := reassigned_mem hv hx hn hp
    exact ⟨q, hq, hid⟩

variable (hne : x.parentObjectNodeId ≠ some x.id)
include hne

omit hx in
/-- The names stay unique in every place unless a child takes its own to a place where there is one. -/
theorem places_reparent_iff :
    ((t.objectNodes.map (reparent x.id x.parentObjectNodeId)).map Tables.place).Nodup ↔ ¬NameTaken t x := by
  have hrows : t.objectNodes.Nodup := List.Nodup.of_map _ hv.objectNodeIds
  rw [List.map_map, List.nodup_map_iff_inj_on hrows]
  constructor
  · rintro h ⟨r, hr, hchild, s, hs, hparent, hns, hname⟩
    have heq : r = s := by
      apply h r hr s hs
      simp only [Function.comp_apply, Tables.place, reparent_namespaceId, reparent_name, reparent_parent,
        if_pos hchild, hparent, ite_self, hns, hname]
    rw [heq, hparent] at hchild
    exact hne hchild
  · intro h r hr s hs heq
    simp only [Function.comp_apply, Tables.place, Prod.mk.injEq, reparent_namespaceId, reparent_name,
      reparent_parent] at heq
    obtain ⟨hns, hlink, hname⟩ := heq
    have hsame : r.parentObjectNodeId = s.parentObjectNodeId → r = s := by
      intro hparent
      apply List.inj_on_of_nodup_map hv.places hr hs
      simp only [Tables.place, hns, hparent, hname]
    split_ifs at hlink with hrc hsc hsc
    · exact hsame (hrc.trans hsc.symm)
    · exact absurd ⟨r, hr, hrc, s, hs, hlink.symm, hns.symm, hname.symm⟩ h
    · exact absurd ⟨s, hs, hsc, r, hr, hlink, hns, hname⟩ h
    · exact hsame hlink

/-- The tables after the first two statements. -/
def moved (t : Tables) (x : ObjectNodeRow) : Tables :=
  { t with
    objectNodes := t.objectNodes.map (reparent x.id x.parentObjectNodeId)
    nodes := t.nodes.map (reassign x.id x.parentObjectNodeId) }

/-- The second statement succeeds unless a name is taken. -/
theorem valid_moved (hname : ¬NameTaken t x) : (moved t x).Valid := by
  have hids : (t.objectNodes.map (reparent x.id x.parentObjectNodeId)).map (fun r => r.id) =
      t.objectNodes.map (fun r => r.id) := by
    rw [List.map_map]
    exact List.map_congr_left fun r _ => reparent_id _ _ r
  apply valid_links hv
  · rw [hids]
    exact hv.objectNodeIds
  · exact (places_reparent_iff hv hne).mpr hname
  · intro r' hr'
    obtain ⟨r, hr, rfl⟩ := List.mem_map.mp hr'
    rw [reparent_namespaceId]
    refine ⟨(hv.objectNodeKeys r hr).1, fun p hp => ?_⟩
    obtain ⟨q, hq, hid, -⟩ := reparented_mem hv hx hr hp
    exact ⟨_, List.mem_map_of_mem hq, (reparent_id _ _ q).trans hid⟩
  · exact reassign_key x.id x.parentObjectNodeId
  · intro n hn p hp
    obtain ⟨q, hq, hid, -⟩ := reassigned_mem hv hx hn hp
    exact ⟨_, List.mem_map_of_mem hq, (reparent_id _ _ q).trans hid⟩

omit hv hx in
/-- The third statement finds nothing that points to the row. -/
theorem dropObjectNode_moved : (moved t x).dropObjectNode x.id = removed t x := by
  have hrows : ((t.objectNodes.map (reparent x.id x.parentObjectNodeId)).filter (fun r => r.id ≠ x.id)).map
        (reparent x.id none) =
      (t.objectNodes.filter (fun r => r.id ≠ x.id)).map (reparent x.id x.parentObjectNodeId) := by
    rw [List.filter_map, List.map_map]
    have hfilter : (fun r : ObjectNodeRow => decide (r.id ≠ x.id)) ∘ reparent x.id x.parentObjectNodeId =
        fun r => decide (r.id ≠ x.id) := by
      funext r
      simp only [Function.comp_apply, reparent_id]
    rw [hfilter]
    apply List.map_congr_left
    intro r _
    rw [Function.comp_apply, reparent, if_neg]
    rw [reparent_parent]
    split_ifs with hchild
    · exact hne
    · exact hchild
  have hnodes : (t.nodes.map (reassign x.id x.parentObjectNodeId)).map (reassign x.id none) =
      t.nodes.map (reassign x.id x.parentObjectNodeId) := by
    rw [List.map_map]
    apply List.map_congr_left
    intro n _
    rw [Function.comp_apply, reassign, if_neg]
    rw [reassign_objectNodeId]
    split_ifs with hin
    · exact hne
    · exact hin
  show { moved t x with
    objectNodes := ((moved t x).objectNodes.filter (fun r => r.id ≠ x.id)).map (reparent x.id none)
    nodes := (moved t x).nodes.map (reassign x.id none) } = removed t x
  simp only [moved, removed, hrows, hnodes]

/-- The third statement succeeds after the second. -/
theorem valid_removed (hname : ¬NameTaken t x) : (removed t x).Valid := by
  have hsub : List.Sublist ((t.objectNodes.filter (fun r => r.id ≠ x.id)).map (reparent x.id x.parentObjectNodeId))
      (t.objectNodes.map (reparent x.id x.parentObjectNodeId)) := List.filter_sublist.map _
  have hmoved := valid_moved hv hx hne hname
  have hkept : ∀ q ∈ t.objectNodes, ∀ p, q.id = p ∧ (q.id = x.id → x.parentObjectNodeId = some x.id) →
      ∃ q ∈ (t.objectNodes.filter (fun r => r.id ≠ x.id)).map (reparent x.id x.parentObjectNodeId),
        q.id = p := by
    rintro q hq p ⟨hid, hself⟩
    have hmem : q ∈ t.objectNodes.filter (fun r => r.id ≠ x.id) :=
      List.mem_filter.mpr ⟨hq, decide_eq_true fun h => hne (hself h)⟩
    exact ⟨_, List.mem_map_of_mem hmem, (reparent_id _ _ q).trans hid⟩
  apply valid_links hv
  · exact hmoved.objectNodeIds.sublist (hsub.map _)
  · exact hmoved.places.sublist (hsub.map _)
  · intro r' hr'
    obtain ⟨r, hr, rfl⟩ := List.mem_map.mp hr'
    have hr := List.mem_of_mem_filter hr
    rw [reparent_namespaceId]
    refine ⟨(hv.objectNodeKeys r hr).1, fun p hp => ?_⟩
    obtain ⟨q, hq, hid⟩ := reparented_mem hv hx hr hp
    exact hkept q hq p hid
  · exact reassign_key x.id x.parentObjectNodeId
  · intro n hn p hp
    obtain ⟨q, hq, hid⟩ := reassigned_mem hv hx hn hp
    exact hkept q hq p hid

/-- What the deletion of a row does: all of it, or the first statement only. -/
theorem delete_eq (hfind : findById t x.id = some x) :
    (¬NameTaken t x ∧ delete t x.id = (removed t x, .ok ())) ∨
      NameTaken t x ∧ ∃ e, delete t x.id =
        ({ t with nodes := t.nodes.map (reassign x.id x.parentObjectNodeId) }, .error e) := by
  unfold delete
  rw [hfind]
  simp only [reassignNodes_ok hv hx]
  by_cases hname : NameTaken t x
  · refine Or.inr ⟨hname, ?_⟩
    split
    · exact ⟨_, rfl⟩
    · next t₂ h₂ =>
        have hvalid := (Tables.checked_eq_ok.mp h₂).1
        exact absurd hname ((places_reparent_iff hv hne).mp hvalid.places)
  · refine Or.inl ⟨hname, ?_⟩
    have h₂ : ({ t with nodes := t.nodes.map (reassign x.id x.parentObjectNodeId) } :
        Tables).reparentObjectNodes x.id x.parentObjectNodeId = .ok (moved t x) :=
      Tables.checked_eq_ok.mpr ⟨valid_moved hv hx hne hname, rfl⟩
    have h₃ : (moved t x).deleteObjectNode x.id = .ok (removed t x) := by
      rw [Tables.deleteObjectNode, dropObjectNode_moved hne]
      exact Tables.checked_eq_ok.mpr ⟨valid_removed hv hx hne hname, rfl⟩
    simp only [h₂, h₃]

end Statements

/-! ## All or nothing -/

/-- The first statement changes nothing when no variable node is in the object node. -/
theorem reassigned_eq_iff {t : Tables} {x : ObjectNodeRow} (hne : x.parentObjectNodeId ≠ some x.id) :
    ({ t with nodes := t.nodes.map (reassign x.id x.parentObjectNodeId) } : Tables) = t ↔ ¬Occupied t x := by
  have hrow : ∀ n : NodeRow, reassign x.id x.parentObjectNodeId n = n ↔ n.objectNodeId ≠ some x.id := by
    intro n
    constructor
    · intro h hin
      have hlink := reassign_objectNodeId x.id x.parentObjectNodeId n
      rw [h, if_pos hin] at hlink
      exact hne (hlink.symm.trans hin)
    · exact fun h => if_neg h
  constructor
  · rintro h ⟨n, hn, hin⟩
    have hmap : t.nodes.map (reassign x.id x.parentObjectNodeId) = t.nodes.map id := by
      rw [List.map_id]
      exact congrArg Tables.nodes h
    exact (hrow n).mp (List.map_inj_left.mp hmap n hn) hin
  · intro h
    have hmap : t.nodes.map (reassign x.id x.parentObjectNodeId) = t.nodes := by
      conv_rhs => rw [← List.map_id t.nodes]
      exact List.map_congr_left fun n hn => (hrow n).mpr fun hin => h ⟨n, hn, hin⟩
    rw [hmap]

/-- **Deletion.** The deletion of an object node is all or nothing exactly when no child of it takes its name to
a place where there is one, or no variable node is in it. -/
theorem delete_allOrNothing_iff (ops : List Operation) (id : String) :
    AllOrNothing (reach ops) id ↔
      ∀ x, findById (reach ops) id = some x → NameTaken (reach ops) x → ¬Occupied (reach ops) x := by
  have hv := reach_valid ops
  have hbounded := reach_bounded ops
  generalize reach ops = t at hv hbounded ⊢
  cases hfind : findById t id with
  | none =>
      have hdelete : delete t id =
          (t, .error (.domain ⟨.notFound, s!"Object node with id '{id}' not found", []⟩)) := by
        unfold delete
        rw [hfind]
      rw [AllOrNothing, hdelete]
      exact iff_of_true rfl nofun
  | some x =>
      have hx : x ∈ t.objectNodes := List.mem_of_find?_eq_some hfind
      have hid : x.id = id := by simpa using List.find?_some hfind
      subst hid
      have hne := ReachesRoot.parent_ne hv.objectNodeIds hx (hbounded x hx)
      rw [AllOrNothing]
      constructor
      · rintro h y hy hname
        cases hy
        rcases delete_eq hv hx hne hfind with ⟨hfree, -⟩ | ⟨-, e, hdelete⟩
        · exact absurd hname hfree
        · rw [hdelete] at h
          exact (reassigned_eq_iff hne).mp h
      · intro h
        rcases delete_eq hv hx hne hfind with ⟨-, hdelete⟩ | ⟨hname, e, hdelete⟩
        · rw [hdelete]
          exact ⟨x, hfind, rfl⟩
        · rw [hdelete]
          exact (reassigned_eq_iff hne).mpr (h x rfl hname)

/-- An object node in another of the same name, and a variable node in the outer one. -/
def sameNameOps : List Operation :=
  [.createNamespace "n1" ⟨"Plant", none, "urn:plant"⟩, .createObjectNode "a" ⟨"n1", none, "A"⟩,
   .createObjectNode "b" ⟨"n1", some "a", "A"⟩,
   .createNode "v" ⟨some "level", some "n1", some "a", some "Double", none, none⟩]

/-- The deletion of the outer object node fails, and has moved its variable node to the root. -/
theorem sameName_halfDeleted : ¬∀ (ops : List Operation) (id : String), AllOrNothing (reach ops) id := by
  intro h
  have hall := h sameNameOps "a"
  have hfails : (delete (reach sameNameOps) "a").2 =
      .error (.thrown (.unique "object_nodes.namespace_id, object_nodes.name")) := by decide
  have hchanged : (delete (reach sameNameOps) "a").1 ≠ reach sameNameOps := by decide
  unfold AllOrNothing at hall
  split at hall
  · next heq =>
      rw [heq] at hfails
      cases hfails
  · next heq =>
      rw [heq] at hchanged
      exact hchanged hall

end OpcuaLight.Db
